import Esr.CapabilityFile
import Esr.EntityServer

/-! # Session templates

`Esr.SessionTemplate.Parser` reads a `template.yaml`: the channels of a session, its
agents and the flow between them, with the plugins it depends on.  A bundle's loader gives
the dependencies of the bundle's manifest; an operator's template has its own.

The parser is called here with the checks against the registries of channels and flow
nodes switched off, as the loader does.
-/
namespace Esr
namespace SessionTemplate
open Yaml
open EntityServer (orElse)

/-- `dependencies`. -/
structure Dependencies where
  plugins : List String
  bundles : List String
deriving DecidableEq

/-- An entry of `channels:`. -/
structure Channel where
  aliasStr : String
  kind : String
  config : Entries
deriving DecidableEq

/-- An entry of `agents:`. -/
structure Agent where
  kind : String
  name : String
  consumes : List String
deriving DecidableEq

/-- An entry of `flow.inbound`; the steps of its pipeline are names not yet resolved. -/
structure Inbound where
  source : String
  pipeline : List String
deriving DecidableEq

/-- An entry of `flow.outbound`. -/
structure Outbound where
  source : String
  sink : String
deriving DecidableEq

/-- `%Esr.SessionTemplate{}`; the name is whatever the file has there. -/
structure Template where
  schemaVersion : Value
  name : Value
  description : Value
  dependencies : Dependencies
  channels : List Channel
  agents : List Agent
  inbound : List Inbound
  outbound : List Outbound
deriving DecidableEq

/-- The errors of `parse/2`. -/
inductive Reason where
  | notAMap
  | parseFailed (reason : String)
  | missingField (key : String)
  | schemaVersionMismatch (got : Value)
  | invalidDependencies (other : Value)
  | invalidDependencyList (key : String) (other : Value)
  | invalidDependencyEntry (key : String)
  | channelsNotAList (other : Value)
  | channelMissingField (key : String)
  | channelKindMalformed (kind : String)
  | channelConfigNotAMap (aliasStr : String)
  | channelNotAMap (other : Value)
  | duplicateChannelAlias (aliasStr : String)
  | agentsNotAList (other : Value)
  | agentMissingField (key : String)
  | agentKindMalformed (kind : String)
  | agentConsumesNotAList (other : Value)
  | agentNotAMap (other : Value)
  | consumesEntryInvalid (entry : Value)
  | consumesUnknownAlias (aliasStr : String)
  | flowNotAMap (other : Value)
  | flowInboundNotAList (other : Value)
  | inboundMissingField (key : String)
  | inboundSourceUnknownAlias (source : String)
  | inboundPipelineNotAList (other : Value)
  | inboundEntryNotAMap (other : Value)
  | invalidPipelineEntry (entry : Value)
  | flowOutboundNotAList (other : Value)
  | outboundMissingField (key : String)
  | outboundSinkUnknownAlias (sink : String)
  | outboundEntryNotAMap (other : Value)

/-- What `YamlElixir.read_from_string/1` gives for a text. -/
abbrev Content := Except String Value

/-- `map[key]` on a map. -/
def field (key : String) (m : Entries) : Value := (get key m).getD .null

/-- A text that is not empty, or the error. -/
def textOr (reason : Reason) : Value → Except Reason String
  | .str s => if s = "" then .error reason else .ok s
  | _ => .error reason

/-- `read_yaml/1`. -/
def readYaml : Content → Except Reason Entries
  | .ok (.map parsed) => .ok parsed
  | .ok _ => .error .notAMap
  | .error reason => .error (.parseFailed reason)

/-- `v == 1`, which a float can be as well. -/
def isOne : Value → Bool
  | .int n => n = 1
  | .float text => text = "1.0"
  | _ => false

/-- `fetch_schema_version/1`. -/
def fetchSchemaVersion (parsed : Entries) : Except Reason Value :=
  match get "schema_version" parsed with
  | some v => if isOne v then .ok v else .error (.schemaVersionMismatch v)
  | none => .error (.missingField "schema_version")

/-! ## Dependencies -/

/-- The names of a list of dependencies. -/
def namesOf (key : String) (names : List Value) : Except Reason (List String) :=
  names.mapM (textOr (.invalidDependencyEntry key))

/-- `parse_dependencies/1`: both lists are looked at before the names in them. -/
def parseDependencies (block : Entries) : Except Reason Dependencies :=
  match orElse (.list []) (field "plugins" block), orElse (.list []) (field "bundles" block) with
  | .list plugins, .list bundles =>
      return ⟨← namesOf "plugins" plugins, ← namesOf "bundles" bundles⟩
  | .list _, bundles => .error (.invalidDependencyList "bundles" bundles)
  | plugins, _ => .error (.invalidDependencyList "plugins" plugins)

/-- `resolve_dependencies/2`: those that are given, or those of the file. -/
def resolveDependencies (parsed : Entries) : Option Dependencies → Except Reason Dependencies
  | some dependencies => .ok dependencies
  | none =>
      match field "dependencies" parsed with
      | .null => .ok ⟨[], []⟩
      | .map block => parseDependencies block
      | other => .error (.invalidDependencies other)

/-! ## Channels -/

/-- `[a-z][a-z0-9_-]*`. -/
def isSegment : List Char → Bool
  | [] => false
  | c :: cs => c.isLower && cs.all fun c => c.isLower || c.isDigit || c = '_' || c = '-'

/-- `well_formed_kind?/1`. -/
def wellFormedKind (kind : String) : Bool :=
  match cutAt '.' (chompNewline kind.toList) with
  | some (plugin, name) => isSegment plugin && isSegment name
  | none => false

/-- `parse_channel_entry/1`. -/
def parseChannelEntry : Value → Except Reason Channel
  | .map entry => do
      let aliasStr ← textOr (.channelMissingField "alias") (field "alias" entry)
      let kind ← textOr (.channelMissingField "kind") (field "kind" entry)
      if !wellFormedKind kind then throw (.channelKindMalformed kind)
      match orElse (.map []) (field "config" entry) with
      | .map config => return ⟨aliasStr, kind, config⟩
      | _ => throw (.channelConfigNotAMap aliasStr)
  | other => .error (.channelNotAMap other)

/-- `parse_channels/1`. -/
def parseChannels : Value → Except Reason (List Channel)
  | .list entries => entries.mapM parseChannelEntry
  | other => .error (.channelsNotAList other)

/-- `check_unique_aliases/1`, with the first duplicate in the order of a map of at most 32
keys. -/
def checkUniqueAliases (channels : List Channel) : Except Reason Unit :=
  let aliases := channels.map Channel.aliasStr
  match (aliases.filter fun a => 1 < aliases.count a).insertionSort (· ≤ ·) with
  | [] => .ok ()
  | dup :: _ => .error (.duplicateChannelAlias dup)

/-! ## Agents -/

/-- `validate_consumes/2`. -/
def validateConsumes (aliases : List String) (consumes : List Value) : Except Reason (List String) :=
  consumes.mapM fun entry => do
    let name ← textOr (.consumesEntryInvalid entry) entry
    if name ∈ aliases then return name else throw (.consumesUnknownAlias name)

/-- `parse_agent_entry/2`. -/
def parseAgentEntry (aliases : List String) : Value → Except Reason Agent
  | .map entry => do
      let kind ← textOr (.agentMissingField "kind") (field "kind" entry)
      if !wellFormedKind kind then throw (.agentKindMalformed kind)
      let name ← textOr (.agentMissingField "name") (field "name" entry)
      match orElse (.list []) (field "consumes" entry) with
      | .list consumes => return ⟨kind, name, ← validateConsumes aliases consumes⟩
      | other => throw (.agentConsumesNotAList other)
  | other => .error (.agentNotAMap other)

/-- `parse_agents/2`. -/
def parseAgents (aliases : List String) : Value → Except Reason (List Agent)
  | .list entries => entries.mapM (parseAgentEntry aliases)
  | other => .error (.agentsNotAList other)

/-! ## Flow -/

/-- `source_alias_known?/2` and `sink_alias_known?/2`: `<alias>.<event>`. -/
def aliasKnown (aliases : List String) (name : String) : Bool :=
  match splitParts2 '.' name with
  | [aliasStr, event] => decide (event ≠ "") && decide (aliasStr ∈ aliases)
  | _ => false

/-- `[A-Z][A-Za-z0-9_]*`. -/
def isModulePart : List Char → Bool
  | [] => false
  | c :: cs => c.isUpper && cs.all fun c => c.isAlphanum || c = '_'

/-- `module_name?/1`. -/
def moduleName (name : String) : Bool :=
  ((chompNewline name.toList).splitOn '.').all isModulePart

/-- `parse_pipeline_entry/2`. -/
def parsePipelineEntry (entry : Value) : Except Reason String := do
  let name ← textOr (.invalidPipelineEntry entry) entry
  let router := name.toList.head? = some '<' && name.toList.getLast? = some '>'
  if router || moduleName name then return name else throw (.invalidPipelineEntry entry)

/-- `parse_inbound_entry/3`. -/
def parseInboundEntry (aliases : List String) : Value → Except Reason Inbound
  | .map entry => do
      let source ← textOr (.inboundMissingField "source") (field "source" entry)
      if !aliasKnown aliases source then throw (.inboundSourceUnknownAlias source)
      match orElse (.list []) (field "pipeline" entry) with
      | .list pipeline => return ⟨source, ← pipeline.mapM parsePipelineEntry⟩
      | other => throw (.inboundPipelineNotAList other)
  | other => .error (.inboundEntryNotAMap other)

/-- `parse_inbound/3`. -/
def parseInbound (aliases : List String) : Value → Except Reason (List Inbound)
  | .list entries => entries.mapM (parseInboundEntry aliases)
  | other => .error (.flowInboundNotAList other)

/-- `parse_outbound_entry/2`. -/
def parseOutboundEntry (aliases : List String) : Value → Except Reason Outbound
  | .map entry => do
      let source ← textOr (.outboundMissingField "source") (field "source" entry)
      let sink ← textOr (.outboundMissingField "sink") (field "sink" entry)
      if aliasKnown aliases sink then return ⟨source, sink⟩
      else throw (.outboundSinkUnknownAlias sink)
  | other => .error (.outboundEntryNotAMap other)

/-- `parse_outbound/2`. -/
def parseOutbound (aliases : List String) : Value → Except Reason (List Outbound)
  | .list entries => entries.mapM (parseOutboundEntry aliases)
  | other => .error (.flowOutboundNotAList other)

/-- `parse_flow/3`. -/
def parseFlow (aliases : List String) : Value → Except Reason (List Inbound × List Outbound)
  | .map flow => do
      let inbound ← parseInbound aliases (orElse (.list []) (field "inbound" flow))
      let outbound ← parseOutbound aliases (orElse (.list []) (field "outbound" flow))
      return (inbound, outbound)
  | other => .error (.flowNotAMap other)

/-! ## The whole file -/

/-- `parse_raw/2`. -/
def parseRaw (parsed : Entries) (given : Option Dependencies) : Except Reason Template := do
  let schemaVersion ← fetchSchemaVersion parsed
  let dependencies ← resolveDependencies parsed given
  let channels ← parseChannels (orElse (.list []) (field "channels" parsed))
  checkUniqueAliases channels
  let aliases := channels.map Channel.aliasStr
  let agents ← parseAgents aliases (orElse (.list []) (field "agents" parsed))
  let flow ← parseFlow aliases (orElse (.map []) (field "flow" parsed))
  return {
    schemaVersion := schemaVersion
    name := field "name" parsed
    description := orElse (.str "") (field "description" parsed)
    dependencies := dependencies
    channels := channels
    agents := agents
    inbound := flow.1
    outbound := flow.2 }

/-- `parse/2`; `given` are the dependencies of the call, if it has any. -/
def parse (content : Content) (given : Option Dependencies) : Except Reason Template := do
  parseRaw (← readYaml content) given

theorem of_parse {content : Content} {given : Option Dependencies} {t : Template}
    (h : parse content given = .ok t) :
    ∃ parsed, content = .ok (.map parsed) ∧ t.name = field "name" parsed ∧
      ∀ dependencies, given = some dependencies → t.dependencies = dependencies := by
  obtain ⟨parsed, hread, h⟩ := bind_eq_ok.mp h
  obtain ⟨version, -, h⟩ := bind_eq_ok.mp h
  obtain ⟨dependencies, hdeps, h⟩ := bind_eq_ok.mp h
  obtain ⟨channels, -, h⟩ := bind_eq_ok.mp h
  obtain ⟨-, -, h⟩ := bind_eq_ok.mp h
  obtain ⟨agents, -, h⟩ := bind_eq_ok.mp h
  obtain ⟨flow, -, h⟩ := bind_eq_ok.mp h
  obtain rfl := Except.ok.inj h
  refine ⟨parsed, ?_, rfl, ?_⟩
  · unfold readYaml at hread
    split at hread
    · obtain rfl := Except.ok.inj hread
      rfl
    · cases hread
    · cases hread
  · rintro given rfl
    exact (Except.ok.inj hdeps).symm

end SessionTemplate
end Esr
