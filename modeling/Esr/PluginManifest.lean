import Esr.EntityServer
import Esr.SlashOverlays

/-! # Plugin manifests

What `Esr.Plugin.Manifest` has read from a plugin's `manifest.yaml`, and the checks that
come before anything of it is registered.  The declarations are kept as the YAML has
them, so a check raises where it meets a term that it has no clause for.
-/
namespace Esr
namespace Plugin
open Yaml Yaml.Writer
open EntityServer (access orElse)

/-- The name of a module, as its atom is written. -/
abbrev Module := String

/-- What `Enum` hands out: an element of a list, or a pair of a map. -/
inductive Elem where
  | item (v : Value)
  | pair (key value : Value)

inductive MediaType where
  | image
  | file
  | audio

/-- `declares.media_types`. -/
structure MediaTypes where
  inbound : List MediaType
  outbound : List MediaType

/-- An entry of `channels:`. -/
structure Channel where
  name : String
  module : Module
  configSchema : Value
  pipelineContributions : List Value
  proxies : List Value

/-- An entry of `agent_kinds:`. -/
structure AgentKind where
  name : String
  description : Value
  handlerModule : Value
  pipelineInbound : List Value
  pipelineOutbound : List Value
  proxies : Value
  capabilitiesRequired : Value
  params : Value

/-- A manifest; `none` stands for a declaration that is not there.  The keys of YAML maps
are never atoms, so no declaration is found under one. -/
structure Manifest where
  name : String
  core : Value
  capabilities : Option Value
  pythonSidecars : Option Value
  entities : Option Value
  slashRoutes : Option Value
  startup : Option Value
  mediaTypes : MediaTypes
  channels : List Channel
  agentKinds : List AgentKind
  uriSubtrees : List (String × Module)

/-- What a manifest is checked against.  `versionMatch` is `Version.match?/2`, `concat`
is `Module.concat/1` of one element; both are `none` where they raise. -/
structure Env where
  esrdVersion : String
  versionMatch : String → String → Option Bool
  camelize : String → String
  concat : Value → Option Module
  ensureLoaded : Module → Bool
  functionExported : Module → String → Bool
  inspect : Elem → String

/-- The errors that are returned. -/
inductive Reason where
  | coreVersionMismatch (constraint vsn : String)
  | invalidCoreConstraint (constraint : String)
  | badCapPrefix (cap name : String)
  | badCapShape (cap : String)
  | unknownModule (module : Value)
  | invalidSlashRoutesBlock (name : String) (block : Value)
  | badSlashPrefix (key name : String)
  | badKindPrefix (kind name : String)
  | crossPluginPermission (permission : String)
  | badCommandModulePrefix (module name : String)
  | unknownCommandModule (module : String)
  | collision (reason : SlashOverlays.Reason)
  | invalidStartupBlock (name : String) (block : Value)
  | startupFieldMissing (name key : String)
  | startupModuleNotLoadable (name module : String)
  | startupFunctionNotExported (name : String) (module : Module) (function : String)

/-- How a step fails. -/
inductive Failure where
  | error (reason : Reason)
  | raised

/-- The code has no clause for `none`. -/
def orRaise {A : Type} : Option A → Except Failure A
  | some a => .ok a
  | none => .error .raised

/-- The error, unless the condition holds. -/
def unlessError (holds : Bool) (reason : Reason) : Except Failure Unit :=
  if holds then .ok () else .error (.error reason)

/-- What `Enum` walks over. -/
def elems : Value → Except Failure (List Elem)
  | .list vs => .ok (vs.map .item)
  | .map es => .ok (es.map fun e => .pair e.1 e.2)
  | _ => .error .raised

/-- The text that a function takes. -/
def textOf : Value → Except Failure String
  | .str s => .ok s
  | _ => .error .raised

def itemText : Elem → Except Failure String
  | .item v => textOf v
  | .pair _ _ => .error .raised

/-- The map that a function takes. -/
def entriesOf : Value → Except Failure Entries
  | .map es => .ok es
  | _ => .error .raised

/-- `Map.get(declares, key, [])`. -/
def listed (declared : Option Value) : Value := declared.getD (.list [])

/-- `Map.get(block, key, %{}) || %{}`. -/
def under (key : String) (block : Entries) : Value :=
  orElse (.map []) ((get key block).getD (.map []))

namespace Manifest
variable (env : Env) (m : Manifest)

/-- `check_core_version/1`. -/
def checkCoreVersion : Except Failure Unit :=
  match m.core with
  | .str constraint =>
      if constraint = "" then .ok ()
      else match env.versionMatch env.esrdVersion constraint with
        | some true => .ok ()
        | some false => .error (.error (.coreVersionMismatch constraint env.esrdVersion))
        | none => .error (.error (.invalidCoreConstraint constraint))
  | _ => .ok ()

/-! ## `validate/1` -/

/-- A capability begins with the plugin's name. -/
def checkCap (cap : String) : Except Failure Unit :=
  match splitParts2 '/' cap with
  | [pre, _] => unlessError (pre = m.name) (.badCapPrefix cap m.name)
  | _ => .error (.error (.badCapShape cap))

/-- `validate_caps/1`. -/
def validateCaps : Except Failure Unit := do
  for cap in ← elems (listed m.capabilities) do
    m.checkCap (← itemText cap)

/-- `entity_module_name/1`. -/
def entityModuleName : Elem → Value
  | .item (.map e) => (get "module" e).getD (.str (env.inspect (.item (.map e))))
  | other => .str (env.inspect other)

/-- `validate_entities/1`. -/
def validateEntities : Except Failure Unit := do
  for entity in ← elems (listed m.entities) do
    let name := entityModuleName env entity
    unlessError (env.ensureLoaded (← orRaise (env.concat name))) (.unknownModule name)

/-- `validate_slash_keys/2`. -/
def validateSlashKeys (slashes : Entries) : Except Failure Unit := do
  for e in slashes do
    let key ← textOf e.1
    unlessError (stripPrefix ("/" ++ m.name ++ ":") key).isSome (.badSlashPrefix key m.name)

/-- What the entries have under a key, where it is a text. -/
def textsUnder (key : String) (entries : Entries) : Except Failure (List String) := do
  let found ← entries.mapM fun e => do return get key (← entriesOf e.2)
  return found.filterMap fun
    | some (.str s) => some s
    | _ => none

/-- `validate_kind_names/3`. -/
def validateKindNames (slashes kinds : Entries) : Except Failure Unit := do
  let slashKinds ← textsUnder "kind" slashes
  for name in slashKinds.map .str ++ kinds.map Prod.fst do
    let kind ← textOf name
    unlessError (stripPrefix (m.name ++ "_") kind).isSome (.badKindPrefix kind m.name)

/-- What an entry requires. -/
def permissionOf (entry : Value) : Except Failure (List String) := do
  match get "permission" (← entriesOf entry) with
  | none | some .null => return []
  | some (.str p) => return if p = "" then [] else [p]
  | some _ => .error .raised

/-- `validate_permission_subset/3`. -/
def validatePermissionSubset (slashes kinds : Entries) (caps : List String) :
    Except Failure Unit := do
  let refs ← (slashes ++ kinds).mapM fun e => permissionOf e.2
  for permission in refs.flatten do
    unlessError (permission ∈ caps) (.crossPluginPermission permission)

/-- `validate_command_modules/3`. -/
def validateCommandModules (slashes kinds : Entries) : Except Failure Unit := do
  for module in ← textsUnder "command_module" (slashes ++ kinds) do
    let qualified := if (stripPrefix "Elixir." module).isSome then module else "Elixir." ++ module
    unlessError (stripPrefix ("Elixir.Esr.Plugins." ++ env.camelize m.name ++ ".") qualified).isSome
      (.badCommandModulePrefix module m.name)
    unlessError (env.ensureLoaded qualified) (.unknownCommandModule module)

/-- `validate_slash_routes/1`. -/
def validateSlashRoutes : Except Failure Unit := do
  match m.slashRoutes with
  | none | some .null => return
  | some (.map block) =>
      let caps ← (← elems (listed m.capabilities)).mapM itemText
      let slashes ← entriesOf (under "slashes" block)
      m.validateSlashKeys slashes
      let kinds ← entriesOf (under "internal_kinds" block)
      m.validateKindNames slashes kinds
      validatePermissionSubset slashes kinds caps
      m.validateCommandModules env slashes kinds
  | some block => .error (.error (.invalidSlashRoutesBlock m.name block))

/-- `validate/1`. -/
def validate : Except Failure Unit := do
  m.validateCaps
  m.validateEntities env
  m.validateSlashRoutes env

/-! ## `startup_callback/1` -/

/-- `fetch_startup_field/3`. -/
def fetchStartupField (block : Entries) (key : String) : Except Failure String :=
  match get key block with
  | some (.str v) => if v = "" then .error (.error (.startupFieldMissing m.name key)) else .ok v
  | _ => .error (.error (.startupFieldMissing m.name key))

/-- `startup_callback/1`, with `none` for `:none`. -/
def startupCallback : Except Failure (Option (Module × String)) := do
  match m.startup with
  | none | some .null => return none
  | some (.map block) =>
      let moduleStr ← m.fetchStartupField block "module"
      let function ← m.fetchStartupField block "function"
      let module ← orRaise (env.concat (.str moduleStr))
      unlessError (env.ensureLoaded module) (.startupModuleNotLoadable m.name moduleStr)
      unlessError (env.functionExported module function)
        (.startupFunctionNotExported m.name module function)
      return some (module, function)
  | some block => .error (.error (.invalidStartupBlock m.name block))

end Manifest
end Plugin
end Esr
