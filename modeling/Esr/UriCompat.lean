import Esr.UriStore
import Esr.InstanceRegistry
import Esr.Strings

/-! # The agents' part of the URI facade

`Esr.Uri.Compat` puts the URI store in front of the agent registry.  The registry
stays authoritative; after each request the facade mirrors what has changed into
the store, as an entity row for each agent, an alias for its name in each of its
sessions, and an alias for the primary of each session.  Reads look at the store
first and fall back to the registry, mirroring what they find there.
-/
namespace Esr
namespace UriCompat
open InstanceRegistry

variable {Config : Type}

/-- `esr://localhost/agents/<id>`. -/
def canonicalUri (id : String) : String := "esr://localhost/agents/" ++ id

/-- `esr://localhost/agents/by-name/<session>/<name>`. -/
def byNameUri (sid name : String) : String :=
  "esr://localhost/agents/by-name/" ++ sid ++ "/" ++ name

/-- `esr://localhost/agents/by-primary-for/<session>`. -/
def byPrimaryUri (sid : String) : String := "esr://localhost/agents/by-primary-for/" ++ sid

/-- The rows of the store that the facade reads and writes. -/
abbrev AgentStore (Config : Type) := UriStore.Store String (Instance Config)

/-- The registry and the store. -/
structure State (Config : Type) where
  reg : InstanceRegistry.State Config
  store : AgentStore Config

/-! ## Mirroring -/

/-- `put_or_ignore_agent_alias/2`. -/
def putOrIgnoreAgentAlias (t : AgentStore Config) (canonical aliasUri : String) :
    AgentStore Config :=
  (UriStore.putAlias t aliasUri canonical).2

/-- `mirror_instance_to_uri_store/1`. -/
def mirrorInstance (t : AgentStore Config) (inst : Instance Config) : AgentStore Config :=
  inst.sessionIds.foldl
    (fun t sid => putOrIgnoreAgentAlias t (canonicalUri inst.id) (byNameUri sid inst.name))
    (UriStore.putEntity t (canonicalUri inst.id) "agent" inst)

/-- `mirror_primary_alias/2`. -/
def mirrorPrimaryAlias (t : AgentStore Config) (sid agentUuid : String) : AgentStore Config :=
  putOrIgnoreAgentAlias (UriStore.delete t (byPrimaryUri sid)) (canonicalUri agentUuid)
    (byPrimaryUri sid)

/-- `mirror_session_to_uri_store/1`. -/
def mirrorSession (reg : InstanceRegistry.State Config) (t : AgentStore Config) (sid : String) :
    AgentStore Config :=
  let t := (InstanceRegistry.list reg sid).foldl mirrorInstance t
  match InstanceRegistry.primary reg sid with
  | some primaryName =>
      match InstanceRegistry.get reg sid primaryName with
      | some inst => mirrorPrimaryAlias t sid inst.id
      | none => t
  | none => UriStore.delete t (byPrimaryUri sid)

/-! ## Reads -/

section Reads
variable (dispatchToPlugin : String → Option String)

/-- `agent_in_session/2`, and the state once it has mirrored what it fell back to. -/
def agentInSession (s : State Config) (sid name : String) :
    Option (Instance Config) × State Config :=
  match UriStore.getEntity dispatchToPlugin s.store (byNameUri sid name) with
  | some ("agent", data) => (some data, s)
  | _ =>
      match InstanceRegistry.get s.reg sid name with
      | some inst => (some inst, { s with store := mirrorInstance s.store inst })
      | none => (none, s)

/-- `agent_by_uuid/1`. -/
def agentByUuid (s : State Config) (uuid : String) : Option (Instance Config) :=
  match UriStore.getEntity dispatchToPlugin s.store (canonicalUri uuid) with
  | some ("agent", data) => some data
  | _ => none

/-- `primary_agent_uuid/1`, and the state once it has mirrored what it fell back to. -/
def primaryAgentUuid (s : State Config) (sid : String) : Option String × State Config :=
  match (UriStore.resolve dispatchToPlugin s.store (byPrimaryUri sid)).bind
      (stripPrefix "esr://localhost/agents/") with
  | some uuid => (some uuid, s)
  | none =>
      match InstanceRegistry.primary s.reg sid with
      | some name =>
          match InstanceRegistry.get s.reg sid name with
          | some inst =>
              (some inst.id,
                { s with store := mirrorPrimaryAlias (mirrorInstance s.store inst) sid inst.id })
          | none => (none, s)
      | none => (none, s)

/-- `list_agents_in_session/1`, which mirrors every entry. -/
def listAgentsInSession (s : State Config) (sid : String) :
    List (Instance Config) × State Config :=
  let instances := InstanceRegistry.list s.reg sid
  (instances, { s with store := instances.foldl mirrorInstance s.store })

end Reads

/-! ## Requests -/

/-- `add_instance/1`.  `extract_session_id/1` gives the session the agent is
created in. -/
def addInstance (s : State Config) (attrs : Attrs Config) (instanceId : String) : State Config :=
  match InstanceRegistry.addInstance s.reg attrs instanceId with
  | (.ok _, reg) => { reg := reg, store := mirrorSession reg s.store attrs.primarySid }
  | (.error _, reg) => { s with reg := reg }

/-- `add_instance_and_spawn/1`. -/
def addInstanceAndSpawn (s : State Config) (attrs : Attrs Config) (ccId ptyId : String)
    (spawned : Option Nat) : State Config :=
  match InstanceRegistry.addInstanceAndSpawn s.reg attrs ccId ptyId spawned with
  | (.ok _, reg) => { reg := reg, store := mirrorSession reg s.store attrs.primarySid }
  | (.error _, reg) => { s with reg := reg }

/-- `attach_to_session/3`. -/
def attachToSession (s : State Config) (name sourceSid targetSid : String) : State Config :=
  match InstanceRegistry.attachToSession s.reg name sourceSid targetSid with
  | (.ok _, reg) =>
      { reg := reg, store := mirrorSession reg (mirrorSession reg s.store sourceSid) targetSid }
  | (.error _, reg) => { s with reg := reg }

/-- `remove_instance/2`. -/
def removeInstance (s : State Config) (sid name : String) : State Config :=
  match InstanceRegistry.removeInstance s.reg sid name with
  | (.ok _, reg) =>
      { reg := reg
        store := mirrorSession reg (UriStore.delete s.store (byNameUri sid name)) sid }
  | (.error _, reg) => { s with reg := reg }

/-- `set_primary/2`. -/
def setPrimary (s : State Config) (sid name : String) : State Config :=
  match InstanceRegistry.setPrimary s.reg sid name with
  | (.ok _, reg) =>
      match InstanceRegistry.get reg sid name with
      | some inst =>
          { reg := reg, store := mirrorPrimaryAlias (mirrorInstance s.store inst) sid inst.id }
      | none => { s with reg := reg }
  | (.error _, reg) => { s with reg := reg }

/-- The loop of `rename_instance/3` over the sessions of the instance. -/
def mirrorRename (reg : InstanceRegistry.State Config) (t : AgentStore Config)
    (sids : List String) (name : String) : AgentStore Config :=
  sids.foldl (fun t s => mirrorSession reg (UriStore.delete t (byNameUri s name)) s) t

/-- `rename_instance/3`. -/
def renameInstance (s : State Config) (sid name newName : String) : State Config :=
  match InstanceRegistry.renameInstance s.reg sid name newName with
  | (.ok _, reg) =>
      match InstanceRegistry.get reg sid newName with
      | some inst => { reg := reg, store := mirrorRename reg s.store inst.sessionIds name }
      | none => { s with reg := reg }
  | (.error _, reg) => { s with reg := reg }

/-- What is done through the facade: a request to the registry, or a read. -/
inductive Act (Config : Type) where
  | request (op : Op Config)
  | agentInSession (sid name : String)
  | primaryAgentUuid (sid : String)
  | listAgentsInSession (sid : String)

/-- A generated uuid is new, and has no slash. -/
def NewUuid (s : State Config) (uuid : String) : Prop :=
  s.reg.table.lookup uuid = none ∧ '/' ∉ uuid.toList

instance (s : State Config) (uuid : String) : Decidable (NewUuid s uuid) :=
  inferInstanceAs (Decidable (_ = none ∧ _))

/-- One call of the facade. -/
def step (dispatchToPlugin : String → Option String) (s : State Config) :
    Act Config → Option (State Config)
  | .request (.addInstance attrs instanceId) =>
      if NewUuid s instanceId then some (addInstance s attrs instanceId) else none
  | .request (.addInstanceAndSpawn attrs ccId ptyId spawned) =>
      if NewUuid s ccId then some (addInstanceAndSpawn s attrs ccId ptyId spawned) else none
  | .request (.removeInstance sid name) => some (removeInstance s sid name)
  | .request (.setPrimary sid name) => some (setPrimary s sid name)
  | .request (.renameInstance sid name newName) => some (renameInstance s sid name newName)
  | .request (.attachToSession name sourceSid targetSid) =>
      some (attachToSession s name sourceSid targetSid)
  | .agentInSession sid name => some (agentInSession dispatchToPlugin s sid name).2
  | .primaryAgentUuid sid => some (primaryAgentUuid dispatchToPlugin s sid).2
  | .listAgentsInSession sid => some (listAgentsInSession s sid).2

/-- Nothing registered. -/
def start : State Config := ⟨InstanceRegistry.init, Ets.empty⟩

end UriCompat
end Esr
