import Esr.SessionBindings
import Esr.SessionCreate
import Esr.SessionUris
import Esr.UriCompat

/-! # The places a session is recorded in

A session has a supervisor, slots in the routing table, aliases and a row of its own
in the URI store, a file, a binding to a workspace, and agents, which the URI store
mirrors.  Each place has its own module; here they stand side by side, with what the
Router's `end_session/1` does to all of them.

The URI store is one table.  It is given in three parts, by the first segment of the
URIs, since no function that is modelled here crosses from one part to another.
-/
namespace Esr
namespace SessionPlaces
open Yaml UriStore
open ChatRouting (Key Table MapSetOrder)
open SessionBindings (Bindings)
open InstanceRegistry (Instance)

/-- An entry of `attached_chats`. -/
structure ChatEntry where
  chatId : Value
  appId : Value
  attachedBy : Value
  attachedAt : Value

/-- `%Esr.Resource.Session.Struct{}`.  What no loader checks is any term. -/
structure Struct where
  id : String
  name : Value
  ownerUser : Value
  workspaceId : Value
  agentIds : Value
  primaryAgent : Value
  attachedChats : List ChatEntry
  createdAt : Value
  transient : Value

/-- `%Struct{id: id}`. -/
def Struct.blank (id : String) : Struct where
  id := id
  name := .null
  ownerUser := .null
  workspaceId := .null
  agentIds := .list []
  primaryAgent := .null
  attachedChats := []
  createdAt := .null
  transient := .bool false

/-- The sessions' part of the URI store. -/
abbrev SessionStore := Store String Struct

/-- `list_sessions/0`. -/
def listSessions (t : SessionStore) : List Struct :=
  t.tab2list.filterMap fun row =>
    match row.2 with
    | .entity kind s => if kind = "session" then some s else none
    | .aliasTo _ => none

/-- The session counts as the owner's session of that name. -/
def Struct.takes (s : Struct) (owner name : String) : Bool :=
  s.ownerUser.isStr owner && s.name.isStr name

/-- `check_name_unique/2`: the name is taken.  No name is never taken. -/
def nameTaken (t : SessionStore) (owner : String) (name : Option String) : Bool :=
  match name with
  | none => false
  | some name => name ≠ "" && (listSessions t).any fun s => s.takes owner name

/-- The handlers that plugins have registered.  `dispatch_to_plugin/1` asks none of
them about a name. -/
structure PluginUris where
  dispatch : String → Option String
  dispatch_scopePrefix : ∀ env username workspace rest,
    dispatch (SessionUris.scopePrefix env username workspace ++ rest) = none

/-- What the commands see of the runtime besides. -/
structure Runtime where
  order : MapSetOrder
  plugins : PluginUris
  currentInstance : String

/-- No plugins, and a `MapSet` is enumerated in the order of its strings. -/
def Runtime.plain : Runtime where
  order := ChatRouting.sortedOrder
  plugins := ⟨fun _ => none, fun _ _ _ _ => rfl⟩
  currentInstance := "default"

/-- Everything a session is recorded in.  `json` has the sessions with a
`session.json`. -/
structure Places (Config : Type) extends SessionCreate.World Config where
  uris : SessionStore
  json : List String
  bindings : Bindings
  workspaces : WorkspaceUris.WorkspaceStore WorkspaceStruct.Struct
  mirror : UriCompat.AgentStore Config

variable {Config : Type}

/-- No session, and nothing else. -/
def Places.empty : Places Config where
  routerUp := true
  sessions := []
  peers := []
  index := ⟨Ets.empty, ∅⟩
  routing := Ets.empty
  instances := InstanceRegistry.init
  observers := []
  uris := Ets.empty
  json := []
  bindings := .init
  workspaces := Ets.empty
  mirror := Ets.empty

/-- `Esr.Session.Router.end_session/1`, with `none` for `{:error, :unknown_session}`:
`detach_session_by_id/1` releases the aliases, too. -/
def endSession (order : MapSetOrder) (sid : String) (w : Places Config) :
    Option (Places Config) :=
  (SessionCreate.endSession order sid w.toWorld).map fun world =>
    { w with toWorld := world, uris := SessionUris.releaseSessionUri w.uris sid }

/-- What a `session.json` that was written leaves: the file, and the session's row. -/
def Places.record (w : Places Config) (s : Struct) : Places Config :=
  { w with
    json := s.id :: w.json
    uris := putEntity w.uris (SessionUris.canonicalUri s.id) "session" s }

/-! ## What it is to be in a place -/

/-- The session is attached to no chat, and current in none. -/
def Unrouted (t : Table) (sid : String) : Prop :=
  ∀ key slot, t.lookup key = some slot → sid ∉ slot.attached ∧ slot.current ≠ some sid

/-- No alias resolves to the session. -/
def Unaliased (t : SessionStore) (sid : String) : Prop := ∀ uri, ¬SessionUris.Owns t sid uri

/-- The session's own row is no named session of an owner. -/
def Unnamed (t : SessionStore) (sid : String) : Prop :=
  ∀ s, t.lookup (SessionUris.canonicalUri sid) = some (.entity "session" s) →
    ∀ owner name, name ≠ "" → s.takes owner name = false

/-- No workspace is bound to the session, either way. -/
def Unbound (b : Bindings) (sid : String) : Prop :=
  b.bySid.lookup sid = none ∧ ∀ wsId, sid ∉ b.sessionsFor wsId

/-- The mirror has no agent of the session: no agent that is in it, and no name or
primary in it. -/
structure Unmirrored (t : UriCompat.AgentStore Config) (sid : String) : Prop where
  agents : ∀ uri kind inst, t.lookup uri = some (.entity kind inst) → sid ∉ inst.sessionIds
  names : ∀ name, t.lookup (UriCompat.byNameUri sid name) = none
  primary : t.lookup (UriCompat.byPrimaryUri sid) = none

/-! ## Ending -/

variable {order : MapSetOrder} {sid : String} {w w' : Places Config}

/-- Everything is as it was but for the supervisor and what it supervised, the routing
table and the aliases. -/
theorem endSession_eq_some (h : endSession order sid w = some w') :
    sid ∈ w.sessions ∧ w'.sessions = w.sessions.filter (fun sid' => sid' ≠ sid) ∧
      w'.routing = ChatRouting.detachSessionById order w.routing sid ∧
      w'.uris = SessionUris.releaseSessionUri w.uris sid ∧ w'.instances = w.instances ∧
      w'.json = w.json ∧ w'.bindings = w.bindings ∧ w'.workspaces = w.workspaces ∧
      w'.mirror = w.mirror := by
  obtain ⟨world, hworld, rfl⟩ := Option.map_eq_some_iff.mp h
  unfold SessionCreate.endSession at hworld
  split at hworld
  · rename_i hmem
    obtain rfl := Option.some.inj hworld
    exact ⟨hmem, rfl, rfl, rfl, rfl, rfl, rfl, rfl, rfl⟩
  · cases hworld

theorem lookup_releaseSessionUri {t : SessionStore} {uri : String} {row : Row String Struct} :
    (SessionUris.releaseSessionUri t sid).lookup uri = some row ↔
      t.lookup uri = some row ∧ row ≠ .aliasTo (SessionUris.canonicalUri sid) := by
  unfold SessionUris.releaseSessionUri
  rw [Ets.lookup_deleteEach]
  split
  · rename_i hmem
    rw [mem_aliasesOf.mp hmem]
    constructor
    · intro h
      cases h
    · rintro ⟨h, hne⟩
      exact (hne (Option.some.inj h).symm).elim
  · rename_i hmem
    refine ⟨fun h => ⟨h, ?_⟩, And.left⟩
    rintro rfl
    exact hmem (mem_aliasesOf.mpr h)

theorem lookup_releaseSessionUri_of_none {t : SessionStore} {uri : String}
    (h : t.lookup uri = none) : (SessionUris.releaseSessionUri t sid).lookup uri = none := by
  rw [Option.eq_none_iff_forall_ne_some]
  intro row hrow
  rw [(lookup_releaseSessionUri.mp hrow).1] at h
  cases h

theorem unaliased_releaseSessionUri (t : SessionStore) (sid : String) :
    Unaliased (SessionUris.releaseSessionUri t sid) sid :=
  fun _ howns => (lookup_releaseSessionUri.mp howns).2 rfl

theorem unrouted_detachSessionById (t : Table) (sid : String) :
    Unrouted (ChatRouting.detachSessionById order t sid) sid :=
  fun _ _ hrow => ChatRouting.gone_of_detachSessionById hrow

end SessionPlaces
end Esr
