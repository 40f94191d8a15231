import Esr.SessionEnd
import Esr.SessionLoad
import Esr.SessionNew
import Esr.SubmitSlash

/-! # Where a session is attached

The routing table has the chats a session is attached to, and so has the session's row,
under `attached_chats`, which is what `submit_slash` looks at.  The first is written by
each attach and detach.  The second is written once, when the session is created, as
the empty list, and read back from `session.json` when the runtime starts.

`oneTruth_unattaching` says when the two agree: in every run in which no live session
is attached to a chat.  A step that attaches one makes them differ.
-/
namespace Esr
namespace AttachedChats
open Yaml UriStore SessionPlaces
open ChatRouting (Key Table attachSession detachSession)
open SessionNew (Commands Cmd)
open SessionUris (canonicalUri)

/-- What the commands see of the runtime besides. -/
structure Runtime extends toEnd : SessionEnd.Runtime where
  home : Bool
  readFromFile : String → Except String Value

/-- The routing registry's part of it. -/
def Runtime.routing (rt : Runtime) : ChatRouting.Runtime := ⟨rt.order, rt.home, rt.readFromFile⟩

/-! ## The file of a session -/

/-- `serialise_chat/1`. -/
def serialiseChat (chat : ChatEntry) : Value :=
  .map [(.str "app_id", chat.appId), (.str "attached_at", chat.attachedAt),
    (.str "attached_by", chat.attachedBy), (.str "chat_id", chat.chatId)]

/-- `encode/1` of the writer: the document that becomes `session.json`. -/
def document (s : Struct) : Entries :=
  [(.str "agent_ids", match s.agentIds with
      | .null | .bool false => .list []
      | ids => ids),
    (.str "attached_chats", .list (s.attachedChats.map serialiseChat)),
    (.str "created_at", s.createdAt), (.str "id", .str s.id), (.str "name", s.name),
    (.str "owner_user", s.ownerUser), (.str "primary_agent", s.primaryAgent),
    (.str "schema_version", .int 2), (.str "transient", s.transient),
    (.str "workspace_id", s.workspaceId)]

/-- Readers of a file that has the document. -/
def reading (doc : Entries) : BootFiles.Readers := ⟨fun _ => some (.map doc), fun _ => .error ""⟩

/-- `load/2` of a file that has the document. -/
def loadDocument (doc : Entries) : Option (Except BootFiles.LoadError Struct) :=
  SessionLoad.load (reading doc) (.ok .empty)

/-- `scan_sessions_dir/0`, with `none` where it raises. -/
def scan : List Entries → Option (List Struct)
  | [] => some []
  | doc :: rest =>
      match loadDocument doc with
      | none => none
      | some (.error _) => scan rest
      | some (.ok s) => (scan rest).map fun all => s :: all

/-- The sessions that are loaded at boot.  Where the scan raises there is none. -/
def loaded (documents : Ets String Entries) : List Struct :=
  (scan (documents.tab2list.map Prod.snd)).getD []

/-! ## Binding and unbinding -/

inductive BindError where
  | invalidArgs
  | invalidSessionUuid
  | unknownSession (session : String)
  | notAuthorized (session : String)
  | noCurrentSession
  deriving DecidableEq

/-- The submitter and the arguments. -/
def submitted : Value → Option (Value × Entries)
  | .map m =>
      match get "submitted_by" m, get "args" m with
      | some submitter, some (.map args) => some (submitter, args)
      | _, _ => none
  | _ => none

/-- `require_chat_context/2`. -/
def requireChatContext (args : Entries) : Except BindError Key :=
  match get "chat_id" args, get "app_id" args with
  | some (.str chatId), some (.str appId) =>
      if chatId ≠ "" ∧ appId ≠ "" then .ok (chatId, appId) else .error .invalidArgs
  | _, _ => .error .invalidArgs

/-- `validate_uuid/1`. -/
def validateUuid : Option Value → Except BindError String
  | some (.str s) =>
      if s = "" then .error .invalidArgs
      else if UuidTranslator.uuidShape s then .ok s
      else .error .invalidSessionUuid
  | _ => .error .invalidArgs

section Commands
variable {Config : Type} (rt : Runtime)

/-- `session_by_uuid/1`. -/
def sessionByUuid (t : SessionStore) (uuid : String) : Option Struct :=
  match getEntity rt.plugins.dispatch t (canonicalUri uuid) with
  | some (kind, s) => if kind = "session" then some s else none
  | none => none

/-- `fetch_session/1`. -/
def fetchSession (w : Places Config) (uuid : String) : Except BindError Struct :=
  match sessionByUuid rt w.uris uuid with
  | some s => .ok s
  | none => .error (.unknownSession uuid)

/-- `check_cap/2`. -/
def checkCap (grants : Grants.Table) (submitter uuid : String) : Except BindError Unit :=
  if Grants.has grants submitter ("session:" ++ uuid ++ "/attach") ∨
      Grants.has grants submitter ("session:" ++ uuid ++ "/admin") then .ok ()
  else .error (.notAuthorized uuid)

/-- The `with` of `session_bind_chat` up to the attach: the chat, and the session. -/
def bindTarget (grants : Grants.Table) (cmd : Value) (w : Places Config) :
    Except BindError (Key × String) :=
  match submitted cmd with
  | some (.str submitter, args) => do
      let uuid ← validateUuid (get "session" args)
      let _ ← fetchSession rt w uuid
      checkCap grants submitter uuid
      let key ← requireChatContext args
      return (key, uuid)
  | _ => .error .invalidArgs

/-- `resolve_session/3`. -/
def resolveSession (session : Option Value) (key : Key) (t : Table) : Except BindError String :=
  match session.bind SessionEnd.nonEmpty with
  | some raw => if UuidTranslator.uuidShape raw then .ok raw else .error .invalidSessionUuid
  | none =>
      match ChatRouting.current t key with
      | some sid => .ok sid
      | none => .error .noCurrentSession

/-- The `with` of `session_unbind_chat`: the chat, and the session. -/
def unbindTarget (cmd : Value) (w : Places Config) : Except BindError (Key × String) :=
  match submitted cmd with
  | some (_, args) => do
      let key ← requireChatContext args
      let uuid ← resolveSession (get "session" args) key w.routing
      return (key, uuid)
  | none => .error .invalidArgs

/-- `session_bind_chat`. -/
def bindChat (grants : Grants.Table) (cmd : Value) (w : Places Config) : Places Config :=
  match bindTarget rt grants cmd w with
  | .ok (key, uuid) => { w with routing := attachSession w.routing key uuid }
  | .error _ => w

/-- `session_unbind_chat`. -/
def unbindChat (cmd : Value) (w : Places Config) : Places Config :=
  match unbindTarget cmd w with
  | .ok (key, uuid) => { w with routing := detachSession rt.order w.routing key uuid }
  | .error _ => w

end Commands

/-! ## The system -/

/-- The commands that create sessions, the file of the routing table, the documents of
the sessions' files by session, and the sessions that have been ended. -/
structure State (J Config : Type) where
  base : SessionNew.State J Config
  file : Option String
  documents : Ets String Entries
  ended : List String

/-- A step of a command that creates a session, another command, or a restart, which
finds the world `w` but for what is written here.  `written` says whether the routing
table can be written to its file. -/
inductive Act (J Config : Type) where
  | create (a : SessionNew.Act J Config) (written : Bool)
  | bindChat (grants : Grants.Table) (cmd : Value) (written : Bool)
  | unbindChat (cmd : Value) (written : Bool)
  | endSession (cmd : Value) (written : Bool)
  | restart (w : Places Config)

section System
variable {J Config : Type} (rt : Runtime)

def State.world (s : State J Config) : Places Config := s.base.world

/-- No session, and no file. -/
def start : State J Config where
  base := ⟨.empty, fun _ => .waiting⟩
  file := none
  documents := Ets.empty
  ended := []

/-- The sessions that one world has running and another has not. -/
def stopped (w w' : Places Config) : List String := w.sessions.filter fun sid => sid ∉ w'.sessions

/-- `persist_attached_to_disk/0`: what is in the file when it has been called. -/
def persisted (file : Option String) (t : Table) (written : Bool) : Option String :=
  ((⟨t, file, t⟩ : ChatRouting.State).persist rt.routing t written).file

/-- The world has changed, in a step that calls the routing registry or does not. -/
def State.goes (s : State J Config) (base : SessionNew.State J Config) (calls written : Bool) :
    State J Config :=
  { s with
    base := base
    file := if calls then persisted rt s.file base.world.routing written else s.file
    ended := stopped s.world base.world ++ s.ended }

/-- What a restart leaves of a command: nothing, where it has begun and not ended. -/
def interrupted : SessionNew.Phase → SessionNew.Phase
  | .waiting => .waiting
  | .done => .done
  | .failed => .failed
  | .refused => .refused
  | _ => .crashed

variable [DecidableEq J] (cmds : Commands J Config)

/-- The step calls the routing registry: to enter the session that is spawned, to attach
it, and to detach it when it is ended. -/
def callsRouting (w w' : Places Config) : SessionNew.Act J Config → Bool
  | .spawn j => (cmds.cmd j).chatBound &&
      (w'.routing.lookup (cmds.cmd j).params.key).any fun slot => (cmds.cmd j).sid ∈ slot.attached
  | .attach j => (cmds.cmd j).args.chatId ∉ ["", "pending"] ∧
      (cmds.cmd j).args.appId ∉ ["", "pending"] ∧
      ChatRouting.current w.routing ((cmds.cmd j).args.chatId, (cmds.cmd j).args.appId) ≠
        some (cmds.cmd j).sid
  | .rollback j => (cmds.cmd j).sid ∈ w.sessions
  | _ => false

/-- The sessions' files after a step. -/
def documentsAfter (documents : Ets String Entries) : SessionNew.Act J Config → Ets String Entries
  | .persist j .written => documents.insert (cmds.cmd j).sid (document (cmds.cmd j).record)
  | _ => documents

/-- One step. -/
def step (s : State J Config) : Act J Config → Option (State J Config)
  | .create a written =>
      (SessionNew.step rt.toEnd.toRuntime cmds s.base a).map fun base =>
        { s.goes rt base (callsRouting cmds s.world base.world a) written with
          documents := documentsAfter cmds s.documents a }
  | .bindChat grants cmd written =>
      some (s.goes rt { s.base with world := bindChat rt grants cmd s.world }
        (bindTarget rt grants cmd s.world).isOk written)
  | .unbindChat cmd written =>
      some (s.goes rt { s.base with world := unbindChat rt cmd s.world }
        (unbindTarget cmd s.world).isOk written)
  | .endSession cmd written =>
      let w := (SessionEnd.execute rt.toEnd cmd s.world).2
      some (s.goes rt { s.base with world := w } (stopped s.world w ≠ []) written)
  | .restart w =>
      some { s with base :=
        { world := { w with
            routerUp := true
            sessions := []
            peers := []
            observers := []
            routing := ChatRouting.reloadTable rt.routing s.file
            uris := (loaded s.documents).foldl SessionLoad.writeRow Ets.empty
            json := s.world.json }
          phase := fun j => interrupted (s.base.phase j) } }

/-! ## What is claimed -/

/-- The session is attached to the chat. -/
def AttachedTo (t : Table) (sid : String) (key : Key) : Prop :=
  ∃ slot, t.lookup key = some slot ∧ sid ∈ slot.attached

/-- The session is attached to some chat. -/
def Attached (t : Table) (sid : String) : Prop := ∃ key, AttachedTo t sid key

/-- The session has a row, and has not been ended. -/
def Live (s : State J Config) (sid : String) (r : Struct) : Prop :=
  s.world.uris.lookup (canonicalUri sid) = some (.entity "session" r) ∧ sid ∉ s.ended

/-- A session's row and the routing table say the same.  `submit_slash` acts in a chat
the session is attached to, and finds no chat only where there is none. -/
structure Agrees (t : Table) (sid : String) (r : Struct) : Prop where
  chats : {p | ∃ key, AttachedTo t sid key ∧ p = (Value.str key.1, Value.str key.2)} =
    {p | ∃ chat ∈ r.attachedChats, p = (chat.chatId, chat.appId)}
  acts : ∀ chat ∈ r.attachedChats.head?, ∃ key, AttachedTo t sid key ∧
    chat.chatId = .str key.1 ∧ chat.appId = .str key.2
  refuses : ∀ (w : SubmitSlash.World) (cmd : String), w.session = some r →
    SubmitSlash.runSubmitSlash w cmd = .error (SubmitSlash.kindMap (.str "no_attached_chat")) →
    ¬Attached t sid

/-- Every live session's row and the routing table say the same. -/
def OneTruth (s : State J Config) : Prop := ∀ sid r, Live s sid r → Agrees s.world.routing sid r

/-- The step attaches no live session to a chat, and makes no session that is attached
live: a session's row is written while it is in no chat, a chat is bound only to a session
without a row or one that has ended, and a restart does not find a session both in the
file of the routing table and in a file of its own. -/
def Unattaching (s : State J Config) : Act J Config → Prop
  | .create (.writeRow j) _ | .create (.persist j .written) _ =>
      (cmds.cmd j).sid ∈ s.ended ∨ ¬Attached s.world.routing (cmds.cmd j).sid
  | .create (.attach j) _ =>
      callsRouting cmds s.world s.world (.attach j) = true → ∀ r, ¬Live s (cmds.cmd j).sid r
  | .bindChat grants cmd _ =>
      ∀ key uuid, bindTarget rt grants cmd s.world = .ok (key, uuid) → ∀ r, ¬Live s uuid r
  | .restart _ =>
      ∀ r ∈ loaded s.documents, r.id ∈ s.ended ∨
        ¬Attached (ChatRouting.reloadTable rt.routing s.file) r.id
  | _ => True

end System

variable {J Config : Type} {rt : Runtime} {sid uuid : String} {key : Key} {t : Table}
  {w w' : Places Config}

/-! ## Attached sessions -/

theorem attached_attachSession :
    Attached (attachSession t key uuid) sid ↔ sid = uuid ∨ Attached t sid := by
  have hlookup : ∀ key', (attachSession t key uuid).lookup key' = if key' = key then
      some ⟨some (((t.lookup key).getD ⟨none, ∅⟩).current.getD uuid),
        insert uuid ((t.lookup key).getD ⟨none, ∅⟩).attached⟩
      else t.lookup key' := fun key' => Ets.lookup_insert _ _ _ _
  constructor
  · rintro ⟨key', slot, hrow, hmem⟩
    rw [hlookup] at hrow
    by_cases hkey : key' = key
    · rw [if_pos hkey] at hrow
      obtain rfl := Option.some.inj hrow
      rcases Finset.mem_insert.mp hmem with rfl | hold
      · exact .inl rfl
      · cases hslot : t.lookup key with
        | none => simp [hslot] at hold
        | some slot => exact .inr ⟨key, slot, hslot, by simpa [hslot] using hold⟩
    · rw [if_neg hkey] at hrow
      exact .inr ⟨key', slot, hrow, hmem⟩
  · rintro (rfl | ⟨key', slot, hrow, hmem⟩)
    · exact ⟨key, _, (hlookup key).trans (if_pos rfl), Finset.mem_insert_self _ _⟩
    · by_cases hkey : key' = key
      · refine ⟨key, _, (hlookup key).trans (if_pos rfl), Finset.mem_insert_of_mem ?_⟩
        rw [← hkey, hrow]
        exact hmem
      · exact ⟨key', slot, (hlookup key').trans ((if_neg hkey).trans hrow), hmem⟩

variable {order : ChatRouting.MapSetOrder} {r : Struct}

theorem attached_of_without {slot : ChatRouting.Slot}
    (h : sid ∈ (slot.without order uuid).attached) : sid ∈ slot.attached :=
  Finset.mem_of_mem_erase h

theorem Attached.of_detachSession (h : Attached (detachSession order t key uuid) sid) :
    Attached t sid := by
  obtain ⟨key', slot, hrow, hmem⟩ := h
  unfold detachSession at hrow
  split at hrow
  · rename_i old hold
    rw [Ets.lookup_insert] at hrow
    split at hrow
    · obtain rfl := Option.some.inj hrow
      exact ⟨key, old, hold, attached_of_without hmem⟩
    · exact ⟨key', slot, hrow, hmem⟩
  · exact ⟨key', slot, hrow, hmem⟩

theorem Attached.of_detachSessionById
    (h : Attached (ChatRouting.detachSessionById order t uuid) sid) : Attached t sid := by
  obtain ⟨key', slot, hrow, hmem⟩ := h
  rw [ChatRouting.lookup_detachSessionById, Option.bind_eq_some_iff] at hrow
  obtain ⟨old, hold, hdetached⟩ := hrow
  refine ⟨key', old, hold, ?_⟩
  unfold ChatRouting.Slot.detached at hdetached
  split at hdetached
  · obtain ⟨-, he⟩ := Option.ite_none_left_eq_some.mp hdetached
    obtain rfl := Option.some.inj he
    exact attached_of_without hmem
  · obtain rfl := Option.some.inj hdetached
    exact hmem

theorem agrees_iff (h : r.attachedChats = []) : Agrees t sid r ↔ ¬Attached t sid := by
  constructor
  · rintro hagrees ⟨key, hkey⟩
    have hin : (Value.str key.1, Value.str key.2) ∈
        {p | ∃ chat ∈ r.attachedChats, p = (chat.chatId, chat.appId)} :=
      hagrees.chats ▸ ⟨key, hkey, rfl⟩
    obtain ⟨chat, hchat, -⟩ := hin
    rw [h] at hchat
    cases hchat
  · intro hno
    refine ⟨?_, ?_, fun _ _ _ _ => hno⟩
    · ext p
      rw [h]
      constructor
      · rintro ⟨key, hkey, -⟩
        exact (hno ⟨key, hkey⟩).elim
      · rintro ⟨chat, hchat, -⟩
        cases hchat
    · rw [h]
      intro chat hchat
      cases hchat

/-! ## What is written and read back -/

theorem loadDocument_document {s : Struct} (hchats : s.attachedChats = [])
    (h : loadDocument (document s) = some (.ok r)) : r.id = s.id ∧ r.attachedChats = [] := by
  unfold loadDocument SessionLoad.load at h
  split at h
  · cases h
  · rename_i doc hcheck
    have hdoc : doc = document s := by
      have hread : BootFiles.decodeJson (reading (document s)) .empty = .ok (document s) := rfl
      unfold SessionLoad.check at hcheck
      simp only [BootFiles.readFile, hread, bind, Except.bind, pure, Except.pure] at hcheck
      split at hcheck
      · cases hcheck
      · split at hcheck
        · cases hcheck
        · split at hcheck
          · cases hcheck
          · split at hcheck
            · cases hcheck
            · exact (Except.ok.inj hcheck).symm
    obtain ⟨r', hbuild, hr⟩ := Option.map_eq_some_iff.mp h
    obtain rfl := Except.ok.inj hr
    have hfield : getOr "attached_chats" (.list []) doc = .list [] := by
      rw [hdoc, document, hchats]
      rfl
    have hid : BootFiles.uuidOf doc = s.id := by
      rw [hdoc]
      rfl
    unfold SessionLoad.buildStruct at hbuild
    rw [hfield, hid] at hbuild
    obtain rfl := Option.some.inj hbuild
    exact ⟨rfl, rfl⟩

theorem mem_scan {documents : List Entries} (h : r ∈ (scan documents).getD []) :
    ∃ doc ∈ documents, loadDocument doc = some (.ok r) := by
  induction documents with
  | nil => cases h
  | cons doc rest ih =>
    have hrest : r ∈ (scan rest).getD [] → ∃ doc' ∈ doc :: rest, loadDocument doc' = some (.ok r) := by
      intro hmem
      obtain ⟨doc', hdoc', hload⟩ := ih hmem
      exact ⟨doc', List.mem_cons_of_mem _ hdoc', hload⟩
    unfold scan at h
    split at h
    · cases h
    · exact hrest h
    · rename_i s hload
      cases hscan : scan rest with
      | none =>
        rw [hscan] at h
        cases h
      | some all =>
        rw [hscan] at h
        rcases List.mem_cons.mp h with rfl | hmem
        · exact ⟨doc, List.mem_cons_self, hload⟩
        · exact hrest (by rw [hscan]; exact hmem)

theorem mem_loaded {documents : Ets String Entries} (h : r ∈ loaded documents) :
    ∃ sid doc, documents.lookup sid = some doc ∧ loadDocument doc = some (.ok r) := by
  obtain ⟨doc, hdoc, hload⟩ := mem_scan h
  obtain ⟨⟨sid, doc'⟩, hrow, rfl⟩ := List.mem_map.mp hdoc
  exact ⟨sid, doc', Ets.mem_tab2list.mp hrow, hload⟩

/-! ## What a step does to the rows and the table -/

/-- No session is attached that was not, and the entities are the same. -/
structure Quiet (w w' : Places Config) : Prop where
  attached : ∀ sid, Attached w'.routing sid → Attached w.routing sid
  rows : ∀ uri kind r, w'.uris.lookup uri = some (.entity kind r) ↔
    w.uris.lookup uri = some (.entity kind r)

theorem quiet_refl (w : Places Config) : Quiet w w := ⟨fun _ => id, fun _ _ _ => Iff.rfl⟩

theorem quiet_unbindChat (rt : Runtime) (cmd : Value) (w : Places Config) :
    Quiet w (unbindChat rt cmd w) := by
  unfold unbindChat
  split
  · exact ⟨fun _ => Attached.of_detachSession, fun _ _ _ => Iff.rfl⟩
  · exact quiet_refl w

theorem entity_releaseSessionUri {t : SessionStore} {uri kind : String} :
    (SessionUris.releaseSessionUri t sid).lookup uri = some (.entity kind r) ↔
      t.lookup uri = some (.entity kind r) :=
  lookup_releaseSessionUri.trans (and_iff_left nofun)

theorem quiet_endSession (h : endSession order sid w = some w') : Quiet w w' := by
  obtain ⟨-, -, hrouting, huris, -⟩ := endSession_eq_some h
  refine ⟨fun sid' hin => ?_, fun uri kind r => ?_⟩
  · rw [hrouting] at hin
    exact hin.of_detachSessionById
  · rw [huris]
    exact entity_releaseSessionUri

theorem quiet_rollback (rt : SessionPlaces.Runtime) (sid : String) (w : Places Config) :
    Quiet w (SessionNew.rollback rt sid w) := by
  unfold SessionNew.rollback
  cases hend : endSession rt.order sid w with
  | none => exact quiet_refl w
  | some w' => exact quiet_endSession hend

theorem Quiet.of_eq {w'' : Places Config} (h : Quiet w w') (hrouting : w''.routing = w'.routing)
    (huris : w''.uris = w'.uris) : Quiet w w'' := by
  refine ⟨fun sid hin => h.attached sid ?_, fun uri kind r => ?_⟩
  · rw [← hrouting]
    exact hin
  · rw [huris]
    exact h.rows uri kind r

theorem quiet_endBySessionId (rt : SessionEnd.Runtime) (sid : String) (args : Entries)
    (w : Places Config) : Quiet w (SessionEnd.endBySessionId rt sid args w).2 := by
  have hcleaned : ∀ w' : Places Config,
      (SessionEnd.maybeCleanupTransientWorkspace rt args w').2.routing = w'.routing ∧
        (SessionEnd.maybeCleanupTransientWorkspace rt args w').2.uris = w'.uris := by
    intro w'
    unfold SessionEnd.maybeCleanupTransientWorkspace
    split <;> exact ⟨rfl, rfl⟩
  unfold SessionEnd.endBySessionId
  cases hend : endSession rt.order sid w with
  | none => exact quiet_refl w
  | some stopped =>
    obtain ⟨hrouting, huris⟩ := hcleaned { stopped with bindings := stopped.bindings.unbind sid }
    have hquiet := (quiet_endSession hend).of_eq hrouting huris
    dsimp only
    cases hclean : SessionEnd.maybeCleanupTransientWorkspace rt args
        { stopped with bindings := stopped.bindings.unbind sid } with
    | mk returned w' =>
      rw [hclean] at hquiet
      cases returned with
      | false => exact hquiet
      | true =>
        cases SessionEnd.maybeRemoveWorktree rt (get "root" args) (get "cwd" args) <;>
          exact hquiet

theorem quiet_execute (rt : SessionEnd.Runtime) (cmd : Value) (w : Places Config) :
    Quiet w (SessionEnd.execute rt cmd w).2 := by
  unfold SessionEnd.execute
  dsimp only
  split
  · exact quiet_endBySessionId rt _ _ w
  · unfold SessionEnd.endByName
    split
    · exact quiet_refl w
    · exact quiet_refl w
    · split
      · exact quiet_endBySessionId rt _ _ w
      · exact quiet_refl w
    · exact quiet_refl w
  · exact quiet_refl w

theorem quiet_putOrIgnoreAlias (w : Places Config) (a canonical : String) :
    Quiet w { w with uris := SessionUris.putOrIgnoreAlias w.uris a canonical } := by
  refine ⟨fun _ => id, fun uri kind r => ?_⟩
  change (SessionUris.putOrIgnoreAlias w.uris a canonical).lookup uri = _ ↔ _
  unfold SessionUris.putOrIgnoreAlias
  rcases putAlias_cases w.uris a canonical with he | ⟨-, hfree, he⟩
  · rw [he]
  · rw [he, Ets.lookup_insert]
    by_cases huri : uri = a
    · rw [if_pos huri, huri, hfree]
      exact iff_of_false nofun nofun
    · rw [if_neg huri]

theorem quiet_bindSession {rt : SessionPlaces.Runtime} {c : Cmd Config}
    (h : SessionNew.bindSession rt c w = some w') : Quiet w w' := by
  rcases SessionNew.bindSession_eq_some h with ⟨-, rfl⟩ | ⟨-, wsId, rfl⟩
  · exact quiet_refl w'
  · exact (quiet_refl w).of_eq rfl rfl

theorem attached_spawn {c : Cmd Config} (h : Attached (c.spawn w).2.routing sid) :
    sid = c.sid ∨ Attached w.routing sid := by
  unfold Cmd.spawn at h
  split at h
  · let P := fun w' : SessionCreate.World Config =>
      Attached w'.routing sid → sid = c.sid ∨ Attached w.routing sid
    have hkept : P (SessionCreate.createSession c.env c.params w.toWorld).1 := by
      refine SessionCreate.createSession_keeps (P := P) .inr (fun _ => id) (fun _ _ _ => id) ?_
        (fun _ _ _ => id) (fun _ _ => id) fun _ => id
      intro w' hold hin
      rcases attached_attachSession.mp hin with rfl | hin
      · exact .inl rfl
      · exact hold hin
    exact hkept h
  · split at h <;> exact .inr h

theorem attach_eq [DecidableEq J] {cmds : Commands J Config} (j : J) (w w' : Places Config) :
    (cmds.cmd j).attach w =
      if callsRouting cmds w w' (.attach j) = true then
        { w with
          routing := attachSession w.routing
            ((cmds.cmd j).args.chatId, (cmds.cmd j).args.appId) (cmds.cmd j).sid }
      else w := by
  unfold Cmd.attach callsRouting
  simp only [decide_eq_true_eq]

/-! ## The invariant -/

section Runs
variable {cmds : Commands J Config} {s s' : State J Config}

/-- The command has not spawned its session. -/
def Unspawned (phase : SessionNew.Phase) : Prop := phase = .waiting ∨ phase = .checked

/-- No row has a chat, nor any file; and a session that has not been spawned has neither
a row nor a file. -/
structure Inv (cmds : Commands J Config) (s : State J Config) : Prop where
  rows : ∀ uri kind r, s.world.uris.lookup uri = some (.entity kind r) → r.attachedChats = []
  documents : ∀ sid doc, s.documents.lookup sid = some doc →
    ∃ j, sid = (cmds.cmd j).sid ∧ doc = document (cmds.cmd j).record
  noRow : ∀ j, Unspawned (s.base.phase j) → ∀ kind r,
    s.world.uris.lookup (canonicalUri (cmds.cmd j).sid) ≠ some (.entity kind r)
  noFile : ∀ j, Unspawned (s.base.phase j) → s.documents.lookup (cmds.cmd j).sid = none

/-- No live session is attached to a chat. -/
def Unattached (s : State J Config) : Prop :=
  ∀ sid r, Live s sid r → ¬Attached s.world.routing sid

theorem Inv.oneTruth_iff (h : Inv cmds s) : OneTruth s ↔ Unattached s :=
  forall_congr' fun _ => forall_congr' fun _ => forall_congr' fun hlive =>
    agrees_iff (h.rows _ _ _ hlive.1)

theorem inv_start : Inv cmds (start : State J Config) where
  rows _ _ _ h := nomatch h
  documents _ _ h := nomatch h
  noRow _ _ _ _ h := nomatch h
  noFile _ _ := rfl

variable {next : SessionNew.Phase} {base : SessionNew.State J Config} {calls written : Bool}

theorem unspawned_goes [DecidableEq J] {b : SessionNew.State J Config} {j k : J}
    (hnext : Unspawned next → Unspawned (b.phase j)) (h : Unspawned ((b.goes j next w).phase k)) :
    Unspawned (b.phase k) := by
  by_cases hk : k = j
  · rw [hk, SessionNew.goes_phase_self] at h
    rw [hk]
    exact hnext h
  · rw [SessionNew.goes_phase_of_ne hk] at h
    exact h

theorem Inv.quiet (h : Inv cmds s)
    (hrows : ∀ uri kind r, base.world.uris.lookup uri = some (.entity kind r) ↔ s.world.uris.lookup uri = some (.entity kind r))
    (hphase : ∀ k, Unspawned (base.phase k) → Unspawned (s.base.phase k)) :
    Inv cmds (s.goes rt base calls written) where
  rows uri kind r hrow := h.rows uri kind r ((hrows uri kind r).mp hrow)
  documents := h.documents
  noRow k hk kind r hrow := h.noRow k (hphase k hk) kind r ((hrows _ kind r).mp hrow)
  noFile k hk := h.noFile k (hphase k hk)

theorem not_mem_ended (h : sid ∉ (s.goes rt base calls written).ended) : sid ∉ s.ended :=
  fun hin => h (List.mem_append_right _ hin)

theorem Unattached.quiet (h : Unattached s) (hq : Quiet s.world base.world) :
    Unattached (s.goes rt base calls written) := by
  rintro sid r ⟨hrow, hended⟩ hin
  exact h sid r ⟨(hq.rows _ _ _).mp hrow, not_mem_ended hended⟩ (hq.attached sid hin)

theorem ended_goes (h : base.world.sessions = s.world.sessions) :
    (s.goes rt base calls written).ended = s.ended := by
  have hnone : stopped s.world base.world = [] := by
    rw [stopped, h, List.filter_eq_nil_iff]
    intro sid hin
    simpa using hin
  change stopped s.world base.world ++ s.ended = s.ended
  rw [hnone, List.nil_append]

theorem unattached_attach (h : Unattached s) (hsessions : base.world.sessions = s.world.sessions)
    (hrouting : base.world.routing = attachSession s.world.routing key uuid)
    (huris : base.world.uris = s.world.uris) :
    Unattached (s.goes rt base calls written) ↔ ∀ r, ¬Live s uuid r := by
  have hlive : ∀ sid r, Live (s.goes rt base calls written) sid r ↔ Live s sid r := by
    intro sid r
    unfold Live
    rw [ended_goes hsessions]
    change base.world.uris.lookup _ = _ ∧ _ ↔ _
    rw [huris]
  have hin : ∀ sid, Attached (s.goes rt base calls written).world.routing sid ↔
      sid = uuid ∨ Attached s.world.routing sid := by
    intro sid
    change Attached base.world.routing sid ↔ _
    rw [hrouting]
    exact attached_attachSession
  constructor
  · intro hun r hr
    exact hun uuid r ((hlive uuid r).mpr hr) ((hin uuid).mpr (.inl rfl))
  · intro hno sid r hr hatt
    rcases (hin sid).mp hatt with rfl | hold
    · exact hno r ((hlive sid r).mp hr)
    · exact h sid r ((hlive sid r).mp hr) hold

theorem unattached_putEntity (h : Unattached s) {r : Struct}
    (hsessions : base.world.sessions = s.world.sessions)
    (hrouting : base.world.routing = s.world.routing)
    (huris : base.world.uris = putEntity s.world.uris (canonicalUri uuid) "session" r) :
    Unattached (s.goes rt base calls written) ↔
      uuid ∈ s.ended ∨ ¬Attached s.world.routing uuid := by
  have hended : (s.goes rt base calls written).ended = s.ended := ended_goes hsessions
  have hlookup : ∀ uri, (s.goes rt base calls written).world.uris.lookup uri =
      if uri = canonicalUri uuid then some (.entity "session" r) else s.world.uris.lookup uri := by
    intro uri
    change base.world.uris.lookup uri = _
    rw [huris]
    exact Ets.lookup_insert _ _ _ _
  have hatt : (s.goes rt base calls written).world.routing = s.world.routing := hrouting
  constructor
  · intro hun
    by_cases hin : uuid ∈ s.ended
    · exact .inl hin
    · refine .inr ?_
      rw [← hatt]
      exact hun uuid r ⟨(hlookup _).trans (if_pos rfl), by rwa [hended]⟩
  · rintro hor sid r' ⟨hrow, hnot⟩
    rw [hended] at hnot
    rw [hatt]
    rw [hlookup] at hrow
    by_cases hsid : canonicalUri sid = canonicalUri uuid
    · obtain rfl := SessionUris.canonicalUri_injective hsid
      exact hor.resolve_left hnot
    · rw [if_neg hsid] at hrow
      exact h sid r' ⟨hrow, hnot⟩

theorem entity_putEntity {t : SessionStore} {uri kind : String} {r r' : Struct}
    (h : (putEntity t (canonicalUri uuid) "session" r').lookup uri = some (.entity kind r)) :
    t.lookup uri = some (.entity kind r) ∨ (uri = canonicalUri uuid ∧ r = r') := by
  unfold putEntity at h
  rw [Ets.lookup_insert] at h
  split at h
  · rename_i huri
    obtain ⟨-, rfl⟩ := Row.entity.inj (Option.some.inj h)
    exact .inr ⟨huri, rfl⟩
  · exact .inl h

theorem unattached_ensure (hun : Unattached s)
    (hsessions : base.world.sessions = s.world.sessions)
    (hrouting : base.world.routing = s.world.routing)
    (huris : base.world.uris = SessionUris.ensureSessionCanonical Struct.blank s.world.uris uuid) :
    Unattached (s.goes rt base calls written) ↔
      uuid ∈ s.ended ∨ ¬Attached s.world.routing uuid := by
  unfold SessionUris.ensureSessionCanonical at huris
  split at huris
  · rename_i hkind
    have hrow : ∃ r, s.world.uris.lookup (canonicalUri uuid) = some (.entity "session" r) := by
      unfold isOfKind at hkind
      split at hkind
      · rename_i kind r hrow
        obtain rfl := of_decide_eq_true hkind
        exact ⟨r, hrow⟩
      · cases hkind
    obtain ⟨r, hrow⟩ := hrow
    refine iff_of_true (hun.quiet ((quiet_refl s.world).of_eq hrouting huris)) ?_
    by_cases hended : uuid ∈ s.ended
    · exact .inl hended
    · exact .inr (hun uuid r ⟨hrow, hended⟩)
  · exact unattached_putEntity hun hsessions hrouting huris

/-! ## The steps -/

variable [DecidableEq J]

/-- A step that attaches nothing and does not write what the invariant is about. -/
structure QuietStep (rt : Runtime) (cmds : Commands J Config) (b b' : SessionNew.State J Config)
    (a : SessionNew.Act J Config) : Prop where
  world : Quiet b.world b'.world
  phases : ∀ k, Unspawned (b'.phase k) → Unspawned (b.phase k)
  documents : ∀ documents, documentsAfter cmds documents a = documents
  leaves : ∀ s written, Unattaching rt cmds s (.create a written)

section
variable {b b' : SessionNew.State J Config} {a : SessionNew.Act J Config} {j : J}
  {next : SessionNew.Phase}

omit [DecidableEq J] in
theorem not_unspawned (h : next ∉ [SessionNew.Phase.waiting, .checked]) : ¬Unspawned next := by
  rintro (rfl | rfl)
  · exact h (by decide)
  · exact h (by decide)

theorem QuietStep.of_goes (hw : Quiet b.world w) (hnext : Unspawned next → Unspawned (b.phase j))
    (hb : some (b.goes j next w) = some b')
    (hdocuments : ∀ documents, documentsAfter cmds documents a = documents)
    (hleaves : ∀ s written, Unattaching rt cmds s (.create a written)) :
    QuietStep rt cmds b b' a := by
  obtain rfl := Option.some.inj hb
  exact ⟨hw, fun k => unspawned_goes hnext, hdocuments, hleaves⟩

theorem QuietStep.later (hw : Quiet b.world w) (hnext : next ∉ [SessionNew.Phase.waiting, .checked])
    (hb : some (b.goes j next w) = some b')
    (hdocuments : ∀ documents, documentsAfter cmds documents a = documents)
    (hleaves : ∀ s written, Unattaching rt cmds s (.create a written)) :
    QuietStep rt cmds b b' a :=
  .of_goes hw (fun hn => absurd hn (not_unspawned hnext)) hb hdocuments hleaves

end

/-- What a step of a command that creates a session is: it enters the session in a chat,
writes its row, or does neither. -/
theorem create_cases {b b' : SessionNew.State J Config} {a : SessionNew.Act J Config}
    (h : SessionNew.step rt.toEnd.toRuntime cmds b a = some b') :
    QuietStep rt cmds b b' a ∨
    ∃ j next, ¬Unspawned next ∧
      ((a = .spawn j ∧ b.phase j = .checked ∧ b' = b.goes j next ((cmds.cmd j).spawn b.world).2) ∨
        (a = .writeRow j ∧ b' = b.goes j next { b.world with
          uris := SessionUris.ensureSessionCanonical Struct.blank b.world.uris (cmds.cmd j).sid }) ∨
        (a = .persist j .written ∧ b' = b.goes j next (b.world.record (cmds.cmd j).record)) ∨
        (a = .attach j ∧ b' = b.goes j next ((cmds.cmd j).attach b.world))) := by
  have refl := quiet_refl b.world
  unfold SessionNew.step at h
  cases a with
  | refuse j =>
    dsimp only at h
    split at h
    · exact .inl (.later refl (by decide) h (fun _ => rfl) fun _ _ => trivial)
    · cases h
  | check j =>
    dsimp only at h
    split at h
    · rename_i hphase
      split at h <;>
        · exact .inl (.of_goes refl (fun _ => .inl hphase) h (fun _ => rfl) fun _ _ => trivial)
    · cases h
  | spawn j =>
    dsimp only at h
    split at h
    · rename_i hphase
      refine .inr ⟨j, _, ?_, .inl ⟨rfl, hphase, (Option.some.inj h).symm⟩⟩
      cases ((cmds.cmd j).spawn b.world).1 with
      | false => exact not_unspawned (by decide)
      | true => exact not_unspawned (by decide)
    · cases h
  | claim j =>
    dsimp only at h
    split at h
    · split at h
      · exact .inl (.later refl (by decide) h (fun _ => rfl) fun _ _ => trivial)
      · split at h
        · exact .inl (.later refl (by decide) h (fun _ => rfl) fun _ _ => trivial)
        · exact .inl (.later refl (by simp) h (fun _ => rfl) fun _ _ => trivial)
    · cases h
  | writeRow j =>
    dsimp only at h
    split at h
    · exact .inr ⟨j, _, not_unspawned (by simp), .inr (.inl ⟨rfl, (Option.some.inj h).symm⟩)⟩
    · cases h
  | writeAlias j =>
    dsimp only at h
    split at h
    · exact .inl (.later (quiet_putOrIgnoreAlias b.world _ _) (by simp) h (fun _ => rfl) fun _ _ => trivial)
    · cases h
  | bind j =>
    dsimp only at h
    split at h
    · split at h
      · rename_i w hw
        exact .inl (.later (quiet_bindSession hw) (by decide) h (fun _ => rfl) fun _ _ => trivial)
      · exact .inl (.later refl (by decide) h (fun _ => rfl) fun _ _ => trivial)
    · cases h
  | persist j disk =>
    dsimp only at h
    split at h
    · exact .inr ⟨j, _, not_unspawned (by decide), .inr (.inr (.inl ⟨rfl, (Option.some.inj h).symm⟩))⟩
    · exact .inl (.later refl (by decide) h (fun _ => rfl) fun _ _ => trivial)
    · exact .inl (.later refl (by decide) h (fun _ => rfl) fun _ _ => trivial)
    · cases h
  | attach j =>
    dsimp only at h
    split at h
    · exact .inr ⟨j, _, not_unspawned (by decide), .inr (.inr (.inr ⟨rfl, (Option.some.inj h).symm⟩))⟩
    · cases h
  | rollback j =>
    dsimp only at h
    split at h
    · exact .inl (.later (quiet_rollback rt.toEnd.toRuntime _ b.world) (by decide) h (fun _ => rfl) fun _ _ => trivial)
    · cases h
  | workspaces t =>
    obtain rfl := Option.some.inj h
    exact .inl ⟨refl.of_eq rfl rfl, fun _ => id, fun _ => rfl, fun _ _ => trivial⟩

theorem Inv.goes (h : Inv cmds s) {j : J} {documents : Ets String Entries}
    (hnext : ¬Unspawned next)
    (hrows : ∀ uri kind r, w.uris.lookup uri = some (.entity kind r) → s.world.uris.lookup uri = some (.entity kind r) ∨ (uri = canonicalUri (cmds.cmd j).sid ∧ r.attachedChats = []))
    (hdocuments : documents = s.documents ∨ documents = s.documents.insert (cmds.cmd j).sid (document (cmds.cmd j).record)) :
    Inv cmds { s.goes rt (s.base.goes j next w) calls written with documents := documents } := by
  have hother : ∀ k, Unspawned ((s.base.goes j next w).phase k) →
      (cmds.cmd k).sid ≠ (cmds.cmd j).sid ∧ Unspawned (s.base.phase k) := by
    intro k hk
    refine ⟨cmds.sid_ne ?_, unspawned_goes (fun hn => absurd hn hnext) hk⟩
    rintro rfl
    rw [SessionNew.goes_phase_self] at hk
    exact hnext hk
  constructor
  · intro uri kind r hrow
    rcases hrows uri kind r hrow with hold | ⟨-, hno⟩
    · exact h.rows uri kind r hold
    · exact hno
  · intro sid doc hdoc
    rcases hdocuments with rfl | rfl
    · exact h.documents sid doc hdoc
    · rw [Ets.lookup_insert] at hdoc
      by_cases hsid : sid = (cmds.cmd j).sid
      · rw [if_pos hsid] at hdoc
        exact ⟨j, hsid, (Option.some.inj hdoc).symm⟩
      · rw [if_neg hsid] at hdoc
        exact h.documents sid doc hdoc
  · intro k hk kind r hrow
    obtain ⟨hsid, hunspawned⟩ := hother k hk
    rcases hrows _ kind r hrow with hold | ⟨huri, -⟩
    · exact h.noRow k hunspawned kind r hold
    · exact hsid (SessionUris.canonicalUri_injective huri)
  · intro k hk
    obtain ⟨hsid, hunspawned⟩ := hother k hk
    rcases hdocuments with rfl | rfl
    · exact h.noFile k hunspawned
    · change (s.documents.insert _ _).lookup _ = none
      rw [Ets.lookup_insert_of_ne _ _ hsid]
      exact h.noFile k hunspawned

theorem Inv.unattached_spawn (h : Inv cmds s) (hun : Unattached s) {j : J}
    (hphase : s.base.phase j = .checked) :
    Unattached (s.goes rt (s.base.goes j next ((cmds.cmd j).spawn s.world).2) calls written) := by
  rintro sid r ⟨hrow, hended⟩ hin
  have hold : s.world.uris.lookup (canonicalUri sid) = some (.entity "session" r) := by
    rw [← SessionNew.spawn_uris (cmds.cmd j) s.world]
    exact hrow
  rcases attached_spawn hin with rfl | hatt
  · exact h.noRow j (.inr hphase) "session" r hold
  · exact hun sid r ⟨hold, not_mem_ended hended⟩ hatt

/-- **One step**: the invariant is kept, and no live session is attached afterwards if
and only if the step attaches none. -/
theorem Inv.create (h : Inv cmds s) (hun : Unattached s) {a : SessionNew.Act J Config}
    (hs : step rt cmds s (.create a written) = some s') :
    Inv cmds s' ∧ (Unattached s' ↔ Unattaching rt cmds s (.create a written)) := by
  obtain ⟨base, hbase, rfl⟩ := Option.map_eq_some_iff.mp hs
  -- the sessions' files are not looked at
  change Inv cmds _ ∧ (Unattached (s.goes rt base
    (callsRouting cmds s.world base.world a) written) ↔ _)
  rcases create_cases hbase with ⟨hquiet, hphase, hdocuments, hleaves⟩ |
    ⟨j, next, hnext, hcases⟩
  · rw [hdocuments]
    exact ⟨h.quiet hquiet.rows hphase, iff_of_true (hun.quiet hquiet) (hleaves s written)⟩
  · rcases hcases with ⟨rfl, hchecked, rfl⟩ | ⟨rfl, rfl⟩ | ⟨rfl, rfl⟩ | ⟨rfl, rfl⟩
    · refine ⟨h.goes hnext (fun uri kind r hrow => .inl ?_) (.inl rfl),
        iff_of_true (h.unattached_spawn hun hchecked) trivial⟩
      change s.base.world.uris.lookup uri = _
      rw [← SessionNew.spawn_uris (cmds.cmd j) s.base.world]
      exact hrow
    · refine ⟨h.goes hnext (fun uri kind r hrow => ?_) (.inl rfl),
        unattached_ensure hun rfl rfl rfl⟩
      change (SessionUris.ensureSessionCanonical Struct.blank s.world.uris _).lookup uri = _ at hrow
      unfold SessionUris.ensureSessionCanonical at hrow
      split at hrow
      · exact .inl hrow
      · exact (entity_putEntity hrow).imp_right fun hnew => ⟨hnew.1, by rw [hnew.2]; rfl⟩
    · refine ⟨h.goes hnext (fun uri kind r hrow => ?_) (.inr rfl),
        unattached_putEntity hun rfl rfl rfl⟩
      exact (entity_putEntity hrow).imp_right fun hnew => ⟨hnew.1, by rw [hnew.2]; rfl⟩
    · refine ⟨h.goes hnext (fun uri kind r hrow => .inl ?_) (.inl rfl), ?_⟩
      · rw [SessionNew.attach_uris] at hrow
        exact hrow
      · have hattach : (cmds.cmd j).attach s.world =
            if callsRouting cmds s.world s.world (.attach j) = true then
              { s.world with
                routing := attachSession s.world.routing
                  ((cmds.cmd j).args.chatId, (cmds.cmd j).args.appId) (cmds.cmd j).sid }
            else s.world := attach_eq j s.world s.world
        by_cases hcalls : callsRouting cmds s.world s.world (.attach j) = true
        · rw [if_pos hcalls] at hattach
          have hleaves : Unattaching rt cmds s (.create (.attach j) written) ↔
              ∀ r, ¬Live s (cmds.cmd j).sid r := forall_prop_of_true hcalls
          have hrouting := congrArg (fun w => w.routing) hattach
          have hsessions := congrArg (fun w => w.sessions) hattach
          exact (unattached_attach hun hsessions hrouting (SessionNew.attach_uris _ _)).trans
            hleaves.symm
        · rw [if_neg hcalls] at hattach
          refine iff_of_true (hun.quiet ?_) fun hyes => absurd hyes hcalls
          change Quiet s.world ((cmds.cmd j).attach s.world)
          rw [hattach]
          exact quiet_refl s.world

omit [DecidableEq J] in
theorem unattached_bindChat (hun : Unattached s) (grants : Grants.Table) (cmd : Value) :
    Unattached (s.goes rt { s.base with world := bindChat rt grants cmd s.world } calls written) ↔
      ∀ key uuid, bindTarget rt grants cmd s.world = .ok (key, uuid) → ∀ r, ¬Live s uuid r := by
  cases htarget : bindTarget rt grants cmd s.world with
  | error e =>
    have hsame : bindChat rt grants cmd s.world = s.world := by
      unfold bindChat
      rw [htarget]
    rw [hsame]
    exact iff_of_true (hun.quiet (quiet_refl s.world)) nofun
  | ok target =>
    obtain ⟨key, uuid⟩ := target
    have hbind : bindChat rt grants cmd s.world =
        { s.world with routing := attachSession s.world.routing key uuid } := by
      unfold bindChat
      rw [htarget]
    rw [hbind]
    have hattach : Unattached (s.goes rt { s.base with world := { s.world with
          routing := attachSession s.world.routing key uuid } } calls written) ↔
        ∀ r, ¬Live s uuid r := unattached_attach hun rfl rfl rfl
    refine hattach.trans ?_
    constructor
    · intro hno key' uuid' he
      obtain ⟨-, rfl⟩ := Prod.mk.inj (Except.ok.inj he)
      exact hno
    · exact fun hno => hno key uuid rfl

omit [DecidableEq J] in
theorem Inv.of_mem_loaded (h : Inv cmds s) {r : Struct} (hr : r ∈ loaded s.documents) :
    r.attachedChats = [] ∧ s.documents.lookup r.id ≠ none := by
  obtain ⟨sid, doc, hdoc, hload⟩ := mem_loaded hr
  obtain ⟨j, rfl, rfl⟩ := h.documents sid doc hdoc
  obtain ⟨hid, hchats⟩ := loadDocument_document (s := (cmds.cmd j).record) rfl hload
  refine ⟨hchats, ?_⟩
  rw [show r.id = (cmds.cmd j).sid from hid, hdoc]
  exact Option.some_ne_none _

theorem Inv.restart (h : Inv cmds s) {w : Places Config}
    (hs : step rt cmds s (.restart w) = some s') :
    Inv cmds s' ∧ (Unattached s' ↔ Unattaching rt cmds s (.restart w)) := by
  obtain rfl := Option.some.inj hs
  have hmem : ∀ {uri kind r}, ((loaded s.documents).foldl SessionLoad.writeRow Ets.empty).lookup
      uri = some (.entity kind r) → r ∈ loaded s.documents ∧ uri = canonicalUri r.id :=
    fun hrow => (SessionLoad.mem_of_lookup_foldl hrow).resolve_right nofun
  have hwaits : ∀ {phase}, Unspawned (interrupted phase) → Unspawned phase := by
    intro phase hphase
    cases phase <;> first | exact .inl rfl | exact .inr rfl | (rcases hphase with hp | hp <;> cases hp)
  refine ⟨⟨?_, h.documents, ?_, fun j hj => h.noFile j (hwaits hj)⟩, ?_⟩
  · intro uri kind r hrow
    exact (h.of_mem_loaded (hmem hrow).1).1
  · intro j hj kind r hrow
    obtain ⟨hr, huri⟩ := hmem hrow
    refine (h.of_mem_loaded hr).2 ?_
    rw [← SessionUris.canonicalUri_injective huri]
    exact h.noFile j (hwaits hj)
  · constructor
    · intro hun r hr
      obtain ⟨last, -, hrow⟩ := SessionLoad.exists_lookup_foldl (t := Ets.empty) hr
      by_cases hended : r.id ∈ s.ended
      · exact .inl hended
      · exact .inr (hun r.id last ⟨hrow, hended⟩)
    · rintro hleaves sid r ⟨hrow, hended⟩
      obtain ⟨hr, huri⟩ := hmem hrow
      obtain rfl := SessionUris.canonicalUri_injective huri
      exact (hleaves r hr).resolve_left hended

/-- **One step**: the invariant is kept, and no live session is attached afterwards if
and only if the step attaches none. -/
theorem Inv.step (h : Inv cmds s) (hun : Unattached s) {a : Act J Config}
    (hs : step rt cmds s a = some s') :
    Inv cmds s' ∧ (Unattached s' ↔ Unattaching rt cmds s a) := by
  cases a with
  | create a written => exact h.create hun hs
  | bindChat grants cmd written =>
    obtain rfl := Option.some.inj hs
    refine ⟨h.quiet (fun uri kind r => ?_) fun _ => id, unattached_bindChat hun grants cmd⟩
    change (bindChat rt grants cmd s.world).uris.lookup uri = _ ↔ _
    unfold bindChat
    split <;> exact Iff.rfl
  | unbindChat cmd written =>
    obtain rfl := Option.some.inj hs
    have hquiet := quiet_unbindChat rt cmd s.world
    exact ⟨h.quiet hquiet.rows fun _ => id, iff_of_true (hun.quiet hquiet) trivial⟩
  | endSession cmd written =>
    obtain rfl := Option.some.inj hs
    have hquiet := quiet_execute rt.toEnd cmd s.world
    exact ⟨h.quiet hquiet.rows fun _ => id, iff_of_true (hun.quiet hquiet) trivial⟩
  | restart w => exact h.restart hs

/-- **Where the attached chats have one truth**: in every run whose steps attach no live
session, the rows and the routing table agree, and after the next step they agree exactly
if that step attaches none either. -/
theorem oneTruth_unattaching (h : Reaches (step rt cmds) (Unattaching rt cmds) start s) :
    OneTruth s ∧ ∀ a s', step rt cmds s a = some s' → (OneTruth s' ↔ Unattaching rt cmds s a) := by
  have hinv : Inv cmds s ∧ Unattached s := by
    refine @Reaches.invariant _ _ _ _ _ _ (fun s => Inv cmds s ∧ Unattached s) h
      ⟨inv_start, fun _ _ hlive => nomatch hlive.1⟩ ?_
    rintro u a u' ⟨hu, hun⟩ hok hs
    obtain ⟨hu', hiff⟩ := hu.step hun hs
    exact ⟨hu', hiff.mpr hok⟩
  obtain ⟨hs, hun⟩ := hinv
  refine ⟨hs.oneTruth_iff.mpr hun, fun a s' hstep => ?_⟩
  obtain ⟨hs', hiff⟩ := hs.step hun hstep
  exact hs'.oneTruth_iff.trans hiff

end Runs

/-! ## A session of the command line, and one of a chat -/

/-- Nothing but what the commands need. -/
def bare : Runtime where
  toRuntime := SessionPlaces.Runtime.plain
  worktreeStatus _ := none
  worktreeRemove _ _ := false
  home := true
  readFromFile _ := .error "no file"

/-- The session `dev`, created from the command line. -/
def fromCli : Commands Unit Unit where
  cmd _ := SessionNew.devCmd "s1"
  sid_injective _ _ _ := rfl
  cleanId := by decide

/-- A session that is created from the command line is attached to no chat, and its row
says so. -/
theorem oneTruth_fromCli : ∃ s, s.base.phase () = .done ∧ OneTruth s ∧
    ∀ a s', step bare fromCli s a = some s' → (OneTruth s' ↔ Unattaching bare fromCli s a) := by
  have hrun : ∃ s, Reaches (step bare fromCli) (Unattaching bare fromCli) start s ∧
      s.base.phase () = .done := by
    refine ⟨_, ⟨_, .cons (a := .create (.check ()) true) ?_ rfl
      (.cons (a := .create (.spawn ()) true) ?_ rfl
        (.cons (a := .create (.claim ()) true) ?_ rfl
          (.cons (a := .create (.bind ()) true) ?_ rfl
            (.cons (a := .create (.persist () .written) true) ?_ rfl
              (.cons (a := .create (.attach ()) true) ?_ rfl .nil)))))⟩, rfl⟩
    · trivial
    · trivial
    · trivial
    · trivial
    · refine .inr ?_
      rintro ⟨key, slot, hrow, -⟩
      cases hrow
    · intro hcalls
      cases hcalls
  obtain ⟨s, hreach, hdone⟩ := hrun
  exact ⟨s, hdone, oneTruth_unattaching hreach⟩

/-- The session `dev`, created in a chat. -/
def fromChat : Commands Unit Unit where
  cmd _ := { SessionNew.devCmd "s1" with
    args := ⟨some "dev", none, none, none, "", some "cc", "oc_dev", "cli_a1"⟩ }
  sid_injective _ _ _ := rfl
  cleanId := by decide

/-- **A session that is created in a chat is attached to it, and its row has no chat.** -/
theorem not_oneTruth_fromChat :
    ¬∀ s, Reaches (step bare fromChat) anyStep start s → OneTruth s := by
  intro h
  have hrun : ∃ s, Reaches (step bare fromChat) anyStep start s ∧
      Live s "s1" (fromChat.cmd ()).record ∧ AttachedTo s.world.routing "s1" ("oc_dev", "cli_a1") :=
    ⟨_, Reaches.of_exec (show exec (step bare fromChat) anyStep start
      [.create (.check ()) true, .create (.spawn ()) true, .create (.claim ()) true,
        .create (.bind ()) true, .create (.persist () .written) true,
        .create (.attach ()) true] = some _ from rfl),
      ⟨rfl, by decide +kernel⟩, ⟨_, rfl, by decide +kernel⟩⟩
  obtain ⟨s, hreach, hlive, hattached⟩ := hrun
  exact (agrees_iff rfl).mp (h s hreach "s1" _ hlive) ⟨_, hattached⟩

end AttachedChats
end Esr
