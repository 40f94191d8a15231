import Esr.SessionPlaces

/-! # Many sessions created at the same time

`session_new` checks that its name is free, spawns the session, and only then claims
its aliases, binds it to the workspace and persists it, which writes the row that makes
the name taken.  Each command runs in a task of its own.  A step that fails after the
spawn is followed by `rollback_spawn/1`, which has the Router end the session.

`correct_of_orderly`: no owner has two sessions of one name, no command raises, and of a
session whose creation failed nothing is left, in every run in which two commands with
one owner and name are not between check and persist at once, and a step fails only
where the steps before it have put the session in no place that `end_session/1` does
not clear.
-/
namespace Esr
namespace SessionNew
open Yaml UriStore SessionPlaces
open ChatRouting (Key MapSetOrder attachSession)
open SessionUris (Components canonicalUri CleanId)
open WorkspaceUris (WorkspaceStore uuidForWorkspaceName workspaceByUuid)

/-- The arguments, with the placeholder `pending` where there is no chat. -/
structure Args where
  name : Option String
  username : Option String
  workspace : Option String
  worktree : Option String
  workspaceId : String
  agent : Option String
  chatId : String
  appId : String

/-- A command, once its template is materialized: `env` has the answers it gets while
its session is spawned, and the id of the session. -/
structure Cmd (Config : Type) where
  submitter : String
  args : Args
  agentDef : SessionCreate.AgentDef
  env : SessionCreate.Env Config

/-- The commands.  The ids of the sessions are generated. -/
structure Commands (J Config : Type) where
  cmd : J → Cmd Config
  sid_injective : Function.Injective fun j => (cmd j).env.sid
  cleanId : ∀ j, CleanId (cmd j).env.sid

/-- How a command stands.  `clear`: it has found its aliases free, and will write the
session's row if there is none.  `writing`: it has the aliases `todo` still to write.
`rollingBack`: a step has failed.  `refused`: there is no session and an error. -/
inductive Phase where
  | waiting
  | checked
  | spawned
  | clear (c : Components)
  | writing (todo : List String)
  | bound
  | persisted
  | rollingBack
  | done
  | failed
  | refused
  | crashed
  deriving DecidableEq

/-- How the write of `session.json` goes.  `mkdir_p!` raises, and the write returns. -/
inductive Disk where
  | written
  | failed
  | raises
  deriving DecidableEq

structure State (J Config : Type) where
  world : Places Config
  phase : J → Phase

/-- A step of a command, or another command that leaves any workspaces. -/
inductive Act (J Config : Type) where
  | refuse (j : J)
  | check (j : J)
  | spawn (j : J)
  | claim (j : J)
  | writeRow (j : J)
  | writeAlias (j : J)
  | bind (j : J)
  | persist (j : J) (disk : Disk)
  | attach (j : J)
  | rollback (j : J)
  | workspaces (t : WorkspaceStore WorkspaceStruct.Struct)

/-! ## The steps of a command -/

section Steps
variable {Config : Type}

def nonEmpty (s : Option String) : Option String := s.filter fun s => s ≠ ""

/-- The components of the session's aliases, if the command has all of them. -/
def Args.components (a : Args) (env : String) : Option Components := do
  let name ← nonEmpty a.name
  let username ← nonEmpty a.username
  let workspace ← nonEmpty a.workspace
  let worktree ← nonEmpty a.worktree
  return ⟨env, username, workspace, name, some worktree⟩

namespace Cmd
variable (c : Cmd Config)

def sid : String := c.env.sid

def chatBound : Bool := c.args.chatId ≠ "pending"

/-- The parameters given to the Router. -/
def params : SessionCreate.Params where
  agent := c.args.agent.or (c.args.workspace.map fun _ => "cc")
  agentDef := some c.agentDef
  chatId := some c.args.chatId
  appId := some c.args.appId
  workspaceName := c.args.workspace
  startCmd := none

/-- The spawn registers an agent of the session. -/
def registersAgent : Bool := c.chatBound && c.env.instancesUp

/-- `spawn_session/10`: whether there is a session then. -/
def spawn (w : Places Config) : Bool × Places Config :=
  if c.chatBound then
    let created := SessionCreate.createSession c.env c.params w.toWorld
    (created.2 = .ok c.sid, { w with toWorld := created.1 })
  else
    match c.env.startSup with
    | .started => (true, { w with sessions := c.sid :: w.sessions })
    | _ => (false, w)

/-- What is persisted. -/
def record : Struct :=
  { Struct.blank c.sid with
    name := .str (c.args.name.getD "")
    ownerUser := .str c.submitter
    workspaceId := .str c.args.workspaceId }

/-- `maybe_attach_chat/3`. -/
def attach (w : Places Config) : Places Config :=
  let key := (c.args.chatId, c.args.appId)
  if c.args.chatId ∉ ["", "pending"] ∧ c.args.appId ∉ ["", "pending"] ∧
      ChatRouting.current w.routing key ≠ some c.sid then
    { w with routing := attachSession w.routing key c.sid }
  else w

end Cmd

variable (rt : Runtime)

/-- Somebody else has an alias of the claim. -/
def refusesClaim (w : Places Config) (sid : String) (c : Components) : Bool :=
  (SessionUris.collision sid
    (SessionUris.resolveSessionAlias rt.plugins.dispatch w.uris c.nameAlias)
    (c.worktreeAlias.bind (SessionUris.resolveSessionAlias rt.plugins.dispatch w.uris))).isSome

/-- `bind_session_to_workspace/2` and `SessionBindings.bind_session/2`, with `none` when
the workspace is gone. -/
def bindSession (c : Cmd Config) (w : Places Config) : Option (Places Config) :=
  match nonEmpty c.args.workspace with
  | none => some w
  | some name =>
      match (uuidForWorkspaceName rt.plugins.dispatch w.workspaces name).filter fun wsId =>
          (workspaceByUuid rt.plugins.dispatch w.workspaces wsId).isSome with
      | some wsId => some { w with bindings := w.bindings.bind wsId c.sid }
      | none => none

/-- `rollback_spawn/1`, which drops the answer. -/
def rollback (sid : String) (w : Places Config) : Places Config :=
  (endSession rt.order sid w).getD w

variable {J : Type} [DecidableEq J] (cmds : Commands J Config)

/-- The command goes on, in another world. -/
def State.goes (s : State J Config) (j : J) (next : Phase) (w : Places Config) :
    State J Config where
  world := w
  phase := Function.update s.phase j next

/-- One step. -/
def step (s : State J Config) : Act J Config → Option (State J Config)
  | .refuse j =>
      match s.phase j with
      | .waiting => some (s.goes j .refused s.world)
      | _ => none
  | .check j =>
      match s.phase j with
      | .waiting =>
          let c := cmds.cmd j
          if nameTaken s.world.uris c.submitter c.args.name then
            some (s.goes j .refused s.world)
          else some (s.goes j .checked s.world)
      | _ => none
  | .spawn j =>
      match s.phase j with
      | .checked =>
          let spawned := (cmds.cmd j).spawn s.world
          some (s.goes j (if spawned.1 then .spawned else .refused) spawned.2)
      | _ => none
  | .claim j =>
      match s.phase j with
      | .spawned =>
          match (cmds.cmd j).args.components rt.currentInstance with
          | none => some (s.goes j (.writing []) s.world)
          | some c =>
              if refusesClaim rt s.world (cmds.cmd j).sid c then
                some (s.goes j .rollingBack s.world)
              else some (s.goes j (.clear c) s.world)
      | _ => none
  | .writeRow j =>
      match s.phase j with
      | .clear c =>
          some (s.goes j (.writing c.aliases) { s.world with
            uris := SessionUris.ensureSessionCanonical Struct.blank s.world.uris (cmds.cmd j).sid })
      | _ => none
  | .writeAlias j =>
      match s.phase j with
      | .writing (a :: todo) =>
          some (s.goes j (.writing todo) { s.world with
            uris := SessionUris.putOrIgnoreAlias s.world.uris a (canonicalUri (cmds.cmd j).sid) })
      | _ => none
  | .bind j =>
      match s.phase j with
      | .writing [] =>
          match bindSession rt (cmds.cmd j) s.world with
          | some w => some (s.goes j .bound w)
          | none => some (s.goes j .rollingBack s.world)
      | _ => none
  | .persist j disk =>
      match s.phase j, disk with
      | .bound, .written => some (s.goes j .persisted (s.world.record (cmds.cmd j).record))
      | .bound, .failed => some (s.goes j .rollingBack s.world)
      | .bound, .raises => some (s.goes j .crashed s.world)
      | _, _ => none
  | .attach j =>
      match s.phase j with
      | .persisted => some (s.goes j .done ((cmds.cmd j).attach s.world))
      | _ => none
  | .rollback j =>
      match s.phase j with
      | .rollingBack => some (s.goes j .failed (rollback rt (cmds.cmd j).sid s.world))
      | _ => none
  | .workspaces t => some { s with world := { s.world with workspaces := t } }

end Steps

/-! ## What is claimed -/

section Spec
variable {Config J : Type} (cmds : Commands J Config)

/-- Nothing of the session is left. -/
structure Gone (w : Places Config) (sid : String) : Prop where
  supervisor : sid ∉ w.sessions
  chats : Unrouted w.routing sid
  aliases : Unaliased w.uris sid
  row : w.uris.lookup (canonicalUri sid) = none
  binding : Unbound w.bindings sid
  instances : ∀ id inst, w.instances.table.lookup id = some inst → sid ∉ inst.sessionIds
  instanceNames : ∀ name, w.instances.nameIndex.lookup (sid, name) = none
  json : sid ∉ w.json

/-- No owner has two sessions of one name. -/
def Unique (t : SessionStore) : Prop :=
  ∀ uri uri' r r' owner name, t.lookup uri = some (.entity "session" r) →
    t.lookup uri' = some (.entity "session" r') → name ≠ "" →
    r.takes owner name = true → r'.takes owner name = true → uri = uri'

/-- Names are unique, a command that has spawned its session does not raise, and of a
session whose creation failed nothing is left. -/
structure Correct (s : State J Config) : Prop where
  unique : Unique s.world.uris
  noCrash : ∀ j, s.phase j ≠ .crashed
  failed : ∀ j, s.phase j = .failed → Gone s.world (cmds.cmd j).sid

/-- Between the check and the persist. -/
def Phase.InWindow : Phase → Bool
  | .checked | .spawned | .clear _ | .writing _ | .bound => true
  | _ => false

/-- The commands are about one session name of one owner. -/
def SameName (c c' : Cmd Config) : Prop :=
  c.submitter = c'.submitter ∧ ∃ name, c.args.name = some name ∧ name ≠ "" ∧
    c'.args.name = some name

/-- A check finds nobody else between check and persist with the same name; and a step
that fails after the spawn has nothing before it that a rollback leaves: no agent was
registered, no row was written for a claim, and no workspace was bound. -/
def Orderly (rt : Runtime) (s : State J Config) : Act J Config → Prop
  | .check j => ∀ k, (s.phase k).InWindow = true → ¬SameName (cmds.cmd j) (cmds.cmd k)
  | .claim j =>
      (∃ c, (cmds.cmd j).args.components rt.currentInstance = some c ∧
        refusesClaim rt s.world (cmds.cmd j).sid c = true) →
      (cmds.cmd j).registersAgent = false
  | .bind j =>
      bindSession rt (cmds.cmd j) s.world = none →
      (cmds.cmd j).registersAgent = false ∧
        (cmds.cmd j).args.components rt.currentInstance = none
  | .persist j disk =>
      disk ≠ .raises ∧ (disk = .failed →
        (cmds.cmd j).registersAgent = false ∧ nonEmpty (cmds.cmd j).args.workspace = none)
  | _ => True

/-- Nobody has begun, the names are unique, and the ids are new. -/
structure Begins (s : State J Config) : Prop where
  waiting : ∀ j, s.phase j = .waiting
  unique : Unique s.world.uris
  new : ∀ j, Gone s.world (cmds.cmd j).sid

end Spec

variable {Config : Type} {sid : String} {w w' : Places Config} {c : Cmd Config} {rt : Runtime}

/-! ## What a step keeps of another session -/

/-- The registry has no agent of the session. -/
def Agentless (i : InstanceRegistry.State Config) (sid : String) : Prop :=
  (∀ id inst, i.table.lookup id = some inst → sid ∉ inst.sessionIds) ∧
    ∀ name, i.nameIndex.lookup (sid, name) = none

/-- The session has its supervisor and its file as before, and is in no other place in
which it was not. -/
structure Same (sid : String) (w w' : Places Config) : Prop where
  supervisor : sid ∈ w'.sessions ↔ sid ∈ w.sessions
  chats : Unrouted w.routing sid → Unrouted w'.routing sid
  aliases : Unaliased w.uris sid → Unaliased w'.uris sid
  row : w.uris.lookup (canonicalUri sid) = none → w'.uris.lookup (canonicalUri sid) = none
  binding : Unbound w.bindings sid → Unbound w'.bindings sid
  agents : Agentless w.instances sid → Agentless w'.instances sid
  json : sid ∈ w'.json ↔ sid ∈ w.json

theorem Gone.agentless (h : Gone w sid) : Agentless w.instances sid :=
  ⟨h.instances, h.instanceNames⟩

theorem Gone.of_same (h : Gone w sid) (hs : Same sid w w') : Gone w' sid where
  supervisor := fun hin => h.supervisor (hs.supervisor.mp hin)
  chats := hs.chats h.chats
  aliases := hs.aliases h.aliases
  row := hs.row h.row
  binding := hs.binding h.binding
  instances := (hs.agents h.agentless).1
  instanceNames := (hs.agents h.agentless).2
  json := fun hin => h.json (hs.json.mp hin)

theorem same_refl (sid : String) (w : Places Config) : Same sid w w :=
  ⟨Iff.rfl, id, id, id, id, id, Iff.rfl⟩

theorem agentless_addInstance {i : InstanceRegistry.State Config}
    {attrs : InstanceRegistry.Attrs Config} (id : String) (hsid : sid ∉ attrs.sessionIds)
    (h : Agentless i sid) : Agentless (InstanceRegistry.addInstance i attrs id).2 sid := by
  unfold InstanceRegistry.addInstance
  split
  · exact h
  · constructor
    · intro id' inst hrow
      change (i.table.insert id _).lookup id' = some inst at hrow
      rw [Ets.lookup_insert] at hrow
      split at hrow
      · obtain rfl := Option.some.inj hrow
        exact hsid
      · exact h.1 id' inst hrow
    · intro name
      change (InstanceRegistry.indexEach i.nameIndex attrs.sessionIds attrs.name id).lookup
        (sid, name) = none
      rw [InstanceRegistry.lookup_indexEach, if_neg fun hin => hsid hin.1]
      exact h.2 name

variable {other : String} {t : SessionStore}

theorem unrouted_attachSession {t : ChatRouting.Table} {key : Key} (hne : sid ≠ other)
    (h : Unrouted t sid) : Unrouted (attachSession t key other) sid := by
  intro key' slot hrow
  unfold attachSession at hrow
  rw [Ets.lookup_insert] at hrow
  split at hrow
  · obtain rfl := Option.some.inj hrow
    have hold : sid ∉ ((t.lookup key).getD ⟨none, ∅⟩).attached ∧
        ((t.lookup key).getD ⟨none, ∅⟩).current ≠ some sid := by
      cases hslot : t.lookup key with
      | none => simp
      | some slot => exact h key slot hslot
    refine ⟨?_, ?_⟩
    · rw [Finset.mem_insert, not_or]
      exact ⟨hne, hold.1⟩
    · intro hcur
      have hcur := Option.some.inj hcur
      cases hold' : ((t.lookup key).getD ⟨none, ∅⟩).current with
      | none =>
        rw [hold'] at hcur
        exact hne hcur.symm
      | some cur =>
        rw [hold'] at hcur
        exact hold.2 (hold'.trans (congrArg some hcur))
  · exact h key' slot hrow

theorem unrouted_detachSessionById_other {t : ChatRouting.Table} {order : MapSetOrder}
    (other : String) (h : Unrouted t sid) :
    Unrouted (ChatRouting.detachSessionById order t other) sid := by
  intro key slot hrow
  rw [ChatRouting.lookup_detachSessionById, Option.bind_eq_some_iff] at hrow
  obtain ⟨old, hold, hd⟩ := hrow
  obtain ⟨hatt, hcur⟩ := h key old hold
  unfold ChatRouting.Slot.detached at hd
  split at hd
  · obtain ⟨-, he⟩ := Option.ite_none_left_eq_some.mp hd
    obtain rfl := Option.some.inj he
    refine ⟨fun hin => hatt (Finset.mem_of_mem_erase hin), fun hnew => ?_⟩
    unfold ChatRouting.Slot.without at hnew
    simp only at hnew
    split at hnew
    · exact hcur hnew
    · split at hnew
      · cases hnew
      · -- the one that becomes current was attached
        have hmem := (order.mem_toList _ _).mp (List.mem_of_head? hnew)
        exact hatt (Finset.mem_of_mem_erase hmem)
  · obtain rfl := Option.some.inj hd
    exact ⟨hatt, hcur⟩

theorem same_spawn (hne : sid ≠ c.sid) (w : Places Config) : Same sid w (c.spawn w).2 := by
  unfold Cmd.spawn
  split
  · let P := fun w' : SessionCreate.World Config =>
      (sid ∈ w'.sessions ↔ sid ∈ w.sessions) ∧ (Unrouted w.routing sid → Unrouted w'.routing sid) ∧
        (Agentless w.instances sid → Agentless w'.instances sid)
    have hkept : P (SessionCreate.createSession c.env c.params w.toWorld).1 := by
      refine SessionCreate.createSession_keeps (P := P) ⟨Iff.rfl, id, id⟩ ?_ (fun _ _ _ => id) ?_ ?_
        (fun _ _ => id) fun _ => id
      · rintro w' ⟨hsup, hrest⟩
        refine ⟨?_, hrest⟩
        rw [← hsup]
        exact List.mem_cons.trans (or_iff_right hne)
      · rintro w' ⟨hsup, hchats, hagents⟩
        exact ⟨hsup, fun h => unrouted_attachSession hne (hchats h), hagents⟩
      · rintro w' agent - ⟨hsup, hchats, hagents⟩
        refine ⟨hsup, hchats, fun h => agentless_addInstance _ ?_ (hagents h)⟩
        rw [show (SessionCreate.primaryAttrs c.env agent).sessionIds = [c.sid] from rfl,
          List.mem_singleton]
        exact hne
    exact ⟨hkept.1, hkept.2.1, id, id, id, hkept.2.2, Iff.rfl⟩
  · split
    · exact ⟨List.mem_cons.trans (or_iff_right hne), id, id, id, id, id, Iff.rfl⟩
    · exact same_refl sid w

theorem same_rollback (hne : sid ≠ other) (w : Places Config) :
    Same sid w (rollback rt other w) := by
  unfold rollback
  cases hend : endSession rt.order other w with
  | none => exact same_refl sid w
  | some w' =>
    obtain ⟨-, hsup, hrouting, huris, hinst, hjson, hbind, -, -⟩ := endSession_eq_some hend
    change Same sid w w'
    constructor
    · rw [hsup, List.mem_filter]
      simp [hne]
    · rw [hrouting]
      exact unrouted_detachSessionById_other other
    · intro h uri howns
      rw [SessionUris.Owns, huris] at howns
      exact h uri (lookup_releaseSessionUri.mp howns).1
    · rw [huris]
      exact lookup_releaseSessionUri_of_none
    · rw [hbind]
      exact id
    · rw [hinst]
      exact id
    · rw [hjson]

theorem same_uris (haliases : Unaliased w.uris sid → Unaliased t sid)
    (hrow : w.uris.lookup (canonicalUri sid) = none → t.lookup (canonicalUri sid) = none) :
    Same sid w { w with uris := t } :=
  ⟨Iff.rfl, id, haliases, hrow, id, id, Iff.rfl⟩

theorem same_putEntity (hne : sid ≠ other) (w : Places Config) (r : Struct) :
    Same sid w { w with uris := putEntity w.uris (canonicalUri other) "session" r } := by
  have hcan : canonicalUri sid ≠ canonicalUri other := fun he =>
    hne (SessionUris.canonicalUri_injective he)
  refine same_uris (fun h uri howns => ?_) fun h => ?_
  · unfold SessionUris.Owns putEntity at howns
    rw [Ets.lookup_insert] at howns
    split at howns
    · cases howns
    · exact h uri howns
  · unfold putEntity
    rw [Ets.lookup_insert_of_ne _ _ hcan]
    exact h

theorem same_ensure (hne : sid ≠ other) (w : Places Config) :
    Same sid w { w with
      uris := SessionUris.ensureSessionCanonical Struct.blank w.uris other } := by
  unfold SessionUris.ensureSessionCanonical
  split
  · exact same_refl sid w
  · exact same_putEntity hne w _

theorem same_putOrIgnoreAlias {a : String} (hne : sid ≠ other) (ha : a ≠ canonicalUri sid)
    (w : Places Config) :
    Same sid w { w with
      uris := SessionUris.putOrIgnoreAlias w.uris a (canonicalUri other) } := by
  refine same_uris (fun h uri howns => ?_) fun h => ?_
  · unfold SessionUris.Owns SessionUris.putOrIgnoreAlias at howns
    rcases putAlias_cases w.uris a (canonicalUri other) with he | ⟨-, -, he⟩
    · rw [he] at howns
      exact h uri howns
    · rw [he, Ets.lookup_insert] at howns
      split at howns
      · have htarget := Row.aliasTo.inj (Option.some.inj howns)
        exact hne (SessionUris.canonicalUri_injective htarget).symm
      · exact h uri howns
  · rw [SessionUris.lookup_putOrIgnoreAlias_of_ne ha.symm]
    exact h

theorem same_bind {wsId : String} (hne : sid ≠ other) (w : Places Config) :
    Same sid w { w with bindings := w.bindings.bind wsId other } := by
  refine ⟨Iff.rfl, id, id, id, fun h => ⟨?_, fun ws hmem => ?_⟩, id, Iff.rfl⟩
  · change (w.bindings.bySid.insert other wsId).lookup sid = none
    rw [Ets.lookup_insert_of_ne _ _ hne]
    exact h.1
  · rcases SessionBindings.Bindings.mem_sessionsFor_bind.mp hmem with ⟨-, he⟩ | hold
    · exact hne he
    · exact h.2 ws hold

theorem same_record (hne : sid ≠ c.sid) (w : Places Config) : Same sid w (w.record c.record) := by
  have hput := same_putEntity hne w c.record
  exact ⟨hput.supervisor, hput.chats, hput.aliases, hput.row, hput.binding, hput.agents,
    List.mem_cons.trans (or_iff_right hne)⟩

theorem same_attach (hne : sid ≠ c.sid) (w : Places Config) : Same sid w (c.attach w) := by
  unfold Cmd.attach
  simp only
  split
  · exact ⟨Iff.rfl, fun h => unrouted_attachSession hne h, id, id, id, id, Iff.rfl⟩
  · exact same_refl sid w

/-! ## A session under way -/

/-- The session is spawned, its agent aside, and is in none of the places that the
conditions `row` and `binding` say it is not in. -/
structure Half (w : Places Config) (c : Cmd Config) (row binding : Prop) : Prop where
  supervisor : c.sid ∈ w.sessions
  agents : c.registersAgent = false → Agentless w.instances c.sid
  row : row → w.uris.lookup (canonicalUri c.sid) = none
  binding : binding → Unbound w.bindings c.sid
  json : c.sid ∉ w.json

theorem Half.of_same {row binding : Prop} (h : Half w c row binding) (hs : Same c.sid w w') :
    Half w' c row binding where
  supervisor := hs.supervisor.mpr h.supervisor
  agents := fun hno => hs.agents (h.agents hno)
  row := fun hrow => hs.row (h.row hrow)
  binding := fun hb => hs.binding (h.binding hb)
  json := fun hin => h.json (hs.json.mp hin)

theorem Half.mono {row row' binding binding' : Prop} (h : Half w c row binding)
    (hrow : row' → row) (hbinding : binding' → binding) : Half w c row' binding' :=
  ⟨h.supervisor, h.agents, h.row ∘ hrow, h.binding ∘ hbinding, h.json⟩

theorem half_spawn (h : Gone w c.sid) (hok : (c.spawn w).1 = true) :
    Half (c.spawn w).2 c True True := by
  unfold Cmd.spawn at hok ⊢
  split
  · rename_i hchat
    rw [if_pos hchat] at hok
    refine ⟨SessionCreate.mem_sessions_of_ok (of_decide_eq_true hok), fun hno => ?_,
      fun _ => h.row, fun _ => h.binding, h.json⟩
    have hdown : c.env.instancesUp = false := by
      unfold Cmd.registersAgent at hno
      rw [hchat, Bool.true_and] at hno
      exact hno
    have hsame : (SessionCreate.createSession c.env c.params w.toWorld).1.instances =
        w.instances :=
      SessionCreate.createSession_keeps (P := fun w' => w'.instances = w.instances) rfl
        (fun _ => id) (fun _ _ _ => id) (fun _ => id)
        (fun _ _ hup => by rw [hdown] at hup; cases hup) (fun _ _ => id) fun _ => id
    change Agentless (SessionCreate.createSession c.env c.params w.toWorld).1.instances c.sid
    rw [hsame]
    exact h.agentless
  · rename_i hchat
    rw [if_neg hchat] at hok
    split at hok
    · exact ⟨List.mem_cons_self, fun _ => h.agentless, fun _ => h.row, fun _ => h.binding, h.json⟩
    · cases hok

theorem gone_rollback (h : Half w c True True) (hno : c.registersAgent = false) :
    Gone (rollback rt c.sid w) c.sid := by
  have hend : ∃ w', endSession rt.order c.sid w = some w' := by
    unfold SessionPlaces.endSession SessionCreate.endSession
    rw [if_pos h.supervisor]
    exact ⟨_, rfl⟩
  obtain ⟨w', hend⟩ := hend
  obtain ⟨-, hsup, hrouting, huris, hinst, hjson, hbind, -, -⟩ := endSession_eq_some hend
  unfold rollback
  rw [hend]
  change Gone w' c.sid
  constructor
  · rw [hsup, List.mem_filter]
    simp
  · rw [hrouting]
    exact unrouted_detachSessionById _ _
  · rw [huris]
    exact unaliased_releaseSessionUri _ _
  · rw [huris]
    exact lookup_releaseSessionUri_of_none (h.row trivial)
  · rw [hbind]
    exact h.binding trivial
  · rw [hinst]
    exact (h.agents hno).1
  · rw [hinst]
    exact (h.agents hno).2
  · rw [hjson]
    exact h.json

/-! ## The invariant of an orderly run -/

/-- What is known of a session, by how far its command is. -/
def PhaseOk (rt : Runtime) (w : Places Config) (c : Cmd Config) : Phase → Prop
  | .waiting | .checked | .failed => Gone w c.sid
  | .spawned => Half w c True True
  | .clear found => Half w c True True ∧ c.args.components rt.currentInstance = some found
  | .writing todo =>
      Half w c (c.args.components rt.currentInstance = none) True ∧
        ∀ a ∈ todo, ∃ found, c.args.components rt.currentInstance = some found ∧ a ∈ found.aliases
  | .bound =>
      Half w c (c.args.components rt.currentInstance = none) (nonEmpty c.args.workspace = none)
  | .rollingBack => Half w c True True ∧ c.registersAgent = false
  | .crashed => False
  | .persisted | .done | .refused => True

theorem PhaseOk.of_same {phase : Phase} (h : PhaseOk rt w c phase) (hs : Same c.sid w w') :
    PhaseOk rt w' c phase := by
  cases phase with
  | waiting => exact Gone.of_same h hs
  | checked => exact Gone.of_same h hs
  | failed => exact Gone.of_same h hs
  | spawned => exact Half.of_same h hs
  | clear found => exact ⟨h.1.of_same hs, h.2⟩
  | writing todo => exact ⟨h.1.of_same hs, h.2⟩
  | bound => exact Half.of_same h hs
  | rollingBack => exact ⟨h.1.of_same hs, h.2⟩
  | crashed => exact h
  | persisted => trivial
  | done => trivial
  | refused => trivial

/-- The names that the second store takes are taken in the first, by the same rows. -/
def NoNewNames (t t' : SessionStore) : Prop :=
  ∀ uri r owner name, t'.lookup uri = some (.entity "session" r) → name ≠ "" →
    r.takes owner name = true → t.lookup uri = some (.entity "session" r)

theorem NoNewNames.unique {t' : SessionStore} (h : NoNewNames t t') (hu : Unique t) :
    Unique t' := by
  intro uri uri' r r' owner name hr hr' hname htakes htakes'
  exact hu uri uri' r r' owner name (h uri r owner name hr hname htakes)
    (h uri' r' owner name hr' hname htakes') hname htakes htakes'

/-- The name of the command is no session's of its owner. -/
def Free (t : SessionStore) (c : Cmd Config) : Prop :=
  ∀ uri r name, t.lookup uri = some (.entity "session" r) → c.args.name = some name →
    name ≠ "" → r.takes c.submitter name = false

theorem NoNewNames.free {t' : SessionStore} (h : NoNewNames t t') (hf : Free t c) : Free t' c := by
  intro uri r name hr hname hne
  by_contra htakes
  have htakes := Bool.eq_true_of_not_eq_false htakes
  rw [hf uri r name (h uri r c.submitter name hr hne htakes) hname hne] at htakes
  cases htakes

theorem mem_listSessions {r : Struct} :
    r ∈ listSessions t ↔ ∃ uri, t.lookup uri = some (.entity "session" r) := by
  unfold listSessions
  rw [List.mem_filterMap]
  constructor
  · rintro ⟨⟨uri, row⟩, hmem, hrow⟩
    rw [Ets.mem_tab2list] at hmem
    cases row with
    | aliasTo target => cases hrow
    | entity kind r' =>
      simp only at hrow
      split at hrow
      · rename_i hkind
        obtain rfl := Option.some.inj hrow
        exact ⟨uri, hkind ▸ hmem⟩
      · cases hrow
  · rintro ⟨uri, hrow⟩
    exact ⟨(uri, _), Ets.mem_tab2list.mpr hrow, if_pos rfl⟩

theorem free_of_not_nameTaken (h : ¬nameTaken t c.submitter c.args.name = true) : Free t c := by
  intro uri r name hr hname hne
  rw [hname] at h
  unfold nameTaken at h
  simp only [ne_eq, hne, not_false_eq_true, decide_true, Bool.true_and, List.any_eq_true,
    not_exists, not_and, Bool.not_eq_true] at h
  exact h r (mem_listSessions.mpr ⟨uri, hr⟩)

theorem noNewNames_ensure (t : SessionStore) (sid : String) :
    NoNewNames t (SessionUris.ensureSessionCanonical Struct.blank t sid) := by
  intro uri r owner name hr _ htakes
  unfold SessionUris.ensureSessionCanonical at hr
  split at hr
  · exact hr
  · unfold putEntity at hr
    rw [Ets.lookup_insert] at hr
    split at hr
    · obtain ⟨-, rfl⟩ := Row.entity.inj (Option.some.inj hr)
      cases htakes
    · exact hr

theorem noNewNames_putOrIgnoreAlias (t : SessionStore) (a canonical : String) :
    NoNewNames t (SessionUris.putOrIgnoreAlias t a canonical) := by
  intro uri r owner name hr _ _
  unfold SessionUris.putOrIgnoreAlias at hr
  rcases putAlias_cases t a canonical with he | ⟨-, -, he⟩
  · rw [he] at hr
    exact hr
  · rw [he, Ets.lookup_insert] at hr
    split at hr
    · cases hr
    · exact hr

theorem noNewNames_rollback (w : Places Config) (sid : String) :
    NoNewNames w.uris (rollback rt sid w).uris := by
  intro uri r owner name hr _ _
  unfold rollback at hr
  cases hend : endSession rt.order sid w with
  | none =>
    rw [hend] at hr
    exact hr
  | some w' =>
    obtain ⟨-, -, -, huris, -⟩ := endSession_eq_some hend
    rw [hend] at hr
    change w'.uris.lookup uri = _ at hr
    rw [huris] at hr
    exact (lookup_releaseSessionUri.mp hr).1

theorem takes_record {owner name : String} (hne : name ≠ "")
    (h : c.record.takes owner name = true) : c.submitter = owner ∧ c.args.name = some name := by
  obtain ⟨howner, hname⟩ := Bool.and_eq_true_iff.mp h
  have howner : c.submitter = owner := by simpa [Cmd.record] using howner
  have hname : c.args.name.getD "" = name := by simpa [Cmd.record] using hname
  refine ⟨howner, ?_⟩
  cases hargs : c.args.name with
  | none =>
    rw [hargs] at hname
    exact (hne hname.symm).elim
  | some given =>
    rw [hargs] at hname
    exact congrArg some hname

theorem lookup_record {uri : String} {r : Struct}
    (h : (w.record c.record).uris.lookup uri = some (.entity "session" r)) :
    (uri = canonicalUri c.sid ∧ r = c.record) ∨
      w.uris.lookup uri = some (.entity "session" r) := by
  change (putEntity w.uris (canonicalUri c.sid) "session" c.record).lookup uri = _ at h
  unfold putEntity at h
  rw [Ets.lookup_insert] at h
  split at h
  · rename_i huri
    obtain ⟨-, rfl⟩ := Row.entity.inj (Option.some.inj h)
    exact .inl ⟨huri, rfl⟩
  · exact .inr h

theorem unique_record (hu : Unique w.uris) (hf : Free w.uris c) :
    Unique (w.record c.record).uris := by
  have hnew : ∀ {uri r owner name}, w.uris.lookup uri = some (.entity "session" r) →
      name ≠ "" → r.takes owner name = true → c.record.takes owner name = false := by
    intro uri r owner name hr hne htakes
    by_contra hrecord
    obtain ⟨rfl, hname⟩ := takes_record hne (Bool.eq_true_of_not_eq_false hrecord)
    rw [hf uri r name hr hname hne] at htakes
    cases htakes
  intro uri uri' r r' owner name hr hr' hne htakes htakes'
  rcases lookup_record hr with ⟨huri, rfl⟩ | hold
  · rcases lookup_record hr' with ⟨huri', -⟩ | hold'
    · rw [huri, huri']
    · rw [hnew hold' hne htakes'] at htakes
      cases htakes
  · rcases lookup_record hr' with ⟨-, rfl⟩ | hold'
    · rw [hnew hold hne htakes] at htakes'
      cases htakes'
    · exact hu uri uri' r r' owner name hold hold' hne htakes htakes'

theorem spawn_uris (c : Cmd Config) (w : Places Config) : (c.spawn w).2.uris = w.uris := by
  unfold Cmd.spawn
  split
  · rfl
  · split <;> rfl

theorem attach_uris (c : Cmd Config) (w : Places Config) : (c.attach w).uris = w.uris := by
  unfold Cmd.attach
  simp only
  split <;> rfl

theorem components_of_no_workspace {a : Args} (h : nonEmpty a.workspace = none) (env : String) :
    a.components env = none := by
  unfold Args.components
  cases nonEmpty a.name with
  | none => rfl
  | some name =>
    cases nonEmpty a.username with
    | none => rfl
    | some username =>
      rw [h]
      rfl

theorem bindSession_eq_some (h : bindSession rt c w = some w') :
    (nonEmpty c.args.workspace = none ∧ w' = w) ∨
      (nonEmpty c.args.workspace ≠ none ∧
        ∃ wsId, w' = { w with bindings := w.bindings.bind wsId c.sid }) := by
  unfold bindSession at h
  split at h
  · rename_i hnone
    exact .inl ⟨hnone, (Option.some.inj h).symm⟩
  · rename_i name hname
    split at h
    · rename_i wsId _
      refine .inr ⟨by rw [hname]; exact Option.some_ne_none _, wsId, (Option.some.inj h).symm⟩
    · cases h

theorem SameName.symm {c c' : Cmd Config} (h : SameName c c') : SameName c' c := by
  obtain ⟨howner, name, hname, hne, hname'⟩ := h
  exact ⟨howner.symm, name, hname', hne, hname⟩

theorem free_record {c' : Cmd Config} (hf : Free w.uris c') (hne : ¬SameName c c') :
    Free (w.record c.record).uris c' := by
  intro uri r name hr hname hname'
  rcases lookup_record hr with ⟨-, rfl⟩ | hold
  · by_contra htakes
    obtain ⟨howner, hgiven⟩ := takes_record hname' (Bool.eq_true_of_not_eq_false htakes)
    exact hne ⟨howner, name, hgiven, hname', hname⟩
  · exact hf uri r name hold hname hname'

variable {J : Type} [DecidableEq J] {cmds : Commands J Config} {s s' : State J Config} {j : J}

/-- Every session is where its command has got it, the names are unique, and the
commands between check and persist have free names, each its own. -/
structure Inv (rt : Runtime) (cmds : Commands J Config) (s : State J Config) : Prop where
  phases : ∀ j, PhaseOk rt s.world (cmds.cmd j) (s.phase j)
  unique : Unique s.world.uris
  free : ∀ j, (s.phase j).InWindow = true → Free s.world.uris (cmds.cmd j)
  apart : ∀ j k, (s.phase j).InWindow = true → (s.phase k).InWindow = true →
    SameName (cmds.cmd j) (cmds.cmd k) → j = k

theorem goes_phase_self (next : Phase) (w : Places Config) : (s.goes j next w).phase j = next :=
  Function.update_self ..

theorem goes_phase_of_ne {k : J} (hk : k ≠ j) (next : Phase) (w : Places Config) :
    (s.goes j next w).phase k = s.phase k := Function.update_of_ne hk ..

omit [DecidableEq J] in
theorem Commands.sid_ne {k : J} (hk : k ≠ j) : (cmds.cmd k).sid ≠ (cmds.cmd j).sid :=
  fun he => hk (cmds.sid_injective he)

namespace Inv

omit [DecidableEq J] in
theorem phaseOk (h : Inv rt cmds s) {phase : Phase} (hj : s.phase j = phase) :
    PhaseOk rt s.world (cmds.cmd j) phase := hj ▸ h.phases j

theorem goes (h : Inv rt cmds s) {next : Phase}
    (hsame : ∀ k, k ≠ j → Same (cmds.cmd k).sid s.world w)
    (hok : PhaseOk rt w (cmds.cmd j) next) (hnames : NoNewNames s.world.uris w.uris)
    (hwindow : next.InWindow = true → (s.phase j).InWindow = true) :
    Inv rt cmds (s.goes j next w) := by
  have hold : ∀ k, ((s.goes j next w).phase k).InWindow = true → (s.phase k).InWindow = true := by
    intro k hk
    rcases eq_or_ne k j with rfl | hne
    · rw [goes_phase_self] at hk
      exact hwindow hk
    · rw [goes_phase_of_ne hne] at hk
      exact hk
  constructor
  · intro k
    rcases eq_or_ne k j with rfl | hne
    · rw [goes_phase_self]
      exact hok
    · rw [goes_phase_of_ne hne]
      exact (h.phases k).of_same (hsame k hne)
  · exact hnames.unique h.unique
  · intro k hk
    exact hnames.free (h.free k (hold k hk))
  · intro k l hk hl
    exact h.apart k l (hold k hk) (hold l hl)

theorem check (h : Inv rt cmds s) (hj : s.phase j = .waiting)
    (hfree : ¬nameTaken s.world.uris (cmds.cmd j).submitter (cmds.cmd j).args.name = true)
    (hord : Orderly cmds rt s (.check j)) : Inv rt cmds (s.goes j .checked s.world) := by
  have hgone : Gone s.world (cmds.cmd j).sid := h.phaseOk hj
  constructor
  · intro k
    rcases eq_or_ne k j with rfl | hne
    · rw [goes_phase_self]
      exact hgone
    · rw [goes_phase_of_ne hne]
      exact h.phases k
  · exact h.unique
  · intro k hk
    rcases eq_or_ne k j with rfl | hne
    · exact free_of_not_nameTaken hfree
    · rw [goes_phase_of_ne hne] at hk
      exact h.free k hk
  · intro k l hk hl hsame
    by_cases hkj : k = j
    · by_cases hlj : l = j
      · rw [hkj, hlj]
      · rw [goes_phase_of_ne hlj] at hl
        rw [hkj] at hsame
        exact (hord l hl hsame).elim
    · rw [goes_phase_of_ne hkj] at hk
      by_cases hlj : l = j
      · rw [hlj] at hsame
        exact (hord k hk hsame.symm).elim
      · rw [goes_phase_of_ne hlj] at hl
        exact h.apart k l hk hl hsame

theorem persist (h : Inv rt cmds s) (hj : s.phase j = .bound) :
    Inv rt cmds (s.goes j .persisted (s.world.record (cmds.cmd j).record)) := by
  have hwindow : (s.phase j).InWindow = true := by
    rw [hj]
    rfl
  constructor
  · intro k
    rcases eq_or_ne k j with rfl | hne
    · rw [goes_phase_self]
      trivial
    · rw [goes_phase_of_ne hne]
      exact (h.phases k).of_same (same_record (Commands.sid_ne hne) _)
  · exact unique_record h.unique (h.free j hwindow)
  · intro k hk
    rcases eq_or_ne k j with rfl | hne
    · rw [goes_phase_self] at hk
      cases hk
    · rw [goes_phase_of_ne hne] at hk
      exact free_record (h.free k hk) fun hsame => hne (h.apart j k hwindow hk hsame).symm
  · intro k l hk hl
    have hold : ∀ {k}, ((s.goes j .persisted (s.world.record (cmds.cmd j).record)).phase k).InWindow =
        true → (s.phase k).InWindow = true := by
      intro k hk
      rcases eq_or_ne k j with rfl | hne
      · exact hwindow
      · rw [goes_phase_of_ne hne] at hk
        exact hk
    exact h.apart k l (hold hk) (hold hl)

theorem stays (h : Inv rt cmds s) {next : Phase} (hok : PhaseOk rt s.world (cmds.cmd j) next)
    (hwindow : next.InWindow = true → (s.phase j).InWindow = true) :
    Inv rt cmds (s.goes j next s.world) :=
  h.goes (fun _ _ => same_refl _ _) hok (fun _ _ _ _ hr _ _ => hr) hwindow

theorem step (h : Inv rt cmds s) {a : Act J Config} (hord : Orderly cmds rt s a)
    (hs : step rt cmds s a = some s') : Inv rt cmds s' := by
  cases a with
  | refuse j =>
    simp only [SessionNew.step] at hs
    split at hs
    · obtain rfl := Option.some.inj hs
      exact h.stays trivial nofun
    · cases hs
  | check j =>
    simp only [SessionNew.step] at hs
    split at hs
    · rename_i hj
      split at hs
      · obtain rfl := Option.some.inj hs
        exact h.stays trivial nofun
      · rename_i hfree
        obtain rfl := Option.some.inj hs
        exact h.check hj hfree hord
    · cases hs
  | spawn j =>
    simp only [SessionNew.step] at hs
    split at hs
    · rename_i hj
      obtain rfl := Option.some.inj hs
      have hgone : Gone s.world (cmds.cmd j).sid := h.phaseOk hj
      refine h.goes (fun k hne => same_spawn (Commands.sid_ne hne) _) ?_ ?_ fun _ => by rw [hj]; rfl
      · split
        · rename_i hok
          exact half_spawn hgone hok
        · trivial
      · rw [spawn_uris]
        exact fun _ _ _ _ hr _ _ => hr
    · cases hs
  | claim j =>
    simp only [SessionNew.step] at hs
    split at hs
    · rename_i hj
      have hhalf : Half s.world (cmds.cmd j) True True := h.phaseOk hj
      have hwindow : (s.phase j).InWindow = true := by
        rw [hj]
        rfl
      split at hs
      · obtain rfl := Option.some.inj hs
        exact h.stays ⟨hhalf.mono (fun _ => trivial) id, nofun⟩ fun _ => hwindow
      · rename_i found hfound
        split at hs
        · rename_i hrefused
          obtain rfl := Option.some.inj hs
          exact h.stays ⟨hhalf, hord ⟨found, hfound, hrefused⟩⟩ nofun
        · obtain rfl := Option.some.inj hs
          exact h.stays ⟨hhalf, hfound⟩ fun _ => hwindow
    · cases hs
  | writeRow j =>
    simp only [SessionNew.step] at hs
    split at hs
    · rename_i found hj
      obtain ⟨hhalf, hfound⟩ : PhaseOk rt s.world (cmds.cmd j) (.clear found) := h.phaseOk hj
      obtain rfl := Option.some.inj hs
      refine h.goes (fun k hne => same_ensure (Commands.sid_ne hne) _) ⟨?_, ?_⟩
        (noNewNames_ensure _ _) fun _ => by rw [hj]; rfl
      · refine ⟨hhalf.supervisor, hhalf.agents, fun hnone => ?_, hhalf.binding, hhalf.json⟩
        rw [hfound] at hnone
        cases hnone
      · exact fun a ha => ⟨found, hfound, ha⟩
    · cases hs
  | writeAlias j =>
    simp only [SessionNew.step] at hs
    split at hs
    · rename_i a todo hj
      obtain ⟨hhalf, htodo⟩ : PhaseOk rt s.world (cmds.cmd j) (.writing (a :: todo)) := h.phaseOk hj
      obtain ⟨found, hfound, ha⟩ := htodo a List.mem_cons_self
      obtain rfl := Option.some.inj hs
      refine h.goes (fun k hne => same_putOrIgnoreAlias (Commands.sid_ne hne)
        (SessionUris.Components.alias_ne_canonicalUri (cmds.cleanId k) ha) _) ⟨?_, ?_⟩
        (noNewNames_putOrIgnoreAlias _ _ _) fun _ => by rw [hj]; rfl
      · refine ⟨hhalf.supervisor, hhalf.agents, fun hnone => ?_, hhalf.binding, hhalf.json⟩
        rw [hfound] at hnone
        cases hnone
      · exact fun b hb => htodo b (List.mem_cons_of_mem _ hb)
    · cases hs
  | bind j =>
    simp only [SessionNew.step] at hs
    split at hs
    · rename_i hj
      obtain ⟨hhalf, -⟩ : PhaseOk rt s.world (cmds.cmd j) (.writing []) := h.phaseOk hj
      have hwindow : (s.phase j).InWindow = true := by
        rw [hj]
        rfl
      split at hs
      · rename_i w hbound
        obtain rfl := Option.some.inj hs
        rcases bindSession_eq_some hbound with ⟨-, rfl⟩ | ⟨hsome, wsId, rfl⟩
        · exact h.stays (hhalf.mono id fun _ => trivial) fun _ => hwindow
        · exact h.goes (fun k hne => same_bind (Commands.sid_ne hne) _)
            ⟨hhalf.supervisor, hhalf.agents, hhalf.row, fun hnone => (hsome hnone).elim, hhalf.json⟩
            (fun _ _ _ _ hr _ _ => hr) fun _ => hwindow
      · rename_i hgone
        obtain ⟨hno, hcomponents⟩ := hord hgone
        obtain rfl := Option.some.inj hs
        exact h.stays ⟨hhalf.mono (fun _ => hcomponents) id, hno⟩ nofun
    · cases hs
  | persist j disk =>
    simp only [SessionNew.step] at hs
    split at hs
    · rename_i hj
      obtain rfl := Option.some.inj hs
      exact h.persist hj
    · rename_i hj
      have hhalf : Half s.world (cmds.cmd j) _ _ := h.phaseOk hj
      obtain ⟨hno, hws⟩ := hord.2 rfl
      obtain rfl := Option.some.inj hs
      exact h.stays ⟨hhalf.mono (fun _ => components_of_no_workspace hws _) fun _ => hws, hno⟩ nofun
    · exact (hord.1 rfl).elim
    · cases hs
  | attach j =>
    simp only [SessionNew.step] at hs
    split at hs
    · obtain rfl := Option.some.inj hs
      refine h.goes (fun k hne => same_attach (Commands.sid_ne hne) _) trivial ?_ nofun
      rw [attach_uris]
      exact fun _ _ _ _ hr _ _ => hr
    · cases hs
  | rollback j =>
    simp only [SessionNew.step] at hs
    split at hs
    · rename_i hj
      obtain ⟨hhalf, hno⟩ : PhaseOk rt s.world (cmds.cmd j) .rollingBack := h.phaseOk hj
      obtain rfl := Option.some.inj hs
      exact h.goes (fun k hne => same_rollback (Commands.sid_ne hne) _) (gone_rollback hhalf hno)
        (noNewNames_rollback _ _) nofun
    · cases hs
  | workspaces t =>
    obtain rfl := Option.some.inj hs
    exact ⟨fun k => (h.phases k).of_same ⟨Iff.rfl, id, id, id, id, id, Iff.rfl⟩, h.unique, h.free,
      h.apart⟩

omit [DecidableEq J] in
theorem correct (h : Inv rt cmds s) : Correct cmds s where
  unique := h.unique
  noCrash _ hj := h.phaseOk hj
  failed _ hj := h.phaseOk hj

end Inv

omit [DecidableEq J] in
theorem Begins.inv {s₀ : State J Config} (h : Begins cmds s₀) : Inv rt cmds s₀ := by
  refine ⟨fun j => ?_, h.unique, fun j hj => ?_, fun j k hj => ?_⟩
  · rw [h.waiting j]
    exact h.new j
  · rw [h.waiting j] at hj
    cases hj
  · rw [h.waiting j] at hj
    cases hj

/-- **Sessions in orderly runs**: names are unique, no command raises, and nothing is
left of a session whose creation failed. -/
theorem correct_of_orderly {s₀ : State J Config} (h₀ : Begins cmds s₀)
    (h : Reaches (step rt cmds) (Orderly cmds rt) s₀ s) : Correct cmds s :=
  (h.invariant h₀.inv fun _ _ _ hinv hord hs => hinv.step hord hs).correct

/-! ## Two commands of one owner -/

/-- The session `dev` of a user, from the command line. -/
def devCmd (sid : String) : Cmd Unit where
  submitter := "u1"
  args := ⟨some "dev", none, none, none, "", none, "pending", "pending"⟩
  agentDef := ⟨[]⟩
  env :=
    { sid := sid
      instanceId := "i1"
      emptyConfig := ()
      workspaceNameForChat := fun _ => none
      workspaceStartCmd := fun _ => none
      stateful := fun _ => false
      startSup := .started
      spawn := fun _ => .raises
      routingUp := true
      instancesUp := true
      observer := none }

/-- It is asked for twice. -/
def twice : Commands Bool Unit where
  cmd b := devCmd (if b then "s1" else "s2")
  sid_injective := by decide
  cleanId := by decide

/-- Nothing has been created. -/
def nothing : State Bool Unit where
  world := .empty
  phase _ := .waiting

theorem begins_nothing : Begins twice nothing where
  waiting _ := rfl
  unique := by
    intro uri uri' r r' owner name hr
    cases hr
  new j := by
    refine ⟨nofun, ?_, ?_, rfl, ⟨rfl, fun _ => nofun⟩, ?_, fun _ => rfl, nofun⟩
    · intro key slot hrow
      cases hrow
    · intro uri howns
      cases howns
    · intro id inst hrow
      cases hrow

/-- One of the two is created, but cannot be persisted, and is rolled back. -/
theorem correct_notPersisted :
    ∃ s, Reaches (step Runtime.plain twice) (Orderly twice Runtime.plain) nothing s ∧
      s.phase true = .failed ∧ Correct twice s := by
  have hrun : ∃ s, Reaches (step Runtime.plain twice) (Orderly twice Runtime.plain) nothing s ∧
      s.phase true = .failed := by
    refine ⟨_, ⟨_, .cons (a := .check true) ?_ rfl (.cons (a := .spawn true) ?_ rfl
      (.cons (a := .claim true) ?_ rfl (.cons (a := .bind true) ?_ rfl
        (.cons (a := .persist true .failed) ?_ rfl
          (.cons (a := .rollback true) ?_ rfl .nil)))))⟩, rfl⟩
    · intro k hk
      cases hk
    · trivial
    · rintro ⟨c, hc, -⟩
      cases hc
    · intro hnone
      cases hnone
    · exact ⟨nofun, fun _ => ⟨rfl, rfl⟩⟩
    · trivial
  obtain ⟨s, hreach, hfailed⟩ := hrun
  exact ⟨s, hreach, hfailed, correct_of_orderly begins_nothing hreach⟩

/-- Both check before either is persisted. -/
theorem not_correct_bothChecked :
    ¬∀ s, Reaches (step Runtime.plain twice) anyStep nothing s → Correct twice s := by
  intro h
  have hrun : ∃ s, Reaches (step Runtime.plain twice) anyStep nothing s ∧
      s.world.uris.lookup (canonicalUri "s1") = some (.entity "session" (devCmd "s1").record) ∧
      s.world.uris.lookup (canonicalUri "s2") = some (.entity "session" (devCmd "s2").record) :=
    ⟨_, Reaches.of_exec (show exec (step Runtime.plain twice) anyStep nothing [.check true,
      .check false, .spawn true, .spawn false, .claim true, .claim false, .bind true, .bind false,
      .persist true .written, .persist false .written] = some _ from rfl), rfl, rfl⟩
  obtain ⟨s, hreach, hfirst, hsecond⟩ := hrun
  have hsame := (h s hreach).unique _ _ _ _ "u1" "dev" hfirst hsecond (by decide) (by decide)
    (by decide)
  revert hsame
  decide

end SessionNew
end Esr
