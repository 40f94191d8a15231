import Esr.WorkspaceStruct

/-! # Session bindings

`Esr.Resource.Workspace.SessionBindings` keeps which sessions are bound to a
workspace (`by_ws`) and the workspace each session is bound to (`by_sid`).  Two
commands delete workspaces: `session_end` deletes a transient one whose last
session ended, which it asks `SessionBindings` about, and `workspace_remove` deletes
any, behind a guard that asks a function of the application's environment.

`bound_reaches`: as long as a session is bound anew only after it was unbound, and
no workspace is removed while a running session is bound to it, the two maps are
inverse to each other and no call deletes a workspace that a running session is
bound to.  Neither condition is one that the code checks.
-/
namespace Esr
namespace SessionBindings
open Yaml UriStore WorkspaceUris WorkspaceStruct

/-- `MapSet.put/2`. -/
def setPut (s : List String) (x : String) : List String := if x ∈ s then s else x :: s

/-- `MapSet.delete/2`. -/
def setDelete (s : List String) (x : String) : List String := s.filter fun y => y ≠ x

theorem mem_setPut {s : List String} {x y : String} : y ∈ setPut s x ↔ y = x ∨ y ∈ s := by
  unfold setPut
  split
  · rename_i h
    constructor
    · exact Or.inr
    · rintro (rfl | hy)
      · exact h
      · exact hy
  · exact List.mem_cons

theorem mem_setDelete {s : List String} {x y : String} :
    y ∈ setDelete s x ↔ y ∈ s ∧ y ≠ x := by
  simp [setDelete]

/-- The state of the process. -/
structure Bindings where
  byWs : Ets String (List String)
  bySid : Ets String String

namespace Bindings

/-- `init/1`. -/
def init : Bindings := ⟨Ets.empty, Ets.empty⟩

/-- `handle_call({:sessions_for, ws_id}, …)`. -/
def sessionsFor (b : Bindings) (wsId : String) : List String := (b.byWs.lookup wsId).getD []

/-- What `handle_call({:bind_session, ws_id, sid}, …)` does when the workspace is there. -/
def bind (b : Bindings) (wsId sid : String) : Bindings where
  byWs := b.byWs.insert wsId (setPut (b.sessionsFor wsId) sid)
  bySid := b.bySid.insert sid wsId

/-- The sessions of a workspace, whose key goes with the last of them. -/
def putSessions (m : Ets String (List String)) (wsId : String) (sids : List String) :
    Ets String (List String) :=
  if sids = [] then m.delete wsId else m.insert wsId sids

/-- `handle_call({:unbind_session, sid}, …)`. -/
def unbind (b : Bindings) (sid : String) : Bindings :=
  match b.bySid.lookup sid with
  | none => b
  | some wsId =>
      { bySid := b.bySid.delete sid
        byWs := putSessions b.byWs wsId (setDelete (b.sessionsFor wsId) sid) }

/-- `sessions_left?/2`. -/
def sessionsLeft (b : Bindings) (wsId : String) : Bool := b.sessionsFor wsId ≠ []

/-- `drop_workspace_from_state/2`. -/
def dropWorkspace (b : Bindings) (wsId : String) : Bindings where
  byWs := b.byWs.delete wsId
  bySid := b.bySid.deleteEach (b.sessionsFor wsId)

/-- `by_sid` has a session at a workspace exactly if the session is among those of
that workspace and of no other. -/
def TwoWay (b : Bindings) : Prop :=
  ∀ sid wsId, b.bySid.lookup sid = some wsId ↔
    sid ∈ b.sessionsFor wsId ∧ ∀ other, other ≠ wsId → sid ∉ b.sessionsFor other

/-- The two maps are inverse to each other. -/
def Inverse (b : Bindings) : Prop :=
  ∀ sid wsId, b.bySid.lookup sid = some wsId ↔ sid ∈ b.sessionsFor wsId

variable {b : Bindings} {sid wsId : String}

theorem Inverse.twoWay (h : b.Inverse) : b.TwoWay := by
  intro sid wsId
  rw [h sid wsId]
  refine ⟨fun hmem => ⟨hmem, fun other hne hother => hne ?_⟩, And.left⟩
  exact Option.some.inj (((h sid other).mpr hother).symm.trans ((h sid wsId).mpr hmem))

theorem inverse_init : init.Inverse := by
  intro sid wsId
  simp [init, sessionsFor]

/-! ## What each call does to the maps -/

theorem mem_sessionsFor_bind {sid' wsId' : String} :
    sid' ∈ (b.bind wsId sid).sessionsFor wsId' ↔
      (wsId' = wsId ∧ sid' = sid) ∨ sid' ∈ b.sessionsFor wsId' := by
  unfold sessionsFor bind
  rw [Ets.lookup_insert]
  by_cases hws : wsId' = wsId
  · subst hws
    simp [mem_setPut, sessionsFor]
  · simp [hws]

theorem getD_putSessions (m : Ets String (List String)) (wsId : String) (sids : List String)
    (wsId' : String) :
    ((putSessions m wsId sids).lookup wsId').getD [] =
      if wsId' = wsId then sids else (m.lookup wsId').getD [] := by
  unfold putSessions
  split
  · rename_i hnil
    rw [Ets.lookup_delete, hnil]
    split <;> rfl
  · rw [Ets.lookup_insert]
    split <;> rfl

theorem mem_sessionsFor_unbind (hsid : b.bySid.lookup sid = some wsId) {sid' wsId' : String} :
    sid' ∈ (b.unbind sid).sessionsFor wsId' ↔
      sid' ∈ b.sessionsFor wsId' ∧ ¬(wsId' = wsId ∧ sid' = sid) := by
  have hby : (b.unbind sid).byWs =
      putSessions b.byWs wsId (setDelete (b.sessionsFor wsId) sid) := by
    simp only [unbind, hsid]
  unfold sessionsFor
  rw [hby, getD_putSessions]
  by_cases hws : wsId' = wsId
  · subst hws
    rw [if_pos rfl, mem_setDelete]
    simp [sessionsFor]
  · simp [hws]

theorem bySid_unbind (b : Bindings) (sid sid' : String) :
    (b.unbind sid).bySid.lookup sid' = if sid' = sid then none else b.bySid.lookup sid' := by
  cases hsid : b.bySid.lookup sid with
  | none =>
    simp only [unbind, hsid]
    split
    · rename_i h
      rw [h, hsid]
    · rfl
  | some wsId =>
    simp only [unbind, hsid]
    exact Ets.lookup_delete _ _ _

theorem mem_sessionsFor_dropWorkspace {sid' wsId' : String} :
    sid' ∈ (b.dropWorkspace wsId).sessionsFor wsId' ↔
      wsId' ≠ wsId ∧ sid' ∈ b.sessionsFor wsId' := by
  unfold sessionsFor dropWorkspace
  rw [Ets.lookup_delete]
  by_cases hws : wsId' = wsId
  · simp [hws]
  · simp [hws]

theorem Inverse.bind (h : b.Inverse)
    (hfree : ∀ other, b.bySid.lookup sid = some other → other = wsId) :
    (b.bind wsId sid).Inverse := by
  intro sid' wsId'
  rw [mem_sessionsFor_bind]
  change (b.bySid.insert sid wsId).lookup sid' = some wsId' ↔ _
  rw [Ets.lookup_insert, ← h sid' wsId']
  by_cases hsid : sid' = sid
  · subst hsid
    rw [if_pos rfl, Option.some.injEq]
    constructor
    · rintro rfl
      exact Or.inl ⟨rfl, rfl⟩
    · rintro (⟨rfl, -⟩ | hold)
      · rfl
      · exact (hfree wsId' hold).symm
  · simp [hsid]

theorem Inverse.unbind (h : b.Inverse) (sid : String) : (b.unbind sid).Inverse := by
  intro sid' wsId'
  rw [bySid_unbind]
  cases hsid : b.bySid.lookup sid with
  | none =>
    have hsame : b.unbind sid = b := by
      unfold Bindings.unbind
      rw [hsid]
    rw [hsame, ← h sid' wsId']
    by_cases he : sid' = sid
    · simp [he, hsid]
    · simp [he]
  | some wsId =>
    rw [mem_sessionsFor_unbind hsid, ← h sid' wsId']
    by_cases he : sid' = sid
    · subst he
      simp [hsid, eq_comm]
    · simp [he]

theorem Inverse.dropWorkspace (h : b.Inverse) (wsId : String) : (b.dropWorkspace wsId).Inverse := by
  intro sid' wsId'
  rw [mem_sessionsFor_dropWorkspace]
  change (b.bySid.deleteEach (b.sessionsFor wsId)).lookup sid' = some wsId' ↔ _
  rw [Ets.lookup_deleteEach]
  split
  · -- a session of the workspace is in no other
    rename_i hin
    have hnow := (h sid' wsId).mpr hin
    rw [← h sid' wsId', hnow]
    simp only [reduceCtorEq, Option.some.injEq, false_iff, not_and]
    exact fun hne he => hne he.symm
  · rename_i hout
    rw [h sid' wsId']
    constructor
    · intro hmem
      refine ⟨?_, hmem⟩
      rintro rfl
      exact hout hmem
    · exact And.right

end Bindings
/-! ## The calls -/

/-- What the calls see of the rest of the runtime: the URIs that plugins handle,
what the file system says when the files of a workspace are deleted, and the
`workspace_active_sessions_fn` of the application's environment. -/
structure Runtime where
  dispatchToPlugin : String → Option String
  deleteFiles : Location → Except String (List String)
  activeSessionsFn : Option (String → List String)

/-- The bindings, the workspaces, and the sessions that are running. -/
structure State where
  bindings : Bindings
  workspaces : WorkspaceStore Struct
  running : List String

/-- The replies of `delete_if_no_sessions/1`.  `crashed`: the process takes `not` of
a `transient` that is no boolean, and is started anew. -/
inductive DeleteReply where
  | deleted
  | notTransient
  | hasSessions
  | notFound
  | crashed
  deriving DecidableEq

/-- The replies of `workspace_remove`. -/
inductive RemoveReply where
  | ok (name id : String) (location : Location) (deletedFiles : List String)
  | invalidArgs
  | unknownWorkspace (name : String)
  | workspaceInUse (name : String) (count : Nat)
  | raised

section Calls
variable (rt : Runtime)

/-- `bind_session/2`: whether the workspace was there. -/
def bindSession (wsId sid : String) (s : State) : Bool × State :=
  match workspaceByUuid rt.dispatchToPlugin s.workspaces wsId with
  | some _ => (true, { s with bindings := s.bindings.bind wsId sid })
  | none => (false, s)

/-- `unbind_session/1`. -/
def unbindSession (sid : String) (s : State) : State :=
  { s with bindings := s.bindings.unbind sid }

/-- `delete_if_no_sessions/1`. -/
def deleteIfNoSessions (wsId : String) (s : State) : DeleteReply × State :=
  match workspaceByUuid rt.dispatchToPlugin s.workspaces wsId with
  | none => (.notFound, s)
  | some ws =>
      match ws.rest.transient with
      | .bool false => (.notTransient, s)
      | .bool true =>
          if s.bindings.sessionsLeft wsId then (.hasSessions, s)
          else
            (.deleted, { s with
              workspaces := workspaceDeleteById s.workspaces wsId
              bindings := s.bindings.dropWorkspace wsId })
      | _ => (.crashed, { s with bindings := .init })

/-- `Remove.active_sessions/1`.  Nothing under the sources sets the function. -/
def activeSessions (workspaceId : String) : List String :=
  (rt.activeSessionsFn.getD fun _ => []) workspaceId

/-- `Remove.do_remove/1`, which has a clause for the two kinds of location. -/
def doRemove (ws : Workspace Struct) (s : State) : RemoveReply × State :=
  match ws.location with
  | none => (.raised, s)
  | some location =>
      match rt.deleteFiles location with
      | .error _ => (.raised, s)
      | .ok files =>
          (.ok ws.name ws.id location files,
            { s with workspaces := workspaceDeleteById s.workspaces ws.id })

/-- `Remove.execute/1`. -/
def workspaceRemove (name : String) (force : Bool) (s : State) : RemoveReply × State :=
  if name = "" then (.invalidArgs, s)
  else
    match (uuidForWorkspaceName rt.dispatchToPlugin s.workspaces name).bind
        (workspaceByUuid rt.dispatchToPlugin s.workspaces) with
    | none => (.unknownWorkspace name, s)
    | some ws =>
        if activeSessions rt ws.id = [] ∨ force = true then doRemove rt ws s
        else (.workspaceInUse ws.name (activeSessions rt ws.id).length, s)

/-- `End.end_by_session_id/2`, as far as it touches the bindings and the workspaces:
whether the session was known.  `workspace` is the name the command was given. -/
def sessionEnd (sid : String) (workspace : Option String) (s : State) : Bool × State :=
  if sid ∈ s.running then
    let s := unbindSession sid { s with running := s.running.filter fun x => x ≠ sid }
    match workspace.bind (uuidForWorkspaceName rt.dispatchToPlugin s.workspaces) with
    | some wsId => (true, (deleteIfNoSessions rt wsId s).2)
    | none => (true, s)
  else (false, s)

end Calls

/-- What can happen.  `start` and `stop` are a session beginning and one that stops
by itself; `other` is any other command, which may leave any workspaces. -/
inductive Act where
  | bindSession (wsId sid : String)
  | unbindSession (sid : String)
  | deleteIfNoSessions (wsId : String)
  | workspaceRemove (name : String)
  | sessionEnd (sid : String) (workspace : Option String)
  | start (sid : String)
  | stop (sid : String)
  | other (workspaces : WorkspaceStore Struct)

/-- One call. -/
def step (rt : Runtime) (s : State) : Act → Option State
  | .bindSession wsId sid => some (bindSession rt wsId sid s).2
  | .unbindSession sid => some (unbindSession sid s)
  | .deleteIfNoSessions wsId => some (deleteIfNoSessions rt wsId s).2
  | .workspaceRemove name => some (workspaceRemove rt name false s).2
  | .sessionEnd sid workspace => some (sessionEnd rt sid workspace s).2
  | .start sid => some { s with running := sid :: s.running }
  | .stop sid => some { s with running := s.running.filter fun x => x ≠ sid }
  | .other workspaces => some { s with workspaces := workspaces }

/-- The action is not another command's. -/
def Act.isCall : Act → Bool
  | .other _ => false
  | _ => true

/-- A session is bound to a workspace that is there only where it is bound to no
other, and a workspace is removed only where no running session is bound to it or
the guard knows of one. -/
def Careful (rt : Runtime) (s : State) : Act → Prop
  | .bindSession wsId sid =>
      workspaceByUuid rt.dispatchToPlugin s.workspaces wsId = none ∨
        ∀ other, s.bindings.bySid.lookup sid = some other → other = wsId
  | .workspaceRemove name =>
      ∀ ws, (uuidForWorkspaceName rt.dispatchToPlugin s.workspaces name).bind
          (workspaceByUuid rt.dispatchToPlugin s.workspaces) = some ws →
        activeSessions rt ws.id ≠ [] ∨
          ∀ sid ∈ s.running, s.bindings.bySid.lookup sid ≠ some ws.id
  | _ => True

/-- A step takes away the row of the workspace. -/
def Deletes (s s' : State) (wsId : String) : Prop :=
  IsEntity s.workspaces (canonicalUri wsId) ∧ ¬ IsEntity s'.workspaces (canonicalUri wsId)

/-! ## What holds over runs -/

variable {rt : Runtime} {s s' : State} {a : Act}

/-- What a `delete_if_no_sessions` leaves: everything, the bindings forgotten by a
crash, or a transient workspace without sessions gone. -/
theorem deleteIfNoSessions_cases (rt : Runtime) (wsId : String) (s : State) :
    (deleteIfNoSessions rt wsId s).2 = s ∨
      ((deleteIfNoSessions rt wsId s).1 = .crashed ∧
        (deleteIfNoSessions rt wsId s).2 = { s with bindings := .init }) ∨
      (s.bindings.sessionsFor wsId = [] ∧
        (deleteIfNoSessions rt wsId s).2 =
          { s with
            workspaces := workspaceDeleteById s.workspaces wsId
            bindings := s.bindings.dropWorkspace wsId }) := by
  unfold deleteIfNoSessions
  split
  · exact Or.inl rfl
  · split
    · exact Or.inl rfl
    · split
      · exact Or.inl rfl
      · rename_i hleft
        exact Or.inr (Or.inr ⟨by simpa [Bindings.sessionsLeft] using hleft, rfl⟩)
    · exact Or.inr (Or.inl ⟨rfl, rfl⟩)

theorem workspaceRemove_cases (rt : Runtime) (name : String) (s : State) :
    (workspaceRemove rt name false s).2 = s ∨
      ∃ ws, (uuidForWorkspaceName rt.dispatchToPlugin s.workspaces name).bind
          (workspaceByUuid rt.dispatchToPlugin s.workspaces) = some ws ∧
        activeSessions rt ws.id = [] ∧
        (workspaceRemove rt name false s).2 =
          { s with workspaces := workspaceDeleteById s.workspaces ws.id } := by
  unfold workspaceRemove
  split
  · exact Or.inl rfl
  · split
    · exact Or.inl rfl
    · rename_i ws hws
      split
      · rename_i hactive
        have hactive : activeSessions rt ws.id = [] := by simpa using hactive
        unfold doRemove
        split
        · exact Or.inl rfl
        · split
          · exact Or.inl rfl
          · exact Or.inr ⟨ws, hws, hactive, rfl⟩
      · exact Or.inl rfl

theorem sessionEnd_cases (rt : Runtime) (sid : String) (workspace : Option String) (s : State) :
    (sessionEnd rt sid workspace s).2 = s ∨
      ∃ m, m = unbindSession sid { s with running := s.running.filter fun x => x ≠ sid } ∧
        ((sessionEnd rt sid workspace s).2 = m ∨
          ∃ wsId, (sessionEnd rt sid workspace s).2 = (deleteIfNoSessions rt wsId m).2) := by
  unfold sessionEnd
  split
  · refine Or.inr ⟨_, rfl, ?_⟩
    dsimp only
    split
    · exact Or.inr ⟨_, rfl⟩
    · exact Or.inl rfl
  · exact Or.inl rfl

theorem inverse_deleteIfNoSessions (wsId : String) (h : s.bindings.Inverse) :
    (deleteIfNoSessions rt wsId s).2.bindings.Inverse := by
  rcases deleteIfNoSessions_cases rt wsId s with he | ⟨-, he⟩ | ⟨-, he⟩
  · rwa [he]
  · rw [he]
    exact Bindings.inverse_init
  · rw [he]
    exact h.dropWorkspace wsId

theorem inverse_step (h : s.bindings.Inverse) (hok : Careful rt s a)
    (hs : step rt s a = some s') : s'.bindings.Inverse := by
  cases a with
  | bindSession wsId sid =>
    obtain rfl := Option.some.inj hs
    unfold bindSession
    split
    · rename_i hws
      rcases hok with hnone | hfree
      · rw [hnone] at hws
        cases hws
      · exact h.bind hfree
    · exact h
  | unbindSession sid =>
    obtain rfl := Option.some.inj hs
    exact h.unbind sid
  | deleteIfNoSessions wsId =>
    obtain rfl := Option.some.inj hs
    exact inverse_deleteIfNoSessions wsId h
  | workspaceRemove name =>
    obtain rfl := Option.some.inj hs
    rcases workspaceRemove_cases rt name s with he | ⟨ws, -, -, he⟩
    · rwa [he]
    · rwa [he]
  | sessionEnd sid workspace =>
    obtain rfl := Option.some.inj hs
    rcases sessionEnd_cases rt sid workspace s with he | ⟨m, hm, he⟩
    · rwa [he]
    · have hinv : m.bindings.Inverse := by
        rw [hm]
        exact h.unbind sid
      rcases he with he | ⟨wsId, he⟩
      · rwa [he]
      · rw [he]
        exact inverse_deleteIfNoSessions wsId hinv
  | start sid | stop sid | other workspaces =>
    obtain rfl := Option.some.inj hs
    exact h

theorem eq_of_deletes {s : State} {t : WorkspaceStore Struct} {id wsId : String}
    (hent : IsEntity s.workspaces (canonicalUri wsId)) (ht : t = workspaceDeleteById s.workspaces id)
    (hgone : ¬ IsEntity t (canonicalUri wsId)) : wsId = id := by
  by_contra hne
  obtain ⟨kind, data, hrow⟩ := hent
  refine hgone ⟨kind, data, ?_⟩
  rw [ht, lookup_workspaceDeleteById]
  exact ⟨fun he => hne (canonicalUri_injective he), by simp, hrow⟩

theorem Bindings.Inverse.not_bound {b : Bindings} (h : b.Inverse) {wsId : String}
    (hnone : b.sessionsFor wsId = []) (sid : String) : b.bySid.lookup sid ≠ some wsId := by
  intro hbound
  have hmem := (h sid wsId).mp hbound
  rw [hnone] at hmem
  cases hmem

theorem not_bound_of_deleteIfNoSessions {wsId gone : String} (h : s.bindings.Inverse)
    (hdel : Deletes s (deleteIfNoSessions rt wsId s).2 gone) (sid : String) :
    s.bindings.bySid.lookup sid ≠ some gone := by
  obtain ⟨hent, hgone⟩ := hdel
  rcases deleteIfNoSessions_cases rt wsId s with he | ⟨-, he⟩ | ⟨hnone, he⟩
  · exact absurd hent (he ▸ hgone)
  · rw [he] at hgone
    exact absurd hent hgone
  · rw [he] at hgone
    obtain rfl := eq_of_deletes hent rfl hgone
    exact h.not_bound hnone sid

theorem not_bound_of_deletes (h : s.bindings.Inverse) (hok : Careful rt s a)
    (hs : step rt s a = some s') (hcall : a.isCall = true) {wsId : String}
    (hdel : Deletes s s' wsId) : ∀ sid ∈ s'.running, s.bindings.bySid.lookup sid ≠ some wsId := by
  have hkept : s'.workspaces = s.workspaces → False := fun he => hdel.2 (he ▸ hdel.1)
  cases a with
  | bindSession ws sid =>
    obtain rfl := Option.some.inj hs
    refine absurd ?_ hkept
    unfold bindSession
    split <;> rfl
  | unbindSession sid | start sid | stop sid =>
    obtain rfl := Option.some.inj hs
    exact absurd rfl hkept
  | deleteIfNoSessions ws =>
    obtain rfl := Option.some.inj hs
    exact fun sid _ => not_bound_of_deleteIfNoSessions h hdel sid
  | workspaceRemove name =>
    obtain rfl := Option.some.inj hs
    rcases workspaceRemove_cases rt name s with he | ⟨ws, hws, hactive, he⟩
    · exact absurd (congrArg State.workspaces he) hkept
    · rw [he] at hdel
      obtain rfl := eq_of_deletes hdel.1 rfl hdel.2
      rw [he]
      rcases hok ws hws with hguard | hfree
      · exact absurd hactive hguard
      · exact hfree
  | sessionEnd sid workspace =>
    obtain rfl := Option.some.inj hs
    rcases sessionEnd_cases rt sid workspace s with he | ⟨m, hm, he | ⟨ws, he⟩⟩
    · exact absurd (congrArg State.workspaces he) hkept
    · rw [he, hm] at hkept
      exact absurd rfl hkept
    · -- the session that ends runs no more, and is unbound before the workspace goes
      have hstore : m.workspaces = s.workspaces := by
        rw [hm]
        rfl
      have hinv : m.bindings.Inverse := by
        rw [hm]
        exact h.unbind sid
      have hrunning : (deleteIfNoSessions rt ws m).2.running = s.running.filter fun x => x ≠ sid := by
        rcases deleteIfNoSessions_cases rt ws m with hd | ⟨-, hd⟩ | ⟨-, hd⟩
        · rw [hd, hm]
          rfl
        · rw [hd, hm]
          rfl
        · rw [hd, hm]
          rfl
      intro x hx hbound
      rw [he, hrunning] at hx
      have hne : x ≠ sid := by simpa using (List.mem_filter.mp hx).2
      have hdel' : Deletes m (deleteIfNoSessions rt ws m).2 wsId :=
        ⟨hstore ▸ hdel.1, he ▸ hdel.2⟩
      refine not_bound_of_deleteIfNoSessions hinv hdel' x ?_
      rw [hm]
      change (s.bindings.unbind sid).bySid.lookup x = _
      rw [Bindings.bySid_unbind, if_neg hne]
      exact hbound
  | other workspaces => cases hcall

/-- **Bindings over runs.**  In every state that careful calls reach, the two maps
are inverse to each other, and no careful call deletes a workspace to which a
session that still runs is bound. -/
theorem bound_reaches {s₀ s : State} (h0 : s₀.bindings = .init)
    (h : Reaches (step rt) (Careful rt) s₀ s) :
    s.bindings.TwoWay ∧
      ∀ a s', Careful rt s a → step rt s a = some s' → a.isCall = true →
        ∀ wsId, Deletes s s' wsId →
          ∀ sid ∈ s'.running, s.bindings.bySid.lookup sid ≠ some wsId := by
  have hinv : s.bindings.Inverse := by
    refine h.invariant ?_ fun _ _ _ ht hok hs => inverse_step ht hok hs
    rw [h0]
    exact Bindings.inverse_init
  exact ⟨hinv.twoWay, fun a s' hok hs hcall wsId hdel => not_bound_of_deletes hinv hok hs hcall hdel⟩

/-! ## A transient workspace, a session bound twice, and a guard that knows nothing -/

/-- No plugin, no guard, and files that can be deleted. -/
def plainRuntime : Runtime where
  dispatchToPlugin := fun _ => none
  deleteFiles := fun _ => .ok []
  activeSessionsFn := none

/-- A transient workspace in the runtime's own directory. -/
def scratchWorkspace (id name : String) : Struct where
  id := id
  name := name
  owner := .str "alice"
  folders := [⟨.str ("/srv/" ++ name), .null⟩]
  agent := .str "cc"
  settings := .map []
  env := .map []
  chats := []
  transient := .bool true
  location := some (.esrBound ("/srv/" ++ name))

/-- Two workspaces and one running session, which is not bound yet. -/
def twoWorkspaces : State where
  bindings := .init
  workspaces := writeRows (writeRows Ets.empty (scratchWorkspace "w1" "web").row)
    (scratchWorkspace "w2" "docs").row
  running := ["s1"]

theorem reaches_bound : Reaches (step plainRuntime) (Careful plainRuntime) twoWorkspaces
    (bindSession plainRuntime "w1" "s1" twoWorkspaces).2 := by
  have hok : Careful plainRuntime twoWorkspaces (.bindSession "w1" "s1") := by
    refine Or.inr fun other hother => ?_
    cases hother
  exact ⟨_, .cons hok rfl .nil⟩

/-- A session is bound, and ends; its workspace goes with it. -/
theorem bound_then_ended :
    (bindSession plainRuntime "w1" "s1" twoWorkspaces).2.bindings.TwoWay ∧
      ∀ wsId, Deletes (bindSession plainRuntime "w1" "s1" twoWorkspaces).2
        (sessionEnd plainRuntime "s1" (some "web")
          (bindSession plainRuntime "w1" "s1" twoWorkspaces).2).2 wsId →
        ∀ sid ∈ (sessionEnd plainRuntime "s1" (some "web")
          (bindSession plainRuntime "w1" "s1" twoWorkspaces).2).2.running,
          (bindSession plainRuntime "w1" "s1" twoWorkspaces).2.bindings.bySid.lookup sid ≠
            some wsId :=
  have h := bound_reaches rfl reaches_bound
  ⟨h.1, h.2 (.sessionEnd "s1" (some "web")) _ trivial rfl rfl⟩

/-- A session that is bound a second time stays with the workspace it was in, and a
workspace is removed under a running session that is bound to it. -/
theorem not_bound_reaches :
    (∃ s, Reaches (step plainRuntime) anyStep twoWorkspaces s ∧ ¬ s.bindings.TwoWay) ∧
      ∃ s s', Reaches (step plainRuntime) anyStep twoWorkspaces s ∧
        step plainRuntime s (.workspaceRemove "web") = some s' ∧ Deletes s s' "w1" ∧
          "s1" ∈ s'.running ∧ s.bindings.bySid.lookup "s1" = some "w1" := by
  have hfirst : step plainRuntime twoWorkspaces (.bindSession "w1" "s1") =
      some { twoWorkspaces with bindings := Bindings.init.bind "w1" "s1" } := rfl
  constructor
  · have hsecond : step plainRuntime
        { twoWorkspaces with bindings := Bindings.init.bind "w1" "s1" } (.bindSession "w2" "s1") =
        some { twoWorkspaces with bindings := (Bindings.init.bind "w1" "s1").bind "w2" "s1" } := rfl
    refine ⟨_, ⟨_, .cons trivial hfirst (.cons trivial hsecond .nil)⟩, fun h => ?_⟩
    have hnow := ((h "s1" "w2").mp rfl).2 "w1" (by decide)
    exact hnow List.mem_cons_self
  · refine ⟨_, _, ⟨_, .cons trivial hfirst .nil⟩, rfl, ⟨?_, ?_⟩, List.mem_cons_self, rfl⟩
    · exact ⟨_, _, rfl⟩
    · rintro ⟨kind, data, hrow⟩
      exact (lookup_workspaceDeleteById.mp hrow).1 rfl

end SessionBindings
end Esr
