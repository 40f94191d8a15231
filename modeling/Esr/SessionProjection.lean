import Esr.Runs
import Esr.Grants

/-! # A session's copy of its principal's grants

A session process keeps the list its principal holds: it fetches the row when it
starts, subscribes to the principal's `grants_changed` topic, and fetches again
at each message.  The rows are replaced by the owner of the table, which clears
the table, fills it and then broadcasts.

Nothing orders the fetches against the owner, so a fetch can return a list that
no later message corrects.  `Timely` is the condition on a step that excludes
it, and `inSync_of_timely` the result: in runs of timely steps, a session with no
message waiting while no load is running holds exactly its principal's row.  The
invariant is that a session with an empty inbox has a `Current` copy.
-/
namespace Esr
namespace SessionProjection
open Grants

/-- `fetch_grants/1`. -/
def fetchGrants (t : Table) : Option String → List String
  | none => []
  | some principalId => heldBy t principalId

/-- A session process.  `fetched`: inside `init/1`, before it subscribes; `idle`:
waiting for messages; `refreshing`: in `handle_info(:grants_changed, …)` with the
row just read.  The inbox counts the `grants_changed` messages sent and not yet
taken. -/
inductive Proc where
  | absent
  | fetched (principalId : Option String) (grants : List String)
  | idle (principalId : Option String) (grants : List String) (inbox : Nat)
  | refreshing (principalId : Option String) (grants newGrants : List String) (inbox : Nat)
  deriving DecidableEq

/-- The messages a subscriber of the principal's topic gets from a step of the
owner. -/
def heard (p : Option String) : LoadAct → Nat
  | .broadcast q => if p = some q then 1 else 0
  | _ => 0

/-- What a step of the owner puts into a session's inbox. -/
def Proc.hear (r : Proc) (a : LoadAct) : Proc :=
  match r with
  | .idle p grants inbox => .idle p grants (inbox + heard p a)
  | .refreshing p grants newGrants inbox => .refreshing p grants newGrants (inbox + heard p a)
  | .absent | .fetched _ _ => r

/-- The owner of the table, and the session processes by session id. -/
structure State where
  owner : Loader
  procs : String → Proc

inductive Act where
  | owner (a : LoadAct)
  | fetch (sessionId : String) (principalId : Option String)
  | subscribe (sessionId : String)
  | handle (sessionId : String)
  | publish (sessionId : String)

/-- The state with one session changed. -/
def State.setProc (s : State) (sessionId : String) (r : Proc) : State :=
  { s with procs := Function.update s.procs sessionId r }

/-- One step of the owner or of one session. -/
def step (s : State) : Act → Option State
  | .owner a => (s.owner.step a).map fun l => { owner := l, procs := fun i => (s.procs i).hear a }
  | .fetch i p =>
      match s.procs i with
      | .absent => some (s.setProc i (.fetched p (fetchGrants s.owner.table p)))
      | _ => none
  | .subscribe i =>
      match s.procs i with
      | .fetched p grants => some (s.setProc i (.idle p grants 0))
      | _ => none
  | .handle i =>
      match s.procs i with
      | .idle p grants (inbox + 1) =>
          some (s.setProc i (.refreshing p grants (fetchGrants s.owner.table p) inbox))
      | _ => none
  | .publish i =>
      match s.procs i with
      | .refreshing p _ newGrants inbox => some (s.setProc i (.idle p newGrants inbox))
      | _ => none

/-- Before the first load, with no sessions. -/
def start : State := ⟨⟨Ets.empty, .idle⟩, fun _ => .absent⟩

/-- Every initialised session with no message in flight holds its principal's
row, unless a load is running. -/
def InSync (s : State) : Prop :=
  s.owner.phase = .idle → ∀ i p grants, s.procs i = .idle p grants 0 →
    grants = fetchGrants s.owner.table p

/-! ## The condition on a step -/

/-- `Loader.Current` for a session's principal; an anonymous session holds nothing. -/
def Current (l : Loader) : Option String → List String → Prop
  | none, grants => grants = []
  | some p, grants => l.Current p grants

instance (l : Loader) : (p : Option String) → (grants : List String) →
    Decidable (Current l p grants)
  | none, grants => inferInstanceAs (Decidable (grants = []))
  | some p, grants => inferInstanceAs (Decidable (l.Current p grants))

/-- The list fetched in `init/1` is still current. -/
def Proc.MaySubscribe (l : Loader) : Proc → Prop
  | .fetched p grants => Current l p grants
  | _ => True

/-- The last waiting message is taken only when the row to be read is current. -/
def Proc.MayHandle (l : Loader) : Proc → Prop
  | .idle p _ 1 => Current l p (fetchGrants l.table p)
  | _ => True

instance (l : Loader) : (r : Proc) → Decidable (r.MaySubscribe l)
  | .fetched p grants => inferInstanceAs (Decidable (Current l p grants))
  | .absent | .idle _ _ _ | .refreshing _ _ _ _ => isTrue trivial

instance (l : Loader) : (r : Proc) → Decidable (r.MayHandle l)
  | .idle p _ 1 => inferInstanceAs (Decidable (Current l p (fetchGrants l.table p)))
  | .idle _ _ 0 | .idle _ _ (_ + 2) => isTrue trivial
  | .absent | .fetched _ _ | .refreshing _ _ _ _ => isTrue trivial

/-- The condition on a step: on subscribing and on taking the last message. -/
def Timely (s : State) : Act → Prop
  | .subscribe i => (s.procs i).MaySubscribe s.owner
  | .handle i => (s.procs i).MayHandle s.owner
  | _ => True

instance (s : State) : (a : Act) → Decidable (Timely s a)
  | .subscribe i => inferInstanceAs (Decidable ((s.procs i).MaySubscribe s.owner))
  | .handle i => inferInstanceAs (Decidable ((s.procs i).MayHandle s.owner))
  | .owner _ | .fetch _ _ | .publish _ => isTrue trivial

/-! ## The invariant -/

/-- A session with no message waiting has a current copy. -/
def Proc.Ok (l : Loader) : Proc → Prop
  | .absent | .fetched _ _ => True
  | .idle p grants inbox => inbox = 0 → Current l p grants
  | .refreshing p _ newGrants inbox => inbox = 0 → Current l p newGrants

structure Inv (s : State) : Prop where
  sound : s.owner.Sound
  procs : ∀ i, (s.procs i).Ok s.owner

theorem inv_start : Inv start := ⟨trivial, fun _ => trivial⟩

theorem Current.step {l l' : Loader} {a : LoadAct} {p : Option String} {grants : List String}
    (hc : Current l p grants) (h : l.step a = some l') (hs : l.Sound)
    (hne : ∀ q, p = some q → a ≠ .broadcast q) : Current l' p grants := by
  cases p with
  | none => exact hc
  | some q => exact Loader.Current.step hc h hs (hne q rfl)

theorem ne_broadcast_of_heard {p : Option String} {a : LoadAct} (h : heard p a = 0) :
    ∀ q, p = some q → a ≠ .broadcast q := by
  rintro q rfl rfl
  simp [heard] at h

theorem Proc.Ok.hear {l l' : Loader} {a : LoadAct} {r : Proc} (hr : r.Ok l)
    (h : l.step a = some l') (hs : l.Sound) : (r.hear a).Ok l' := by
  cases r with
  | absent => trivial
  | fetched p grants => trivial
  | idle p grants inbox =>
    intro h0
    obtain ⟨hinbox, hheard⟩ := Nat.add_eq_zero_iff.mp h0
    exact (hr hinbox).step h hs (ne_broadcast_of_heard hheard)
  | refreshing p grants newGrants inbox =>
    intro h0
    obtain ⟨hinbox, hheard⟩ := Nat.add_eq_zero_iff.mp h0
    exact (hr hinbox).step h hs (ne_broadcast_of_heard hheard)

theorem Inv.setProc {s : State} (h : Inv s) {i : String} {r : Proc} (hr : r.Ok s.owner) :
    Inv (s.setProc i r) := by
  refine ⟨h.sound, fun j => ?_⟩
  by_cases hj : j = i
  · rw [hj]
    simpa [State.setProc] using hr
  · simpa [State.setProc, hj] using h.procs j

theorem inv_step {s s' : State} {a : Act} (h : Inv s) (ht : Timely s a)
    (hs : step s a = some s') : Inv s' := by
  cases a with
  | owner act =>
    obtain ⟨l, hl, rfl⟩ := Option.map_eq_some_iff.mp hs
    exact ⟨Loader.sound_step hl h.sound, fun i => (h.procs i).hear hl h.sound⟩
  | fetch i p =>
    simp only [step] at hs
    split at hs
    · obtain rfl := Option.some.inj hs
      exact h.setProc trivial
    · cases hs
  | subscribe i =>
    simp only [step] at hs
    simp only [Timely] at ht
    split at hs
    · rename_i p grants hi
      obtain rfl := Option.some.inj hs
      rw [hi] at ht
      exact h.setProc fun _ => ht
    · cases hs
  | handle i =>
    simp only [step] at hs
    simp only [Timely] at ht
    split at hs
    · rename_i p grants inbox hi
      obtain rfl := Option.some.inj hs
      rw [hi] at ht
      -- only the read for the last message has to be current
      refine h.setProc fun h0 => ?_
      subst h0
      exact ht
    · cases hs
  | publish i =>
    simp only [step] at hs
    split at hs
    · rename_i p grants newGrants inbox hi
      obtain rfl := Option.some.inj hs
      have hok := h.procs i
      rw [hi] at hok
      exact h.setProc hok
    · cases hs

theorem Inv.inSync {s : State} (h : Inv s) : InSync s := by
  intro hidle i p grants hi
  have hok := h.procs i
  rw [hi] at hok
  have hc : Current s.owner p grants := hok rfl
  cases p with
  | none => exact hc
  | some q =>
    simpa only [Current, Loader.Current, Loader.target, Loader.Owed, LoadPhase.owed, hidle,
      List.not_mem_nil, or_false, fetchGrants] using hc

/-- **The projection follows the table.**  In every run of timely steps, every
state reached is in sync. -/
theorem inSync_of_timely {s : State} (h : Reaches step Timely start s) : InSync s :=
  (h.invariant inv_start fun _ _ _ ht hok hs => inv_step ht hok hs).inSync

/-- The grants of one principal, as loaded by the runs below. -/
def adminSnapshot : Table := Ets.empty.insert "ou_admin" ["*"]

/-- `load_snapshot(adminSnapshot)` over the empty table. -/
def loadAdmin : List Act :=
  [.owner (.load adminSnapshot), .owner .deleteAllObjects, .owner .insert, .owner .inserted,
    .owner (.broadcast "ou_admin"), .owner .done]

/-- Subscribe, hear of a load, fetch again once it is over. -/
theorem inSync_after_refresh : ∃ s, Reaches step Timely start s ∧ InSync s ∧
    s.procs "s1" = .idle (some "ou_admin") ["*"] 0 := by
  have hrun : ((exec step Timely start
      ([.fetch "s1" (some "ou_admin"), .subscribe "s1"] ++ loadAdmin ++
        [.handle "s1", .publish "s1"])).map fun s => s.procs "s1") =
      some (.idle (some "ou_admin") ["*"] 0) := by decide
  obtain ⟨s, hs, hproc⟩ := Option.map_eq_some_iff.mp hrun
  exact ⟨s, .of_exec hs, inSync_of_timely (.of_exec hs), hproc⟩

/-- Without the condition: a load between a session's fetch and its subscription
is never heard of. -/
theorem not_inSync_load_before_subscribe :
    ¬∀ s, Reaches step anyStep start s → InSync s := by
  intro h
  obtain ⟨s, hs, hidle, hproc, hrow⟩ : ∃ s, exec step anyStep start
      ([.fetch "s1" (some "ou_admin")] ++ loadAdmin ++ [.subscribe "s1"]) = some s ∧
      s.owner.phase = .idle ∧ s.procs "s1" = .idle (some "ou_admin") [] 0 ∧
      fetchGrants s.owner.table (some "ou_admin") = ["*"] := ⟨_, rfl, rfl, rfl, rfl⟩
  have hsync := h s (.of_exec hs) hidle "s1" _ _ hproc
  rw [hrow] at hsync
  cases hsync

end SessionProjection
end Esr
