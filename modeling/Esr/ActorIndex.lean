import Esr.Ets
import Esr.Runs
import Mathlib.Data.Finset.Basic
import Mathlib.Logic.Function.Basic

/-! # The index of actors

`Esr.Entity.Registry` keeps two tables beside the runtime's own registry: one row
for a session and a name, and a bag of rows for a session and a role.  An actor
inserts and deletes its own rows.  `IndexWatcher` monitors it, and deletes the rows
of a registration when the `:DOWN` message for it arrives.

A step is one table operation, one request to the watcher, or the exit of a
process.  Processes have numbers, and all of them are there from the beginning: one
that has not started yet is one that does nothing yet.
-/
namespace Esr
namespace ActorIndex

/-- What `monitor_and_track/1` is told about a registration. -/
structure Meta where
  pid : Nat
  actorId : String
  sessionId : String
  name : String
  role : String
  deriving DecidableEq

namespace Meta

/-- The key of the row in the name index. -/
def nameKey (m : Meta) : String × String := (m.sessionId, m.name)

/-- The value of both rows. -/
def value (m : Meta) : Nat × String := (m.pid, m.actorId)

/-- The row in the role index. -/
def roleRow (m : Meta) : (String × String) × Nat × String := ((m.sessionId, m.role), m.value)

end Meta

/-- The two tables. -/
structure Index where
  names : Ets (String × String) (Nat × String)
  roles : Finset ((String × String) × Nat × String)

namespace Index

/-- `register_attrs/2` of a process that is alone. -/
def registerAttrs (ix : Index) (m : Meta) : Index :=
  if ix.names.lookup m.nameKey = none then
    { names := ix.names.insert m.nameKey m.value, roles := insert m.roleRow ix.roles }
  else ix

/-- `deregister_attrs/2` of a process that is alone. -/
def deregisterAttrs (ix : Index) (m : Meta) : Index :=
  { names := ix.names.delete m.nameKey, roles := ix.roles.erase m.roleRow }

end Index

/-- Where a process is in `register_attrs/2` (its name row is there; its role row is
there; it waits for the watcher) or in `deregister_attrs/2`. -/
inductive Phase where
  | idle
  | named (m : Meta)
  | roled (m : Meta)
  | asking (m : Meta)
  | removing (m : Meta)
  deriving DecidableEq

/-- The registration under way. -/
def Phase.registering : Phase → Option Meta
  | .named m | .roled m | .asking m => some m
  | .idle | .removing _ => none

/-- The registration the watcher has not been asked about. -/
def Phase.unsent : Phase → Option Meta
  | .named m | .roled m => some m
  | .idle | .asking _ | .removing _ => none

/-- The registration the watcher has been asked about. -/
def Phase.sent : Phase → Option Meta
  | .asking m => some m
  | .idle | .named _ | .roled _ | .removing _ => none

/-- `completed` has the registrations that have been answered `:ok` and not been
taken back, and `downed` those whose `:DOWN` has been handled. -/
structure State extends Index where
  alive : Nat → Bool
  phase : Nat → Phase
  monitors : Ets Nat Meta
  nextRef : Nat
  watcher : Option Meta
  completed : List Meta
  downed : List Meta

inductive Act where
  | register (m : Meta)
  | advance (p : Nat)
  | track (p : Nat)
  | deregister (m : Meta)
  | exit (p : Nat)
  | down (ref : Nat)
  | cleaned

namespace State

/-- The process goes on at `ph`. -/
def go (s : State) (p : Nat) (ph : Phase) : State :=
  { s with phase := Function.update s.phase p ph }

/-- `:ets.insert_new` of the name row, which answers `{:error, :name_taken}` when the
name is taken. -/
def register (s : State) (m : Meta) : State :=
  if s.names.lookup m.nameKey = none then
    { s with names := s.names.insert m.nameKey m.value }.go m.pid (.named m)
  else s

/-- The next step of a process by itself. -/
def advance (s : State) (p : Nat) : Phase → Option State
  | .named m => some ({ s with roles := insert m.roleRow s.roles }.go p (.roled m))
  | .roled m => some (s.go p (.asking m))
  | .removing m => some ({ s with roles := s.roles.erase m.roleRow }.go p .idle)
  | .idle | .asking _ => none

/-- `handle_call({:monitor_and_track, metadata}, …)`, and its answer. -/
def track (s : State) (p : Nat) : Option State :=
  match s.watcher, s.phase p with
  | none, .asking m =>
    some ({ s with
      monitors := s.monitors.insert s.nextRef m
      nextRef := s.nextRef + 1
      completed := if s.alive p then m :: s.completed else s.completed }.go p .idle)
  | _, _ => none

/-- `:ets.delete` of the name row. -/
def deregister (s : State) (m : Meta) : State :=
  { s with
    names := s.names.delete m.nameKey
    completed := s.completed.filter fun m' => m' ≠ m }.go m.pid (.removing m)

/-- `handle_info({:DOWN, …})`, up to the name row.  What a process sent before it
went down comes before its `:DOWN`. -/
def down (s : State) (ref : Nat) : Option State :=
  match s.watcher, s.monitors.lookup ref with
  | none, some m =>
    if s.alive m.pid = false ∧ (s.phase m.pid).sent = none then
      some { s with
        names := s.names.delete m.nameKey
        monitors := s.monitors.delete ref
        watcher := some m }
    else none
  | _, _ => none

/-- The rest of `handle_info({:DOWN, …})`. -/
def cleaned (s : State) : Option State :=
  match s.watcher with
  | some m =>
    some { s with
      roles := s.roles.erase m.roleRow
      watcher := none
      downed := m :: s.downed }
  | none => none

end State

def step (s : State) : Act → Option State
  | .register m => if s.alive m.pid ∧ s.phase m.pid = .idle then some (s.register m) else none
  | .advance p => if s.alive p then s.advance p (s.phase p) else none
  | .track p => s.track p
  | .deregister m => if s.alive m.pid ∧ s.phase m.pid = .idle then some (s.deregister m) else none
  | .exit p => if s.alive p then some { s with alive := Function.update s.alive p false } else none
  | .down ref => s.down ref
  | .cleaned => s.cleaned

/-- No rows. -/
def start : State where
  names := Ets.empty
  roles := ∅
  alive := fun _ => true
  phase := fun _ => .idle
  monitors := Ets.empty
  nextRef := 0
  watcher := none
  completed := []
  downed := []

/-! ## What it should do -/

/-- The watcher has nothing left to do about the process. -/
def State.forgotten (s : State) (p : Nat) : Prop :=
  (∀ row ∈ s.monitors.tab2list, row.2.pid ≠ p) ∧ ∀ m, s.watcher = some m → m.pid ≠ p

/-- **The index is right**: a registration of a live process has its two rows; one
whose `:DOWN` has been handled has none, and its process has none either once the
watcher is done with it. -/
structure Correct (s : State) : Prop where
  named : ∀ m ∈ s.completed, s.alive m.pid = true → s.names.lookup m.nameKey = some m.value
  roled : ∀ m ∈ s.completed, s.alive m.pid = true → m.roleRow ∈ s.roles
  unlisted : ∀ m ∈ s.downed, s.names.lookup m.nameKey ≠ some m.value ∧ m.roleRow ∉ s.roles
  gone : ∀ m ∈ s.downed, s.forgotten m.pid →
    (∀ key aid, s.names.lookup key ≠ some (m.pid, aid)) ∧ ∀ key aid, (key, m.pid, aid) ∉ s.roles

/-- The row of a name belongs to nobody but dead processes and `v`. -/
def State.freeFor (s : State) (key : String × String) (v : Nat × String) : Prop :=
  match s.names.lookup key with
  | some v' => v' = v ∨ s.alive v'.1 = false
  | none => True

/-- A name row is deleted only by its own process, or when its process is dead; a
process takes a registration back only when it has no other one with a row of it;
and one with other registrations does not die before the watcher has been asked
about the last. -/
def Rightful (s : State) : Act → Prop
  | .deregister m => s.freeFor m.nameKey m.value ∧ ∀ m' ∈ s.completed, m'.pid = m.pid → m' ≠ m →
      m'.nameKey ≠ m.nameKey ∧ m'.roleRow ≠ m.roleRow
  | .down ref => ∀ m ∈ s.monitors.lookup ref, s.freeFor m.nameKey m.value
  | .exit p => (s.phase p).unsent = none ∨ ∀ row ∈ s.monitors.tab2list, row.2.pid ≠ p
  | _ => True

variable {s s' : State} {m : Meta} {p : Nat} {ph : Phase}

/-- Whose rows are in the tables: those of the registrations that are completed or
under way. -/
def State.claims (s : State) (m : Meta) : Prop :=
  m ∈ s.completed ∨ (s.phase m.pid).registering = some m

theorem phase_go (s : State) (p p' : Nat) (ph : Phase) :
    (s.go p ph).phase p' = if p' = p then ph else s.phase p' := Function.update_apply ..

/-! ## The phases of the processes -/

/-- The registration a process is busy with. -/
def Phase.subject : Phase → Option Meta
  | .named m | .roled m | .asking m | .removing m => some m
  | .idle => none

theorem Phase.registering_eq_none (hunsent : ph.unsent = none) (hsent : ph.sent = none) :
    ph.registering = none := by
  cases ph with
  | idle | removing => rfl
  | named | roled => cases hunsent
  | asking => cases hsent

/-- A process is busy with a registration of its own; one that begins has not been
completed before; one that is taking a registration back has no other with its role
row; and the watcher cleans up after the dead. -/
structure Busy (s : State) : Prop where
  own : ∀ p m, (s.phase p).subject = some m → m.pid = p
  newly : ∀ p m, s.phase p = .named m → m ∉ s.completed
  removing : ∀ p m, s.phase p = .removing m →
    ∀ m' ∈ s.completed, m'.pid = p → m'.roleRow ≠ m.roleRow
  watched : ∀ m, s.watcher = some m → s.alive m.pid = false

theorem busy_start : Busy start where
  own _ _ h := nomatch h
  newly _ _ h := nomatch h
  removing _ _ h := nomatch h
  watched _ h := nomatch h

theorem Busy.go (h : Busy s) (hown : ∀ m, ph.subject = some m → m.pid = p)
    (hnewly : ∀ m, ph = .named m → m ∉ s.completed)
    (hremoving : ∀ m, ph = .removing m → ∀ m' ∈ s.completed, m'.pid = p → m'.roleRow ≠ m.roleRow) :
    Busy (s.go p ph) := by
  constructor
  · intro p' m hm
    rw [phase_go] at hm
    split at hm
    · rename_i he
      exact he ▸ hown m hm
    · exact h.own p' m hm
  · intro p' m hm
    rw [phase_go] at hm
    split at hm
    · exact hnewly m hm
    · exact h.newly p' m hm
  · intro p' m hm m' hin hpid
    rw [phase_go] at hm
    split at hm
    · rename_i he
      exact hremoving m hm m' hin (hpid.trans he)
    · exact h.removing p' m hm m' hin hpid
  · exact h.watched

/-- The tables and the monitors have changed, and perhaps fewer registrations are
completed or fewer processes alive. -/
theorem Busy.same (h : Busy s) (hphase : s'.phase = s.phase)
    (hcompleted : ∀ m ∈ s'.completed, m ∈ s.completed)
    (hwatched : ∀ m, s'.watcher = some m → s'.alive m.pid = false) : Busy s' := by
  constructor
  · rw [hphase]
    exact h.own
  · rw [hphase]
    exact fun p m hm hin => h.newly p m hm (hcompleted m hin)
  · rw [hphase]
    exact fun p m hm m' hin => h.removing p m hm m' (hcompleted m' hin)
  · exact hwatched

/-! ## What each step can do -/

theorem track_eq_some (h : s.track p = some s') :
    ∃ m, s.watcher = none ∧ s.phase p = .asking m ∧ s' = { s with
      monitors := s.monitors.insert s.nextRef m
      nextRef := s.nextRef + 1
      completed := if s.alive p then m :: s.completed else s.completed }.go p .idle := by
  unfold State.track at h
  split at h
  · rename_i m hw hm
    exact ⟨m, hw, hm, (Option.some.inj h).symm⟩
  · cases h

theorem down_eq_some {ref : Nat} (h : s.down ref = some s') :
    ∃ m, s.watcher = none ∧ s.monitors.lookup ref = some m ∧ s.alive m.pid = false ∧
      (s.phase m.pid).sent = none ∧ s' = { s with
        names := s.names.delete m.nameKey
        monitors := s.monitors.delete ref
        watcher := some m } := by
  unfold State.down at h
  split at h
  · rename_i m hw hm
    obtain ⟨⟨halive, hsent⟩, he⟩ := Option.ite_none_right_eq_some.mp h
    exact ⟨m, hw, hm, halive, hsent, (Option.some.inj he).symm⟩
  · cases h

theorem cleaned_eq_some (h : s.cleaned = some s') :
    ∃ m, s.watcher = some m ∧ s' = { s with
      roles := s.roles.erase m.roleRow
      watcher := none
      downed := m :: s.downed } := by
  unfold State.cleaned at h
  split at h
  · rename_i m hw
    exact ⟨m, hw, (Option.some.inj h).symm⟩
  · cases h

theorem advance_eq_some (h : s.advance p (s.phase p) = some s') :
    (∃ m, s.phase p = .named m ∧
      s' = { s with roles := insert m.roleRow s.roles }.go p (.roled m)) ∨
    (∃ m, s.phase p = .roled m ∧ s' = s.go p (.asking m)) ∨
    (∃ m, s.phase p = .removing m ∧
      s' = { s with roles := s.roles.erase m.roleRow }.go p .idle) := by
  cases hph : s.phase p with
  | idle | asking =>
    rw [hph] at h
    cases h
  | named m =>
    rw [hph] at h
    exact Or.inl ⟨m, rfl, (Option.some.inj h).symm⟩
  | roled m =>
    rw [hph] at h
    exact Or.inr (Or.inl ⟨m, rfl, (Option.some.inj h).symm⟩)
  | removing m =>
    rw [hph] at h
    exact Or.inr (Or.inr ⟨m, rfl, (Option.some.inj h).symm⟩)

theorem register_cases (s : State) (m : Meta) :
    s.register m = s ∨ s.names.lookup m.nameKey = none ∧
      s.register m = { s with names := s.names.insert m.nameKey m.value }.go m.pid (.named m) := by
  unfold State.register
  split
  · rename_i hfree
    exact Or.inr ⟨hfree, rfl⟩
  · exact Or.inl rfl

/-! ## The rows of the living -/

/-- The rows of the registrations of a live process are there, the role row once it
has been inserted. -/
structure Held (s : State) : Prop where
  named : ∀ m, s.claims m → s.alive m.pid = true → s.names.lookup m.nameKey = some m.value
  roled : ∀ m, s.claims m → s.alive m.pid = true → s.phase m.pid ≠ .named m → m.roleRow ∈ s.roles

theorem held_start : Held start where
  named _ h := nomatch h
  roled _ h := nomatch h

theorem Busy.step (h : Busy s) (hh : Held s) {a : Act} (hok : Rightful s a)
    (hs : ActorIndex.step s a = some s') :
    Busy s' := by
  cases a with
  | register m =>
    obtain ⟨⟨halive, _⟩, rfl⟩ := guard_eq_some.mp hs
    rcases register_cases s m with hsame | ⟨hfree, hnew⟩
    · rw [hsame]
      exact h
    · rw [hnew]
      have hnames : Busy { s with names := s.names.insert m.nameKey m.value } :=
        h.same rfl (fun _ hm => hm) h.watched
      refine hnames.go ?_ ?_ nofun
      · intro m' hm'
        exact Option.some.inj hm' ▸ rfl
      · intro m' hm' hin
        obtain rfl := Phase.named.inj hm'
        have hrow := hh.named m (Or.inl hin) halive
        rw [hfree] at hrow
        cases hrow
  | advance p =>
    obtain ⟨_, he⟩ := Option.ite_none_right_eq_some.mp hs
    rcases advance_eq_some he with ⟨m, hm, rfl⟩ | ⟨m, hm, rfl⟩ | ⟨m, hm, rfl⟩
    · have hroles : Busy { s with roles := insert m.roleRow s.roles } :=
        h.same rfl (fun _ hm => hm) h.watched
      refine hroles.go ?_ nofun nofun
      intro m' hm'
      exact Option.some.inj hm' ▸ h.own p m (by rw [hm]; rfl)
    · refine h.go ?_ nofun nofun
      intro m' hm'
      exact Option.some.inj hm' ▸ h.own p m (by rw [hm]; rfl)
    · have hroles : Busy { s with roles := s.roles.erase m.roleRow } :=
        h.same rfl (fun _ hm => hm) h.watched
      exact hroles.go nofun nofun nofun
  | track p =>
    obtain ⟨m, hnone, hm, rfl⟩ := track_eq_some hs
    have hidle : Busy (s.go p .idle) := h.go nofun nofun nofun
    have hpid := h.own p m (by rw [hm]; rfl)
    have hnew : ∀ m' ∈ (if s.alive p then m :: s.completed else s.completed),
        m' = m ∨ m' ∈ s.completed := by
      intro m' hin
      split at hin
      · exact List.mem_cons.mp hin
      · exact Or.inr hin
    have hbusy : ∀ p' ph', (s.go p .idle).phase p' = ph' → ph' ≠ .idle → p' ≠ p := by
      intro p' ph' hph' hne he
      rw [phase_go, if_pos he] at hph'
      exact hne hph'.symm
    refine { hidle with newly := ?_, removing := ?_ }
    · intro p' m' hm' hin
      rcases hnew m' hin with rfl | hold
      · have hnamed : (s.go p .idle).phase p' = .named m' := hm'
        have hpid' := hidle.own p' m' (by rw [hnamed]; rfl)
        exact hbusy p' _ hnamed nofun (hpid'.symm.trans hpid)
      · exact hidle.newly p' m' hm' hold
    · intro p' m' hm' m'' hin hpid'
      rcases hnew m'' hin with rfl | hold
      · exact absurd (hpid'.symm.trans hpid) (hbusy p' _ hm' nofun)
      · exact hidle.removing p' m' hm' m'' hold hpid'
  | deregister m =>
    obtain ⟨_, rfl⟩ := guard_eq_some.mp hs
    have hless : Busy { s with
        names := s.names.delete m.nameKey
        completed := s.completed.filter fun m' => m' ≠ m } :=
      h.same rfl (fun _ hm => List.mem_of_mem_filter hm) h.watched
    refine hless.go ?_ nofun ?_
    · intro m' hm'
      exact Option.some.inj hm' ▸ rfl
    · intro m' hm' m'' hin hpid
      obtain rfl := Phase.removing.inj hm'
      obtain ⟨hin', hne⟩ := List.mem_filter.mp hin
      exact (hok.2 m'' hin' hpid (of_decide_eq_true hne)).2
  | exit p =>
    obtain ⟨_, rfl⟩ := guard_eq_some.mp hs
    refine h.same rfl (fun _ hm => hm) ?_
    intro m hm
    show Function.update s.alive p false m.pid = false
    rw [Function.update_apply]
    split
    · rfl
    · exact h.watched m hm
  | down ref =>
    obtain ⟨m, _, _, hdead, _, rfl⟩ := down_eq_some hs
    refine h.same rfl (fun _ hm => hm) ?_
    intro m' hm'
    exact Option.some.inj hm' ▸ hdead
  | cleaned =>
    obtain ⟨m, _, rfl⟩ := cleaned_eq_some hs
    exact h.same rfl (fun _ hm => hm) nofun

theorem claims_of_idle (hidle : s.phase m.pid = .idle) (h : s.claims m) : m ∈ s.completed := by
  rcases h with h | h
  · exact h
  · rw [hidle] at h
    cases h

theorem claims_go (h : (s.go p ph).claims m) :
    s.claims m ∨ m.pid = p ∧ ph.registering = some m := by
  rcases h with h | h
  · exact Or.inl (Or.inl h)
  · rw [phase_go] at h
    split at h
    · rename_i he
      exact Or.inr ⟨he, h⟩
    · exact Or.inl (Or.inr h)

theorem claims_of_go (hkept : ∀ m, ph.registering = some m → (s.phase p).registering = some m)
    (h : (s.go p ph).claims m) : s.claims m := by
  rcases claims_go h with hold | ⟨hpid, hreg⟩
  · exact hold
  · exact Or.inr (hpid ▸ hkept m hreg)

theorem Held.keep (h : Held s)
    (hclaims : ∀ m, s'.claims m → s'.alive m.pid = true → s.claims m ∧ s.alive m.pid = true)
    (hnames : ∀ m, s'.claims m → s'.alive m.pid = true →
      s.names.lookup m.nameKey = some m.value → s'.names.lookup m.nameKey = some m.value)
    (hroles : ∀ m, s'.claims m → s'.alive m.pid = true → s'.phase m.pid ≠ .named m →
      (s.phase m.pid ≠ .named m → m.roleRow ∈ s.roles) → m.roleRow ∈ s'.roles) : Held s' := by
  constructor
  · intro m hc halive
    obtain ⟨hold, hwas⟩ := hclaims m hc halive
    exact hnames m hc halive (h.named m hold hwas)
  · intro m hc halive hne
    obtain ⟨hold, hwas⟩ := hclaims m hc halive
    exact hroles m hc halive hne (h.roled m hold hwas)

theorem Held.register (h : Held s) (hidle : s.phase m.pid = .idle)
    (hfree : s.names.lookup m.nameKey = none) :
    Held ({ s with names := s.names.insert m.nameKey m.value }.go m.pid (.named m)) := by
  constructor
  · intro m' hc halive
    show (s.names.insert m.nameKey m.value).lookup m'.nameKey = some m'.value
    rcases claims_go hc with hold | ⟨_, he⟩
    · have hrow := h.named m' hold halive
      rw [Ets.lookup_insert_of_ne]
      · exact hrow
      · intro he
        rw [he, hfree] at hrow
        cases hrow
    · obtain rfl := Option.some.inj he
      exact Ets.lookup_insert_self ..
  · intro m' hc halive hne
    have hne' : (s.go m.pid (.named m)).phase m'.pid ≠ .named m' := hne
    rw [phase_go] at hne'
    rcases claims_go hc with hold | ⟨hpid, he⟩
    · refine h.roled m' hold halive ?_
      intro hnamed
      split at hne'
      · rename_i hpid
        rw [hpid, hidle] at hnamed
        cases hnamed
      · exact hne' hnamed
    · rw [if_pos hpid] at hne'
      exact absurd (congrArg Phase.named (Option.some.inj he)) hne'

theorem Held.deleteName (h : Held s) (key : String × String)
    (hfree : ∀ m, s'.claims m → s'.alive m.pid = true → m.nameKey ≠ key)
    (hclaims : ∀ m, s'.claims m → s'.alive m.pid = true → s.claims m ∧ s.alive m.pid = true)
    (hnames : s'.names = s.names.delete key) (hroles : s'.roles = s.roles)
    (hphase : ∀ m, s.phase m.pid = .named m → s'.phase m.pid = .named m) : Held s' := by
  refine h.keep hclaims ?_ ?_
  · intro m hc halive hrow
    rw [hnames, Ets.lookup_delete_of_ne _ (hfree m hc halive)]
    exact hrow
  · intro m hc halive hne hrow
    rw [hroles]
    exact hrow fun hnamed => hne (hphase m hnamed)

theorem freeFor_iff {key : String × String} {v : Nat × String} : s.freeFor key v ↔
    ∀ v', s.names.lookup key = some v' → v' = v ∨ s.alive v'.1 = false := by
  unfold State.freeFor
  cases s.names.lookup key with
  | none => exact ⟨nofun, fun _ => trivial⟩
  | some v' => exact ⟨fun h _ he => Option.some.inj he ▸ h, fun h => h v' rfl⟩

theorem named_go (hne : s.phase p ≠ .named m) (h : s.phase m.pid = .named m) :
    (s.go p ph).phase m.pid = .named m := by
  have hother : m.pid ≠ p := by
    intro he
    exact hne (he ▸ h)
  rw [phase_go, if_neg hother]
  exact h

theorem Held.advance (h : Held s) (hb : Busy s) (hs : s.advance p (s.phase p) = some s') :
    Held s' := by
  rcases advance_eq_some hs with ⟨m, hm, rfl⟩ | ⟨m, hm, rfl⟩ | ⟨m, hm, rfl⟩
  · refine h.keep ?_ (fun _ _ _ hrow => hrow) ?_
    · intro m' hc halive
      refine ⟨claims_of_go ?_ hc, halive⟩
      exact fun _ hreg => (congrArg Phase.registering hm).trans hreg
    · intro m' _ _ hne hrow
      by_cases hnamed : s.phase m'.pid = .named m'
      · have hpid : m'.pid = p := by
          by_contra hother
          exact hne ((phase_go _ p m'.pid _).trans ((if_neg hother).trans hnamed))
        rw [hpid, hm] at hnamed
        obtain rfl := Phase.named.inj hnamed
        exact Finset.mem_insert_self ..
      · exact Finset.mem_insert_of_mem (hrow hnamed)
  · refine h.keep ?_ (fun _ _ _ hrow => hrow) ?_
    · intro m' hc halive
      refine ⟨claims_of_go ?_ hc, halive⟩
      exact fun _ hreg => (congrArg Phase.registering hm).trans hreg
    · intro m' _ _ hne hrow
      exact hrow fun hnamed => hne (named_go (by rw [hm]; nofun) hnamed)
  · have hclaims : ∀ m', ({ s with roles := s.roles.erase m.roleRow }.go p .idle).claims m' →
        s.claims m' := by
      intro m' hc
      refine claims_of_go ?_ hc
      intro m'' hreg
      cases hreg
    refine h.keep (fun m' hc halive => ⟨hclaims m' hc, halive⟩) (fun _ _ _ hrow => hrow) ?_
    intro m' hc _ hne hrow
    have hin := hrow fun hnamed => hne (named_go (by rw [hm]; nofun) hnamed)
    refine Finset.mem_erase_of_ne_of_mem ?_ hin
    intro he
    have hpid : m'.pid = m.pid := congrArg (fun row => row.2.1) he
    rw [hb.own p m (by rw [hm]; rfl)] at hpid
    rcases hclaims m' hc with hdone | hreg
    · exact hb.removing p m hm m' hdone hpid he
    · rw [hpid, hm] at hreg
      cases hreg

theorem Held.track (h : Held s) (hb : Busy s) (hs : s.track p = some s') : Held s' := by
  obtain ⟨m, _, hm, rfl⟩ := track_eq_some hs
  have hpid := hb.own p m (by rw [hm]; rfl)
  refine h.keep ?_ (fun _ _ _ hrow => hrow) ?_
  · intro m' hc halive
    rcases claims_go hc with (hdone | hreg) | ⟨_, he⟩
    · have hdone' : m' ∈ if s.alive p then m :: s.completed else s.completed := hdone
      split at hdone'
      · rcases List.mem_cons.mp hdone' with rfl | hold
        · exact ⟨Or.inr (by rw [hpid, hm]; rfl), halive⟩
        · exact ⟨Or.inl hold, halive⟩
      · exact ⟨Or.inl hdone', halive⟩
    · exact ⟨Or.inr hreg, halive⟩
    · cases he
  · intro m' _ _ hne hrow
    exact hrow fun hnamed => hne (named_go (by rw [hm]; nofun) hnamed)

theorem Held.deregister (h : Held s) (hidle : s.phase m.pid = .idle)
    (hfree : s.freeFor m.nameKey m.value)
    (hother : ∀ m' ∈ s.completed, m'.pid = m.pid → m' ≠ m → m'.nameKey ≠ m.nameKey) :
    Held (s.deregister m) := by
  have hclaims : ∀ m', (s.deregister m).claims m' → s.claims m' ∧ (m'.pid = m.pid → m' ≠ m) := by
    intro m' hc
    rcases claims_go hc with (hdone | hreg) | ⟨_, he⟩
    · obtain ⟨hold, hne⟩ := List.mem_filter.mp hdone
      exact ⟨Or.inl hold, fun _ => of_decide_eq_true hne⟩
    · refine ⟨Or.inr hreg, ?_⟩
      intro hpid
      have hreg' : (s.phase m'.pid).registering = some m' := hreg
      rw [hpid, hidle] at hreg'
      cases hreg'
    · cases he
  refine h.deleteName m.nameKey ?_ (fun m' hc halive => ⟨(hclaims m' hc).1, halive⟩) rfl rfl ?_
  · intro m' hc halive he
    obtain ⟨hold, hne⟩ := hclaims m' hc
    rcases freeFor_iff.mp hfree m'.value (he ▸ h.named m' hold halive) with hown | hdead
    · have hpid : m'.pid = m.pid := congrArg Prod.fst hown
      have hdone := claims_of_idle (by rw [hpid]; exact hidle) hold
      exact hother m' hdone hpid (hne hpid) he
    · have hdead' : s.alive m'.pid = false := hdead
      rw [show s.alive m'.pid = true from halive] at hdead'
      cases hdead'
  · exact fun m' hnamed => named_go (s := { s with
      names := s.names.delete m.nameKey
      completed := s.completed.filter fun m' => m' ≠ m }) (by rw [hidle]; nofun) hnamed

/-- **One step**: the rows of the living stay. -/
theorem Held.step (h : Held s) (hb : Busy s) {a : Act} (hok : Rightful s a)
    (hs : ActorIndex.step s a = some s') : Held s' := by
  cases a with
  | register m =>
    obtain ⟨⟨_, hidle⟩, rfl⟩ := guard_eq_some.mp hs
    rcases register_cases s m with hsame | ⟨hfree, hnew⟩
    · rw [hsame]
      exact h
    · rw [hnew]
      exact h.register hidle hfree
  | advance p =>
    obtain ⟨_, he⟩ := Option.ite_none_right_eq_some.mp hs
    exact h.advance hb he
  | track p => exact h.track hb hs
  | deregister m =>
    obtain ⟨⟨_, hidle⟩, rfl⟩ := guard_eq_some.mp hs
    exact h.deregister hidle hok.1 fun m' hin hpid hne => (hok.2 m' hin hpid hne).1
  | exit p =>
    obtain ⟨_, rfl⟩ := guard_eq_some.mp hs
    have halive : ∀ p', Function.update s.alive p false p' = true → s.alive p' = true := by
      intro p' hp'
      rw [Function.update_apply] at hp'
      split at hp'
      · cases hp'
      · exact hp'
    exact h.keep (fun m hc hm => ⟨hc, halive m.pid hm⟩) (fun _ _ _ hrow => hrow)
      (fun _ _ _ hne hrow => hrow hne)
  | down ref =>
    obtain ⟨m, _, hrow, hdead, _, rfl⟩ := down_eq_some hs
    refine h.deleteName m.nameKey ?_ (fun _ hc halive => ⟨hc, halive⟩) rfl rfl (fun _ hm => hm)
    intro m' hc halive he
    have halive' : s.alive m'.pid = true := halive
    rcases freeFor_iff.mp (hok m hrow) m'.value (he ▸ h.named m' hc halive) with hown | hdead'
    · rw [show m'.pid = m.pid from congrArg Prod.fst hown, hdead] at halive'
      cases halive'
    · rw [show s.alive m'.pid = false from hdead'] at halive'
      cases halive'
  | cleaned =>
    obtain ⟨m, hm, rfl⟩ := cleaned_eq_some hs
    refine h.keep (fun _ hc halive => ⟨hc, halive⟩) (fun _ _ _ hrow => hrow) ?_
    intro m' _ halive hne hrow
    refine Finset.mem_erase_of_ne_of_mem ?_ (hrow hne)
    intro he
    have halive' : s.alive m'.pid = true := halive
    rw [show m'.pid = m.pid from congrArg (fun row => row.2.1) he, hb.watched m hm] at halive'
    cases halive'

/-! ## The rows of the dead -/

/-- The watcher knows of the registration, or will be asked about it. -/
def State.keeps (s : State) (m : Meta) : Prop :=
  (∃ ref, s.monitors.lookup ref = some m) ∨ (s.phase m.pid).registering = some m

/-- Every row is of a registration that is kept, or about to be cleaned up after; a
process that died before the watcher was asked has no other registration; and what
has been cleaned up after is dead and has no row. -/
structure Tracked (s : State) : Prop where
  fresh : ∀ ref m, s.monitors.lookup ref = some m → ref < s.nextRef
  names : ∀ key v, s.names.lookup key = some v → ∃ m, m.nameKey = key ∧ m.value = v ∧ s.keeps m
  roles : ∀ row ∈ s.roles, ∃ m, m.roleRow = row ∧ (s.keeps m ∨ s.watcher = some m)
  unsent : ∀ p, s.alive p = false → (s.phase p).unsent ≠ none →
    ∀ ref m, s.monitors.lookup ref = some m → m.pid ≠ p
  dead : ∀ m, m ∈ s.downed ∨ s.watcher = some m →
    s.alive m.pid = false ∧ (s.phase m.pid).registering = none ∧
      s.names.lookup m.nameKey ≠ some m.value
  unroled : ∀ m ∈ s.downed, m.roleRow ∉ s.roles

theorem tracked_start : Tracked start where
  fresh _ _ h := nomatch h
  names _ _ h := nomatch h
  roles _ h := nomatch h
  unsent _ h := nomatch h
  dead _ h := nomatch h
  unroled _ h := nomatch h

theorem keeps_go (h : s.keeps m)
    (hreg : ∀ m, (s.phase p).registering = some m → ph.registering = some m) :
    (s.go p ph).keeps m := by
  rcases h with h | h
  · exact Or.inl h
  · refine Or.inr ?_
    rw [phase_go]
    split
    · rename_i he
      exact hreg m (he ▸ h)
    · exact h

theorem Tracked.go (h : Tracked s) (halive : s.alive p = true)
    (hreg : ∀ m, (s.phase p).registering = some m → ph.registering = some m) :
    Tracked (s.go p ph) := by
  have hother : ∀ p', s.alive p' = false → (s.go p ph).phase p' = s.phase p' := by
    intro p' hdead
    rw [phase_go, if_neg]
    intro he
    rw [he, halive] at hdead
    cases hdead
  constructor
  · exact h.fresh
  · intro key v hrow
    obtain ⟨m, hkey, hv, hkeeps⟩ := h.names key v hrow
    exact ⟨m, hkey, hv, keeps_go hkeeps hreg⟩
  · intro row hin
    obtain ⟨m, hrow, hkeeps⟩ := h.roles row hin
    exact ⟨m, hrow, hkeeps.imp_left fun hk => keeps_go hk hreg⟩
  · intro p' hdead hunsent
    rw [hother p' hdead] at hunsent
    exact h.unsent p' hdead hunsent
  · intro m hm
    obtain ⟨hdead, hnone, hrow⟩ := h.dead m hm
    refine ⟨hdead, ?_, hrow⟩
    rw [hother m.pid hdead]
    exact hnone
  · exact h.unroled

theorem Tracked.insertName (h : Tracked s) (hkeeps : s.keeps m) (halive : s.alive m.pid = true) :
    Tracked { s with names := s.names.insert m.nameKey m.value } := by
  refine { h with names := ?_, dead := ?_ }
  · intro key v hrow
    have hrow' : (s.names.insert m.nameKey m.value).lookup key = some v := hrow
    rw [Ets.lookup_insert] at hrow'
    split at hrow'
    · rename_i he
      exact ⟨m, he.symm, Option.some.inj hrow', hkeeps⟩
    · exact h.names key v hrow'
  · intro m' hm'
    obtain ⟨hdead, hnone, hrow⟩ := h.dead m' hm'
    refine ⟨hdead, hnone, ?_⟩
    show (s.names.insert m.nameKey m.value).lookup m'.nameKey ≠ some m'.value
    rw [Ets.lookup_insert]
    split
    · intro he
      have hpid : m.pid = m'.pid := congrArg Prod.fst (Option.some.inj he)
      have hdead' : s.alive m'.pid = false := hdead
      rw [← hpid, halive] at hdead'
      cases hdead'
    · exact hrow

theorem Tracked.insertRole (h : Tracked s) (hkeeps : s.keeps m) (halive : s.alive m.pid = true) :
    Tracked { s with roles := insert m.roleRow s.roles } := by
  refine { h with roles := ?_, unroled := ?_ }
  · intro row hin
    rcases Finset.mem_insert.mp hin with rfl | hold
    · exact ⟨m, rfl, Or.inl hkeeps⟩
    · exact h.roles row hold
  · intro m' hm' hin
    rcases Finset.mem_insert.mp hin with he | hold
    · have hpid : m'.pid = m.pid := congrArg (fun row => row.2.1) he
      have hdead := (h.dead m' (Or.inl hm')).1
      rw [hpid, halive] at hdead
      cases hdead
    · exact h.unroled m' hm' hold

theorem Tracked.deleteName (h : Tracked s) (key : String × String) :
    Tracked { s with names := s.names.delete key } := by
  have hless : ∀ key' v, (s.names.delete key).lookup key' = some v →
      s.names.lookup key' = some v := by
    intro key' v hrow
    rw [Ets.lookup_delete] at hrow
    split at hrow
    · cases hrow
    · exact hrow
  refine { h with names := ?_, dead := ?_ }
  · exact fun key' v hrow => h.names key' v (hless key' v hrow)
  · intro m hm
    obtain ⟨hdead, hnone, hrow⟩ := h.dead m hm
    exact ⟨hdead, hnone, fun he => hrow (hless _ _ he)⟩

theorem Tracked.eraseRole (h : Tracked s) (row : (String × String) × Nat × String) :
    Tracked { s with roles := s.roles.erase row } := by
  refine { h with roles := ?_, unroled := ?_ }
  · exact fun row' hin => h.roles row' (Finset.mem_of_mem_erase hin)
  · exact fun m hm hin => h.unroled m hm (Finset.mem_of_mem_erase hin)

theorem Tracked.track (h : Tracked s) (hb : Busy s) (hs : s.track p = some s') : Tracked s' := by
  obtain ⟨m, hnone, hm, rfl⟩ := track_eq_some hs
  have hpid := hb.own p m (by rw [hm]; rfl)
  have hmono : ∀ ref m', s.monitors.lookup ref = some m' →
      (s.monitors.insert s.nextRef m).lookup ref = some m' := by
    intro ref m' hrow
    have hne : ref ≠ s.nextRef := Nat.ne_of_lt (h.fresh ref m' hrow)
    rw [Ets.lookup_insert_of_ne _ _ hne]
    exact hrow
  have hkeeps : ∀ m', s.keeps m' → ({ s with
      monitors := s.monitors.insert s.nextRef m
      nextRef := s.nextRef + 1
      completed := if s.alive p then m :: s.completed else s.completed }.go p .idle).keeps m' := by
    intro m' hk
    rcases hk with ⟨ref, hrow⟩ | hreg
    · exact Or.inl ⟨ref, hmono ref m' hrow⟩
    · by_cases he : m'.pid = p
      · rw [he, hm] at hreg
        obtain rfl := Option.some.inj hreg
        exact Or.inl ⟨s.nextRef, Ets.lookup_insert_self ..⟩
      · refine Or.inr ?_
        rw [phase_go, if_neg he]
        exact hreg
  constructor
  · intro ref m' hrow
    have hrow' : (s.monitors.insert s.nextRef m).lookup ref = some m' := hrow
    rw [Ets.lookup_insert] at hrow'
    split at hrow'
    · rename_i he
      exact he ▸ Nat.lt_succ_self _
    · exact Nat.lt_succ_of_lt (h.fresh ref m' hrow')
  · intro key v hrow
    obtain ⟨m', hkey, hv, hk⟩ := h.names key v hrow
    exact ⟨m', hkey, hv, hkeeps m' hk⟩
  · intro row hin
    obtain ⟨m', hrow, hk⟩ := h.roles row hin
    exact ⟨m', hrow, hk.imp_left (hkeeps m')⟩
  · intro p' hdead hunsent ref m' hrow
    have hunsent' : ((s.go p .idle).phase p').unsent ≠ none := hunsent
    rw [phase_go] at hunsent'
    split at hunsent'
    · exact absurd rfl hunsent'
    · rename_i hne
      have hrow' : (s.monitors.insert s.nextRef m).lookup ref = some m' := hrow
      rw [Ets.lookup_insert] at hrow'
      split at hrow'
      · obtain rfl := Option.some.inj hrow'
        exact fun he => hne (he.symm.trans hpid)
      · exact h.unsent p' hdead hunsent' ref m' hrow'
  · intro m' hm'
    obtain ⟨hdead, hreg, hrow⟩ := h.dead m' hm'
    refine ⟨hdead, ?_, hrow⟩
    show ((s.go p .idle).phase m'.pid).registering = none
    rw [phase_go]
    split
    · rfl
    · exact hreg
  · exact h.unroled

theorem Tracked.down (h : Tracked s) {ref : Nat} (hs : s.down ref = some s') : Tracked s' := by
  obtain ⟨m, hnone, hm, hdead, hsent, rfl⟩ := down_eq_some hs
  have hreg : (s.phase m.pid).registering = none := by
    refine Phase.registering_eq_none ?_ hsent
    by_contra hne
    exact h.unsent m.pid hdead hne ref m hm rfl
  have hmono : ∀ ref' m', (s.monitors.delete ref).lookup ref' = some m' →
      s.monitors.lookup ref' = some m' := by
    intro ref' m' hrow
    rw [Ets.lookup_delete] at hrow
    split at hrow
    · cases hrow
    · exact hrow
  have hkeeps : ∀ m', s.keeps m' → m' = m ∨ { s with
      names := s.names.delete m.nameKey
      monitors := s.monitors.delete ref
      watcher := some m }.keeps m' := by
    intro m' hk
    rcases hk with ⟨ref', hrow⟩ | hr
    · by_cases he : ref' = ref
      · rw [he, hm] at hrow
        exact Or.inl (Option.some.inj hrow).symm
      · exact Or.inr (Or.inl ⟨ref', (Ets.lookup_delete_of_ne _ he).trans hrow⟩)
    · exact Or.inr (Or.inr hr)
  have hless := h.deleteName m.nameKey
  constructor
  · exact fun ref' m' hrow => h.fresh ref' m' (hmono ref' m' hrow)
  · intro key v hrow
    obtain ⟨m', hkey, hv, hk⟩ := hless.names key v hrow
    rcases hkeeps m' hk with rfl | hk'
    · have hgone : (s.names.delete m'.nameKey).lookup key = some v := hrow
      rw [← hkey, Ets.lookup_delete_self] at hgone
      cases hgone
    · exact ⟨m', hkey, hv, hk'⟩
  · intro row hin
    obtain ⟨m', hrow, hk⟩ := h.roles row hin
    rcases hk with hk | hw
    · rcases hkeeps m' hk with rfl | hk'
      · exact ⟨m', hrow, Or.inr rfl⟩
      · exact ⟨m', hrow, Or.inl hk'⟩
    · rw [hnone] at hw
      cases hw
  · exact fun p hp hunsent ref' m' hrow => h.unsent p hp hunsent ref' m' (hmono ref' m' hrow)
  · intro m' hm'
    rcases hm' with hdone | hw
    · exact hless.dead m' (Or.inl hdone)
    · obtain rfl := Option.some.inj hw
      refine ⟨hdead, hreg, ?_⟩
      show (s.names.delete m.nameKey).lookup m.nameKey ≠ some m.value
      rw [Ets.lookup_delete_self]
      exact (Option.some_ne_none _).symm
  · exact h.unroled

theorem Tracked.cleaned (h : Tracked s) (hs : s.cleaned = some s') : Tracked s' := by
  obtain ⟨m, hm, rfl⟩ := cleaned_eq_some hs
  have hless := h.eraseRole m.roleRow
  refine { h with roles := ?_, dead := ?_, unroled := ?_ }
  · intro row hin
    obtain ⟨m', hrow, hk⟩ := hless.roles row hin
    rcases hk with hk | hw
    · exact ⟨m', hrow, Or.inl hk⟩
    · have hw' : s.watcher = some m' := hw
      obtain rfl := Option.some.inj (hm.symm.trans hw')
      exact absurd hrow.symm (Finset.ne_of_mem_erase hin)
  · intro m' hm'
    rcases hm' with hdone | hw
    · rcases List.mem_cons.mp hdone with rfl | hold
      · exact h.dead m' (Or.inr hm)
      · exact h.dead m' (Or.inl hold)
    · cases hw
  · intro m' hm' hin
    rcases List.mem_cons.mp hm' with rfl | hold
    · exact Finset.ne_of_mem_erase hin rfl
    · exact h.unroled m' hold (Finset.mem_of_mem_erase hin)

theorem Tracked.step (h : Tracked s) (hb : Busy s) {a : Act} (hok : Rightful s a)
    (hs : ActorIndex.step s a = some s') : Tracked s' := by
  cases a with
  | register m =>
    obtain ⟨⟨halive, hidle⟩, rfl⟩ := guard_eq_some.mp hs
    rcases register_cases s m with hsame | ⟨_, hnew⟩
    · rw [hsame]
      exact h
    · rw [hnew]
      have hgo : Tracked (s.go m.pid (.named m)) := h.go halive (by rw [hidle]; nofun)
      refine hgo.insertName (Or.inr ?_) halive
      rw [phase_go, if_pos rfl]
      rfl
  | advance p =>
    obtain ⟨halive, he⟩ := Option.ite_none_right_eq_some.mp hs
    rcases advance_eq_some he with ⟨m, hm, rfl⟩ | ⟨m, hm, rfl⟩ | ⟨m, hm, rfl⟩
    · have hpid := hb.own p m (by rw [hm]; rfl)
      have hgo : Tracked (s.go p (.roled m)) := h.go halive (by rw [hm]; exact fun _ he => he)
      refine hgo.insertRole (Or.inr ?_) (by rw [hpid]; exact halive)
      rw [phase_go, if_pos hpid]
      rfl
    · exact h.go halive (by rw [hm]; exact fun _ he => he)
    · have hgo : Tracked (s.go p .idle) := h.go halive (by rw [hm]; nofun)
      exact hgo.eraseRole m.roleRow
  | track p => exact h.track hb hs
  | deregister m =>
    obtain ⟨⟨halive, hidle⟩, rfl⟩ := guard_eq_some.mp hs
    have hgo : Tracked (s.go m.pid (.removing m)) := h.go halive (by rw [hidle]; nofun)
    obtain ⟨h₁, h₂, h₃, h₄, h₅, h₆⟩ := hgo.deleteName m.nameKey
    exact ⟨h₁, h₂, h₃, h₄, h₅, h₆⟩
  | exit p =>
    obtain ⟨_, rfl⟩ := guard_eq_some.mp hs
    refine { h with unsent := ?_, dead := ?_ }
    · intro p' hdead hunsent ref m hrow
      have hdead' : Function.update s.alive p false p' = false := hdead
      rw [Function.update_apply] at hdead'
      split at hdead'
      · rename_i heq
        subst heq
        rcases hok with hnone | hmon
        · exact absurd hnone hunsent
        · exact hmon (ref, m) (Ets.mem_tab2list.mpr hrow)
      · exact h.unsent p' hdead' hunsent ref m hrow
    · intro m hm
      obtain ⟨hdead, hrest⟩ := h.dead m hm
      refine ⟨?_, hrest⟩
      show Function.update s.alive p false m.pid = false
      rw [Function.update_apply, hdead, ite_self]
  | down ref => exact h.down hs
  | cleaned => exact h.cleaned hs

/-! ## Runs -/

/-- Every run of rightful steps keeps the index right. -/
theorem correct_of_rightful (h : Reaches step Rightful start s) : Correct s := by
  obtain ⟨as, hr⟩ := h
  have hinv : Busy s ∧ Held s ∧ Tracked s := by
    induction hr with
    | nil => exact ⟨busy_start, held_start, tracked_start⟩
    | snoc _ hok hs ih =>
      obtain ⟨hb, hh, ht⟩ := ih
      exact ⟨hb.step hh hok hs, hh.step hb hok hs, ht.step hb hok hs⟩
  obtain ⟨hb, hh, ht⟩ := hinv
  constructor
  · exact fun m hm halive => hh.named m (Or.inl hm) halive
  · intro m hm halive
    exact hh.roled m (Or.inl hm) halive fun hnamed => hb.newly m.pid m hnamed hm
  · exact fun m hm => ⟨(ht.dead m (Or.inl hm)).2.2, ht.unroled m hm⟩
  · intro m hm hforgotten
    have hkept : ∀ m', m'.pid = m.pid → ¬s.keeps m' := by
      intro m' hpid hk
      rcases hk with ⟨ref, hrow⟩ | hreg
      · exact hforgotten.1 (ref, m') (Ets.mem_tab2list.mpr hrow) hpid
      · rw [hpid, (ht.dead m (Or.inl hm)).2.1] at hreg
        cases hreg
    constructor
    · intro key aid hrow
      obtain ⟨m', _, hv, hk⟩ := ht.names key _ hrow
      exact hkept m' (congrArg Prod.fst hv) hk
    · intro key aid hin
      obtain ⟨m', hrow, hk⟩ := ht.roles _ hin
      have hpid : m'.pid = m.pid := congrArg (fun row => row.2.1) hrow
      rcases hk with hk | hw
      · exact hkept m' hpid hk
      · exact hforgotten.2 m' hw hpid

instance (s : State) (key : String × String) (v : Nat × String) : Decidable (s.freeFor key v) :=
  match h : s.names.lookup key with
  | some v' => decidable_of_iff (v' = v ∨ s.alive v'.1 = false) (by rw [State.freeFor, h])
  | none => isTrue (by rw [State.freeFor, h]; trivial)

instance (s : State) : ∀ a, Decidable (Rightful s a)
  | .deregister m => inferInstanceAs (Decidable (s.freeFor m.nameKey m.value ∧
      ∀ m' ∈ s.completed, m'.pid = m.pid → m' ≠ m →
        m'.nameKey ≠ m.nameKey ∧ m'.roleRow ≠ m.roleRow))
  | .down ref =>
    inferInstanceAs (Decidable (∀ m ∈ s.monitors.lookup ref, s.freeFor m.nameKey m.value))
  | .exit p => inferInstanceAs (Decidable ((s.phase p).unsent = none ∨
      ∀ row ∈ s.monitors.tab2list, row.2.pid ≠ p))
  | .register _ | .advance _ | .track _ | .cleaned => inferInstanceAs (Decidable True)

/-- The agent of a session, as its process registers it. -/
def agent (pid : Nat) : Meta := ⟨pid, "cc:s1", "s1", "cc-s1", "cc_process"⟩

/-- An agent stops, and another takes its name once the watcher has cleaned up. -/
def replaced : List Act :=
  [.register (agent 0), .advance 0, .advance 0, .track 0, .deregister (agent 0), .advance 0,
    .exit 0, .down 0, .cleaned, .register (agent 1), .advance 1, .advance 1, .track 1]

theorem correct_replaced :
    ∃ s, Correct s ∧ s.completed = [agent 1] ∧ s.downed = [agent 0] := by
  have hrun : (exec step Rightful start replaced).map (fun s => (s.completed, s.downed)) =
      some ([agent 1], [agent 0]) := by decide +kernel
  obtain ⟨s, hs, he⟩ := Option.map_eq_some_iff.mp hrun
  obtain ⟨hcompleted, hdowned⟩ := Prod.mk.inj he
  exact ⟨s, correct_of_rightful (Reaches.of_exec hs), hcompleted, hdowned⟩

/-- It takes the name before the `:DOWN` of the first has been handled. -/
def replacedEarly : List Act :=
  [.register (agent 0), .advance 0, .advance 0, .track 0, .deregister (agent 0), .advance 0,
    .exit 0, .register (agent 1), .advance 1, .advance 1, .track 1, .down 0, .cleaned]

/-- **The watcher deletes by name**: cleaning up after the first agent, it removes the
row of the second. -/
theorem not_correct_replacedEarly :
    ¬∀ s : State, Reaches step anyStep start s → Correct s := by
  intro h
  have hrun : (exec step anyStep start replacedEarly).map
      (fun s => (s.completed, s.alive 1, s.names.lookup ("s1", "cc-s1"))) =
      some ([agent 1], true, none) := by decide +kernel
  obtain ⟨s, hs, he⟩ := Option.map_eq_some_iff.mp hrun
  obtain ⟨hcompleted, hrest⟩ := Prod.mk.inj he
  obtain ⟨halive, hrow⟩ := Prod.mk.inj hrest
  have hnamed := (h s (Reaches.of_exec hs)).named (agent 1)
    (by rw [hcompleted]; exact List.mem_cons_self) halive
  rw [show s.names.lookup (agent 1).nameKey = none from hrow] at hnamed
  cases hnamed

end ActorIndex
end Esr
