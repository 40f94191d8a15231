import Esr.Runs
import Mathlib.Data.List.Nodup
import Mathlib.Data.List.Perm.Basic

/-! # The pool of workers

A pool starts interchangeable workers, at most `max` of them, and lends them out.  A
call of `acquire/2` that finds no idle worker and no room for a new one waits until
`release/2` brings a worker back or its timer goes off.  The pool monitors its workers
and takes one out of its map when the monitor fires.  A worker that fails with another
reason than `normal` brings the pool down over the link between them, and the run ends.

The pool handles one message after the other, so a run is the order in which it handles
them.  Beside the pool's state a `World` keeps what the outside saw: the calls, the
answers, the timers and monitors that have not gone off, and the workers that are out.

A call is answered at most once, and waits with a timer until then (`answered_once`).
If only workers that are out are given back, no worker is lent out twice or lost
(`lent_once`).  Calls are served in the order they came in as long as no worker ends
while one of them waits (`served_in_order`).  When one does, the place it leaves goes to
the next call, not to the one that waits.
-/
namespace Esr
namespace Pool

variable {Pid From : Type} [DecidableEq Pid] [DecidableEq From]

/-! ## The source -/

/-- The state of the pool.  `workers` are the keys of the map; a waiter is its `from` and
its deadline. -/
structure State (Pid From : Type) where
  max : Nat
  workers : List Pid
  available : List Pid
  waiters : List (From × Nat)

/-- What a caller is told. -/
inductive Answer (Pid : Type)
  | ok (pid : Pid)
  | poolExhausted
  deriving DecidableEq

/-- What the handling of one message does: the next state, the calls it answers, the
timer it arms and the worker it starts. -/
structure Effect (Pid From : Type) where
  state : State Pid From
  answers : List (From × Answer Pid) := []
  timer : Option From := none
  started : Option Pid := none

/-- `init/1`. -/
def init (max : Option Nat) : State Pid From := ⟨max.getD 128, [], [], []⟩

/-- `handle_call({:acquire, opts}, ..)`, at the time `now`, where `pid` is the worker that
`start_link/1` would give. -/
def acquire (s : State Pid From) (caller : From) (timeout : Option Nat) (now : Nat) (pid : Pid) :
    Effect Pid From :=
  match s.available with
  | idle :: q => { state := { s with available := q }, answers := [(caller, .ok idle)] }
  | [] =>
    if s.workers.length < s.max then
      { state := { s with workers := s.workers.insert pid }
        answers := [(caller, .ok pid)]
        started := some pid }
    else if timeout.getD 5000 = 0 then { state := s, answers := [(caller, .poolExhausted)] }
    else
      { state := { s with waiters := s.waiters ++ [(caller, now + timeout.getD 5000)] }
        timer := some caller }

/-- `handle_cast({:release, pid}, ..)`. -/
def release (s : State Pid From) (pid : Pid) : Effect Pid From :=
  match s.waiters with
  | (caller, _) :: q => { state := { s with waiters := q }, answers := [(caller, .ok pid)] }
  | [] => { state := { s with available := s.available ++ [pid] } }

/-- `handle_info({:waiter_timeout, from}, ..)`. -/
def waiterTimeout (s : State Pid From) (caller : From) : Effect Pid From :=
  let waiters := s.waiters.filter fun w => w.1 ≠ caller
  { state := { s with waiters }
    answers := if waiters.length < s.waiters.length then [(caller, .poolExhausted)] else [] }

/-- `handle_info({:DOWN, ..}, ..)`. -/
def down (s : State Pid From) (pid : Pid) : Effect Pid From :=
  { state := { s with
      workers := s.workers.filter fun p => p ≠ pid
      available := s.available.filter fun p => p ≠ pid } }

/-! ## The pool among its callers -/

/-- The worker an answer hands out. -/
def Answer.pid? : Answer Pid → Option Pid
  | .ok pid => some pid
  | .poolExhausted => none

structure World (Pid From : Type) where
  pool : State Pid From
  called : List From
  answers : List (From × Answer Pid)
  timers : List From
  started : List Pid
  monitors : List Pid
  out : List Pid

/-- A message the pool handles. -/
inductive Message (Pid From : Type)
  | acquire (caller : From) (timeout : Option Nat) (now : Nat) (pid : Pid)
  | release (pid : Pid)
  | waiterTimeout (caller : From)
  | down (pid : Pid)

def start (max : Option Nat) : World Pid From := ⟨init max, [], [], [], [], [], []⟩

def World.after (w : World Pid From) (e : Effect Pid From) : World Pid From :=
  { w with
    pool := e.state
    answers := w.answers ++ e.answers
    timers := w.timers ++ e.timer.toList
    started := w.started ++ e.started.toList
    monitors := w.monitors ++ e.started.toList
    out := w.out ++ e.answers.filterMap fun a => a.2.pid? }

/-- The pool handles a message.  A call carries a reference of its own and a worker a
process identifier of its own; a timer and a monitor go off once.  Anyone may give back
any process. -/
def step (w : World Pid From) : Message Pid From → Option (World Pid From)
  | .acquire caller timeout now pid =>
    if caller ∉ w.called ∧ pid ∉ w.started then
      some ({ w with called := w.called ++ [caller] }.after (acquire w.pool caller timeout now pid))
    else none
  | .release pid => some ({ w with out := w.out.erase pid }.after (release w.pool pid))
  | .waiterTimeout caller =>
    if caller ∈ w.timers then
      some ({ w with timers := w.timers.erase caller }.after (waiterTimeout w.pool caller))
    else none
  | .down pid =>
    if pid ∈ w.monitors then
      some ({ w with monitors := w.monitors.erase pid }.after (down w.pool pid))
    else none

namespace World

/-- The calls that wait, the longest first. -/
def waiting (w : World Pid From) : List From := w.pool.waiters.map Prod.fst

/-- The calls that were answered. -/
def answered (w : World Pid From) : List From := w.answers.map Prod.fst

/-- The calls that were given a worker, in the order of their answers. -/
def served (w : World Pid From) : List From :=
  w.answers.filterMap fun a => a.2.pid?.map fun _ => a.1

/-- The workers the pool has or has lent out. -/
def known (w : World Pid From) : List Pid := w.pool.available ++ w.out

end World

/-! ## What a step does -/

/-- One constructor for each way the pool takes a message. -/
inductive Goes (w : World Pid From) : Message Pid From → World Pid From → Prop
  | idle {caller} (timeout now pid) (p : Pid) (q : List Pid) (hnew : caller ∉ w.called)
      (hq : w.pool.available = p :: q) :
      Goes w (.acquire caller timeout now pid)
        { w with
          pool := { w.pool with available := q }
          called := w.called ++ [caller]
          answers := w.answers ++ [(caller, .ok p)]
          out := w.out ++ [p] }
  | started {caller} (timeout now pid) (hnew : caller ∉ w.called) (hpid : pid ∉ w.started)
      (hq : w.pool.available = []) (hroom : w.pool.workers.length < w.pool.max) :
      Goes w (.acquire caller timeout now pid)
        { w with
          pool := { w.pool with workers := w.pool.workers.insert pid }
          called := w.called ++ [caller]
          answers := w.answers ++ [(caller, .ok pid)]
          started := w.started ++ [pid]
          monitors := w.monitors ++ [pid]
          out := w.out ++ [pid] }
  | refused {caller} (timeout now pid) (hnew : caller ∉ w.called) :
      Goes w (.acquire caller timeout now pid)
        { w with
          called := w.called ++ [caller]
          answers := w.answers ++ [(caller, .poolExhausted)] }
  | waits {caller} (timeout now pid) (deadline : Nat) (hnew : caller ∉ w.called)
      (hq : w.pool.available = []) (hfull : w.pool.max ≤ w.pool.workers.length) :
      Goes w (.acquire caller timeout now pid)
        { w with
          pool := { w.pool with waiters := w.pool.waiters ++ [(caller, deadline)] }
          called := w.called ++ [caller]
          timers := w.timers ++ [caller] }
  | handedOn (pid) (caller : From) (deadline : Nat) (q : List (From × Nat))
      (hq : w.pool.waiters = (caller, deadline) :: q) :
      Goes w (.release pid)
        { w with
          pool := { w.pool with waiters := q }
          answers := w.answers ++ [(caller, .ok pid)]
          out := w.out.erase pid ++ [pid] }
  | givenBack (pid) (hq : w.pool.waiters = []) :
      Goes w (.release pid)
        { w with
          pool := { w.pool with available := w.pool.available ++ [pid] }
          out := w.out.erase pid }
  | timeout (caller) (answers : List (From × Answer Pid))
      (hanswers : answers = if caller ∈ w.waiting then [(caller, .poolExhausted)] else []) :
      Goes w (.waiterTimeout caller)
        { w with
          pool := { w.pool with waiters := w.pool.waiters.filter fun v => v.1 ≠ caller }
          answers := w.answers ++ answers
          timers := w.timers.erase caller }
  | down (pid) :
      Goes w (.down pid)
        { w with
          pool := { w.pool with
            workers := w.pool.workers.filter fun p => p ≠ pid
            available := w.pool.available.filter fun p => p ≠ pid }
          monitors := w.monitors.erase pid }

omit [DecidableEq Pid] in
/-- A timeout answers exactly a call that still waits. -/
theorem length_filter_lt {w : World Pid From} {caller : From} :
    (w.pool.waiters.filter fun v => v.1 ≠ caller).length < w.pool.waiters.length ↔
      caller ∈ w.waiting := by
  rw [List.length_filter_lt_length_iff_exists, World.waiting, List.mem_map]
  constructor
  · rintro ⟨v, hv, hne⟩
    exact ⟨v, hv, by simpa using hne⟩
  · rintro ⟨v, hv, rfl⟩
    exact ⟨v, hv, by simp⟩

theorem goes_of_step {w v : World Pid From} {m : Message Pid From} (h : step w m = some v) :
    Goes w m v := by
  rcases m with ⟨caller, timeout, now, pid⟩ | pid | caller | pid
  · obtain ⟨⟨hnew, hpid⟩, rfl⟩ := guard_eq_some.mp h
    rcases hq : w.pool.available with _ | ⟨p, q⟩
    · by_cases hroom : w.pool.workers.length < w.pool.max
      · simpa [acquire, hq, hroom, World.after, Answer.pid?] using
          Goes.started timeout now pid hnew hpid hq hroom
      · by_cases htime : timeout.getD 5000 = 0
        · simpa [acquire, hq, hroom, htime, World.after, Answer.pid?] using
            Goes.refused timeout now pid hnew
        · simpa [acquire, hq, hroom, htime, World.after] using
            Goes.waits timeout now pid (now + timeout.getD 5000)
              hnew hq (by omega)
    · simpa [acquire, hq, World.after, Answer.pid?] using
        Goes.idle timeout now pid p q hnew hq
  · obtain rfl := Option.some.inj h
    rcases hq : w.pool.waiters with _ | ⟨⟨caller, deadline⟩, q⟩
    · simpa [release, hq, World.after] using Goes.givenBack pid hq
    · simpa [release, hq, World.after, Answer.pid?] using
        Goes.handedOn pid caller deadline q hq
  · obtain ⟨-, rfl⟩ := guard_eq_some.mp h
    have hg := Goes.timeout (w := w) caller _ rfl
    rw [← if_congr length_filter_lt rfl rfl] at hg
    have hout : ((waiterTimeout w.pool caller).answers.filterMap fun a => a.2.pid?) = [] := by
      dsimp only [waiterTimeout]
      split <;> rfl
    rw [World.after, hout]
    simpa only [waiterTimeout, Option.toList_none, List.append_nil] using hg
  · obtain ⟨-, rfl⟩ := guard_eq_some.mp h
    simpa [World.after, down] using Goes.down (w := w) pid

variable {w v : World Pid From} {m : Message Pid From}

/-! ## Calls -/

/-- Every call was answered or waits, and what waits has a timer. -/
structure Answering (w : World Pid From) : Prop where
  nodup : w.called.Nodup
  perm : (w.answered ++ w.waiting).Perm w.called
  timers : ∀ f ∈ w.waiting, f ∈ w.timers

namespace Answering

omit [DecidableEq Pid] [DecidableEq From] in
theorem called_snoc {c : From} (h : Answering w) (hnew : c ∉ w.called) :
    (w.called ++ [c]).Nodup :=
  h.nodup.append (List.nodup_singleton c) (List.disjoint_singleton.mpr hnew)

omit [DecidableEq Pid] [DecidableEq From] in
theorem nodup_split (h : Answering w) : (w.answered ++ w.waiting).Nodup :=
  h.perm.nodup_iff.mpr h.nodup

omit [DecidableEq Pid] [DecidableEq From] in
/-- A new call is answered at once. -/
theorem reply {c : From} (h : Answering w) (hnew : c ∉ w.called)
    (hcalled : v.called = w.called ++ [c]) (hanswered : v.answered = w.answered ++ [c])
    (hwaiting : v.waiting = w.waiting) (htimers : v.timers = w.timers) : Answering v where
  nodup := hcalled ▸ h.called_snoc hnew
  perm := by
    have hlast : ([c] ++ w.waiting).Perm (w.waiting ++ [c]) := List.perm_append_comm
    rw [hcalled, hanswered, hwaiting, List.append_assoc]
    refine (hlast.append_left w.answered).trans ?_
    rw [← List.append_assoc]
    exact h.perm.append_right [c]
  timers := by rw [hwaiting, htimers]; exact h.timers

omit [DecidableEq Pid] in
theorem expire {c : From} (h : Answering w) :
    ((w.answered ++ if c ∈ w.waiting then [c] else []) ++
      w.waiting.filter fun f => f ≠ c).Perm w.called := by
  refine List.Perm.trans ?_ h.perm
  rw [List.append_assoc]
  apply List.Perm.append_left
  split
  · rename_i hin
    have hnodup := (List.nodup_append.mp h.nodup_split).2.1
    have hfilter : (w.waiting.filter fun f => f ≠ c) = w.waiting.erase c := by
      rw [hnodup.erase_eq_filter]
      exact List.filter_congr fun f _ => by by_cases hf : f = c <;> simp [hf]
    rw [hfilter]
    exact (List.perm_cons_erase hin).symm
  · rename_i hout
    rw [List.nil_append, List.filter_eq_self.mpr]
    intro f hf
    exact decide_eq_true fun he => hout (he ▸ hf)

theorem step (h : Answering w) (hg : Goes w m v) : Answering v := by
  cases hg with
  | idle timeout now pid p q hnew hq => exact h.reply hnew rfl (by simp [World.answered]) rfl rfl
  | started timeout now pid hnew hpid hq hroom =>
    exact h.reply hnew rfl (by simp [World.answered]) rfl rfl
  | refused timeout now pid hnew => exact h.reply hnew rfl (by simp [World.answered]) rfl rfl
  | @waits caller timeout now pid deadline hnew hq hfull =>
    refine ⟨h.called_snoc hnew, ?_, fun f hf => ?_⟩
    · simpa [World.waiting, World.answered] using h.perm.append_right [caller]
    · rw [World.waiting, List.map_append, List.mem_append] at hf
      exact hf.elim (fun hf => List.mem_append_left _ (h.timers f hf)) (List.mem_append_right _)
  | handedOn pid caller deadline q hq =>
    refine ⟨h.nodup, ?_, fun f hf => h.timers f ?_⟩
    · simpa [World.waiting, World.answered, hq] using h.perm
    · rw [World.waiting, hq]
      exact List.mem_cons_of_mem _ hf
  | givenBack pid hq => exact ⟨h.nodup, h.perm, h.timers⟩
  | timeout caller answers hanswers =>
    have hwaiting : (w.pool.waiters.filter fun v => v.1 ≠ caller).map Prod.fst =
        w.waiting.filter fun f => f ≠ caller := by rw [World.waiting, List.filter_map]; rfl
    refine ⟨h.nodup, ?_, fun f hf => ?_⟩
    · have hmap : answers.map Prod.fst = if caller ∈ w.waiting then [caller] else [] := by
        rw [hanswers]
        split <;> rfl
      rw [World.answered, List.map_append, World.waiting, hwaiting, hmap]
      exact h.expire
    · rw [World.waiting, hwaiting, List.mem_filter] at hf
      exact (List.mem_erase_of_ne (of_decide_eq_true hf.2)).mpr (h.timers f hf.1)
  | down pid => exact ⟨h.nodup, h.perm, h.timers⟩

end Answering

/-- **A call is answered once.**  In every run the pool answers no call twice.  A call is
answered or it waits, never both, and a call that waits has a timer that has not gone off;
where no timer is left, every call was answered. -/
theorem answered_once {max : Option Nat} (h : Reaches step anyStep (start max) w) :
    w.answered.Nodup ∧
      (∀ f ∈ w.called, (f ∈ w.answered ∧ f ∉ w.waiting) ∨
        (f ∉ w.answered ∧ f ∈ w.waiting ∧ f ∈ w.timers)) ∧
      (w.timers = [] → w.answered.Perm w.called) := by
  have hinv : Answering w :=
    h.invariant ⟨.nil, .nil, fun _ => id⟩ fun _ _ _ ht _ hs => ht.step (goes_of_step hs)
  obtain ⟨hanswered, -, hdisjoint⟩ := List.nodup_append.mp hinv.nodup_split
  refine ⟨hanswered, fun f hf => ?_, fun hnone => ?_⟩
  · rcases List.mem_append.mp (hinv.perm.mem_iff.mpr hf) with hin | hin
    · exact .inl ⟨hin, fun hw => hdisjoint f hin f hw rfl⟩
    · exact .inr ⟨fun ha => hdisjoint f ha f hin rfl, hin, hinv.timers f hin⟩
  · have hnobody : w.waiting = [] :=
      List.eq_nil_iff_forall_not_mem.mpr fun f hf => List.not_mem_nil (hnone ▸ hinv.timers f hf)
    simpa [hnobody] using hinv.perm

/-! ## Workers -/

/-- Only a worker that is out is given back. -/
def Returns (w : World Pid From) : Message Pid From → Prop
  | .release pid => pid ∈ w.out
  | .acquire .. | .waiterTimeout _ | .down _ => True

instance (w : World Pid From) : (m : Message Pid From) → Decidable (Returns w m)
  | .release pid => inferInstanceAs (Decidable (pid ∈ w.out))
  | .acquire .. | .waiterTimeout _ | .down _ => isTrue trivial

/-- No worker is there twice, none of the map is missing, and none is idle while a call
waits. -/
structure Lending (max : Nat) (w : World Pid From) : Prop where
  max_eq : w.pool.max = max
  nodup : w.known.Nodup
  started : ∀ p ∈ w.known, p ∈ w.started
  room : w.pool.workers.length ≤ max
  kept : ∀ p ∈ w.pool.workers, p ∈ w.known
  idle : w.pool.waiters = [] ∨ w.pool.available = []

namespace Lending
variable {max : Nat}

omit [DecidableEq Pid] [DecidableEq From] in
/-- A worker changes hands. -/
theorem move (h : Lending max w) (hknown : v.known.Perm w.known)
    (hmax : v.pool.max = w.pool.max) (hworkers : v.pool.workers = w.pool.workers)
    (hstarted : v.started = w.started)
    (hidle : v.pool.waiters = [] ∨ v.pool.available = []) : Lending max v where
  max_eq := hmax.trans h.max_eq
  nodup := hknown.nodup_iff.mpr h.nodup
  started p hp := hstarted ▸ h.started p (hknown.mem_iff.mp hp)
  room := hworkers ▸ h.room
  kept p hp := hknown.mem_iff.mpr (h.kept p (hworkers ▸ hp))
  idle := hidle

theorem step (h : Lending max w) (hok : Returns w m) (hg : Goes w m v) : Lending max v := by
  cases hg with
  | idle timeout now pid p q hnew hq =>
    have hnobody : w.pool.waiters = [] := h.idle.resolve_right (by simp [hq])
    refine h.move ?_ rfl rfl rfl (.inl hnobody)
    rw [World.known, World.known, hq, ← List.append_assoc]
    exact List.perm_append_singleton p (q ++ w.out)
  | @started caller timeout now pid hnew hpid hq hroom =>
    -- The worker has a new pid, and what is known was started.
    have hfresh : pid ∉ w.known := fun hp => hpid (h.started pid hp)
    have hknown : w.known = w.out := by rw [World.known, hq, List.nil_append]
    refine ⟨h.max_eq, ?_, ?_, ?_, ?_, .inr hq⟩
    · rw [World.known, hq, List.nil_append]
      rw [hknown] at hfresh
      exact (hknown ▸ h.nodup).append (List.nodup_singleton pid)
        (List.disjoint_singleton.mpr hfresh)
    · intro p hp
      rw [World.known, hq, List.nil_append, ← hknown] at hp
      exact (List.mem_append.mp hp).elim (fun hp => List.mem_append_left _ (h.started p hp))
        (List.mem_append_right _)
    · have hmax := h.max_eq
      have hlength : (w.pool.workers.insert pid).length ≤ w.pool.workers.length + 1 := by
        rw [List.length_insert]
        split <;> omega
      dsimp only
      omega
    · intro p hp
      rw [World.known, hq, List.nil_append, ← hknown, List.mem_append]
      rcases List.mem_insert_iff.mp hp with rfl | hp
      · exact .inr (List.mem_singleton_self p)
      · exact .inl (h.kept p hp)
  | refused timeout now pid hnew => exact h.move (.refl _) rfl rfl rfl h.idle
  | waits timeout now pid deadline hnew hq hfull => exact h.move (.refl _) rfl rfl rfl (.inr hq)
  | handedOn pid caller deadline q hq =>
    have hnone : w.pool.available = [] := h.idle.resolve_left (by simp [hq])
    refine h.move ?_ rfl rfl rfl (.inr hnone)
    apply List.Perm.append_left
    exact (List.perm_append_singleton pid (w.out.erase pid)).trans (List.perm_cons_erase hok).symm
  | givenBack pid hq =>
    refine h.move ?_ rfl rfl rfl (.inl hq)
    rw [World.known, List.append_assoc]
    exact (List.perm_cons_erase hok).symm.append_left _
  | timeout caller answers hanswers =>
    refine h.move (.refl _) rfl rfl rfl (h.idle.imp_left fun hnobody => ?_)
    rw [hnobody, List.filter_nil]
  | down pid =>
    have hless : (w.pool.available.filter fun p => p ≠ pid).Sublist w.pool.available :=
      List.filter_sublist
    have hsub := hless.append_right w.out
    refine ⟨h.max_eq, h.nodup.sublist hsub, fun p hp => h.started p (hsub.subset hp), ?_, ?_, ?_⟩
    · exact Nat.le_trans (List.length_filter_le _ _) h.room
    · intro p hp
      obtain ⟨hin, hne⟩ := List.mem_filter.mp hp
      refine List.mem_append.mpr ((List.mem_append.mp (h.kept p hin)).imp_left fun ha => ?_)
      exact List.mem_filter.mpr ⟨ha, hne⟩
    · exact h.idle.imp_right fun hnone => by rw [hnone, List.filter_nil]

end Lending

/-- **Workers are lent out once.**  In every run in which only workers that are out are
given back, no worker is idle and out or out twice, at most `max` workers are in the map,
each of them is idle or out, and while a call waits none is idle. -/
theorem lent_once {max : Option Nat} (h : Reaches step Returns (start max) w) :
    (w.pool.available ++ w.out).Nodup ∧ w.pool.workers.length ≤ max.getD 128 ∧
      (∀ p ∈ w.pool.workers, p ∈ w.pool.available ∨ p ∈ w.out) ∧
      (w.pool.waiters = [] ∨ w.pool.available = []) := by
  have hinv : Lending (max.getD 128) w := by
    refine h.invariant
      ⟨rfl, .nil, List.forall_mem_nil _, Nat.zero_le _, List.forall_mem_nil _, .inl rfl⟩ ?_
    exact fun _ _ _ ht hok hs => ht.step hok (goes_of_step hs)
  exact ⟨hinv.nodup, hinv.room, fun p hp => List.mem_append.mp (hinv.kept p hp), hinv.idle⟩

/-! ## The order of service -/

/-- No worker is taken out of the map while a call waits. -/
def Quiet (w : World Pid From) : Message Pid From → Prop
  | .down _ => w.pool.waiters = []
  | .acquire .. | .release _ | .waiterTimeout _ => True

instance (w : World Pid From) : (m : Message Pid From) → Decidable (Quiet w m)
  | .down _ => inferInstanceAs (Decidable (w.pool.waiters = []))
  | .acquire .. | .release _ | .waiterTimeout _ => isTrue trivial

/-- Calls wait only at a full pool, and stand behind those that were served. -/
structure Serving (w : World Pid From) : Prop where
  idle : w.pool.waiters = [] ∨ w.pool.available = []
  full : w.pool.waiters = [] ∨ w.pool.max ≤ w.pool.workers.length
  order : (w.served ++ w.waiting).Sublist w.called

namespace Serving

omit [DecidableEq Pid] [DecidableEq From] in
/-- A call that finds nobody waiting is served at once. -/
theorem serve {c : From} {p : Pid} (h : Serving w) (hnobody : w.pool.waiters = [])
    (hcalled : v.called = w.called ++ [c]) (hanswers : v.answers = w.answers ++ [(c, .ok p)])
    (hwaiters : v.pool.waiters = w.pool.waiters) : Serving v := by
  refine ⟨.inl (hwaiters.trans hnobody), .inl (hwaiters.trans hnobody), ?_⟩
  have horder := h.order.append_right [c]
  simpa [World.served, World.waiting, hcalled, hanswers, hwaiters, hnobody, Answer.pid?]
    using horder

theorem step (h : Serving w) (hok : Quiet w m) (hg : Goes w m v) : Serving v := by
  cases hg with
  | idle timeout now pid p q hnew hq =>
    exact h.serve (h.idle.resolve_right (by simp [hq])) rfl rfl rfl
  | started timeout now pid hnew hpid hq hroom =>
    exact h.serve (h.full.resolve_right (by omega)) rfl rfl rfl
  | @refused caller timeout now pid hnew =>
    refine ⟨h.idle, h.full, ?_⟩
    have horder := h.order.trans (List.sublist_append_left w.called [caller])
    simpa [World.served, World.waiting, Answer.pid?] using horder
  | @waits caller timeout now pid deadline hnew hq hfull =>
    refine ⟨.inr hq, .inr hfull, ?_⟩
    simpa [World.served, World.waiting] using h.order.append_right [caller]
  | handedOn pid caller deadline q hq =>
    have hsome : w.pool.waiters ≠ [] := by simp [hq]
    refine ⟨.inr (h.idle.resolve_left hsome), .inr (h.full.resolve_left hsome), ?_⟩
    simpa [World.served, World.waiting, hq, Answer.pid?] using h.order
  | givenBack pid hq => exact ⟨.inl hq, h.full, h.order⟩
  | timeout caller answers hanswers =>
    have hless : (w.pool.waiters.filter fun v => v.1 ≠ caller).Sublist w.pool.waiters :=
      List.filter_sublist
    have hserved : (answers.filterMap fun a => a.2.pid?.map fun _ => a.1) = [] := by
      rw [hanswers]
      split <;> rfl
    refine ⟨?_, ?_, ?_⟩
    · exact h.idle.imp_left fun hnobody => by rw [hnobody, List.filter_nil]
    · exact h.full.imp_left fun hnobody => by rw [hnobody, List.filter_nil]
    · rw [World.served, List.filterMap_append, hserved, List.append_nil]
      exact ((hless.map Prod.fst).append_left w.served).trans h.order
  | down pid =>
    have hnobody : w.pool.waiters = [] := hok
    exact ⟨.inl hnobody, .inl hnobody, h.order⟩

end Serving

/-- **First come, first served.**  In every run in which no worker ends while a call waits,
the calls that were given a worker, and behind them those that wait, stand in the order in
which the calls came. -/
theorem served_in_order {max : Option Nat} (h : Reaches step Quiet (start max) w) :
    (w.served ++ w.waiting).Sublist w.called := by
  have hinv : Serving w := by
    refine h.invariant ⟨.inl rfl, .inl rfl, List.nil_sublist _⟩ ?_
    exact fun _ _ _ ht hok hs => ht.step hok (goes_of_step hs)
  exact hinv.order

/-! ## One worker and three calls -/

/-- The second call waits for the worker of the first. -/
def queued : List (Message Nat Nat) :=
  [.acquire 1 none 0 10, .acquire 2 none 0 11, .release 10]

/-- The worker ends while the second call waits; the third gets a new one. -/
def overtaking : List (Message Nat Nat) :=
  [.acquire 1 none 0 10, .acquire 2 none 0 11, .down 10, .acquire 3 none 0 12, .release 12]

example : ((exec step anyStep (start (some 1)) overtaking).map fun w => (w.called, w.served)) =
    some ([1, 2, 3], [1, 3, 2]) := by decide

theorem answered_once_queued : ∃ w : World Nat Nat,
    exec step anyStep (start (some 1)) queued = some w ∧ w.answered.Nodup := by
  obtain ⟨w, hw⟩ : ∃ w, exec step anyStep (start (some 1)) queued = some w := ⟨_, rfl⟩
  exact ⟨w, hw, (answered_once (Reaches.of_exec hw)).1⟩

theorem lent_once_queued : ∃ w : World Nat Nat,
    exec step Returns (start (some 1)) queued = some w ∧ (w.pool.available ++ w.out).Nodup := by
  obtain ⟨w, hw⟩ : ∃ w, exec step Returns (start (some 1)) queued = some w := ⟨_, rfl⟩
  exact ⟨w, hw, (lent_once (Reaches.of_exec hw)).1⟩

theorem served_in_order_queued : ∃ w : World Nat Nat,
    exec step Quiet (start (some 1)) queued = some w ∧
      (w.served ++ w.waiting).Sublist w.called := by
  obtain ⟨w, hw⟩ : ∃ w, exec step Quiet (start (some 1)) queued = some w := ⟨_, rfl⟩
  exact ⟨w, hw, served_in_order (Reaches.of_exec hw)⟩

end Pool
end Esr
