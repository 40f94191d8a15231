import Esr.Ets
import Esr.Runs

/-! # Waiting for a cleanup signal

`Esr.Slash.CleanupRendezvous` keeps, for each session, the task that waits for the signal
that the session has been cleaned up.  A task registers before it waits, and deregisters
when it has the signal or has waited long enough.  The calls are casts: here a call is the
moment at which the server handles it, and any number of tasks call in any order.

The registrations are kept by session, and a deregistration names the session alone, so it
takes the registration that is there, whoever made it.  A run is `Correct` exactly when
every deregistration comes in its turn (`InTurn`): no other waiter's registration is the
call before it for the same session.
-/
namespace Esr
namespace CleanupRendezvous

variable {Pid Details : Type} [DecidableEq Pid]

/-! ## The server -/

/-- `pending`: the task that waits, for each session. -/
abbrev Pending (Pid : Type) := Ets String Pid

/-- `handle_cast({:register_cleanup, session_id, task_pid}, state)`. -/
def handleRegister (pending : Pending Pid) (sessionId : String) (taskPid : Pid) : Pending Pid :=
  pending.insert sessionId taskPid

/-- `handle_cast({:deregister_cleanup, session_id}, state)`. -/
def handleDeregister (pending : Pending Pid) (sessionId : String) : Pending Pid :=
  pending.delete sessionId

/-- `{:cleanup_signal, status, details}`. -/
structure Signal (Details : Type) where
  status : String
  details : Details
deriving DecidableEq

/-- `handle_cast({:signal, session_id, status, details}, state)`: what is sent, and the
registrations that are left. -/
def handleSignal (alive : Pid → Bool) (pending : Pending Pid) (sessionId : String)
    (signal : Signal Details) : Option (Pid × Signal Details) × Pending Pid :=
  match pending.lookup sessionId with
  | none => (none, pending)
  | some taskPid =>
      (if alive taskPid then some (taskPid, signal) else none, pending.delete sessionId)

/-! ## Runs -/

/-- What has happened: a deregistration with the registration it took, a signal with what
was sent. -/
inductive Event (Pid Details : Type) where
  | registered (sessionId : String) (w : Pid)
  | deregistered (sessionId : String) (w : Pid) (taken : Option Pid)
  | signalled (sessionId : String) (signal : Signal Details) (sent : Option (Pid × Signal Details))
  | exited (w : Pid)

/-- The server, the tasks that have ended, and what has happened, newest first. -/
structure World (Pid Details : Type) where
  pending : Pending Pid
  dead : List Pid
  history : List (Event Pid Details)

/-- A call, or the end of a task. -/
inductive Act (Pid Details : Type) where
  | register (sessionId : String) (w : Pid)
  | deregister (sessionId : String) (w : Pid)
  | signal (sessionId : String) (signal : Signal Details)
  | exit (w : Pid)

/-- `Process.alive?/1`. -/
def World.alive (t : World Pid Details) (w : Pid) : Bool := !t.dead.contains w

def step (t : World Pid Details) : Act Pid Details → Option (World Pid Details)
  | .register sessionId w => some {
      t with
      pending := handleRegister t.pending sessionId w
      history := .registered sessionId w :: t.history }
  | .deregister sessionId w => some {
      t with
      pending := handleDeregister t.pending sessionId
      history := .deregistered sessionId w (t.pending.lookup sessionId) :: t.history }
  | .signal sessionId signal =>
      let (sent, pending) := handleSignal t.alive t.pending sessionId signal
      some { t with pending, history := .signalled sessionId signal sent :: t.history }
  | .exit w => some { t with dead := w :: t.dead, history := .exited w :: t.history }

/-- Nobody is registered. -/
def start : World Pid Details := ⟨.empty, [], []⟩

/-! ## Who waits -/

/-- The waiter that registered last for a session. -/
def lastRegistered (sessionId : String) : List (Event Pid Details) → Option Pid
  | [] => none
  | .registered s w :: earlier => if s = sessionId then some w else lastRegistered sessionId earlier
  | _ :: earlier => lastRegistered sessionId earlier

/-- The waiters of a session that have neither deregistered nor been signalled since they
registered, the latest first. -/
def queue (sessionId : String) : List (Event Pid Details) → List Pid
  | [] => []
  | .registered s w :: earlier =>
      if s = sessionId then w :: (queue sessionId earlier).filter (· ≠ w) else queue sessionId earlier
  | .deregistered s w _ :: earlier =>
      if s = sessionId then (queue sessionId earlier).filter (· ≠ w) else queue sessionId earlier
  | .signalled s _ (some (w, _)) :: earlier =>
      if s = sessionId then (queue sessionId earlier).filter (· ≠ w) else queue sessionId earlier
  | _ :: earlier => queue sessionId earlier

/-- The tasks that have ended. -/
def ended : List (Event Pid Details) → List Pid
  | [] => []
  | .exited w :: earlier => w :: ended earlier
  | _ :: earlier => ended earlier

/-- **The waiters still waiting** for a session, the latest first. -/
def waiting (sessionId : String) (history : List (Event Pid Details)) : List Pid :=
  (queue sessionId history).filter fun w => w ∉ ended history

/-- What is asked of an event after the earlier ones.  A deregistration takes no other
waiter's registration.  A signal is sent at most once, as it is, and to the latest of the
waiters still waiting; and it is sent if the waiter that registered last is still
waiting. -/
inductive Ok (earlier : List (Event Pid Details)) : Event Pid Details → Prop
  | registered (sessionId : String) (w : Pid) : Ok earlier (.registered sessionId w)
  | deregistered (sessionId : String) (w : Pid) (taken : Option Pid)
      (hown : ∀ w', taken = some w' → w' = w) : Ok earlier (.deregistered sessionId w taken)
  | signalled (sessionId : String) (signal : Signal Details) (sent : Option (Pid × Signal Details))
      (hlatest : ∀ w m, sent = some (w, m) → m = signal ∧ (waiting sessionId earlier).head? = some w)
      (hsent : ∀ w, lastRegistered sessionId earlier = some w → w ∈ waiting sessionId earlier →
        sent = some (w, signal)) : Ok earlier (.signalled sessionId signal sent)
  | exited (w : Pid) : Ok earlier (.exited w)

/-- **Everything that has happened is as it should be.** -/
def Correct : List (Event Pid Details) → Prop
  | [] => True
  | e :: earlier => Ok earlier e ∧ Correct earlier

/-- The waiter of a session whose last call is a registration. -/
def newlyRegistered (sessionId : String) : List (Event Pid Details) → Option Pid
  | [] => none
  | .registered s w :: earlier => if s = sessionId then some w else newlyRegistered sessionId earlier
  | .deregistered s _ _ :: earlier
  | .signalled s _ _ :: earlier => if s = sessionId then none else newlyRegistered sessionId earlier
  | .exited _ :: earlier => newlyRegistered sessionId earlier

/-- A waiter deregisters in its turn: the call before, for the same session, is no other
waiter's registration. -/
def InTurn (t : World Pid Details) : Act Pid Details → Prop
  | .deregister sessionId w => ∀ w' ∈ newlyRegistered sessionId t.history, w' = w
  | _ => True

instance (t : World Pid Details) : (a : Act Pid Details) → Decidable (InTurn t a)
  | .deregister sessionId w =>
      inferInstanceAs (Decidable (∀ w' ∈ newlyRegistered sessionId t.history, w' = w))
  | .register .. | .signal .. | .exit .. => isTrue trivial

/-! ## The queue of a session -/

omit [DecidableEq Pid] in
theorem head_filter {p : Pid → Bool} {w : Pid} {ws : List Pid} (h : ws.head? = some w)
    (hw : p w = true) : (ws.filter p).head? = some w := by
  rcases ws with _ | ⟨w', ws⟩
  · cases h
  · obtain rfl := Option.some.inj h
    rw [List.filter_cons_of_pos hw]
    rfl

/-- As long as the waiter that registered last has not left, it is the first of the queue:
only a registration puts somebody in front of it. -/
theorem head_queue {sessionId : String} {w : Pid} (history : List (Event Pid Details))
    (hlast : lastRegistered sessionId history = some w) (hmem : w ∈ queue sessionId history) :
    (queue sessionId history).head? = some w := by
  have hleft : ∀ {ws : List Pid} {w' : Pid}, (w ∈ ws → ws.head? = some w) →
      w ∈ ws.filter (· ≠ w') → (ws.filter (· ≠ w')).head? = some w := by
    intro ws w' ih hmem
    obtain ⟨hmem, hne⟩ := List.mem_filter.mp hmem
    exact head_filter (ih hmem) hne
  induction history with
  | nil => cases hlast
  | cons e earlier ih =>
    rcases e with ⟨s, w'⟩ | ⟨s, w', taken⟩ | ⟨s, signal, _ | ⟨w', m⟩⟩ | w' <;>
      simp only [lastRegistered] at hlast <;> simp only [queue] at hmem ⊢
    · by_cases hs : s = sessionId
      · rw [if_pos hs] at hlast ⊢
        rw [List.head?_cons, hlast]
      · rw [if_neg hs] at hlast hmem ⊢
        exact ih hlast hmem
    · by_cases hs : s = sessionId
      · rw [if_pos hs] at hmem ⊢
        exact hleft (ih hlast) hmem
      · rw [if_neg hs] at hmem ⊢
        exact ih hlast hmem
    · exact ih hlast hmem
    · by_cases hs : s = sessionId
      · rw [if_pos hs] at hmem ⊢
        exact hleft (ih hlast) hmem
      · rw [if_neg hs] at hmem ⊢
        exact ih hlast hmem
    · exact ih hlast hmem

theorem mem_waiting {sessionId : String} {w : Pid} {history : List (Event Pid Details)} :
    w ∈ waiting sessionId history ↔ w ∈ queue sessionId history ∧ w ∉ ended history := by
  simp [waiting]

theorem last_of_newlyRegistered {sessionId : String} {w : Pid} (history : List (Event Pid Details))
    (h : newlyRegistered sessionId history = some w) :
    lastRegistered sessionId history = some w ∧ w ∈ queue sessionId history := by
  induction history with
  | nil => cases h
  | cons e earlier ih =>
    rcases e with ⟨s, w'⟩ | ⟨s, w', taken⟩ | ⟨s, signal, _ | ⟨w', m⟩⟩ | w' <;>
      simp only [newlyRegistered] at h <;> simp only [lastRegistered, queue]
    · by_cases hs : s = sessionId
      · rw [if_pos hs] at h ⊢
        rw [if_pos hs, Option.some.inj h]
        exact ⟨rfl, List.mem_cons_self⟩
      · rw [if_neg hs] at h ⊢
        rw [if_neg hs]
        exact ih h
    · by_cases hs : s = sessionId
      · rw [if_pos hs] at h
        cases h
      · rw [if_neg hs] at h ⊢
        exact ih h
    · by_cases hs : s = sessionId
      · rw [if_pos hs] at h
        cases h
      · rw [if_neg hs] at h
        exact ih h
    · by_cases hs : s = sessionId
      · rw [if_pos hs] at h
        cases h
      · rw [if_neg hs] at h ⊢
        exact ih h
    · exact ih h

/-! ## The invariant -/

/-- The registrations beside what has happened: a session has one when its last call is a
registration, and a waiter that registered last and still waits has its registration. -/
structure Inv (t : World Pid Details) : Prop where
  dead : t.dead = ended t.history
  pending : ∀ sessionId, t.pending.lookup sessionId = newlyRegistered sessionId t.history
  kept : ∀ sessionId w, lastRegistered sessionId t.history = some w →
    w ∈ waiting sessionId t.history → newlyRegistered sessionId t.history = some w
  correct : Correct t.history

theorem Inv.start : Inv (start : World Pid Details) where
  dead := rfl
  pending _ := rfl
  kept sessionId w h := by cases h
  correct := trivial

namespace Inv
variable {t : World Pid Details}

theorem alive_eq (h : Inv t) (w : Pid) : t.alive w = true ↔ w ∉ ended t.history := by
  rw [World.alive, h.dead]
  simp

theorem register (h : Inv t) (sessionId : String) (w : Pid) :
    Inv { t with
      pending := handleRegister t.pending sessionId w
      history := .registered sessionId w :: t.history } where
  dead := h.dead
  pending s := by
    rw [handleRegister, Ets.lookup_insert, newlyRegistered, h.pending]
    by_cases hs : s = sessionId
    · rw [if_pos hs, if_pos hs.symm]
    · rw [if_neg hs, if_neg (Ne.symm hs)]
  kept s v hlast hwait := by
    obtain ⟨hqueue, hended⟩ := mem_waiting.mp hwait
    simp only [lastRegistered, queue, newlyRegistered] at hlast hqueue ⊢
    by_cases hs : sessionId = s
    · rw [if_pos hs] at hlast ⊢
      exact hlast
    · rw [if_neg hs] at hlast hqueue ⊢
      exact h.kept s v hlast (mem_waiting.mpr ⟨hqueue, hended⟩)
  correct := ⟨.registered sessionId w, h.correct⟩

theorem deregister (h : Inv t) (sessionId : String) (w : Pid)
    (hturn : InTurn t (.deregister sessionId w)) :
    Inv { t with
      pending := handleDeregister t.pending sessionId
      history := .deregistered sessionId w (t.pending.lookup sessionId) :: t.history } where
  dead := h.dead
  pending s := by
    rw [handleDeregister, Ets.lookup_delete, newlyRegistered, h.pending]
    by_cases hs : s = sessionId
    · rw [if_pos hs, if_pos hs.symm]
    · rw [if_neg hs, if_neg (Ne.symm hs)]
  kept s v hlast hwait := by
    obtain ⟨hqueue, hended⟩ := mem_waiting.mp hwait
    simp only [lastRegistered, queue, newlyRegistered] at hlast hqueue ⊢
    by_cases hs : sessionId = s
    · -- Another waiter that still waits would be the one registered last.
      subst hs
      rw [if_pos rfl] at hqueue
      obtain ⟨hqueue, hne⟩ := List.mem_filter.mp hqueue
      have hreg := h.kept sessionId v hlast (mem_waiting.mpr ⟨hqueue, hended⟩)
      have hv : v = w := hturn v hreg
      simp [hv] at hne
    · rw [if_neg hs] at hqueue ⊢
      exact h.kept s v hlast (mem_waiting.mpr ⟨hqueue, hended⟩)
  correct := by
    refine ⟨.deregistered sessionId w _ fun w' hw' => hturn w' ?_, h.correct⟩
    rw [← h.pending]
    exact hw'

theorem signal_none (h : Inv t) (sessionId : String) (signal : Signal Details)
    (hnone : newlyRegistered sessionId t.history = none) :
    Inv { t with history := .signalled sessionId signal none :: t.history } where
  dead := h.dead
  pending s := by
    rw [newlyRegistered, h.pending]
    by_cases hs : sessionId = s
    · rw [if_pos hs, ← hs, hnone]
    · rw [if_neg hs]
  kept s v hlast hwait := by
    have hreg := h.kept s v hlast hwait
    rw [newlyRegistered]
    by_cases hs : sessionId = s
    · rw [← hs, hnone] at hreg
      cases hreg
    · rw [if_neg hs]
      exact hreg
  correct := by
    refine ⟨.signalled sessionId signal none (fun w m hsent => ?_) (fun w hlast hwait => ?_),
      h.correct⟩
    · cases hsent
    · rw [h.kept sessionId w hlast hwait] at hnone
      cases hnone

theorem signal_some (h : Inv t) (sessionId : String) (signal : Signal Details) {w : Pid}
    (hreg : newlyRegistered sessionId t.history = some w) :
    Inv { t with
      pending := t.pending.delete sessionId
      history := .signalled sessionId signal (if t.alive w then some (w, signal) else none)
        :: t.history } := by
  obtain ⟨hlast, hqueue⟩ := last_of_newlyRegistered t.history hreg
  have halive := h.alive_eq w
  refine ⟨h.dead, fun s => ?_, fun s v hlastv hwait => ?_, ?_, h.correct⟩
  · rw [Ets.lookup_delete, newlyRegistered, h.pending]
    by_cases hs : s = sessionId
    · rw [if_pos hs, if_pos hs.symm]
    · rw [if_neg hs, if_neg (Ne.symm hs)]
  · obtain ⟨hqueuev, hendedv⟩ := mem_waiting.mp hwait
    have hlastv : lastRegistered s t.history = some v := hlastv
    have hendedv : v ∉ ended t.history := hendedv
    rw [newlyRegistered]
    by_cases hs : sessionId = s
    · -- The waiter registered last is the one the signal goes to, so it no longer waits.
      subst hs
      rw [hlast] at hlastv
      obtain rfl := Option.some.inj hlastv
      rw [if_pos (halive.mpr hendedv)] at hqueuev
      simp only [queue, if_pos] at hqueuev
      simpa using (List.mem_filter.mp hqueuev).2
    · rw [if_neg hs]
      have hqueuev : v ∈ queue s t.history := by
        by_cases hw : t.alive w = true
        · simpa only [queue, if_pos hw, if_neg hs] using hqueuev
        · simpa only [queue, if_neg hw] using hqueuev
      exact h.kept s v hlastv (mem_waiting.mpr ⟨hqueuev, hendedv⟩)
  · refine .signalled sessionId signal _ (fun v m hsent => ?_) (fun v hlastv hwait => ?_)
    · by_cases hw : t.alive w = true
      · rw [if_pos hw] at hsent
        obtain ⟨rfl, rfl⟩ := Prod.mk.inj (Option.some.inj hsent)
        refine ⟨rfl, head_filter (head_queue t.history hlast hqueue) ?_⟩
        exact decide_eq_true (halive.mp hw)
      · rw [if_neg hw] at hsent
        cases hsent
    · rw [hlast] at hlastv
      obtain rfl := Option.some.inj hlastv
      rw [if_pos (halive.mpr (mem_waiting.mp hwait).2)]

theorem exit (h : Inv t) (w : Pid) :
    Inv { t with dead := w :: t.dead, history := .exited w :: t.history } where
  dead := by
    rw [ended, h.dead]
  pending := h.pending
  kept s v hlast hwait := by
    obtain ⟨hqueue, hended⟩ := mem_waiting.mp hwait
    have hended : v ∉ ended t.history := fun hmem => hended (List.mem_cons_of_mem w hmem)
    exact h.kept s v hlast (mem_waiting.mpr ⟨hqueue, hended⟩)
  correct := ⟨.exited w, h.correct⟩

/-- **What a step in its turn preserves.** -/
theorem step (h : Inv t) {a : Act Pid Details} {u : World Pid Details} (hturn : InTurn t a)
    (hs : step t a = some u) : Inv u := by
  rcases a with ⟨sessionId, w⟩ | ⟨sessionId, w⟩ | ⟨sessionId, signal⟩ | w
  · obtain rfl := Option.some.inj hs
    exact h.register sessionId w
  · obtain rfl := Option.some.inj hs
    exact h.deregister sessionId w hturn
  · rcases hreg : newlyRegistered sessionId t.history with _ | w <;>
      simp only [CleanupRendezvous.step, handleSignal, h.pending, hreg] at hs <;>
      obtain rfl := Option.some.inj hs
    · exact h.signal_none sessionId signal hreg
    · exact h.signal_some sessionId signal hreg
  · obtain rfl := Option.some.inj hs
    exact h.exit w

end Inv

/-! ## The runs that are correct -/

theorem history_step {t u : World Pid Details} {a : Act Pid Details} (h : step t a = some u) :
    ∃ e, u.history = e :: t.history := by
  rcases a with ⟨sessionId, w⟩ | ⟨sessionId, w⟩ | ⟨sessionId, signal⟩ | w <;>
    exact ⟨_, (congrArg World.history (Option.some.inj h)).symm⟩

/-- **A run is correct exactly when every deregistration in it comes in its turn**: no
other waiter's registration is the call before it for the same session. -/
theorem correct_iff_inTurn {as : List (Act Pid Details)} {t : World Pid Details}
    (hr : Run step anyStep start as t) : Correct t.history ↔ Run step InTurn start as t := by
  refine ⟨fun hcorrect => ?_, fun hr => (hr.invariant Inv.start fun _ _ _ h => h.step).correct⟩
  induction hr with
  | nil => exact .nil
  | @snoc as t a u hr _ hs ih =>
    obtain ⟨e, he⟩ := history_step hs
    rw [he] at hcorrect
    have hturn := ih hcorrect.2
    refine .snoc hturn ?_ hs
    have hinv := hturn.invariant Inv.start fun _ _ _ h => h.step
    rcases a with _ | ⟨sessionId, w⟩ | _ | _
    · trivial
    · obtain rfl := Option.some.inj hs
      obtain rfl := (List.cons.inj he).1
      rcases hcorrect.1 with _ | ⟨_, _, _, hown⟩
      rw [hinv.pending] at hown
      exact hown
    · trivial
    · trivial

/-- Two waiters, one after the other. -/
def inTurns : List (Act Nat Unit) :=
  [.register "s" 1, .signal "s" ⟨"CLEANED", ()⟩, .deregister "s" 1,
    .register "s" 2, .signal "s" ⟨"CLEANED", ()⟩, .deregister "s" 2]

theorem correct_iff_inTurn_inTurns :
    ∃ t, Run step anyStep start inTurns t ∧ Correct t.history := by
  refine ⟨_, .of_exec rfl, ?_⟩
  exact (correct_iff_inTurn (show Run step anyStep start inTurns _ from .of_exec rfl)).mpr (.of_exec rfl)

/-- The first of two waiters for one session gives up when the second one has registered:
it takes the registration of the second, and the signal finds nobody. -/
theorem not_correct_overtaken :
    ¬ ∀ (as : List (Act Nat Unit)) (t : World Nat Unit), Run step anyStep start as t →
      Correct t.history := by
  intro h
  have hr : Run step anyStep (start : World Nat Unit)
      [.register "s" 1, .register "s" 2, .deregister "s" 1, .signal "s" ⟨"CLEANED", ()⟩] _ :=
    .of_exec rfl
  obtain ⟨-, hsecond, -⟩ := h _ _ hr
  rcases hsecond with _ | ⟨_, _, _, hown⟩
  exact absurd (hown 2 rfl) (by decide)

end CleanupRendezvous
end Esr
