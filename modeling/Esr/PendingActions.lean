import Esr.Ets
import Esr.Runs
import Esr.UriTexts

/-! # Two-step confirmations

`EsrWeb.PendingActionsGuard` keeps at most one pending action for each operator and
chat, with a timer for each registration.  The next `confirm` or `cancel` from there
resolves the action, and so does the message of its timer, which carries the key and
not the registration.

`Correct` says that a registered action has the outcome of the first message that ends
it, where a timer ends only the registration it was started for, and that an action not
ended yet is still in the table and will be.  It holds in every run in which no action
is registered while an `:expire` for its key waits in the mailbox (`Careful`), unless
something that ends the new action stands in front of it.
-/
namespace Esr
namespace PendingActionsGuard

/-- A process. -/
abbrev Pid := Nat

/-- The reference of a timer. -/
abbrev Timer := Nat

/-- `{principal_id, chat_id}`. -/
structure Key where
  principalId : String
  chatId : String
deriving DecidableEq

inductive Verdict where
  | confirm
  | cancel
deriving DecidableEq

inductive Outcome where
  | confirmed
  | cancelled
  | expired
deriving DecidableEq

/-- `verdict_atom/1`. -/
def verdictAtom : Verdict → Outcome
  | .confirm => .confirmed
  | .cancel => .cancelled

/-- `classify/1`.  No letter outside ASCII has one of these letters as its lower case. -/
def classify (text : String) : Option Verdict :=
  let word := lowerAscii (trim text)
  if word = "confirm" then some .confirm
  else if word = "cancel" then some .cancel
  else none

variable {P : Type}

/-- A pending action with its payload. -/
structure Entry (P : Type) where
  kind : String
  payload : P
  replyPid : Option Pid
deriving DecidableEq

/-- A row of the table. -/
structure Row (P : Type) where
  entry : Entry P
  timer : Timer
deriving DecidableEq

/-- A message of the guard.  An `:expire` carries its key only; the timer that sent it
is noted for what is said about it, and no handler reads it. -/
inductive Msg (P : Type) where
  | register (key : Key) (entry : Entry P)
  | intercept (key : Key) (verdict : Verdict)
  | drop (key : Key)
  | expire (key : Key) (timer : Timer)
deriving DecidableEq

/-- A call of the public functions. -/
inductive Call (P : Type) where
  | register (key : Key) (entry : Entry P)
  | intercept (key : Key) (text : String)
  | drop (key : Key)

/-- What the call sends to the guard; `intercept?/3` lets any other text pass. -/
def Call.msg? : Call P → Option (Msg P)
  | .register key entry => some (.register key entry)
  | .intercept key text => (classify text).map (.intercept key)
  | .drop key => some (.drop key)

/-- `{:pending_action, kind, outcome, payload}`, to a process. -/
structure Note (P : Type) where
  pid : Pid
  kind : String
  outcome : Outcome
  payload : P
deriving DecidableEq

inductive Reply where
  | ok
  | consume (verdict : Verdict)
  | passthrough
deriving DecidableEq

/-- A message taken: the row it made, the action it resolved, what was sent, and the
answer to the caller. -/
structure Taken (P : Type) where
  msg : Msg P
  registered : Option (Row P)
  resolved : Option (Timer × Outcome)
  sent : List (Note P)
  reply : Option Reply
deriving DecidableEq

/-- The guard with its table, its mailbox and the timers that are running. -/
structure Guard (P : Type) where
  table : Ets Key (Row P)
  timers : List (Timer × Key)
  next : Timer
  mailbox : List (Msg P)
  history : List (Taken P)

/-- A guard that has just started. -/
def start : Guard P := ⟨.empty, [], 0, [], []⟩

/-- The key of a message. -/
def Msg.key : Msg P → Key
  | .register key _ => key
  | .intercept key _ => key
  | .drop key => key
  | .expire key _ => key

/-- `if is_pid(pid) and Process.alive?(pid), do: send(...)`. -/
def note (alive : Pid → Bool) (entry : Entry P) (outcome : Outcome) : List (Note P) :=
  match entry.replyPid with
  | some pid => if alive pid then [⟨pid, entry.kind, outcome, entry.payload⟩] else []
  | none => []

namespace Guard

/-- `cancel_timer/1`: a timer that has fired has sent its message. -/
def cancelTimer (timer : Timer) (g : Guard P) : Guard P :=
  { g with timers := g.timers.filter fun t => t.1 ≠ timer }

/-- `cancel_existing/1`. -/
def cancelExisting (key : Key) (g : Guard P) : Guard P :=
  match g.table.lookup key with
  | some row => { g.cancelTimer row.timer with table := g.table.delete key }
  | none => g

/-- One more message in the history. -/
def record (u : Taken P) (g : Guard P) : Guard P := { g with history := g.history ++ [u] }

/-- `handle_call({:register, ...})`. -/
def handleRegister (key : Key) (entry : Entry P) (g : Guard P) : Guard P :=
  let g := g.cancelExisting key
  let timer := g.next
  { g with table := g.table.insert key ⟨entry, timer⟩
           timers := g.timers ++ [(timer, key)]
           next := g.next + 1 }.record
    ⟨.register key entry, some ⟨entry, timer⟩, none, [], some .ok⟩

/-- `handle_call({:intercept, ...})`. -/
def handleIntercept (alive : Pid → Bool) (key : Key) (verdict : Verdict) (g : Guard P) : Guard P :=
  match g.table.lookup key with
  | some row =>
      { g.cancelTimer row.timer with table := g.table.delete key }.record
        ⟨.intercept key verdict, none, some (row.timer, verdictAtom verdict),
          note alive row.entry (verdictAtom verdict), some (.consume verdict)⟩
  | none => g.record ⟨.intercept key verdict, none, none, [], some .passthrough⟩

/-- `handle_call({:drop, ...})`. -/
def handleDrop (key : Key) (g : Guard P) : Guard P :=
  (g.cancelExisting key).record ⟨.drop key, none, none, [], some .ok⟩

/-- `handle_info({:expire, key}, state)`. -/
def handleExpire (alive : Pid → Bool) (key : Key) (timer : Timer) (g : Guard P) : Guard P :=
  match g.table.lookup key with
  | some row =>
      { g with table := g.table.delete key }.record
        ⟨.expire key timer, none, some (row.timer, .expired), note alive row.entry .expired, none⟩
  | none => g.record ⟨.expire key timer, none, none, [], none⟩

/-- One message. -/
def receive (alive : Pid → Bool) (m : Msg P) (g : Guard P) : Guard P :=
  match m with
  | .register key entry => g.handleRegister key entry
  | .intercept key verdict => g.handleIntercept alive key verdict
  | .drop key => g.handleDrop key
  | .expire key timer => g.handleExpire alive key timer

end Guard

/-- What can happen next; `alive` says which processes are alive at the moment. -/
inductive Act (P : Type) where
  | call (c : Call P)
  | fire (timer : Timer) (key : Key)
  | take (alive : Pid → Bool)

/-- One step.  A timer that is running may fire at any time. -/
def step (g : Guard P) : Act P → Option (Guard P)
  | .call c => some { g with mailbox := g.mailbox ++ c.msg?.toList }
  | .fire timer key =>
      if (timer, key) ∈ g.timers then
        some { g with timers := g.timers.filter fun t => t ≠ (timer, key)
                      mailbox := g.mailbox ++ [.expire key timer] }
      else none
  | .take alive =>
      match g.mailbox with
      | m :: rest => some ({ g with mailbox := rest }.receive alive m)
      | [] => none

/-! ## The property -/

/-- How an action ends. -/
inductive Ending where
  | resolved (outcome : Outcome)
  | superseded
  | dropped
deriving DecidableEq

/-- The outcomes of an action that ends so. -/
def Ending.outcomes : Ending → List Outcome
  | .resolved outcome => [outcome]
  | _ => []

/-- How a message ends the action that was registered under a key with a timer. -/
def Msg.ending? (key : Key) (timer : Timer) : Msg P → Option Ending
  | .register k _ => if k = key then some .superseded else none
  | .intercept k verdict => if k = key then some (.resolved (verdictAtom verdict)) else none
  | .drop k => if k = key then some .dropped else none
  | .expire k t => if k = key ∧ t = timer then some (.resolved .expired) else none

/-- The first of the endings that the messages bring. -/
def firstEnding (key : Key) (timer : Timer) (after : List (Taken P)) : Option Ending :=
  after.findSome? fun t => t.msg.ending? key timer

/-- The outcomes that the action with a timer was resolved with. -/
def outcomesIn (timer : Timer) (h : List (Taken P)) : List Outcome :=
  (h.filterMap Taken.resolved).filterMap fun r => if r.1 = timer then some r.2 else none

/-- The row was made by a registration of the key, and `after` has come since. -/
def RegisteredBefore (g : Guard P) (key : Key) (row : Row P) (after : List (Taken P)) : Prop :=
  ∃ before t, g.history = before ++ t :: after ∧ t.registered = some row ∧ t.msg.key = key

/-- Every registered action is resolved exactly once, on its own terms. -/
structure Correct (g : Guard P) : Prop where
  resolved : ∀ key row after, RegisteredBefore g key row after →
    outcomesIn row.timer g.history =
      ((firstEnding key row.timer after).map Ending.outcomes).getD []
  pending : ∀ key row, g.table.lookup key = some row ↔
    ∃ after, RegisteredBefore g key row after ∧ firstEnding key row.timer after = none
  waiting : ∀ key row, g.table.lookup key = some row →
    (row.timer, key) ∈ g.timers ∨ Msg.expire key row.timer ∈ g.mailbox

/-- A request that ends whatever action is pending under the key. -/
def Msg.ends (key : Key) : Msg P → Bool
  | .register k _ => k = key
  | .intercept k _ => k = key
  | .drop k => k = key
  | .expire _ _ => false

/-- An `:expire` for the key is taken before any request that ends its action. -/
def awaitsExpire (key : Key) : List (Msg P) → Bool
  | [] => false
  | .expire k _ :: rest => k = key || awaitsExpire key rest
  | m :: rest => !m.ends key && awaitsExpire key rest

/-- No action is registered while an `:expire` for its key is in the mailbox and would
be the next to meet it. -/
def Careful (g : Guard P) : Act P → Prop
  | .take _ => ∀ key entry rest, g.mailbox = .register key entry :: rest →
      awaitsExpire key rest = false
  | _ => True

/-! ## Taking a message -/

/-- The row a registration makes. -/
def Msg.row? (timer : Timer) : Msg P → Option (Row P)
  | .register _ entry => some ⟨entry, timer⟩
  | _ => none

/-- The outcome a message resolves an action with. -/
def Msg.outcome? : Msg P → Option Outcome
  | .intercept _ verdict => some (verdictAtom verdict)
  | .expire _ _ => some .expired
  | _ => none

/-- A message that its timer sent. -/
def Msg.isExpire : Msg P → Bool
  | .expire _ _ => true
  | _ => false

/-- What taking a message does, whichever it is: only the row of its key changes. -/
structure Took (m : Msg P) (g g' : Guard P) (u : Taken P) : Prop where
  mailbox : g'.mailbox = g.mailbox
  history : g'.history = g.history ++ [u]
  msg : u.msg = m
  registered : u.registered = m.row? g.next
  resolved : u.resolved =
    (g.table.lookup m.key).bind fun row => m.outcome?.map fun o => (row.timer, o)
  lookup : ∀ key, g'.table.lookup key =
    if key = m.key then m.row? g.next else g.table.lookup key
  timers : ∀ t key, (t, key) ∈ g'.timers ↔
    ((t, key) ∈ g.timers ∧
      (m.isExpire = true ∨ ∀ row, g.table.lookup m.key = some row → row.timer ≠ t)) ∨
    (∃ row, m.row? g.next = some row ∧ t = g.next ∧ key = m.key)
  next : g'.next = if (m.row? g.next).isSome then g.next + 1 else g.next

section
variable {g : Guard P}

theorem mem_cancelTimer {timer t : Timer} {key : Key} :
    (t, key) ∈ (g.cancelTimer timer).timers ↔ (t, key) ∈ g.timers ∧ t ≠ timer := by
  unfold Guard.cancelTimer
  rw [List.mem_filter, decide_eq_true_eq]

theorem cancelExisting_spec (key : Key) (g : Guard P) :
    (g.cancelExisting key).mailbox = g.mailbox ∧ (g.cancelExisting key).history = g.history ∧
    (g.cancelExisting key).next = g.next ∧
    (∀ k, (g.cancelExisting key).table.lookup k = if k = key then none else g.table.lookup k) ∧
    ∀ t k, (t, k) ∈ (g.cancelExisting key).timers ↔
      (t, k) ∈ g.timers ∧ ∀ row, g.table.lookup key = some row → row.timer ≠ t := by
  unfold Guard.cancelExisting
  cases hrow : g.table.lookup key with
  | none =>
    refine ⟨rfl, rfl, rfl, fun k => ?_, fun t k => by simp⟩
    show g.table.lookup k = if k = key then none else g.table.lookup k
    split
    · rename_i hk
      rw [hk, hrow]
    · rfl
  | some row =>
    refine ⟨rfl, rfl, rfl, fun k => Ets.lookup_delete _ _ _, fun t k => ?_⟩
    show (t, k) ∈ (g.cancelTimer row.timer).timers ↔ _
    rw [mem_cancelTimer]
    simp [ne_comm]

theorem took_register (key : Key) (entry : Entry P) (g : Guard P) :
    ∃ u, Took (.register key entry) g (g.handleRegister key entry) u := by
  obtain ⟨hbox, hhistory, hnext, hlookup, htimers⟩ := cancelExisting_spec key g
  refine ⟨⟨.register key entry, some ⟨entry, g.next⟩, none, [], some .ok⟩, hbox, ?_, rfl, rfl, ?_,
    fun k => ?_, fun t k => ?_, ?_⟩
  · show (g.cancelExisting key).history ++ [_] = _
    rw [hhistory, hnext]
  · cases g.table.lookup (Msg.register key entry).key <;> rfl
  · show ((g.cancelExisting key).table.insert key _).lookup k = _
    rw [Ets.lookup_insert, hnext, hlookup]
    show (if k = key then _ else _) = if k = key then _ else _
    split <;> rfl
  · show (t, k) ∈ (g.cancelExisting key).timers ++ [((g.cancelExisting key).next, key)] ↔ _
    rw [List.mem_append, htimers, hnext]
    simp [Msg.row?, Msg.isExpire, Msg.key]
  · show (g.cancelExisting key).next + 1 = _
    rw [hnext]
    rfl

theorem took_drop (key : Key) (g : Guard P) :
    ∃ u, Took (.drop key) g (g.handleDrop key) u := by
  obtain ⟨hbox, hhistory, hnext, hlookup, htimers⟩ := cancelExisting_spec key g
  refine ⟨⟨.drop key, none, none, [], some .ok⟩, hbox, ?_, rfl, rfl, ?_, hlookup, fun t k => ?_,
    hnext⟩
  · show (g.cancelExisting key).history ++ [_] = _
    rw [hhistory]
  · cases g.table.lookup (Msg.drop key : Msg P).key <;> rfl
  · show (t, k) ∈ (g.cancelExisting key).timers ↔ _
    rw [htimers]
    simp [Msg.row?, Msg.isExpire, Msg.key]

theorem took_intercept (alive : Pid → Bool) (key : Key) (verdict : Verdict) (g : Guard P) :
    ∃ u, Took (.intercept key verdict) g (g.handleIntercept alive key verdict) u := by
  unfold Guard.handleIntercept
  cases hrow : g.table.lookup key with
  | none =>
    refine ⟨_, rfl, rfl, rfl, rfl, ?_, fun k => ?_, fun t k => ?_, rfl⟩
    · show none = (g.table.lookup key).bind _
      rw [hrow]
      rfl
    · show g.table.lookup k = if k = key then none else g.table.lookup k
      split
      · rename_i hk
        rw [hk, hrow]
      · rfl
    · show (t, k) ∈ g.timers ↔ _
      simp [Msg.row?, Msg.key, hrow]
  | some row =>
    refine ⟨_, rfl, rfl, rfl, rfl, ?_, fun k => Ets.lookup_delete _ _ _, fun t k => ?_, rfl⟩
    · show some (row.timer, verdictAtom verdict) = (g.table.lookup key).bind _
      rw [hrow]
      rfl
    · show (t, k) ∈ (g.cancelTimer row.timer).timers ↔ _
      rw [mem_cancelTimer]
      simp [Msg.row?, Msg.isExpire, Msg.key, hrow, ne_comm]

theorem took_expire (alive : Pid → Bool) (key : Key) (timer : Timer) (g : Guard P) :
    ∃ u, Took (.expire key timer) g (g.handleExpire alive key timer) u := by
  unfold Guard.handleExpire
  cases hrow : g.table.lookup key with
  | none =>
    refine ⟨_, rfl, rfl, rfl, rfl, ?_, fun k => ?_, fun t k => ?_, rfl⟩
    · show none = (g.table.lookup key).bind _
      rw [hrow]
      rfl
    · show g.table.lookup k = if k = key then none else g.table.lookup k
      split
      · rename_i hk
        rw [hk, hrow]
      · rfl
    · show (t, k) ∈ g.timers ↔ _
      simp [Msg.row?, Msg.isExpire]
  | some row =>
    refine ⟨_, rfl, rfl, rfl, rfl, ?_, fun k => Ets.lookup_delete _ _ _, fun t k => ?_, rfl⟩
    · show some (row.timer, Outcome.expired) = (g.table.lookup key).bind _
      rw [hrow]
      rfl
    · show (t, k) ∈ g.timers ↔ _
      simp [Msg.row?, Msg.isExpire]

theorem took_receive (alive : Pid → Bool) (m : Msg P) (g : Guard P) :
    ∃ u, Took m g (g.receive alive m) u := by
  cases m with
  | register key entry => exact took_register key entry g
  | intercept key verdict => exact took_intercept alive key verdict g
  | drop key => exact took_drop key g
  | expire key timer => exact took_expire alive key timer g

end

/-! ## Histories -/

theorem outcomesIn_snoc (timer : Timer) (h : List (Taken P)) (u : Taken P) :
    outcomesIn timer (h ++ [u]) = outcomesIn timer h ++
      (u.resolved.toList.filterMap fun r => if r.1 = timer then some r.2 else none) := by
  unfold outcomesIn
  rw [List.filterMap_append, List.filterMap_append]
  cases hu : u.resolved <;> simp [hu]

theorem firstEnding_snoc (key : Key) (timer : Timer) (after : List (Taken P)) (u : Taken P) :
    firstEnding key timer (after ++ [u]) =
      (firstEnding key timer after).or (u.msg.ending? key timer) := by
  unfold firstEnding
  rw [List.findSome?_append]
  cases h : u.msg.ending? key timer <;> simp [h]

theorem ending?_of_ne {m : Msg P} {key : Key} (h : key ≠ m.key) (timer : Timer) :
    m.ending? key timer = none := by
  cases m with
  | expire k t => exact if_neg fun hk => h hk.1.symm
  | _ => exact if_neg (Ne.symm h)

theorem ending?_self {m : Msg P} {timer : Timer} (h : ∀ k t, m = .expire k t → t = timer) :
    ∃ e, m.ending? m.key timer = some e ∧ e.outcomes = m.outcome?.toList := by
  cases m with
  | register k entry => exact ⟨.superseded, if_pos rfl, rfl⟩
  | intercept k verdict => exact ⟨.resolved (verdictAtom verdict), if_pos rfl, rfl⟩
  | drop k => exact ⟨.dropped, if_pos rfl, rfl⟩
  | expire k t => exact ⟨.resolved .expired, if_pos ⟨rfl, h k t rfl⟩, rfl⟩

section
variable {g g' : Guard P} {u : Taken P}

theorem registeredBefore_snoc (hhistory : g'.history = g.history ++ [u]) {key : Key} {row : Row P}
    {after : List (Taken P)} (h : RegisteredBefore g' key row after) :
    (after = [] ∧ u.registered = some row ∧ u.msg.key = key) ∨
      ∃ after', after = after' ++ [u] ∧ RegisteredBefore g key row after' := by
  obtain ⟨before, t, he, ht, hk⟩ := h
  rw [hhistory] at he
  rcases snoc_eq_split he with ⟨rfl, rfl, -⟩ | ⟨after', rfl, hold⟩
  · exact .inl ⟨rfl, ht, hk⟩
  · exact .inr ⟨after', rfl, before, t, hold, ht, hk⟩

theorem RegisteredBefore.snoc (hhistory : g'.history = g.history ++ [u]) {key : Key} {row : Row P}
    {after : List (Taken P)} (h : RegisteredBefore g key row after) :
    RegisteredBefore g' key row (after ++ [u]) := by
  obtain ⟨before, t, he, ht, hk⟩ := h
  exact ⟨before, t, by rw [hhistory, he]; simp, ht, hk⟩

end

/-! ## Mailboxes -/

/-- An `:expire` of another timer is met before any request that ends the action. -/
def meetsStale (key : Key) (timer : Timer) : List (Msg P) → Bool
  | [] => false
  | .expire k t :: rest => (k = key && t ≠ timer) || meetsStale key timer rest
  | m :: rest => !m.ends key && meetsStale key timer rest

theorem meetsStale_of_awaits {key : Key} (timer : Timer) {box : List (Msg P)}
    (h : awaitsExpire key box = false) : meetsStale key timer box = false := by
  induction box with
  | nil => rfl
  | cons m rest ih =>
    cases m with
    | expire k t =>
      simp only [awaitsExpire, Bool.or_eq_false_iff] at h
      simp [meetsStale, h.1, ih h.2]
    | _ =>
      simp only [awaitsExpire, Bool.and_eq_false_iff] at h
      simp only [meetsStale, Bool.and_eq_false_iff]
      exact h.imp id ih

theorem meetsStale_append {key : Key} {timer : Timer} {box : List (Msg P)} {m : Msg P}
    (h : meetsStale key timer box = false) (hm : ∀ t, m = .expire key t → t = timer) :
    meetsStale key timer (box ++ [m]) = false := by
  induction box with
  | nil =>
    cases m with
    | expire k t =>
      have hself : ∀ t', k = key → t = t' → t' = timer := by
        rintro t' rfl rfl
        exact hm t rfl
      simpa [meetsStale] using fun hk => hself t hk rfl
    | _ => simp [meetsStale]
  | cons x rest ih =>
    cases x with
    | expire k t =>
      simp only [meetsStale, Bool.or_eq_false_iff] at h
      rw [List.cons_append, meetsStale, h.1, ih h.2]
      rfl
    | _ =>
      simp only [meetsStale, Bool.and_eq_false_iff] at h
      simp only [List.cons_append, meetsStale, Bool.and_eq_false_iff]
      exact h.imp id ih

theorem meetsStale_tail {key : Key} {timer : Timer} {m : Msg P} {rest : List (Msg P)}
    (h : meetsStale key timer (m :: rest) = false) (hm : m.ends key = false) :
    meetsStale key timer rest = false := by
  cases m with
  | expire k t =>
    simp only [meetsStale, Bool.or_eq_false_iff] at h
    exact h.2
  | _ => simpa [meetsStale, hm] using h

theorem own_of_meets {key : Key} {timer t : Timer} {rest : List (Msg P)}
    (h : meetsStale key timer (.expire key t :: rest) = false) : t = timer := by
  simp only [meetsStale, Bool.or_eq_false_iff] at h
  simpa using h.1

/-! ## The invariant -/

/-- How an action stands: pending, or resolved as the first message that ended it says. -/
def Stage (g : Guard P) (key : Key) (row : Row P) (after : List (Taken P)) : Prop :=
  (firstEnding key row.timer after = none ∧ outcomesIn row.timer g.history = [] ∧
    g.table.lookup key = some row) ∨
  ∃ e, firstEnding key row.timer after = some e ∧ outcomesIn row.timer g.history = e.outcomes ∧
    g.table.lookup key ≠ some row

/-- The timers are those of the rows, and no `:expire` in the mailbox meets the row of
another registration. -/
structure Inv (g : Guard P) : Prop where
  fresh : ∀ key row after, RegisteredBefore g key row after → row.timer < g.next
  distinct : ∀ key row after key' row' after', RegisteredBefore g key row after →
    RegisteredBefore g key' row' after' → row.timer = row'.timer → key = key' ∧ row = row'
  silent : ∀ timer, g.next ≤ timer → outcomesIn timer g.history = []
  noted : ∀ key row, g.table.lookup key = some row → ∃ after, RegisteredBefore g key row after
  stage : ∀ key row after, RegisteredBefore g key row after → Stage g key row after
  running : ∀ t key, (t, key) ∈ g.timers → ∃ row, g.table.lookup key = some row ∧ row.timer = t
  sent : ∀ t key, Msg.expire key t ∈ g.mailbox → t < g.next ∧ (t, key) ∉ g.timers
  waiting : ∀ key row, g.table.lookup key = some row →
    (row.timer, key) ∈ g.timers ∨ Msg.expire key row.timer ∈ g.mailbox
  own : ∀ key row, g.table.lookup key = some row → meetsStale key row.timer g.mailbox = false

namespace Inv
variable {g : Guard P}

theorem start : Inv (start : Guard P) := by
  have hnever : ∀ key (row : Row P) after, ¬RegisteredBefore (PendingActionsGuard.start) key row after := by
    rintro key row after ⟨before, t, he, -⟩
    exact absurd he (by simp [PendingActionsGuard.start])
  have hempty : ∀ key (row : Row P), (PendingActionsGuard.start : Guard P).table.lookup key ≠ some row := by
    intro key row h
    rw [show (PendingActionsGuard.start : Guard P).table = .empty from rfl, Ets.lookup_empty] at h
    cases h
  refine ⟨fun key row after h => absurd h (hnever key row after),
    fun key row after _ _ _ h => absurd h (hnever key row after), fun _ _ => rfl,
    fun key row h => absurd h (hempty key row), fun key row after h => absurd h (hnever key row after),
    ?_, ?_, fun key row h => absurd h (hempty key row), fun key row h => absurd h (hempty key row)⟩
  · rintro t key ⟨⟩
  · rintro t key ⟨⟩

theorem correct (h : Inv g) : Correct g := by
  refine ⟨fun key row after hreg => ?_, fun key row => ⟨fun hrow => ?_, ?_⟩, h.waiting⟩
  · rcases h.stage key row after hreg with ⟨hnone, hout, -⟩ | ⟨e, hfirst, hout, -⟩
    · rw [hnone, hout]
      rfl
    · rw [hfirst, hout]
      rfl
  · obtain ⟨after, hreg⟩ := h.noted key row hrow
    rcases h.stage key row after hreg with ⟨hnone, -⟩ | ⟨-, -, -, hgone⟩
    · exact ⟨after, hreg, hnone⟩
    · exact absurd hrow hgone
  · rintro ⟨after, hreg, hnone⟩
    rcases h.stage key row after hreg with ⟨-, -, hrow⟩ | ⟨e, hfirst, -⟩
    · exact hrow
    · rw [hnone] at hfirst
      cases hfirst

theorem call (h : Inv g) (c : Call P) :
    Inv { g with mailbox := g.mailbox ++ c.msg?.toList } := by
  have hmsg : ∀ m ∈ c.msg?.toList, m.isExpire = false := by
    intro m hm
    cases c with
    | intercept key text =>
      rw [Call.msg?] at hm
      obtain ⟨v, -, rfl⟩ := Option.map_eq_some_iff.mp (Option.mem_toList.mp hm)
      rfl
    | _ =>
      obtain rfl := List.mem_singleton.mp hm
      rfl
  refine ⟨h.fresh, h.distinct, h.silent, h.noted, h.stage, h.running, ?_, ?_, ?_⟩
  · intro t key hm
    rcases List.mem_append.mp hm with hold | hnew
    · exact h.sent t key hold
    · exact absurd (hmsg _ hnew) (by simp [Msg.isExpire])
  · intro key row hrow
    exact (h.waiting key row hrow).imp id fun hm => List.mem_append_left _ hm
  · intro key row hrow
    cases hc : c.msg? with
    | none => simpa [hc] using h.own key row hrow
    | some m =>
      refine meetsStale_append (h.own key row hrow) ?_
      rintro t rfl
      have hno := hmsg (.expire key t) (by rw [hc]; exact List.mem_singleton_self _)
      cases hno

theorem fire (h : Inv g) {timer : Timer} {key : Key} (ht : (timer, key) ∈ g.timers) :
    Inv { g with timers := g.timers.filter fun t => t ≠ (timer, key)
                 mailbox := g.mailbox ++ [.expire key timer] } := by
  obtain ⟨own, hown, rfl⟩ := h.running timer key ht
  have hmem : ∀ t k, (t, k) ∈ g.timers.filter (fun t => t ≠ (own.timer, key)) ↔
      (t, k) ∈ g.timers ∧ (t, k) ≠ (own.timer, key) := fun t k => by
    rw [List.mem_filter, decide_eq_true_eq]
  obtain ⟨after, hreg⟩ := h.noted key own hown
  refine ⟨h.fresh, h.distinct, h.silent, h.noted, h.stage, ?_, ?_, ?_, ?_⟩
  · intro t k hk
    exact h.running t k ((hmem t k).mp hk).1
  · intro t k hm
    rcases List.mem_append.mp hm with hold | hnew
    · exact ⟨(h.sent t k hold).1, fun hk => (h.sent t k hold).2 ((hmem t k).mp hk).1⟩
    · obtain ⟨rfl, rfl⟩ := Msg.expire.inj (List.mem_singleton.mp hnew)
      exact ⟨h.fresh _ _ _ hreg, fun hk => ((hmem _ _).mp hk).2 rfl⟩
  · intro k row hrow
    rcases h.waiting k row hrow with hrun | hbox
    · by_cases hk : (row.timer, k) = (own.timer, key)
      · obtain ⟨he, rfl⟩ := Prod.mk.inj hk
        exact .inr (List.mem_append_right _ (by rw [he]; exact List.mem_cons_self))
      · exact .inl ((hmem _ _).mpr ⟨hrun, hk⟩)
    · exact .inr (List.mem_append_left _ hbox)
  · intro k row hrow
    refine meetsStale_append (h.own k row hrow) ?_
    rintro t ht
    obtain ⟨rfl, rfl⟩ := Msg.expire.inj ht
    rw [hown] at hrow
    exact congrArg Row.timer (Option.some.inj hrow)

theorem take (h : Inv g) {m : Msg P} {rest : List (Msg P)} (hm : g.mailbox = m :: rest)
    (hok : ∀ key entry, m = .register key entry → awaitsExpire key rest = false)
    {g' : Guard P} {u : Taken P} (ht : Took m { g with mailbox := rest } g' u) : Inv g' := by
  have hbox : g'.mailbox = rest := ht.mailbox
  have hhistory : g'.history = g.history ++ [u] := ht.history
  have hreg : u.registered = m.row? g.next := ht.registered
  have hlookup : ∀ key, g'.table.lookup key =
      if key = m.key then m.row? g.next else g.table.lookup key := ht.lookup
  have htimers : ∀ t key, (t, key) ∈ g'.timers ↔
      ((t, key) ∈ g.timers ∧
        (m.isExpire = true ∨ ∀ row, g.table.lookup m.key = some row → row.timer ≠ t)) ∨
      (∃ row, m.row? g.next = some row ∧ t = g.next ∧ key = m.key) := ht.timers
  have hrow? : ∀ row, m.row? g.next = some row → row.timer = g.next ∧
      ∃ key entry, m = .register key entry := by
    intro row hrow
    cases m with
    | register key entry =>
      obtain rfl := Option.some.inj hrow
      exact ⟨rfl, key, entry, rfl⟩
    | _ => cases hrow
  have hnext : g.next ≤ g'.next ∧ ∀ row, m.row? g.next = some row → g.next < g'.next := by
    rw [ht.next]
    show g.next ≤ (if (m.row? g.next).isSome then _ else _) ∧ ∀ row, m.row? g.next = some row →
      g.next < if (m.row? g.next).isSome then _ else _
    split
    · exact ⟨Nat.le_succ _, fun _ _ => Nat.lt_succ_self _⟩
    · rename_i hno
      refine ⟨Nat.le_refl _, fun row hrow => ?_⟩
      rw [hrow] at hno
      exact absurd rfl hno
  -- the timer at the head of the mailbox is that of the row it meets
  have hown : ∀ row, g.table.lookup m.key = some row →
      ∀ k t, m = .expire k t → t = row.timer := by
    rintro row hrow k t rfl
    have hmeets := h.own k row hrow
    rw [hm] at hmeets
    exact own_of_meets hmeets
  have hresolved : ∀ timer, (∀ row, g.table.lookup m.key = some row → row.timer ≠ timer) →
      outcomesIn timer g'.history = outcomesIn timer g.history := by
    intro timer hne
    have hu : u.resolved = (g.table.lookup m.key).bind fun row =>
      m.outcome?.map fun o => (row.timer, o) := ht.resolved
    rw [hhistory, outcomesIn_snoc, hu]
    cases hrow : g.table.lookup m.key with
    | none => exact List.append_nil _
    | some row =>
      have hother := hne row hrow
      cases m.outcome? <;> simp [hother]
  have hending : ∀ row, g.table.lookup m.key = some row →
      ∃ e, m.ending? m.key row.timer = some e ∧
        outcomesIn row.timer g'.history = outcomesIn row.timer g.history ++ e.outcomes := by
    intro row hrow
    obtain ⟨e, he, hout⟩ := ending?_self (hown row hrow)
    have hu : u.resolved = (g.table.lookup m.key).bind fun row =>
      m.outcome?.map fun o => (row.timer, o) := ht.resolved
    refine ⟨e, he, ?_⟩
    rw [hhistory, outcomesIn_snoc, hu, hrow, hout]
    cases m.outcome? <;> simp
  refine ⟨?_, ?_, ?_, ?_, ?_, ?_, ?_, ?_, ?_⟩
  · intro key row after hbefore
    rcases registeredBefore_snoc hhistory hbefore with ⟨-, hu, -⟩ | ⟨after', -, hold⟩
    · rw [hreg] at hu
      rw [(hrow? row hu).1]
      exact hnext.2 row hu
    · exact Nat.lt_of_lt_of_le (h.fresh key row after' hold) hnext.1
  · intro key row after key' row' after' hbefore hbefore' he
    rcases registeredBefore_snoc hhistory hbefore with ⟨-, hu, hk⟩ | ⟨a, -, hold⟩ <;>
      rcases registeredBefore_snoc hhistory hbefore' with ⟨-, hu', hk'⟩ | ⟨a', -, hold'⟩
    · exact ⟨hk.symm.trans hk', Option.some.inj (hu.symm.trans hu')⟩
    · have hlt := h.fresh key' row' a' hold'
      rw [hreg] at hu
      rw [← he, (hrow? row hu).1] at hlt
      exact absurd hlt (Nat.lt_irrefl _)
    · have hlt := h.fresh key row a hold
      rw [hreg] at hu'
      rw [he, (hrow? row' hu').1] at hlt
      exact absurd hlt (Nat.lt_irrefl _)
    · exact h.distinct key row a key' row' a' hold hold' he
  · intro timer hle
    rw [hresolved timer, h.silent timer (Nat.le_trans hnext.1 hle)]
    rintro row hrow rfl
    obtain ⟨after, hbefore⟩ := h.noted m.key row hrow
    exact Nat.lt_irrefl _ (Nat.lt_of_lt_of_le (h.fresh m.key row after hbefore)
      (Nat.le_trans hnext.1 hle))
  · intro key row hrow
    rw [hlookup] at hrow
    split at hrow
    · rename_i hk
      have hu : u.registered = some row := hreg.trans hrow
      exact ⟨[], g.history, u, hhistory, hu, by rw [ht.msg, hk]⟩
    · obtain ⟨after, hbefore⟩ := h.noted key row hrow
      exact ⟨after ++ [u], hbefore.snoc hhistory⟩
  · intro key row after hbefore
    rcases registeredBefore_snoc hhistory hbefore with ⟨rfl, hu, hk⟩ | ⟨after', rfl, hold⟩
    · -- the row that the message made
      rw [hreg] at hu
      have htimer := (hrow? row hu).1
      refine .inl ⟨rfl, ?_, ?_⟩
      · rw [hresolved row.timer, h.silent row.timer (Nat.le_of_eq htimer.symm)]
        intro old hrow he
        obtain ⟨after, hbefore'⟩ := h.noted m.key old hrow
        have hlt := h.fresh m.key old after hbefore'
        rw [he, htimer] at hlt
        exact Nat.lt_irrefl _ hlt
      · rw [hlookup, if_pos (by rw [← hk, ht.msg]), hu]
    · have hnotNew : m.row? g.next ≠ some row := by
        intro hu
        have hlt := h.fresh key row after' hold
        rw [(hrow? row hu).1] at hlt
        exact Nat.lt_irrefl _ hlt
      rcases h.stage key row after' hold with ⟨hnone, hout, hrow⟩ | ⟨e, hfirst, hout, hgone⟩
      · by_cases hk : key = m.key
        · subst hk
          obtain ⟨e, he, hout'⟩ := hending row hrow
          refine .inr ⟨e, ?_, ?_, ?_⟩
          · rw [firstEnding_snoc, hnone, ht.msg, he]
            rfl
          · rw [hout', hout]
            rfl
          · rw [hlookup, if_pos rfl]
            exact hnotNew
        · refine .inl ⟨?_, ?_, ?_⟩
          · rw [firstEnding_snoc, hnone, ht.msg, ending?_of_ne hk]
            rfl
          · rw [hresolved row.timer, hout]
            intro other hother he
            obtain ⟨after, hbefore'⟩ := h.noted m.key other hother
            exact hk (h.distinct _ _ _ _ _ _ hbefore' hold he).1.symm
          · rw [hlookup, if_neg hk]
            exact hrow
      · refine .inr ⟨e, ?_, ?_, ?_⟩
        · rw [firstEnding_snoc, hfirst]
          rfl
        · rw [hresolved row.timer, hout]
          intro other hother he
          obtain ⟨after, hbefore'⟩ := h.noted m.key other hother
          obtain ⟨rfl, rfl⟩ := h.distinct _ _ _ _ _ _ hbefore' hold he
          exact hgone hother
        · rw [hlookup]
          split
          · exact hnotNew
          · exact hgone
  · intro t key hrun
    rw [htimers] at hrun
    rw [hlookup]
    rcases hrun with ⟨hold, hkeep⟩ | ⟨row, hrow, rfl, rfl⟩
    · obtain ⟨row, hrow, rfl⟩ := h.running t key hold
      by_cases hk : key = m.key
      · subst hk
        rcases hkeep with hexp | hne
        · -- its own timer has fired, so it does not run
          cases m with
          | expire k t' =>
            obtain rfl := hown row hrow k t' rfl
            have hsent := h.sent row.timer k (by rw [hm]; exact List.mem_cons_self)
            exact absurd hold hsent.2
          | _ => cases hexp
        · exact absurd rfl (hne row hrow)
      · rw [if_neg hk]
        exact ⟨row, hrow, rfl⟩
    · rw [if_pos rfl]
      exact ⟨row, hrow, (hrow? row hrow).1⟩
  · intro t key hmem
    rw [hbox] at hmem
    obtain ⟨hlt, hnot⟩ := h.sent t key (by rw [hm]; exact List.mem_cons_of_mem _ hmem)
    refine ⟨Nat.lt_of_lt_of_le hlt hnext.1, fun hrun => ?_⟩
    rcases (htimers t key).mp hrun with ⟨hold, -⟩ | ⟨row, -, rfl, -⟩
    · exact hnot hold
    · exact Nat.lt_irrefl _ hlt
  · intro key row hrow
    rw [hlookup] at hrow
    rw [hbox, htimers]
    split at hrow
    · rename_i hk
      exact .inl (.inr ⟨row, hrow, (hrow? row hrow).1, hk⟩)
    · rename_i hk
      rcases h.waiting key row hrow with hrun | hmem
      · refine .inl (.inl ⟨hrun, .inr fun other hother he => ?_⟩)
        obtain ⟨after, hbefore⟩ := h.noted m.key other hother
        obtain ⟨after', hbefore'⟩ := h.noted key row hrow
        exact hk (h.distinct _ _ _ _ _ _ hbefore hbefore' he).1.symm
      · rw [hm] at hmem
        rcases List.mem_cons.mp hmem with rfl | hrest
        · exact absurd rfl hk
        · exact .inr hrest
  · intro key row hrow
    rw [hlookup] at hrow
    rw [hbox]
    split at hrow
    · rename_i hk
      obtain ⟨-, k, entry, rfl⟩ := hrow? row hrow
      exact meetsStale_of_awaits _ (hk ▸ hok k entry rfl)
    · rename_i hk
      have hmeets := h.own key row hrow
      rw [hm] at hmeets
      refine meetsStale_tail hmeets ?_
      cases m with
      | expire k t => rfl
      | _ => exact decide_eq_false (Ne.symm hk)

theorem step {a : Act P} {g' : Guard P} (h : Inv g) (hok : Careful g a)
    (hs : step g a = some g') : Inv g' := by
  unfold PendingActionsGuard.step at hs
  cases a with
  | call c =>
    obtain rfl := Option.some.inj hs
    exact h.call c
  | fire timer key =>
    dsimp only at hs
    split at hs
    · rename_i hrun
      obtain rfl := Option.some.inj hs
      exact h.fire hrun
    · cases hs
  | take alive =>
    dsimp only at hs
    split at hs
    · rename_i m rest hm
      obtain rfl := Option.some.inj hs
      obtain ⟨u, ht⟩ := took_receive alive m { g with mailbox := rest }
      refine h.take hm ?_ ht
      rintro key entry rfl
      exact hok key entry rest hm
    · cases hs

end Inv

/-- **Pending actions are resolved exactly once and on their own terms**, in every run in
which none is registered while an `:expire` for its key waits to meet it. -/
theorem resolvedOnce_of_careful {g : Guard P} (h : Reaches step Careful start g) : Correct g :=
  (h.invariant Inv.start fun _ _ _ (hinv : Inv _) hok hs => hinv.step hok hs).correct

/-! ## An old timer -/

instance (g : Guard P) (a : Act P) : Decidable (Careful g a) := by
  cases a with
  | take alive =>
    unfold Careful
    cases g.mailbox with
    | nil => exact isTrue fun _ _ _ h => by cases h
    | cons m rest =>
      cases m with
      | register k e =>
        refine decidable_of_iff (awaitsExpire k rest = false) ⟨?_, fun h => h k e rest rfl⟩
        rintro h key entry r ⟨⟩
        exact h
      | _ => exact isTrue fun _ _ _ h => by cases h
  | _ => exact isTrue trivial

/-- An operator's chat. -/
def devChat : Key := ⟨"ou_alice", "oc_dev"⟩

/-- The end of the session that is told. -/
def endSession (session : Nat) : Entry Nat := ⟨"end_session", session, some 1⟩

/-- An action that is confirmed, and one that expires. -/
def confirmedThenExpired : List (Act Nat) :=
  [.call (.register devChat (endSession 1)), .take fun _ => true,
    .call (.intercept devChat " Confirm"), .take fun _ => true,
    .call (.register devChat (endSession 2)), .take fun _ => true,
    .fire 1 devChat, .take fun _ => true]

/-- The timer of the first action fires before the second one is registered. -/
def expiredByOld : List (Act Nat) :=
  [.call (.register devChat (endSession 1)), .take fun _ => true,
    .call (.register devChat (endSession 2)), .fire 0 devChat, .take fun _ => true,
    .take fun _ => true]

theorem resolvedOnce_confirmedThenExpired :
    ∃ g : Guard Nat, (outcomesIn 0 g.history, outcomesIn 1 g.history) =
      ([.confirmed], [.expired]) ∧ Correct g := by
  have hrun : (exec step Careful (start : Guard Nat) confirmedThenExpired).map
      (fun g => (outcomesIn 0 g.history, outcomesIn 1 g.history)) =
      some ([.confirmed], [.expired]) := by decide +kernel
  obtain ⟨g, hg, hout⟩ := Option.map_eq_some_iff.mp hrun
  exact ⟨g, hout, resolvedOnce_of_careful (.of_exec hg)⟩

/-- **The second action is expired by the timer of the first.** -/
theorem not_resolvedOnce_expiredByOld :
    ¬∀ (P : Type) (g : Guard P), Reaches step anyStep start g → Correct g := by
  intro h
  have hrun : (exec step anyStep (start : Guard Nat) expiredByOld).map
      (fun g => (g.history.drop 1, outcomesIn 1 g.history)) =
      some ([⟨.register devChat (endSession 2), some ⟨endSession 2, 1⟩, none, [], some .ok⟩,
        ⟨.expire devChat 0, none, some (1, .expired), [⟨1, "end_session", .expired, 2⟩], none⟩],
        [.expired]) := by decide +kernel
  obtain ⟨g, hg, he⟩ := Option.map_eq_some_iff.mp hrun
  obtain ⟨hhistory, hout⟩ := Prod.mk.inj he
  have hreg : RegisteredBefore g devChat ⟨endSession 2, 1⟩ [⟨.expire devChat 0, none,
      some (1, .expired), [⟨1, "end_session", .expired, 2⟩], none⟩] := by
    refine ⟨g.history.take 1, ⟨.register devChat (endSession 2), some ⟨endSession 2, 1⟩, none, [],
      some .ok⟩, ?_, rfl, rfl⟩
    rw [← hhistory, List.take_append_drop]
  have hnone := (h Nat g (.of_exec hg)).resolved _ _ _ hreg
  rw [hout] at hnone
  exact absurd hnone (by decide)

end PendingActionsGuard
end Esr
