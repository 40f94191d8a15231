import Esr.ChatRouting
import Mathlib.Logic.Function.Basic

/-! # Sessions created for inbound messages

The Feishu adapters look up the session of a message's chat.  With a session they
hand the message to its chat proxy, or detach a dead one and answer with an error.
Without one, and with the chat bound to a workspace, they broadcast
`:new_chat_thread` to the Router, which creates a session for each such message, in
turn and without looking again, and then hands the message to the current session
of the chat.

A message goes through the adapter and the Router in phases; a step is one lookup,
one send or one request to the routing registry.  What the creation does inside is
left to it: it spawns a session, with or without a chat proxy, or fails, or takes
the Router down.
-/
namespace Esr
namespace AutoCreate
open ChatRouting

/-- What a chat is told: how to register, or that its session is dead or was never
complete. -/
inductive Answer where
  | guide
  | sessionDead
  | sessionIncomplete
  deriving DecidableEq

/-- Where a message is: in an adapter up to `passed`, in the Router's mailbox, and
then in the Router. -/
inductive Phase where
  | absent
  | arrived
  | found (sid : String)
  | holding (sid : String)
  | sending (sid : String)
  | dead (sid : String) (a : Answer)
  | detached (a : Answer)
  | unbound
  | passed
  | queued
  | creating
  | created (sid : String)
  | registered
  | redelivering (sid : String)
  | resending (sid : String)
  | done
  deriving DecidableEq

/-- The chat proxy of a session, as the role index has it: no row, or the row of a
process that is alive or dead. -/
inductive Proxy where
  | missing
  | alive
  | dead
  deriving DecidableEq

/-- What `UnboundChatGuard.check/3` answers. -/
inductive Guard where
  | emit
  | rateLimited
  | passthrough
  deriving DecidableEq

/-- Messages have numbers.  The last six fields are what the runs are about: the
sessions there have been and those created for a message, the messages that
triggered a creation or arrived during one, the sessions that were attached to a
chat, and the messages delivered and answered. -/
structure State where
  next : Nat
  keyOf : Nat → Key
  phase : Nat → Phase
  routerUp : Bool
  handling : Option Nat
  mailbox : List Nat
  table : Table
  proxies : String → Proxy
  sids : List String
  auto : List String
  due : Nat → Bool
  ever : List (Key × String)
  delivered : List (Nat × String)
  answered : List (Nat × Answer)

inductive Act where
  | inbound (key : Key)
  | advance (m : Nat)
  | guard (m : Nat) (outcome : Guard)
  | take
  | spawned (sid : String) (proxy : Bool)
  | createFails
  | crash
  | restart
  | createSync (key : Key) (sid : String) (proxy : Bool)
  | proxyDies (sid : String)
  | proxyGone (sid : String)

namespace State

/-- The messages at the Router. -/
def atRouter (s : State) : List Nat := s.handling.toList ++ s.mailbox

/-- A session is being created for the chat, or will be. -/
def inCreation (s : State) (key : Key) : Bool := s.atRouter.any fun m => s.keyOf m = key

/-- The message goes on at `ph`. -/
def go (s : State) (m : Nat) (ph : Phase) : State :=
  { s with phase := Function.update s.phase m ph }

/-- `send(fcp_pid, {:feishu_inbound, envelope})`, and the handling is over. -/
def send (s : State) (m : Nat) (sid : String) : State :=
  { s.go m .done with
    delivered := if s.proxies sid = .alive then (m, sid) :: s.delivered else s.delivered }

/-- The chat is told, and the handling is over. -/
def answer (s : State) (m : Nat) (a : Answer) : State :=
  { s.go m .done with answered := (m, a) :: s.answered }

/-- The Router is done with the message it handles. -/
def free (s : State) : State := { s with handling := none }

/-- `current_session/2` of the adapter. -/
def look (s : State) (m : Nat) : State :=
  match current s.table (s.keyOf m) with
  | some sid => s.go m (.found sid)
  | none => s.go m .unbound

/-- `current_session/2` of the Router, which drops the message without a session. -/
def redeliver (s : State) (m : Nat) : State :=
  match current s.table (s.keyOf m) with
  | some sid => s.go m (.redelivering sid)
  | none => s.free.go m .done

/-- `attach_session/3`. -/
def attach (s : State) (key : Key) (sid : String) : State :=
  { s with table := attachSession s.table key sid, ever := (key, sid) :: s.ever }

/-- A session is spawned, and its chat proxy if its pipeline has one. -/
def spawn (s : State) (sid : String) (proxy : Bool) : State :=
  { s with
    sids := sid :: s.sids
    proxies := Function.update s.proxies sid (if proxy then .alive else .missing) }

/-- The Router, idle, takes its next message and begins `do_create`. -/
def take (s : State) : Option State :=
  match s.handling, s.mailbox with
  | none, m :: rest => some ({ s with handling := some m, mailbox := rest }.go m .creating)
  | _, _ => none

/-- `do_create` has spawned the session. -/
def spawned (s : State) (sid : String) (proxy : Bool) : Option State :=
  match s.handling with
  | some m =>
    if s.phase m = .creating ∧ sid ∉ s.sids then some ((s.spawn sid proxy).go m (.created sid))
    else none
  | none => none

/-- `do_create` answers `{:error, reason}`, and the Router drops the message. -/
def createFails (s : State) : Option State :=
  match s.handling with
  | some m => if s.phase m = .creating then some (s.free.go m .done) else none
  | none => none

/-- The Router is down, with what it had. -/
def crash (s : State) : State :=
  { s with
    routerUp := false
    handling := none
    mailbox := []
    phase := fun m => if m ∈ s.atRouter then .done else s.phase m }

end State

variable (order : MapSetOrder) (adapters : String → Bool)

/-- The next step of a message that is at a phase from which it goes on by itself:
`do_handle_upstream_inbound` with `cleanup_and_reply`, then `handle_info` of the
Router after the creation, with `redeliver_triggering_envelope`. -/
def advance (s : State) (m : Nat) : Phase → Option State
  | .arrived => some (s.look m)
  | .found sid =>
    some (s.go m (if s.proxies sid = .missing then .dead sid .sessionIncomplete else .holding sid))
  | .holding sid =>
    some (s.go m (if s.proxies sid = .alive then .sending sid else .dead sid .sessionDead))
  | .sending sid => some (s.send m sid)
  | .dead sid a =>
    some ({ s with table := detachSession order s.table (s.keyOf m) sid }.go m (.detached a))
  | .detached a => some (if adapters (s.keyOf m).2 then s.answer m a else s.go m .done)
  | .passed =>
    some (if s.routerUp then
      { s.go m .queued with
        mailbox := s.mailbox ++ [m]
        due := Function.update s.due m true }
      else { s.go m .done with due := Function.update s.due m true })
  | .created sid =>
    some ({ s.attach (s.keyOf m) sid with auto := sid :: s.auto }.go m .registered)
  | .registered => some (s.redeliver m)
  | .redelivering sid =>
    some (if s.proxies sid = .missing then s.free.go m .done else s.go m (.resending sid))
  | .resending sid => some (s.free.send m sid)
  | .absent | .unbound | .queued | .creating | .done => none

/-- The steps of the adapters, the Router and their surroundings. -/
def step (s : State) : Act → Option State
  | .inbound key =>
    some { s with
      next := s.next + 1
      keyOf := Function.update s.keyOf s.next key
      phase := Function.update s.phase s.next .arrived
      due := Function.update s.due s.next (s.inCreation key) }
  | .advance m => advance order adapters s m (s.phase m)
  | .guard m outcome =>
    if s.phase m = .unbound then
      some (match outcome with
        | .emit => s.answer m .guide
        | .rateLimited => s.go m .done
        | .passthrough => s.go m .passed)
    else none
  | .take => s.take
  | .spawned sid proxy => s.spawned sid proxy
  | .createFails => s.createFails
  | .crash => some s.crash
  | .restart => some { s with routerUp := true }
  | .createSync key sid proxy =>
    if s.handling = none ∧ sid ∉ s.sids then some ((s.spawn sid proxy).attach key sid) else none
  | .proxyDies sid =>
    if s.proxies sid = .alive then
      some { s with proxies := Function.update s.proxies sid .dead }
    else none
  | .proxyGone sid =>
    if s.proxies sid = .dead then
      some { s with proxies := Function.update s.proxies sid .missing }
    else none

/-- No session, no message. -/
def start : State where
  next := 0
  keyOf := fun _ => ("", "")
  phase := fun _ => .absent
  routerUp := true
  handling := none
  mailbox := []
  table := Ets.empty
  proxies := fun _ => .missing
  sids := []
  auto := []
  due := fun _ => false
  ever := []
  delivered := []
  answered := []

/-! ## What it should do -/

/-- How often the message was delivered or answered. -/
def State.outcomes (s : State) (m : Nat) : Nat :=
  (s.delivered.map Prod.fst ++ s.answered.map Prod.fst).count m

/-- **One session for a chat, and no message lost**: two sessions created for
messages are never attached to one chat; a message is delivered or answered at most
once, exactly once when it triggered a creation or arrived during one and its
handling is over; and it is delivered to a session of its chat. -/
structure Correct (s : State) : Prop where
  single : ∀ key slot, s.table.lookup key = some slot →
    ∀ sid ∈ slot.attached, ∀ sid' ∈ slot.attached, sid ∈ s.auto → sid' ∈ s.auto → sid = sid'
  once : ∀ m, s.outcomes m ≤ 1
  settled : ∀ m, s.due m = true → s.phase m = .done → s.outcomes m = 1
  toChat : ∀ m sid, (m, sid) ∈ s.delivered → (s.keyOf m, sid) ∈ s.ever

/-- No session created for a message is attached to the chat. -/
def State.vacant (s : State) (key : Key) : Bool :=
  match s.table.lookup key with
  | some slot => decide (∀ sid ∈ s.auto, sid ∉ slot.attached)
  | none => true

/-- The next step of the message at this phase does not go wrong. -/
def Phase.Careful (s : State) (m : Nat) : Phase → Prop
  | .sending sid => s.due m = true → s.proxies sid = .alive
  | .detached _ => s.due m = true → adapters (s.keyOf m).2 = true
  | .passed => s.routerUp = true ∧ s.inCreation (s.keyOf m) = false ∧
      s.vacant (s.keyOf m) = true
  | .registered => current s.table (s.keyOf m) ≠ none
  | .redelivering sid => s.proxies sid ≠ .missing
  | .resending sid => s.proxies sid = .alive
  | _ => True

/-- A creation is asked for only when none is under way for the chat and none of
its sessions was created so; creations succeed, with a chat proxy that gets the
message; and what arrives meanwhile meets a live proxy or gets its answer. -/
def Careful (s : State) : Act → Prop
  | .advance m => (s.phase m).Careful adapters s m
  | .guard m .rateLimited => s.due m = false
  | .createFails => False
  | .crash => s.atRouter = []
  | _ => True

section Tables
variable {order} {t : Table} {key key' : Key} {sid sid' : String} {slot : Slot}

theorem attached_attachSession (h : (attachSession t key sid).lookup key' = some slot)
    (hmem : sid' ∈ slot.attached) :
    (key' = key ∧ sid' = sid) ∨ ∃ old, t.lookup key' = some old ∧ sid' ∈ old.attached := by
  unfold attachSession at h
  rw [Ets.lookup_insert] at h
  split at h
  · rename_i hkey
    obtain rfl := Option.some.inj h
    rcases Finset.mem_insert.mp hmem with rfl | hold
    · exact Or.inl ⟨hkey, rfl⟩
    · cases hrow : t.lookup key with
      | none =>
        rw [hrow] at hold
        exact absurd hold (Finset.notMem_empty _)
      | some old =>
        rw [hrow] at hold
        exact Or.inr ⟨old, hkey ▸ hrow, hold⟩
  · exact Or.inr ⟨slot, h, hmem⟩

theorem attached_detachSession (h : (detachSession order t key sid).lookup key' = some slot)
    (hmem : sid' ∈ slot.attached) : ∃ old, t.lookup key' = some old ∧ sid' ∈ old.attached := by
  unfold detachSession at h
  split at h
  · rename_i old hrow
    rw [Ets.lookup_insert] at h
    split at h
    · rename_i hkey
      obtain rfl := Option.some.inj h
      exact ⟨old, hkey ▸ hrow, Finset.mem_of_mem_erase hmem⟩
    · exact ⟨slot, h, hmem⟩
  · exact ⟨slot, h, hmem⟩

theorem attached_of_current (ht : RoutedTable t) (h : current t key = some sid) :
    ∃ slot, t.lookup key = some slot ∧ sid ∈ slot.attached := by
  obtain ⟨slot, hrow, hc⟩ := Option.bind_eq_some_iff.mp h
  have hrouted := ht key slot hrow
  rw [Slot.Routed, hc] at hrouted
  exact ⟨slot, hrow, hrouted⟩

end Tables

/-! ## Deliveries -/

/-- The session that the message is being handed to. -/
def Phase.target : Phase → Option String
  | .found sid | .holding sid | .sending sid | .redelivering sid | .resending sid => some sid
  | _ => none

/-- The Router handles the message. -/
def Phase.atWork : Phase → Bool
  | .creating | .created _ | .registered | .redelivering _ | .resending _ => true
  | _ => false

/-- A message under way has no outcome yet, one that is done at most one, and exactly
one if it was due; and it is handed to a session that was attached to its chat. -/
structure Handled (s : State) : Prop where
  fresh : ∀ m, s.next ≤ m → s.phase m = .absent ∧ s.due m = false
  underway : ∀ m, s.phase m ≠ .done → s.outcomes m = 0
  once : ∀ m, s.outcomes m ≤ 1
  settled : ∀ m, s.due m = true → s.phase m = .done → s.outcomes m = 1
  routed : RoutedTable s.table
  known : ∀ key slot, s.table.lookup key = some slot → ∀ sid ∈ slot.attached,
    (key, sid) ∈ s.ever
  target : ∀ m sid, (s.phase m).target = some sid → (s.keyOf m, sid) ∈ s.ever
  toChat : ∀ m sid, (m, sid) ∈ s.delivered → (s.keyOf m, sid) ∈ s.ever

theorem Handled.ever_of_current (h : Handled s) {key : Key} {sid : String}
    (hc : current s.table key = some sid) : (key, sid) ∈ s.ever := by
  obtain ⟨slot, hrow, hin⟩ := attached_of_current h.routed hc
  exact h.known key slot hrow sid hin

theorem handled_start : Handled start where
  fresh _ _ := ⟨rfl, rfl⟩
  underway _ _ := rfl
  once _ := Nat.zero_le _
  settled _ h := nomatch h
  routed _ _ h := nomatch h
  known _ _ h := nomatch h
  target _ _ h := nomatch h
  toChat _ _ h := nomatch h

/-- The Router's mailbox and the message it handles, against the phases. -/
structure Queue (s : State) : Prop where
  nodup : s.atRouter.Nodup
  mailbox : ∀ m, m ∈ s.mailbox ↔ s.phase m = .queued
  handling : ∀ m, s.handling = some m ↔ (s.phase m).atWork = true

section Handled
variable {s s' : State} {m : Nat} {ph : Phase} {key : Key} {sid : String}

theorem take_eq_some (h : s.take = some s') : ∃ m rest, s.handling = none ∧
    s.mailbox = m :: rest ∧ s' = { s with handling := some m, mailbox := rest }.go m .creating := by
  unfold State.take at h
  split at h
  · rename_i m rest hnone hmail
    exact ⟨m, rest, hnone, hmail, (Option.some.inj h).symm⟩
  · cases h

theorem spawned_eq_some {proxy : Bool} (h : s.spawned sid proxy = some s') :
    ∃ m, s.handling = some m ∧ s.phase m = .creating ∧ sid ∉ s.sids ∧
      s' = (s.spawn sid proxy).go m (.created sid) := by
  unfold State.spawned at h
  split at h
  · rename_i m hm
    obtain ⟨⟨hph, hnew⟩, he⟩ := Option.ite_none_right_eq_some.mp h
    exact ⟨m, hm, hph, hnew, (Option.some.inj he).symm⟩
  · cases h

theorem Handled.arrived (h : Handled s) (hm : s.phase m ≠ .absent) : m < s.next := by
  by_contra hge
  exact hm (h.fresh m (Nat.le_of_not_lt hge)).1

theorem phase_go (s : State) (m m' : Nat) (ph : Phase) :
    (s.go m ph).phase m' = if m' = m then ph else s.phase m' := Function.update_apply ..

theorem forall_phase_go {P : Nat → Phase → Prop} (hm : P m ph)
    (h : ∀ m', m' ≠ m → P m' (s.phase m')) (m' : Nat) : P m' ((s.go m ph).phase m') := by
  rw [phase_go]
  split
  · rename_i he
    exact he ▸ hm
  · rename_i hne
    exact h m' hne

theorem Handled.ne_of_le (h : Handled s) (hm : s.phase m ≠ .absent) {m' : Nat} (hge : s.next ≤ m') :
    m' ≠ m := by
  have hlt := h.arrived hm
  omega

theorem Handled.go (h : Handled s) (hm : s.phase m ≠ .absent ∧ s.phase m ≠ .done)
    (hph : ph ≠ .done) (htarget : ∀ sid, ph.target = some sid → (s.keyOf m, sid) ∈ s.ever) :
    Handled (s.go m ph) := by
  refine { h with fresh := ?_, underway := ?_, settled := ?_, target := ?_ }
  · intro m' hge
    rw [phase_go, if_neg (h.ne_of_le hm.1 hge)]
    exact h.fresh m' hge
  · exact forall_phase_go (P := fun m' p => p ≠ .done → s.outcomes m' = 0)
      (fun _ => h.underway m hm.2) fun m' _ => h.underway m'
  · exact forall_phase_go (P := fun m' p => s.due m' = true → p = .done → s.outcomes m' = 1)
      (fun _ hdone => absurd hdone hph) fun m' _ => h.settled m'
  · exact forall_phase_go (P := fun m' p => ∀ sid, p.target = some sid → (s.keyOf m', sid) ∈ s.ever)
      htarget fun m' _ => h.target m'

theorem Handled.finish (h : Handled s) (hm : s.phase m ≠ .absent ∧ s.phase m ≠ .done)
    {delivered : List (Nat × String)} {answered : List (Nat × Answer)} {n : Nat}
    (hcount : ∀ m', (delivered.map Prod.fst ++ answered.map Prod.fst).count m' =
      s.outcomes m' + if m' = m then n else 0)
    (hn : n ≤ 1) (hdue : s.due m = true → n = 1)
    (hnew : ∀ m' sid, (m', sid) ∈ delivered → (s.keyOf m', sid) ∈ s.ever) :
    Handled { s.go m .done with delivered := delivered, answered := answered } := by
  have hzero := h.underway m hm.2
  constructor
  · intro m' hge
    rw [show _ = _ from phase_go s m m' .done, if_neg (h.ne_of_le hm.1 hge)]
    exact h.fresh m' hge
  · refine forall_phase_go (P := fun m' p => p ≠ .done →
      (delivered.map Prod.fst ++ answered.map Prod.fst).count m' = 0) (absurd rfl) fun m' hne hlive => ?_
    rw [hcount m', if_neg hne, h.underway m' hlive]
  · intro m'
    have hone := h.once m'
    show (delivered.map Prod.fst ++ answered.map Prod.fst).count m' ≤ 1
    rw [hcount m']
    split
    · rename_i he
      rw [he, hzero]
      omega
    · omega
  · refine forall_phase_go (P := fun m' p => s.due m' = true → p = .done →
      (delivered.map Prod.fst ++ answered.map Prod.fst).count m' = 1) (fun hd _ => ?_)
      fun m' hne hd hdone => ?_
    · rw [hcount m, if_pos rfl, hzero, hdue hd]
    · rw [hcount m', if_neg hne, h.settled m' hd hdone]
  · exact h.routed
  · exact h.known
  · exact forall_phase_go (P := fun m' p => ∀ sid, p.target = some sid → (s.keyOf m', sid) ∈ s.ever)
      nofun fun m' _ => h.target m'
  · exact hnew

theorem Handled.drop (h : Handled s) (hm : s.phase m ≠ .absent ∧ s.phase m ≠ .done)
    (hdue : s.due m = false) : Handled (s.go m .done) := by
  refine h.finish (n := 0) hm ?_ (Nat.zero_le _) ?_ h.toChat
  · intro m'
    rw [ite_self, Nat.add_zero]
    rfl
  · intro hd
    rw [hdue] at hd
    cases hd

theorem Handled.answer (h : Handled s) (hm : s.phase m ≠ .absent ∧ s.phase m ≠ .done)
    (a : Answer) : Handled (s.answer m a) := by
  refine h.finish (n := 1) hm ?_ (Nat.le_refl _) (fun _ => rfl) h.toChat
  intro m'
  show (s.delivered.map Prod.fst ++ m :: s.answered.map Prod.fst).count m' = _
  rw [List.count_append, List.count_cons, State.outcomes, List.count_append]
  by_cases he : m' = m
  · simp [he]
    omega
  · simp [he, Ne.symm he]

theorem Handled.send (h : Handled s) (hm : s.phase m ≠ .absent ∧ s.phase m ≠ .done)
    (htarget : (s.keyOf m, sid) ∈ s.ever)
    (hdue : s.due m = true → s.proxies sid = .alive) : Handled (s.send m sid) := by
  by_cases halive : s.proxies sid = .alive
  · rw [State.send, if_pos halive]
    refine h.finish (n := 1) hm ?_ (Nat.le_refl _) (fun _ => rfl) ?_
    · intro m'
      show (m :: s.delivered.map Prod.fst ++ s.answered.map Prod.fst).count m' = _
      rw [List.cons_append, List.count_cons, State.outcomes]
      by_cases he : m' = m
      · simp [he]
      · simp [he, Ne.symm he]
    · intro m' sid' hin
      rcases List.mem_cons.mp hin with he | hold
      · obtain ⟨rfl, rfl⟩ := Prod.mk.inj he
        exact htarget
      · exact h.toChat m' sid' hold
  · rw [State.send, if_neg halive]
    refine h.drop hm ?_
    by_contra hd
    exact halive (hdue (eq_true_of_ne_false hd))

theorem Handled.attach (h : Handled s) (key : Key) (sid : String) : Handled (s.attach key sid) := by
  refine { h with routed := ?_, known := ?_, target := ?_, toChat := ?_ }
  · exact h.routed.attachSession key sid
  · intro key' slot hrow sid' hmem
    rcases attached_attachSession hrow hmem with ⟨rfl, rfl⟩ | ⟨old, hold, hin⟩
    · exact List.mem_cons_self
    · exact List.mem_cons_of_mem _ (h.known key' old hold sid' hin)
  · exact fun m' sid' ht => List.mem_cons_of_mem _ (h.target m' sid' ht)
  · exact fun m' sid' hin => List.mem_cons_of_mem _ (h.toChat m' sid' hin)

theorem Handled.broadcast (h : Handled s) (hm : s.phase m = .passed) :
    Handled { s.go m .queued with
      mailbox := s.mailbox ++ [m]
      due := Function.update s.due m true } := by
  have hgo : Handled (s.go m .queued) := h.go (by simp [hm]) nofun nofun
  have hdue : ∀ m', m' ≠ m → Function.update s.due m true m' = s.due m' :=
    fun m' hne => Function.update_of_ne hne ..
  refine { hgo with fresh := ?_, settled := ?_ }
  · intro m' hge
    have hne : m' ≠ m := h.ne_of_le (by simp [hm]) hge
    exact ⟨(hgo.fresh m' hge).1, (hdue m' hne).trans (hgo.fresh m' hge).2⟩
  · refine forall_phase_go (P := fun m' p => Function.update s.due m true m' = true → p = .done →
      s.outcomes m' = 1) nofun fun m' hne hd => ?_
    rw [hdue m' hne] at hd
    exact h.settled m' hd

variable {order adapters}

theorem Handled.advance (h : Handled s) (hph : s.phase m = ph) (hok : ph.Careful adapters s m)
    (hs : AutoCreate.advance order adapters s m ph = some s') : Handled s' := by
  cases ph with
  | absent | unbound | queued | creating | done => cases hs
  | arrived =>
    obtain rfl := Option.some.inj hs
    unfold State.look
    split
    · rename_i sid hc
      refine h.go (by simp [hph]) nofun ?_
      intro sid' ht
      obtain rfl := Option.some.inj ht
      exact h.ever_of_current hc
    · exact h.go (by simp [hph]) nofun nofun
  | found sid =>
    obtain rfl := Option.some.inj hs
    have htarget := h.target m sid (by rw [hph]; rfl)
    split
    · exact h.go (by simp [hph]) nofun nofun
    · exact h.go (by simp [hph]) nofun (fun _ ht => Option.some.inj ht ▸ htarget)
  | holding sid =>
    obtain rfl := Option.some.inj hs
    have htarget := h.target m sid (by rw [hph]; rfl)
    split
    · exact h.go (by simp [hph]) nofun (fun _ ht => Option.some.inj ht ▸ htarget)
    · exact h.go (by simp [hph]) nofun nofun
  | sending sid =>
    obtain rfl := Option.some.inj hs
    exact h.send (by simp [hph]) (h.target m sid (by rw [hph]; rfl)) hok
  | dead sid a =>
    obtain rfl := Option.some.inj hs
    have hdetached : Handled { s with table := detachSession order s.table (s.keyOf m) sid } := by
      refine ⟨h.fresh, h.underway, h.once, h.settled, h.routed.detachSession _ _, ?_, h.target,
        h.toChat⟩
      intro key slot hrow sid' hmem
      obtain ⟨old, hold, hin⟩ := attached_detachSession hrow hmem
      exact h.known key old hold sid' hin
    have hne : s.phase m ≠ .absent ∧ s.phase m ≠ .done := by simp [hph]
    exact hdetached.go hne nofun nofun
  | detached a =>
    obtain rfl := Option.some.inj hs
    split
    · exact h.answer (by simp [hph]) a
    · rename_i hno
      refine h.drop (by simp [hph]) ?_
      by_contra hd
      exact hno (hok (eq_true_of_ne_false hd))
  | passed =>
    obtain rfl := Option.some.inj hs
    rw [if_pos hok.1]
    exact h.broadcast hph
  | created sid =>
    obtain rfl := Option.some.inj hs
    obtain ⟨g₁, g₂, g₃, g₄, g₅, g₆, g₇, g₈⟩ := h.attach (s.keyOf m) sid
    have hauto : Handled { s.attach (s.keyOf m) sid with auto := sid :: s.auto } :=
      ⟨g₁, g₂, g₃, g₄, g₅, g₆, g₇, g₈⟩
    have hne : s.phase m ≠ .absent ∧ s.phase m ≠ .done := by simp [hph]
    exact hauto.go hne nofun nofun
  | registered =>
    obtain rfl := Option.some.inj hs
    unfold State.redeliver
    split
    · rename_i sid hc
      refine h.go (by simp [hph]) nofun ?_
      intro sid' ht
      obtain rfl := Option.some.inj ht
      exact h.ever_of_current hc
    · rename_i hc
      exact absurd hc hok
  | redelivering sid =>
    obtain rfl := Option.some.inj hs
    rw [if_neg hok]
    have htarget := h.target m sid (by rw [hph]; rfl)
    exact h.go (by simp [hph]) nofun (fun _ ht => Option.some.inj ht ▸ htarget)
  | resending sid =>
    obtain rfl := Option.some.inj hs
    have hfree : Handled s.free :=
      ⟨h.fresh, h.underway, h.once, h.settled, h.routed, h.known, h.target, h.toChat⟩
    have hne : s.phase m ≠ .absent ∧ s.phase m ≠ .done := by simp [hph]
    exact hfree.send hne (h.target m sid (by rw [hph]; rfl)) (fun _ => hok)

theorem Handled.inbound (h : Handled s) (key : Key) (due : Bool) :
    Handled { s with
      next := s.next + 1
      keyOf := Function.update s.keyOf s.next key
      phase := Function.update s.phase s.next .arrived
      due := Function.update s.due s.next due } := by
  have habsent := (h.fresh s.next (Nat.le_refl _)).1
  have hzero : s.outcomes s.next = 0 := h.underway s.next (by simp [habsent])
  have hkey : ∀ m, m ≠ s.next → Function.update s.keyOf s.next key m = s.keyOf m :=
    fun m hne => Function.update_of_ne hne ..
  constructor
  · intro m hge
    have hne : m ≠ s.next := by
      have hle : s.next + 1 ≤ m := hge
      omega
    show Function.update s.phase s.next .arrived m = .absent ∧
      Function.update s.due s.next due m = false
    rw [Function.update_of_ne hne, Function.update_of_ne hne]
    exact h.fresh m (Nat.le_of_succ_le hge)
  · intro m hlive
    by_cases hne : m = s.next
    · exact hne ▸ hzero
    · exact h.underway m (by simpa [hne] using hlive)
  · exact h.once
  · intro m hdue hdone
    by_cases hne : m = s.next
    · simp [hne] at hdone
    · exact h.settled m (by simpa [hne] using hdue) (by simpa [hne] using hdone)
  · exact h.routed
  · exact h.known
  · intro m sid ht
    by_cases hne : m = s.next
    · subst hne
      simp [Phase.target] at ht
    · show (Function.update s.keyOf s.next key m, sid) ∈ s.ever
      rw [hkey m hne]
      exact h.target m sid (by simpa [hne] using ht)
  · intro m sid hin
    have hne : m ≠ s.next := by
      intro he
      have hpos : 0 < s.outcomes m := by
        refine List.count_pos_iff.mpr (List.mem_append_left _ ?_)
        exact List.mem_map.mpr ⟨(m, sid), hin, rfl⟩
      rw [he, hzero] at hpos
      omega
    show (Function.update s.keyOf s.next key m, sid) ∈ s.ever
    rw [hkey m hne]
    exact h.toChat m sid hin

theorem Handled.same (h : Handled s) (hnext : s'.next = s.next) (hkey : s'.keyOf = s.keyOf)
    (hphase : s'.phase = s.phase) (htable : s'.table = s.table) (hdue : s'.due = s.due)
    (hever : s'.ever = s.ever) (hdelivered : s'.delivered = s.delivered)
    (hanswered : s'.answered = s.answered) : Handled s' := by
  have houtcomes : s'.outcomes = s.outcomes := by
    funext m
    rw [State.outcomes, State.outcomes, hdelivered, hanswered]
  constructor
  · rw [hnext, hphase, hdue]
    exact h.fresh
  · rw [hphase, houtcomes]
    exact h.underway
  · rw [houtcomes]
    exact h.once
  · rw [hdue, hphase, houtcomes]
    exact h.settled
  · rw [htable]
    exact h.routed
  · rw [htable, hever]
    exact h.known
  · rw [hphase, hkey, hever]
    exact h.target
  · rw [hdelivered, hkey, hever]
    exact h.toChat

theorem Handled.step (h : Handled s) (hq : Queue s) {a : Act} (hok : Careful adapters s a)
    (hs : AutoCreate.step order adapters s a = some s') : Handled s' := by
  cases a with
  | inbound key =>
    obtain rfl := Option.some.inj hs
    exact h.inbound key _
  | advance m => exact h.advance rfl hok hs
  | guard m outcome =>
    obtain ⟨hm, rfl⟩ := guard_eq_some.mp hs
    cases outcome with
    | emit => exact h.answer (by simp [hm]) .guide
    | rateLimited => exact h.drop (by simp [hm]) hok
    | passthrough => exact h.go (by simp [hm]) nofun nofun
  | take =>
    obtain ⟨m, rest, _, hmail, rfl⟩ := take_eq_some hs
    have hm : s.phase m = .queued := (hq.mailbox m).mp (hmail ▸ List.mem_cons_self)
    have hne : s.phase m ≠ .absent ∧ s.phase m ≠ .done := by simp [hm]
    have htaken : Handled { s with handling := some m, mailbox := rest } :=
      h.same rfl rfl rfl rfl rfl rfl rfl rfl
    exact htaken.go hne nofun nofun
  | spawned sid proxy =>
    obtain ⟨m, _, hm, _, rfl⟩ := spawned_eq_some hs
    have hne : s.phase m ≠ .absent ∧ s.phase m ≠ .done := by simp [hm]
    have hspawn : Handled (s.spawn sid proxy) := h.same rfl rfl rfl rfl rfl rfl rfl rfl
    exact hspawn.go hne nofun nofun
  | createFails => exact hok.elim
  | crash =>
    obtain rfl := Option.some.inj hs
    refine h.same rfl rfl ?_ rfl rfl rfl rfl rfl
    funext m
    exact if_neg (by rw [show s.atRouter = [] from hok]; exact List.not_mem_nil)
  | restart =>
    obtain rfl := Option.some.inj hs
    exact h.same rfl rfl rfl rfl rfl rfl rfl rfl
  | createSync key sid proxy =>
    obtain ⟨_, rfl⟩ := guard_eq_some.mp hs
    have hspawn : Handled (s.spawn sid proxy) := h.same rfl rfl rfl rfl rfl rfl rfl rfl
    exact hspawn.attach key sid
  | proxyDies sid =>
    obtain ⟨_, rfl⟩ := guard_eq_some.mp hs
    exact h.same rfl rfl rfl rfl rfl rfl rfl rfl
  | proxyGone sid =>
    obtain ⟨_, rfl⟩ := guard_eq_some.mp hs
    exact h.same rfl rfl rfl rfl rfl rfl rfl rfl

/-! ## The queue of the Router -/

theorem queue_start : Queue start where
  nodup := List.nodup_nil
  mailbox _ := ⟨nofun, nofun⟩
  handling _ := ⟨nofun, nofun⟩

theorem Queue.same (h : Queue s) (hphase : s'.phase = s.phase)
    (hhandling : s'.handling = s.handling)
    (hmailbox : s'.mailbox = s.mailbox) : Queue s' := by
  constructor
  · rw [State.atRouter, hhandling, hmailbox]
    exact h.nodup
  · rw [hmailbox, hphase]
    exact h.mailbox
  · rw [hhandling, hphase]
    exact h.handling

/-- The phase is that of a message at the Router. -/
def Phase.atRouter : Phase → Bool
  | .queued => true
  | ph => ph.atWork

theorem Phase.atRouter_of_atWork (h : ph.atWork = true) : ph.atRouter = true := by
  cases ph <;> first | rfl | cases h

theorem Queue.mem_atRouter (h : Queue s) : m ∈ s.atRouter ↔ (s.phase m).atRouter = true := by
  rw [State.atRouter, List.mem_append, Option.mem_toList, h.handling, h.mailbox]
  cases s.phase m <;> simp [Phase.atRouter, Phase.atWork]

theorem Queue.unmoved (h : Queue s) (hqueued : s.phase m = .queued ↔ ph = .queued)
    (hwork : (s.phase m).atWork = ph.atWork) : Queue (s.go m ph) where
  nodup := h.nodup
  mailbox := forall_phase_go (P := fun m' p => m' ∈ s.mailbox ↔ p = .queued)
    ((h.mailbox m).trans hqueued) fun m' _ => h.mailbox m'
  handling := forall_phase_go (P := fun m' p => s.handling = some m' ↔ p.atWork = true)
    (hwork ▸ h.handling m) fun m' _ => h.handling m'

theorem Queue.outside (h : Queue s) (hm : (s.phase m).atRouter = false)
    (hph : ph.atRouter = false) : Queue (s.go m ph) := by
  have hqueued : s.phase m ≠ .queued := by
    intro he
    rw [he] at hm
    cases hm
  have hwork : (s.phase m).atWork = false := by
    by_contra hw
    rw [Phase.atRouter_of_atWork (eq_true_of_ne_false hw)] at hm
    cases hm
  have hph_queued : ph ≠ .queued := by
    intro he
    rw [he] at hph
    cases hph
  have hph_work : ph.atWork = false := by
    by_contra hw
    rw [Phase.atRouter_of_atWork (eq_true_of_ne_false hw)] at hph
    cases hph
  exact h.unmoved (iff_of_false hqueued hph_queued) (by rw [hwork, hph_work])

theorem Queue.inside (h : Queue s) (hm : s.handling = some m) (hph : ph.atWork = true) :
    Queue (s.go m ph) := by
  have hwork := (h.handling m).mp hm
  refine h.unmoved (iff_of_false ?_ ?_) (by rw [hwork, hph])
  · intro hq
    rw [hq] at hwork
    cases hwork
  · rintro rfl
    cases hph

theorem Queue.leave (h : Queue s) (hm : s.handling = some m) : Queue (s.free.go m .done) := by
  have hwork := (h.handling m).mp hm
  have hnodup := h.nodup
  rw [State.atRouter, hm] at hnodup
  constructor
  · exact (List.nodup_cons.mp hnodup).2
  · refine forall_phase_go (P := fun m' p => m' ∈ s.mailbox ↔ p = .queued) ?_ fun m' _ => h.mailbox m'
    rw [h.mailbox]
    refine iff_of_false (fun hq => ?_) nofun
    rw [hq] at hwork
    cases hwork
  · refine forall_phase_go (P := fun m' p => none = some m' ↔ p.atWork = true)
      (iff_of_false nofun nofun) fun m' hne => iff_of_false nofun fun hw => ?_
    rw [(h.handling m').mpr hw, Option.some.injEq] at hm
    exact hne hm

theorem Queue.enqueue (h : Queue s) (hm : s.phase m = .passed) :
    Queue { s.go m .queued with mailbox := s.mailbox ++ [m] } := by
  have hout : m ∉ s.atRouter := by
    rw [h.mem_atRouter, hm]
    simp [Phase.atRouter, Phase.atWork]
  constructor
  · show (s.handling.toList ++ (s.mailbox ++ [m])).Nodup
    rw [← List.append_assoc]
    refine List.Nodup.append h.nodup (List.nodup_singleton m) ?_
    intro m' hin hin'
    rw [List.mem_singleton.mp hin'] at hin
    exact hout hin
  · refine forall_phase_go (P := fun m' p => m' ∈ s.mailbox ++ [m] ↔ p = .queued) (by simp)
      fun m' hne => ?_
    rw [List.mem_append, List.mem_singleton, or_iff_left hne, h.mailbox]
  · refine forall_phase_go (P := fun m' p => s.handling = some m' ↔ p.atWork = true) ?_
      fun m' _ => h.handling m'
    rw [h.handling, hm]
    rfl

theorem Queue.take (h : Queue s) {rest : List Nat} (hnone : s.handling = none)
    (hmail : s.mailbox = m :: rest) :
    Queue ({ s with handling := some m, mailbox := rest }.go m .creating) := by
  have hnodup := h.nodup
  rw [State.atRouter, hnone, hmail] at hnodup
  have hnot := (List.nodup_cons.mp hnodup).1
  constructor
  · exact hnodup
  · refine forall_phase_go (P := fun m' p => m' ∈ rest ↔ p = .queued) (iff_of_false hnot nofun)
      fun m' hne => ?_
    rw [← h.mailbox, hmail, List.mem_cons, or_iff_right hne]
  · refine forall_phase_go (P := fun m' p => some m = some m' ↔ p.atWork = true)
      (iff_of_true rfl rfl) fun m' hne => iff_of_false (fun he => hne (Option.some.inj he).symm) ?_
    intro hw
    rw [(h.handling m').mpr hw] at hnone
    cases hnone

theorem Queue.advance (h : Queue s) (hph : s.phase m = ph) (hok : ph.Careful adapters s m)
    (hs : AutoCreate.advance order adapters s m ph = some s') : Queue s' := by
  cases ph with
  | absent | unbound | queued | creating | done => cases hs
  | arrived =>
    obtain rfl := Option.some.inj hs
    unfold State.look
    split
    · exact h.outside (by rw [hph]; rfl) rfl
    · exact h.outside (by rw [hph]; rfl) rfl
  | found sid =>
    obtain rfl := Option.some.inj hs
    split
    · exact h.outside (by rw [hph]; rfl) rfl
    · exact h.outside (by rw [hph]; rfl) rfl
  | holding sid =>
    obtain rfl := Option.some.inj hs
    split
    · exact h.outside (by rw [hph]; rfl) rfl
    · exact h.outside (by rw [hph]; rfl) rfl
  | sending sid =>
    obtain rfl := Option.some.inj hs
    have hout : Queue (s.go m .done) := h.outside (by rw [hph]; rfl) rfl
    exact hout.same rfl rfl rfl
  | dead sid a =>
    obtain rfl := Option.some.inj hs
    have hout : Queue (s.go m (.detached a)) := h.outside (by rw [hph]; rfl) rfl
    exact hout.same rfl rfl rfl
  | detached a =>
    obtain rfl := Option.some.inj hs
    have hout : Queue (s.go m .done) := h.outside (by rw [hph]; rfl) rfl
    split
    · exact hout.same rfl rfl rfl
    · exact hout
  | passed =>
    obtain rfl := Option.some.inj hs
    rw [if_pos hok.1]
    exact (h.enqueue hph).same rfl rfl rfl
  | created sid =>
    obtain rfl := Option.some.inj hs
    have hin : Queue (s.go m .registered) := h.inside ((h.handling m).mpr (by rw [hph]; rfl)) rfl
    exact hin.same rfl rfl rfl
  | registered =>
    obtain rfl := Option.some.inj hs
    have hm := (h.handling m).mpr (by rw [hph]; rfl)
    unfold State.redeliver
    split
    · exact h.inside hm rfl
    · exact h.leave hm
  | redelivering sid =>
    obtain rfl := Option.some.inj hs
    have hm := (h.handling m).mpr (by rw [hph]; rfl)
    split
    · exact h.leave hm
    · exact h.inside hm rfl
  | resending sid =>
    obtain rfl := Option.some.inj hs
    have hm := (h.handling m).mpr (by rw [hph]; rfl)
    exact (h.leave hm).same rfl rfl rfl

theorem Queue.step (h : Queue s) (hh : Handled s) {a : Act} (hok : Careful adapters s a)
    (hs : AutoCreate.step order adapters s a = some s') : Queue s' := by
  cases a with
  | inbound key =>
    obtain rfl := Option.some.inj hs
    have hout : Queue (s.go s.next .arrived) :=
      h.outside (by rw [(hh.fresh s.next (Nat.le_refl _)).1]; rfl) rfl
    exact hout.same rfl rfl rfl
  | advance m => exact h.advance rfl hok hs
  | guard m outcome =>
    obtain ⟨hm, rfl⟩ := guard_eq_some.mp hs
    have hout : Queue (s.go m .done) := h.outside (by rw [hm]; rfl) rfl
    cases outcome with
    | emit => exact hout.same rfl rfl rfl
    | rateLimited => exact hout
    | passthrough => exact h.outside (by rw [hm]; rfl) rfl
  | take =>
    obtain ⟨m, rest, hnone, hmail, rfl⟩ := take_eq_some hs
    exact h.take hnone hmail
  | spawned sid proxy =>
    obtain ⟨m, hm, _, _, rfl⟩ := spawned_eq_some hs
    have hin : Queue (s.go m (.created sid)) := h.inside hm rfl
    exact hin.same rfl rfl rfl
  | createFails => exact hok.elim
  | crash =>
    obtain rfl := Option.some.inj hs
    have hempty : s.atRouter = [] := hok
    obtain ⟨hnone, hmail⟩ := List.append_eq_nil_iff.mp hempty
    refine h.same ?_ ?_ hmail.symm
    · funext m
      exact if_neg (by rw [hempty]; exact List.not_mem_nil)
    · exact (Option.toList_eq_nil_iff.mp hnone).symm
  | restart =>
    obtain rfl := Option.some.inj hs
    exact h.same rfl rfl rfl
  | createSync key sid proxy =>
    obtain ⟨_, rfl⟩ := guard_eq_some.mp hs
    exact h.same rfl rfl rfl
  | proxyDies sid =>
    obtain ⟨_, rfl⟩ := guard_eq_some.mp hs
    exact h.same rfl rfl rfl
  | proxyGone sid =>
    obtain ⟨_, rfl⟩ := guard_eq_some.mp hs
    exact h.same rfl rfl rfl

/-! ## One session for a chat -/

/-- The message still waits for its session. -/
def Phase.waits : Phase → Bool
  | .queued | .creating | .created _ => true
  | _ => false

/-- The messages at the Router are of different chats; while one waits, its chat has
no session created for a message; and what is spawned is new. -/
structure Single (s : State) : Prop where
  oneEach : ∀ m m', (s.phase m).atRouter = true → (s.phase m').atRouter = true →
    s.keyOf m = s.keyOf m' → m = m'
  vacant : ∀ m, (s.phase m).waits = true → s.vacant (s.keyOf m) = true
  created : ∀ m sid, s.phase m = .created sid → sid ∈ s.sids ∧ sid ∉ s.auto ∧
    ∀ key slot, s.table.lookup key = some slot → sid ∉ slot.attached
  known : ∀ key slot, s.table.lookup key = some slot → ∀ sid ∈ slot.attached, sid ∈ s.sids
  auto : ∀ sid ∈ s.auto, sid ∈ s.sids
  single : ∀ key slot, s.table.lookup key = some slot →
    ∀ sid ∈ slot.attached, ∀ sid' ∈ slot.attached, sid ∈ s.auto → sid' ∈ s.auto → sid = sid'

theorem single_start : Single start where
  oneEach _ _ h := nomatch h
  vacant _ h := nomatch h
  created _ _ h := nomatch h
  known _ _ h := nomatch h
  auto _ h := nomatch h
  single _ _ h := nomatch h

theorem vacant_iff : s.vacant key = true ↔
    ∀ slot, s.table.lookup key = some slot → ∀ sid ∈ slot.attached, sid ∉ s.auto := by
  unfold State.vacant
  cases hrow : s.table.lookup key with
  | none => simp
  | some slot =>
    rw [decide_eq_true_iff]
    constructor
    · intro h slot' he sid hin hauto
      obtain rfl := Option.some.inj he
      exact h sid hauto hin
    · intro h sid hauto hin
      exact h slot rfl sid hin hauto

theorem Single.same (h : Single s) (hkey : s'.keyOf = s.keyOf) (hphase : s'.phase = s.phase)
    (htable : s'.table = s.table) (hsids : s'.sids = s.sids) (hauto : s'.auto = s.auto) :
    Single s' := by
  have hvacant : s'.vacant = s.vacant := by
    funext key
    rw [State.vacant, State.vacant, htable, hauto]
  constructor
  · rw [hkey, hphase]
    exact h.oneEach
  · rw [hkey, hphase, hvacant]
    exact h.vacant
  · rw [hphase, hsids, hauto, htable]
    exact h.created
  · rw [htable, hsids]
    exact h.known
  · rw [hauto, hsids]
    exact h.auto
  · rw [htable, hauto]
    exact h.single

theorem atRouter_of_go (hrouter : ph.atRouter = true → (s.phase m).atRouter = true) :
    ∀ m', ((s.go m ph).phase m').atRouter = true → (s.phase m').atRouter = true :=
  forall_phase_go (P := fun m' p => p.atRouter = true → (s.phase m').atRouter = true) hrouter
    fun _ _ => id

theorem Single.go (h : Single s) (hrouter : ph.atRouter = true → (s.phase m).atRouter = true)
    (hwaits : ph.waits = true → (s.phase m).waits = true) (hph : ∀ sid, ph ≠ .created sid) :
    Single (s.go m ph) := by
  have hstays := atRouter_of_go hrouter
  refine { h with oneEach := ?_, vacant := ?_, created := ?_ }
  · intro m₁ m₂ h₁ h₂ hkey
    exact h.oneEach m₁ m₂ (hstays m₁ h₁) (hstays m₂ h₂) hkey
  · exact forall_phase_go (P := fun m' p => p.waits = true → s.vacant (s.keyOf m') = true)
      (fun hw => h.vacant m (hwaits hw)) fun m' _ => h.vacant m'
  · exact forall_phase_go (P := fun _ p => ∀ sid, p = .created sid → sid ∈ s.sids ∧ sid ∉ s.auto ∧
      ∀ key slot, s.table.lookup key = some slot → sid ∉ slot.attached)
      (fun sid he => absurd he (hph sid)) fun m' _ => h.created m'

theorem Single.detach (h : Single s) {t : Table} (hless : ∀ key slot, t.lookup key = some slot →
      ∀ sid ∈ slot.attached, ∃ old, s.table.lookup key = some old ∧ sid ∈ old.attached) :
    Single { s with table := t } := by
  constructor
  · exact h.oneEach
  · intro m hm
    refine vacant_iff.mpr ?_
    intro slot hrow sid hin
    obtain ⟨old, hold, hin'⟩ := hless _ slot hrow sid hin
    exact vacant_iff.mp (h.vacant m hm) old hold sid hin'
  · intro m sid hm
    obtain ⟨hsid, hauto, hnone⟩ := h.created m sid hm
    refine ⟨hsid, hauto, ?_⟩
    intro key slot hrow hin
    obtain ⟨old, hold, hin'⟩ := hless key slot hrow sid hin
    exact hnone key old hold hin'
  · intro key slot hrow sid hin
    obtain ⟨old, hold, hin'⟩ := hless key slot hrow sid hin
    exact h.known key old hold sid hin'
  · exact h.auto
  · intro key slot hrow sid hin sid' hin' ha ha'
    obtain ⟨old, hold, hold_in⟩ := hless key slot hrow sid hin
    obtain ⟨old', hold', hold_in'⟩ := hless key slot hrow sid' hin'
    obtain rfl := Option.some.inj (hold.symm.trans hold')
    exact h.single key old hold sid hold_in sid' hold_in' ha ha'

theorem Single.enqueue (h : Single s) (hq : Queue s) (hfree : s.inCreation (s.keyOf m) = false)
    (hvacant : s.vacant (s.keyOf m) = true) : Single (s.go m .queued) := by
  have hother : ∀ m', (s.phase m').atRouter = true → s.keyOf m' ≠ s.keyOf m := by
    intro m' hm' hkey
    have hin : s.inCreation (s.keyOf m) = true := by
      refine List.any_eq_true.mpr ⟨m', hq.mem_atRouter.mpr hm', ?_⟩
      exact decide_eq_true hkey
    rw [hfree] at hin
    cases hin
  refine { h with oneEach := ?_, vacant := ?_, created := ?_ }
  · intro m₁ m₂ h₁ h₂ hkey
    rw [phase_go] at h₁ h₂
    have hkey' : s.keyOf m₁ = s.keyOf m₂ := hkey
    split at h₁
    · rename_i he₁
      split at h₂
      · rename_i he₂
        rw [he₁, he₂]
      · exact absurd (hkey'.symm.trans (congrArg s.keyOf he₁)) (hother m₂ h₂)
    · split at h₂
      · rename_i he₂
        exact absurd (hkey'.trans (congrArg s.keyOf he₂)) (hother m₁ h₁)
      · exact h.oneEach m₁ m₂ h₁ h₂ hkey'
  · exact forall_phase_go (P := fun m' p => p.waits = true → s.vacant (s.keyOf m') = true)
      (fun _ => hvacant) fun m' _ => h.vacant m'
  · exact forall_phase_go (P := fun _ p => ∀ sid, p = .created sid → sid ∈ s.sids ∧ sid ∉ s.auto ∧
      ∀ key slot, s.table.lookup key = some slot → sid ∉ slot.attached) nofun fun m' _ => h.created m'

theorem Single.spawn (h : Single s) (sid : String) (proxy : Bool) : Single (s.spawn sid proxy) := by
  refine { h with created := ?_, known := ?_, auto := ?_ }
  · intro m sid' hm
    obtain ⟨hsid, hrest⟩ := h.created m sid' hm
    exact ⟨List.mem_cons_of_mem _ hsid, hrest⟩
  · exact fun key slot hrow sid' hin => List.mem_cons_of_mem _ (h.known key slot hrow sid' hin)
  · exact fun sid' ha => List.mem_cons_of_mem _ (h.auto sid' ha)

theorem Single.spawned (h : Single s) {proxy : Bool} (hm : s.phase m = .creating)
    (hnew : sid ∉ s.sids) : Single ((s.spawn sid proxy).go m (.created sid)) := by
  have hspawn := h.spawn sid proxy
  have hstays : ∀ m', ((s.go m (.created sid)).phase m').atRouter = true → _ :=
    atRouter_of_go fun _ => by rw [hm]; rfl
  refine { hspawn with oneEach := ?_, vacant := ?_, created := ?_ }
  · intro m₁ m₂ h₁ h₂ hkey
    exact h.oneEach m₁ m₂ (hstays m₁ h₁) (hstays m₂ h₂) hkey
  · exact forall_phase_go (P := fun m' p => p.waits = true → s.vacant (s.keyOf m') = true)
      (fun _ => h.vacant m (by rw [hm]; rfl)) fun m' _ => h.vacant m'
  · refine forall_phase_go (P := fun _ p => ∀ sid', p = .created sid' →
      sid' ∈ (s.spawn sid proxy).sids ∧ sid' ∉ s.auto ∧
        ∀ key slot, s.table.lookup key = some slot → sid' ∉ slot.attached) ?_
      fun m' _ => hspawn.created m'
    intro sid' he
    obtain rfl := Phase.created.inj he
    refine ⟨List.mem_cons_self, fun ha => hnew (h.auto sid ha), ?_⟩
    intro key slot hrow hin
    exact hnew (h.known key slot hrow sid hin)

theorem Single.attach (h : Single s) (hsid : sid ∈ s.sids) (hauto : sid ∉ s.auto)
    (hcreated : ∀ m, s.phase m ≠ .created sid) : Single (s.attach key sid) := by
  constructor
  · exact h.oneEach
  · intro m hm
    refine vacant_iff.mpr ?_
    intro slot hrow sid' hin
    rcases attached_attachSession hrow hin with ⟨_, rfl⟩ | ⟨old, hold, hin'⟩
    · exact hauto
    · exact vacant_iff.mp (h.vacant m hm) old hold sid' hin'
  · intro m sid' hm
    obtain ⟨hsid', hauto', hnone⟩ := h.created m sid' hm
    refine ⟨hsid', hauto', ?_⟩
    intro key' slot hrow hin
    rcases attached_attachSession hrow hin with ⟨_, rfl⟩ | ⟨old, hold, hin'⟩
    · exact hcreated m hm
    · exact hnone key' old hold hin'
  · intro key' slot hrow sid' hin
    rcases attached_attachSession hrow hin with ⟨_, rfl⟩ | ⟨old, hold, hin'⟩
    · exact hsid
    · exact h.known key' old hold sid' hin'
  · exact h.auto
  · intro key' slot hrow s₁ h₁ s₂ h₂ ha₁ ha₂
    rcases attached_attachSession hrow h₁ with ⟨_, rfl⟩ | ⟨old₁, hold₁, hin₁⟩
    · exact absurd ha₁ hauto
    · rcases attached_attachSession hrow h₂ with ⟨_, rfl⟩ | ⟨old₂, hold₂, hin₂⟩
      · exact absurd ha₂ hauto
      · obtain rfl := Option.some.inj (hold₁.symm.trans hold₂)
        exact h.single key' old₁ hold₁ s₁ hin₁ s₂ hin₂ ha₁ ha₂

theorem Single.register (h : Single s) (hq : Queue s) (hm : s.phase m = .created sid) :
    Single ({ s.attach (s.keyOf m) sid with auto := sid :: s.auto }.go m .registered) := by
  obtain ⟨hsid, hauto, hnone⟩ := h.created m sid hm
  have hfree := vacant_iff.mp (h.vacant m (by rw [hm]; rfl))
  have hstays : ∀ m', ((s.go m .registered).phase m').atRouter = true → _ :=
    atRouter_of_go fun _ => by rw [hm]; rfl
  constructor
  · intro m₁ m₂ h₁ h₂ hkey
    exact h.oneEach m₁ m₂ (hstays m₁ h₁) (hstays m₂ h₂) hkey
  · intro m' hm'
    have hm'' : ((s.go m .registered).phase m').waits = true := hm'
    rw [phase_go] at hm''
    split at hm''
    · cases hm''
    · rename_i hne
      have hrouter : (s.phase m').atRouter = true := by
        revert hm''
        cases s.phase m' <;> first | exact fun _ => rfl | exact fun hw => by cases hw
      refine vacant_iff.mpr ?_
      intro slot hrow sid' hin
      rcases attached_attachSession hrow hin with ⟨hkey, rfl⟩ | ⟨old, hold, hin'⟩
      · exact absurd (h.oneEach m' m hrouter (by rw [hm]; rfl) hkey) hne
      · intro ha
        rcases List.mem_cons.mp ha with rfl | ha
        · exact hnone _ old hold hin'
        · exact vacant_iff.mp (h.vacant m' hm'') old hold sid' hin' ha
  · intro m' sid' hm'
    have hm'' : (s.go m .registered).phase m' = .created sid' := hm'
    rw [phase_go] at hm''
    split at hm''
    · cases hm''
    · rename_i hne
      have hwork := (hq.handling m').mpr (by rw [hm'']; rfl)
      rw [(hq.handling m).mpr (by rw [hm]; rfl)] at hwork
      exact absurd (Option.some.inj hwork).symm hne
  · intro key slot hrow sid' hin
    rcases attached_attachSession hrow hin with ⟨_, rfl⟩ | ⟨old, hold, hin'⟩
    · exact hsid
    · exact h.known key old hold sid' hin'
  · intro sid' ha
    rcases List.mem_cons.mp ha with rfl | ha
    · exact hsid
    · exact h.auto sid' ha
  · intro key slot hrow s₁ h₁ s₂ h₂ ha₁ ha₂
    have hold_auto : ∀ s' key old, s.table.lookup key = some old → s' ∈ old.attached →
        s' ∈ sid :: s.auto → s' ∈ s.auto := by
      intro s' key old hold hin ha
      rcases List.mem_cons.mp ha with rfl | ha
      · exact absurd hin (hnone key old hold)
      · exact ha
    rcases attached_attachSession hrow h₁ with ⟨hkey, rfl⟩ | ⟨old₁, hold₁, hin₁⟩
    · rcases attached_attachSession hrow h₂ with ⟨_, rfl⟩ | ⟨old₂, hold₂, hin₂⟩
      · rfl
      · exact absurd (hold_auto s₂ key old₂ hold₂ hin₂ ha₂) (hfree old₂ (hkey ▸ hold₂) s₂ hin₂)
    · have ha₁' := hold_auto s₁ key old₁ hold₁ hin₁ ha₁
      rcases attached_attachSession hrow h₂ with ⟨hkey, rfl⟩ | ⟨old₂, hold₂, hin₂⟩
      · exact absurd ha₁' (hfree old₁ (hkey ▸ hold₁) s₁ hin₁)
      · obtain rfl := Option.some.inj (hold₁.symm.trans hold₂)
        exact h.single key old₁ hold₁ s₁ hin₁ s₂ hin₂ ha₁' (hold_auto s₂ key old₁ hold₂ hin₂ ha₂)

theorem Single.advance (h : Single s) (hq : Queue s) (hph : s.phase m = ph)
    (hok : ph.Careful adapters s m) (hs : AutoCreate.advance order adapters s m ph = some s') :
    Single s' := by
  cases ph with
  | absent | unbound | queued | creating | done => cases hs
  | arrived =>
    obtain rfl := Option.some.inj hs
    unfold State.look
    split
    · exact h.go nofun nofun nofun
    · exact h.go nofun nofun nofun
  | found sid =>
    obtain rfl := Option.some.inj hs
    split
    · exact h.go nofun nofun nofun
    · exact h.go nofun nofun nofun
  | holding sid =>
    obtain rfl := Option.some.inj hs
    split
    · exact h.go nofun nofun nofun
    · exact h.go nofun nofun nofun
  | sending sid =>
    obtain rfl := Option.some.inj hs
    have hgo : Single (s.go m .done) := h.go nofun nofun nofun
    exact hgo.same rfl rfl rfl rfl rfl
  | dead sid a =>
    obtain rfl := Option.some.inj hs
    have hdetach : Single { s with table := detachSession order s.table (s.keyOf m) sid } :=
      h.detach fun _ _ hrow _ hin => attached_detachSession hrow hin
    exact hdetach.go nofun nofun nofun
  | detached a =>
    obtain rfl := Option.some.inj hs
    have hgo : Single (s.go m .done) := h.go nofun nofun nofun
    split
    · exact hgo.same rfl rfl rfl rfl rfl
    · exact hgo
  | passed =>
    obtain rfl := Option.some.inj hs
    rw [if_pos hok.1]
    exact (h.enqueue hq hok.2.1 hok.2.2).same rfl rfl rfl rfl rfl
  | created sid =>
    obtain rfl := Option.some.inj hs
    exact h.register hq hph
  | registered =>
    obtain rfl := Option.some.inj hs
    have hfree : Single s.free := h.same rfl rfl rfl rfl rfl
    unfold State.redeliver
    split
    · exact h.go (fun _ => by rw [hph]; rfl) nofun nofun
    · exact hfree.go nofun nofun nofun
  | redelivering sid =>
    obtain rfl := Option.some.inj hs
    have hfree : Single s.free := h.same rfl rfl rfl rfl rfl
    split
    · exact hfree.go nofun nofun nofun
    · exact h.go (fun _ => by rw [hph]; rfl) nofun nofun
  | resending sid =>
    obtain rfl := Option.some.inj hs
    have hgo : Single (s.go m .done) := h.go nofun nofun nofun
    exact hgo.same rfl rfl rfl rfl rfl

theorem Single.step (h : Single s) (hq : Queue s) (hh : Handled s) {a : Act}
    (hok : Careful adapters s a) (hs : AutoCreate.step order adapters s a = some s') :
    Single s' := by
  cases a with
  | inbound key =>
    obtain rfl := Option.some.inj hs
    have habsent := (hh.fresh s.next (Nat.le_refl _)).1
    have hgo : Single (s.go s.next .arrived) := h.go nofun nofun nofun
    have hne : ∀ m, ((s.go s.next .arrived).phase m).atRouter = true → m ≠ s.next := by
      intro m hm he
      rw [phase_go, if_pos he] at hm
      cases hm
    have hkey : ∀ m, m ≠ s.next → Function.update s.keyOf s.next key m = s.keyOf m :=
      fun m hm => Function.update_of_ne hm ..
    refine { hgo with oneEach := ?_, vacant := ?_ }
    · intro m₁ m₂ h₁ h₂ he
      have hsame : Function.update s.keyOf s.next key m₁ = Function.update s.keyOf s.next key m₂ :=
        he
      rw [hkey m₁ (hne m₁ h₁), hkey m₂ (hne m₂ h₂)] at hsame
      exact hgo.oneEach m₁ m₂ h₁ h₂ hsame
    · intro m hm
      have hne' : m ≠ s.next := by
        intro he
        have hp : ((s.go s.next .arrived).phase m).waits = true := hm
        rw [phase_go, if_pos he] at hp
        cases hp
      show s.vacant (Function.update s.keyOf s.next key m) = true
      rw [hkey m hne']
      exact hgo.vacant m hm
  | advance m => exact h.advance hq rfl hok hs
  | guard m outcome =>
    obtain ⟨hm, rfl⟩ := guard_eq_some.mp hs
    have hgo : Single (s.go m .done) := h.go nofun nofun nofun
    cases outcome with
    | emit => exact hgo.same rfl rfl rfl rfl rfl
    | rateLimited => exact hgo
    | passthrough => exact h.go nofun nofun nofun
  | take =>
    obtain ⟨m, rest, _, hmail, rfl⟩ := take_eq_some hs
    have hm : s.phase m = .queued := (hq.mailbox m).mp (hmail ▸ List.mem_cons_self)
    have hgo : Single (s.go m .creating) :=
      h.go (fun _ => by rw [hm]; rfl) (fun _ => by rw [hm]; rfl) nofun
    exact hgo.same rfl rfl rfl rfl rfl
  | spawned sid proxy =>
    obtain ⟨m, _, hm, hnew, rfl⟩ := spawned_eq_some hs
    exact h.spawned hm hnew
  | createFails => exact hok.elim
  | crash =>
    obtain rfl := Option.some.inj hs
    refine h.same rfl ?_ rfl rfl rfl
    funext m
    exact if_neg (by rw [show s.atRouter = [] from hok]; exact List.not_mem_nil)
  | restart =>
    obtain rfl := Option.some.inj hs
    exact h.same rfl rfl rfl rfl rfl
  | createSync key sid proxy =>
    obtain ⟨⟨hidle, hnew⟩, rfl⟩ := guard_eq_some.mp hs
    refine (h.spawn sid proxy).attach List.mem_cons_self (fun ha => hnew (h.auto sid ha)) ?_
    intro m hm
    have hwork := (hq.handling m).mpr (by rw [show s.phase m = _ from hm]; rfl)
    rw [hidle] at hwork
    cases hwork
  | proxyDies sid =>
    obtain ⟨_, rfl⟩ := guard_eq_some.mp hs
    exact h.same rfl rfl rfl rfl rfl
  | proxyGone sid =>
    obtain ⟨_, rfl⟩ := guard_eq_some.mp hs
    exact h.same rfl rfl rfl rfl rfl

/-! ## Runs -/

instance : ∀ (ph : Phase) (s : State) (m : Nat), Decidable (ph.Careful adapters s m)
  | .sending sid, s, m => inferInstanceAs (Decidable (s.due m = true → s.proxies sid = .alive))
  | .detached _, s, m =>
    inferInstanceAs (Decidable (s.due m = true → adapters (s.keyOf m).2 = true))
  | .passed, s, m => inferInstanceAs (Decidable (s.routerUp = true ∧
      s.inCreation (s.keyOf m) = false ∧ s.vacant (s.keyOf m) = true))
  | .registered, s, m => inferInstanceAs (Decidable (current s.table (s.keyOf m) ≠ none))
  | .redelivering sid, s, _ => inferInstanceAs (Decidable (s.proxies sid ≠ .missing))
  | .resending sid, s, _ => inferInstanceAs (Decidable (s.proxies sid = .alive))
  | .absent, _, _ | .arrived, _, _ | .found _, _, _ | .holding _, _, _ | .dead _ _, _, _
  | .unbound, _, _ | .queued, _, _ | .creating, _, _ | .created _, _, _ | .done, _, _ =>
    inferInstanceAs (Decidable True)

instance (s : State) : ∀ a, Decidable (Careful adapters s a)
  | .advance m => inferInstanceAs (Decidable ((s.phase m).Careful adapters s m))
  | .guard m .rateLimited => inferInstanceAs (Decidable (s.due m = false))
  | .createFails => inferInstanceAs (Decidable False)
  | .crash => inferInstanceAs (Decidable (s.atRouter = []))
  | .guard _ .emit | .guard _ .passthrough | .inbound _ | .take | .spawned _ _ | .restart
  | .createSync _ _ _ | .proxyDies _ | .proxyGone _ => inferInstanceAs (Decidable True)

/-- Every run of careful steps creates one session for a chat and loses no message. -/
theorem correct_of_careful (h : Reaches (step order adapters) (Careful adapters) start s) :
    Correct s := by
  obtain ⟨as, hr⟩ := h
  have hinv : Handled s ∧ Queue s ∧ Single s := by
    induction hr with
    | nil => exact ⟨handled_start, queue_start, single_start⟩
    | snoc _ hok hs ih =>
      obtain ⟨hh, hq, hsingle⟩ := ih
      exact ⟨hh.step hq hok hs, hq.step hh hok hs, hsingle.step hq hh hok hs⟩
  obtain ⟨hh, _, hsingle⟩ := hinv
  refine { hh with single := ?_ }
  exact hsingle.single

end Handled

/-- A message creates the session of its chat and is delivered to it; another one,
which arrived meanwhile, is delivered after it. -/
def oneAfterTheOther : List Act :=
  [.inbound ("oc_dev", "cli_app"), .advance 0, .guard 0 .passthrough, .advance 0, .take,
    .inbound ("oc_dev", "cli_app"), .spawned "s1" true, .advance 0, .advance 0, .advance 0,
    .advance 0, .advance 1, .advance 1, .advance 1, .advance 1]

theorem correct_oneAfterTheOther :
    ∃ s, Correct s ∧ s.due 1 = true ∧ s.delivered = [(1, "s1"), (0, "s1")] := by
  have hrun : (exec (step sortedOrder fun _ => true) (Careful fun _ => true) start
      oneAfterTheOther).map (fun s => (s.due 1, s.delivered)) =
      some (true, [(1, "s1"), (0, "s1")]) := by decide +kernel
  obtain ⟨s, hs, he⟩ := Option.map_eq_some_iff.mp hrun
  obtain ⟨hdue, hdelivered⟩ := Prod.mk.inj he
  exact ⟨s, correct_of_careful (Reaches.of_exec hs), hdue, hdelivered⟩

/-- Two messages of a chat are looked up before the Router takes the first of them. -/
def bothUnbound : List Act :=
  [.inbound ("oc_dev", "cli_app"), .inbound ("oc_dev", "cli_app"), .advance 0, .advance 1,
    .guard 0 .passthrough, .guard 1 .passthrough, .advance 0, .advance 1, .take,
    .spawned "s1" true, .advance 0, .advance 0, .advance 0, .advance 0, .take,
    .spawned "s2" true, .advance 1]

/-- **The Router does not look again**: it creates a session for each of the two. -/
theorem not_correct_bothUnbound :
    ¬∀ (order : MapSetOrder) (adapters : String → Bool) (s : State),
      Reaches (step order adapters) anyStep start s → Correct s := by
  intro h
  have hrun : (exec (step sortedOrder fun _ => true) anyStep start bothUnbound).map
      (fun s => ((s.table.lookup ("oc_dev", "cli_app")).map Slot.attached, s.auto)) =
      some (some {"s1", "s2"}, ["s2", "s1"]) := by decide +kernel
  obtain ⟨s, hs, he⟩ := Option.map_eq_some_iff.mp hrun
  obtain ⟨hrow, hauto⟩ := Prod.mk.inj he
  obtain ⟨slot, hslot, hattached⟩ := Option.map_eq_some_iff.mp hrow
  have hsame := (h _ _ s (Reaches.of_exec hs)).single _ slot hslot "s1" (by rw [hattached]; decide)
    "s2" (by rw [hattached]; decide) (by rw [hauto]; decide) (by rw [hauto]; decide)
  exact absurd hsame (by decide)

end AutoCreate
end Esr
