import Mathlib.Data.List.Perm.Basic
import Esr.EntityRuns

/-! # Pausing and resuming the actor server

While the server is paused it holds the events it takes, up to a limit, and drops
the ones beyond.  A resume sends the held events to the server itself, in arrival
order, which puts them at the end of the mailbox: behind every event that is already
there, and behind one that comes in between.

So the order of arrival is kept in every run in which no resume finds held events
while another event waits in the mailbox, and none arrives before the last held event
has been sent again (`Alone`).  Nothing is ever lost or handled twice, and an event
is dropped only when it is taken while the limit is reached.
-/
namespace Esr
namespace EntityServer
open Yaml

namespace Taken

/-- The event, if the server was not paused: it is handled now. -/
def handled (t : Taken) : Option Entries := if t.state.paused then none else t.msg.event?

/-- The event, if the server was paused with its queue at the limit: it is dropped. -/
def dropped (t : Taken) : Option Entries :=
  if t.state.paused ∧ t.state.pendingEvents.length ≥ pauseQueueLimit then t.msg.event? else none

end Taken

namespace Node

/-- The events handled, in order. -/
def handled (n : Node) : List Entries := n.history.filterMap Taken.handled

/-- The events dropped, in order. -/
def dropped (n : Node) : List Entries := n.history.filterMap Taken.dropped

/-- The state of the server, or the one it raised in. -/
def lastState (n : Node) : Option State :=
  match n.server with
  | some s => some s
  | none => n.history.getLast?.map Taken.state

/-- The events held, in arrival order. -/
def held (n : Node) : List Entries :=
  match n.lastState with
  | some s => s.pendingEvents.reverse
  | none => []

/-- The events in the mailbox. -/
def queued (n : Node) : List Entries := n.mailbox.filterMap Msg.event?

/-- The events not yet handled, in the order in which they will be. -/
def waiting (n : Node) : List Entries := n.held ++ n.queued ++ n.resending

end Node

/-- The inbound sequence is preserved: the events handled and those waiting are, in
this order, events of the sequence that arrived, and with the dropped ones they are
all of them, each once. -/
structure Preserved (n : Node) : Prop where
  inOrder : (n.handled ++ n.waiting).Sublist n.arrived
  eachOnce : (n.handled ++ n.waiting ++ n.dropped).Perm n.arrived

/-- The message is a resume. -/
def Msg.isResume : Msg → Bool
  | .call .resume => true
  | _ => false

/-- No event overtakes held ones: a resume that finds held events finds no other
event in the mailbox, and no event arrives while they are being sent again. -/
def Alone (n : Node) : Act → Prop
  | .arrive m => m.event? = none ∨ n.resending = []
  | .take _ => n.mailbox.head?.any Msg.isResume = true → n.held = [] ∨ n.queued = []
  | _ => True

/-! ## One message -/

/-- What a pause is about. -/
def State.inbox (s : State) : Bool × List Entries := (s.paused, s.pendingEvents)

/-- The message leaves the queue of held events alone, and sends none again. -/
structure LeavesInbox (s : State) (o : Outcome) : Prop where
  keeps : o.Keeps State.inbox s
  quiet : o.effects.filterMap Effect.resent? = []

theorem leavesInbox_of_sends {s : State} {o : Outcome} {kinds : List Kind}
    (hkeeps : o.Keeps State.inbox s) (hsends : o.Sends kinds) (hk : Kind.resent ∉ kinds) :
    LeavesInbox s o := by
  refine ⟨hkeeps, List.filterMap_eq_nil_iff.mpr fun e he => ?_⟩
  cases e with
  | sendSelf envelope => exact absurd (hsends _ he) hk
  | _ => rfl

theorem handleEvent_leavesInbox (rt : Runtime) (ans : Answers) (s : State) (envelope : Entries) :
    LeavesInbox s (handleEvent rt ans s envelope) :=
  leavesInbox_of_sends (handleEvent_keeps rt ans s (fun _ _ _ _ _ _ => rfl) envelope)
    (handleEvent_sends rt ans s envelope) (by decide)

/-- A message that is no call and no event. -/
def Msg.isOther : Msg → Bool
  | .call _ | .inboundEvent _ => false
  | _ => true

theorem handle_leavesInbox (rt : Runtime) (ans : Answers) (s : State) {m : Msg}
    (hm : m.isOther = true) : LeavesInbox s (handle rt ans s m) := by
  cases m with
  | call c => cases hm
  | inboundEvent envelope => cases hm
  | toolInvoke reqId tool args replyPid principalId =>
    exact leavesInbox_of_sends
      (handleToolInvoke_keeps rt ans s (fun _ _ _ _ => rfl) reqId tool args replyPid principalId)
      (handleToolInvoke_sends rt ans s reqId tool args replyPid principalId) (by decide)
  | directiveAck id payload =>
    exact leavesInbox_of_sends (handleDirectiveAck_keeps s (fun _ _ _ => rfl) id payload)
      (handleDirectiveAck_sends s id payload) (by decide)
  | directiveDeadline id =>
    have hc := handleDirectiveDeadline_concluded s id
    exact leavesInbox_of_sends (hc.keeps fun _ _ _ => rfl) hc.sends (by decide)
  | exit =>
    exact leavesInbox_of_sends (Outcome.keeps_some _ rfl) (Outcome.sends_nil _) List.not_mem_nil
  | handlerReply envelope =>
    exact leavesInbox_of_sends Outcome.keeps_raised (Outcome.sends_nil _) List.not_mem_nil

/-! ## Taking a message -/

section
variable {rt : Runtime} {ans : Answers} {n : Node} {s : State} {m : Msg} {rest : List Msg}

theorem handled_take :
    (n.take rt ans s m rest).handled = n.handled ++ (takenIn rt ans s m).handled.toList := by
  show (n.history ++ [takenIn rt ans s m]).filterMap Taken.handled = _
  rw [List.filterMap_append]
  cases h : (takenIn rt ans s m).handled <;> simp [h, Node.handled]

theorem dropped_take :
    (n.take rt ans s m rest).dropped = n.dropped ++ (takenIn rt ans s m).dropped.toList := by
  show (n.history ++ [takenIn rt ans s m]).filterMap Taken.dropped = _
  rw [List.filterMap_append]
  cases h : (takenIn rt ans s m).dropped <;> simp [h, Node.dropped]

theorem queued_cons (hm : n.mailbox = m :: rest) :
    n.queued = m.event?.toList ++ rest.filterMap Msg.event? := by
  unfold Node.queued
  rw [hm]
  cases h : m.event? <;> simp [h]

theorem held_of_server (hs : n.server = some s) : n.held = s.pendingEvents.reverse := by
  unfold Node.held Node.lastState
  rw [hs]

theorem held_take_of_leavesInbox (h : LeavesInbox s (handle rt ans s m)) :
    (n.take rt ans s m rest).held = s.pendingEvents.reverse := by
  cases hnext : (handle rt ans s m).next with
  | none =>
    have hserver : (n.take rt ans s m rest).server = none := hnext
    unfold Node.held Node.lastState
    rw [hserver, show (n.take rt ans s m rest).history = n.history ++ [takenIn rt ans s m] from rfl,
      List.getLast?_concat]
    rfl
  | some s' =>
    have hserver : (n.take rt ans s m rest).server = some s' := hnext
    rw [held_of_server hserver, show s'.pendingEvents = s.pendingEvents from
      congrArg Prod.snd (h.keeps s' hnext)]

theorem handleCall_held (s : State) {c : Call} (hc : c ≠ .resume) :
    ∃ es s', handleCall s c = ⟨es, some s'⟩ ∧ s'.pendingEvents = s.pendingEvents ∧
      es.filterMap Effect.resent? = [] := by
  cases c with
  | resume => exact absurd rfl hc
  | _ => exact ⟨_, _, rfl, rfl, rfl⟩

theorem resent_resume (s : State) :
    (handleCall s .resume).effects.filterMap Effect.resent? = s.pendingEvents.reverse := by
  have hmap : ∀ l : List Entries, (l.map Effect.sendSelf).filterMap Effect.resent? = l := by
    intro l
    rw [List.filterMap_map]
    exact List.filterMap_some
  show (s.pendingEvents.reverse.map Effect.sendSelf ++
    [Effect.reply (.str "ok")]).filterMap Effect.resent? = _
  rw [List.filterMap_append, hmap]
  exact List.append_nil _

end

/-- Between two messages: what arrived is preserved, and a server that is not paused
holds nothing. -/
structure PauseInv (n : Node) : Prop where
  preserved : Preserved n
  resumed : ∀ s, n.server = some s → s.paused = false → s.pendingEvents = []

theorem Preserved.same {n n' : Node} (h : Preserved n) (harrived : n'.arrived = n.arrived)
    (hseq : n'.handled ++ n'.waiting = n.handled ++ n.waiting)
    (hdropped : n'.dropped = n.dropped) : Preserved n' := by
  refine ⟨?_, ?_⟩
  · rw [hseq, harrived]
    exact h.inOrder
  · rw [hseq, hdropped, harrived]
    exact h.eachOnce

theorem Preserved.drop {n n' : Node} (h : Preserved n) (harrived : n'.arrived = n.arrived)
    {before after : List Entries} {envelope : Entries}
    (hseq : n.handled ++ n.waiting = before ++ envelope :: after)
    (hseq' : n'.handled ++ n'.waiting = before ++ after)
    (hdropped : n'.dropped = n.dropped ++ [envelope]) : Preserved n' := by
  have hsub : (before ++ after).Sublist (before ++ envelope :: after) :=
    (List.Sublist.refl before).append (List.sublist_cons_self envelope after)
  have hperm : (before ++ after ++ (n.dropped ++ [envelope])).Perm
      (before ++ envelope :: after ++ n.dropped) := by
    rw [← List.append_assoc]
    refine (List.perm_append_singleton envelope _).trans ?_
    rw [List.append_assoc, List.append_assoc, List.cons_append]
    exact List.perm_middle.symm
  refine ⟨?_, ?_⟩
  · rw [hseq', harrived]
    rw [← hseq] at hsub
    exact hsub.trans h.inOrder
  · rw [hseq', hdropped, harrived]
    rw [← hseq] at hperm
    exact hperm.trans h.eachOnce

section
variable {rt : Runtime} {ans : Answers} {n : Node} {s : State} {m : Msg} {rest : List Msg}

theorem waiting_of_server (hs : n.server = some s) (hr : n.resending = [])
    (hm : n.mailbox = m :: rest) :
    n.waiting = s.pendingEvents.reverse ++ m.event?.toList ++ rest.filterMap Msg.event? := by
  unfold Node.waiting
  rw [held_of_server hs, queued_cons hm, hr, List.append_nil, List.append_assoc]

theorem waiting_take (hheld : (n.take rt ans s m rest).held = s.pendingEvents.reverse)
    (hquiet : (handle rt ans s m).effects.filterMap Effect.resent? = []) :
    (n.take rt ans s m rest).waiting =
      s.pendingEvents.reverse ++ rest.filterMap Msg.event? := by
  unfold Node.waiting
  rw [hheld, show (n.take rt ans s m rest).resending = [] from hquiet, List.append_nil]
  rfl

theorem Preserved.take_of_no_event (h : Preserved n) (hs : n.server = some s)
    (hr : n.resending = []) (hm : n.mailbox = m :: rest) (he : m.event? = none)
    (hwait : (n.take rt ans s m rest).waiting =
      s.pendingEvents.reverse ++ rest.filterMap Msg.event?) :
    Preserved (n.take rt ans s m rest) := by
  have hhandled : (takenIn rt ans s m).handled = none := by
    rw [Taken.handled, show (takenIn rt ans s m).msg = m from rfl, he, ite_self]
  have hdropped : (takenIn rt ans s m).dropped = none := by
    rw [Taken.dropped, show (takenIn rt ans s m).msg = m from rfl, he, ite_self]
  refine h.same rfl ?_ ?_
  · rw [handled_take, hhandled, hwait, waiting_of_server hs hr hm, he]
    simp
  · rw [dropped_take, hdropped]
    exact List.append_nil _

theorem PauseInv.take_other (h : PauseInv n) (hs : n.server = some s) (hr : n.resending = [])
    (hm : n.mailbox = m :: rest) (ho : m.isOther = true) :
    PauseInv (n.take rt ans s m rest) := by
  have hleaves := handle_leavesInbox rt ans s ho
  have he : m.event? = none := by
    cases m with
    | inboundEvent envelope => cases ho
    | _ => rfl
  refine ⟨h.preserved.take_of_no_event hs hr hm he
    (waiting_take (held_take_of_leavesInbox hleaves) hleaves.quiet), ?_⟩
  intro s' hs' hp
  obtain ⟨hpaused, hpending⟩ := Prod.mk.inj (hleaves.keeps s' hs')
  rw [hpending]
  exact h.resumed s hs (hpaused ▸ hp)

theorem PauseInv.take_call (h : PauseInv n) (hs : n.server = some s) (hr : n.resending = [])
    {c : Call} (hm : n.mailbox = .call c :: rest) (halone : Alone n (.take ans)) :
    PauseInv (n.take rt ans s (.call c) rest) := by
  by_cases hc : c = .resume
  · subst hc
    have hqueued : n.queued = rest.filterMap Msg.event? := queued_cons hm
    have hwait : (n.take rt ans s (.call .resume) rest).waiting =
        rest.filterMap Msg.event? ++ s.pendingEvents.reverse := by
      unfold Node.waiting
      rw [show (n.take rt ans s (.call .resume) rest).resending = s.pendingEvents.reverse from
        resent_resume s]
      rfl
    refine ⟨h.preserved.take_of_no_event hs hr hm rfl ?_, ?_⟩
    · have hcases : n.held = [] ∨ n.queued = [] := halone (by rw [hm]; rfl)
      rw [held_of_server hs, hqueued] at hcases
      rw [hwait]
      rcases hcases with hnone | hnone <;> rw [hnone] <;> simp
    · rintro s' ⟨⟩ _
      rfl
  · obtain ⟨es, s', hcall, hpending, hquiet⟩ := handleCall_held s hc
    have hhandle : handle rt ans s (.call c) = ⟨es, some s'⟩ := hcall
    have hserver : (n.take rt ans s (.call c) rest).server = some s' := by
      show (handle rt ans s (.call c)).next = some s'
      rw [hhandle]
    refine ⟨h.preserved.take_of_no_event hs hr hm rfl (waiting_take ?_ ?_), ?_⟩
    · rw [held_of_server hserver, hpending]
    · rw [hhandle]
      exact hquiet
    · intro s'' hs'' hp
      rw [hserver] at hs''
      obtain rfl := Option.some.inj hs''
      rw [hpending]
      refine h.resumed s hs ?_
      cases c with
      | resume => exact absurd rfl hc
      | pause =>
        obtain ⟨-, hs'⟩ := Outcome.mk.inj hcall
        rw [← Option.some.inj hs'] at hp
        cases hp
      | _ =>
        obtain ⟨-, hs'⟩ := Outcome.mk.inj hcall
        rw [Option.some.inj hs']
        exact hp

theorem PauseInv.take_event (h : PauseInv n) (hs : n.server = some s) (hr : n.resending = [])
    {envelope : Entries} (hm : n.mailbox = .inboundEvent envelope :: rest) :
    PauseInv (n.take rt ans s (.inboundEvent envelope) rest) := by
  have hbefore := waiting_of_server hs hr hm
  cases hp : s.paused with
  | false =>
    have hempty := h.resumed s hs hp
    have hhandle : handle rt ans s (.inboundEvent envelope) = handleEvent rt ans s envelope := by
      unfold handle
      dsimp only
      rw [hp]
      rfl
    have hleaves : LeavesInbox s (handle rt ans s (.inboundEvent envelope)) := by
      rw [hhandle]
      exact handleEvent_leavesInbox rt ans s envelope
    have hafter : (n.take rt ans s (.inboundEvent envelope) rest).waiting =
        s.pendingEvents.reverse ++ rest.filterMap Msg.event? :=
      waiting_take (held_take_of_leavesInbox hleaves) hleaves.quiet
    refine ⟨h.preserved.same rfl ?_ ?_, ?_⟩
    · have hhandled : (takenIn rt ans s (.inboundEvent envelope)).handled = some envelope := by
        rw [Taken.handled, show (takenIn rt ans s (.inboundEvent envelope)).state = s from rfl, hp]
        rfl
      rw [handled_take, hhandled, hafter, hbefore, hempty]
      simp [Msg.event?]
    · have hdropped : (takenIn rt ans s (.inboundEvent envelope)).dropped = none := by
        rw [Taken.dropped, show (takenIn rt ans s (.inboundEvent envelope)).state = s from rfl, hp]
        simp
      rw [dropped_take, hdropped]
      exact List.append_nil _
    · intro s' hs' _
      rw [show s'.pendingEvents = s.pendingEvents from congrArg Prod.snd (hleaves.keeps s' hs')]
      exact hempty
  | true =>
    have hhandle : handle rt ans s (.inboundEvent envelope) = holdEvent s envelope := by
      unfold handle
      dsimp only
      rw [hp]
      rfl
    have hhandled : (n.take rt ans s (.inboundEvent envelope) rest).handled = n.handled := by
      have hnone : (takenIn rt ans s (.inboundEvent envelope)).handled = none := by
        rw [Taken.handled, show (takenIn rt ans s (.inboundEvent envelope)).state = s from rfl, hp]
        rfl
      rw [handled_take, hnone]
      exact List.append_nil _
    have hseq : n.handled ++ n.waiting = (n.handled ++ s.pendingEvents.reverse) ++
        envelope :: rest.filterMap Msg.event? := by
      rw [hbefore]
      simp [Msg.event?]
    have hdropped : (takenIn rt ans s (.inboundEvent envelope)).dropped =
        if s.pendingEvents.length ≥ pauseQueueLimit then some envelope else none := by
      rw [Taken.dropped, show (takenIn rt ans s (.inboundEvent envelope)).state = s from rfl, hp]
      simp [takenIn, Msg.event?]
    by_cases hfull : s.pendingEvents.length ≥ pauseQueueLimit
    · have hstay : handle rt ans s (.inboundEvent envelope) = .stay s := by
        rw [hhandle, holdEvent, if_pos hfull]
      have hserver : (n.take rt ans s (.inboundEvent envelope) rest).server = some s := by
        show (handle rt ans s (.inboundEvent envelope)).next = some s
        rw [hstay]
        rfl
      refine ⟨h.preserved.drop rfl hseq ?_ ?_, ?_⟩
      · rw [hhandled, waiting_take (held_of_server hserver) (by rw [hstay]; rfl),
          List.append_assoc]
      · rw [dropped_take, hdropped, if_pos hfull]
        rfl
      · intro s' hs' hp'
        rw [hserver] at hs'
        obtain rfl := Option.some.inj hs'
        rw [hp] at hp'
        cases hp'
    · have hhold : handle rt ans s (.inboundEvent envelope) =
          .stay { s with pendingEvents := envelope :: s.pendingEvents } := by
        rw [hhandle, holdEvent, if_neg hfull]
      have hserver : (n.take rt ans s (.inboundEvent envelope) rest).server =
          some { s with pendingEvents := envelope :: s.pendingEvents } := by
        show (handle rt ans s (.inboundEvent envelope)).next = _
        rw [hhold]
        rfl
      refine ⟨h.preserved.same rfl ?_ ?_, ?_⟩
      · have hresend : (n.take rt ans s (.inboundEvent envelope) rest).resending = [] := by
          show (handle rt ans s (.inboundEvent envelope)).effects.filterMap Effect.resent? = []
          rw [hhold]
          rfl
        have hafter : (n.take rt ans s (.inboundEvent envelope) rest).waiting =
            s.pendingEvents.reverse ++ envelope :: rest.filterMap Msg.event? := by
          unfold Node.waiting
          rw [held_of_server hserver, hresend, List.append_nil, List.reverse_cons,
            List.append_assoc]
          rfl
        rw [hhandled, hseq, hafter, List.append_assoc]
      · rw [dropped_take, hdropped, if_neg hfull]
        exact List.append_nil _
      · intro s' hs' hp'
        rw [hserver] at hs'
        obtain rfl := Option.some.inj hs'
        rw [hp] at hp'
        cases hp'

end

/-! ## Runs -/

variable {rt : Runtime} {n : Node}

theorem pauseInv_start {s : State} (hpending : s.pendingEvents = []) : PauseInv (start s) := by
  have hwaiting : (start s).waiting = [] := by
    show s.pendingEvents.reverse ++ [] ++ [] = []
    rw [hpending]
    rfl
  refine ⟨⟨?_, ?_⟩, ?_⟩
  · rw [hwaiting]
    exact List.Sublist.refl _
  · rw [hwaiting]
    exact List.Perm.refl _
  · rintro s' ⟨⟩ _
    exact hpending

theorem PauseInv.step {a : Act} {n' : Node} (h : PauseInv n) (hok : Alone n a)
    (hs : step rt n a = some n') : PauseInv n' := by
  rcases step_cases hs with ⟨m, s, rfl, -, hserver, rfl⟩ | ⟨m, -, -, rfl⟩ | ⟨id, -, -, rfl⟩ |
    ⟨ans, s, m, rest, rfl, hserver, hr, hm, rfl⟩ | ⟨envelope, rest, -, hr, rfl⟩
  · refine ⟨?_, h.resumed⟩
    have hqueued : (n.mailbox ++ [m]).filterMap Msg.event? = n.queued ++ m.event?.toList := by
      rw [List.filterMap_append]
      cases he : m.event? <;> simp [he, Node.queued]
    have hseq : ({ n with mailbox := n.mailbox ++ [m], arrived := n.arrived ++ m.event?.toList } :
        Node).waiting = n.waiting ++ m.event?.toList := by
      show n.held ++ (n.mailbox ++ [m]).filterMap Msg.event? ++ n.resending = _
      rw [hqueued]
      unfold Node.waiting
      rcases hok with hnone | hnone <;> rw [hnone] <;> simp
    refine ⟨?_, ?_⟩
    · rw [hseq, ← List.append_assoc]
      exact h.preserved.inOrder.append (List.Sublist.refl _)
    · rw [hseq, ← List.append_assoc]
      have hswap : (n.handled ++ n.waiting ++ m.event?.toList ++ n.dropped).Perm
          (n.handled ++ n.waiting ++ n.dropped ++ m.event?.toList) := by
        rw [List.append_assoc, List.append_assoc (n.handled ++ n.waiting) n.dropped]
        exact List.perm_append_comm.append_left _
      exact hswap.trans (h.preserved.eachOnce.append_right _)
  · exact h
  · refine ⟨h.preserved.same rfl ?_ rfl, h.resumed⟩
    have hqueued : (n.mailbox ++ [Msg.directiveDeadline id]).filterMap Msg.event? = n.queued := by
      rw [List.filterMap_append]
      exact List.append_nil _
    show n.handled ++ (n.held ++ (n.mailbox ++ [Msg.directiveDeadline id]).filterMap Msg.event? ++
      n.resending) = n.handled ++ n.waiting
    rw [hqueued]
    rfl
  · cases m with
    | call c => exact h.take_call hserver hr hm hok
    | inboundEvent envelope => exact h.take_event hserver hr hm
    | _ => exact h.take_other hserver hr hm rfl
  · refine ⟨h.preserved.same rfl ?_ rfl, h.resumed⟩
    have hqueued : (n.mailbox ++ [Msg.inboundEvent envelope]).filterMap Msg.event? =
        n.queued ++ [envelope] := by
      rw [List.filterMap_append]
      rfl
    show n.handled ++ (n.held ++ (n.mailbox ++ [Msg.inboundEvent envelope]).filterMap Msg.event? ++
      rest) = n.handled ++ n.waiting
    rw [hqueued]
    unfold Node.waiting
    rw [hr]
    simp

/-- **Pausing preserves the inbound sequence** in every run in which nothing overtakes
the held events. -/
theorem preserved_of_alone (actorId actorType handlerModule : String) (state : Entries)
    (h : Reaches (step rt) Alone (start (.init actorId actorType handlerModule state)) n) :
    Preserved n :=
  (h.invariant (pauseInv_start rfl) fun _ _ _ hinv hok hs => hinv.step hok hs).preserved

/-! ## Overtaking -/

instance (n : Node) : (a : Act) → Decidable (Alone n a)
  | .arrive m => decidable_of_iff (m.event?.isNone = true ∨ n.resending.isEmpty = true) (by
      rw [Option.isNone_iff_eq_none, List.isEmpty_iff]
      rfl)
  | .take _ => decidable_of_iff (n.mailbox.head?.any Msg.isResume = true →
      n.held.isEmpty = true ∨ n.queued.isEmpty = true) (by
      rw [List.isEmpty_iff, List.isEmpty_iff]
      rfl)
  | .fire _ | .resend => isTrue trivial

/-- The event with the id. -/
def numbered (id : String) : Entries := (.str "id", .str id) :: textEvent

/-- The id of an event. -/
def idOf (envelope : Entries) : Option String :=
  match get "id" envelope with
  | some (.str id) => some id
  | _ => none

/-- An event that is held, sent again and handled, and then another. -/
def heldAlone : List Act :=
  [.arrive (.call .pause), .take (answering emptyState .timeout),
    .arrive (.inboundEvent (numbered "1")), .take (answering emptyState .timeout),
    .arrive (.call .resume), .take (answering emptyState .timeout), .resend,
    .arrive (.inboundEvent (numbered "2")), .take (answering emptyState .timeout),
    .take (answering emptyState .timeout)]

/-- The second event is in the mailbox when the resume comes. -/
def heldOvertaken : List Act :=
  [.arrive (.call .pause), .take (answering emptyState .timeout),
    .arrive (.inboundEvent (numbered "1")), .take (answering emptyState .timeout),
    .arrive (.call .resume), .arrive (.inboundEvent (numbered "2")),
    .take (answering emptyState .timeout), .resend, .take (answering emptyState .timeout),
    .take (answering emptyState .timeout)]

theorem preserved_heldAlone :
    ∃ n : Node, n.handled.map idOf = [some "1", some "2"] ∧ Preserved n := by
  have hrun : (exec (step counting) Alone (start threadServer) heldAlone).map
      (fun n => n.handled.map idOf) = some [some "1", some "2"] := by decide +kernel
  obtain ⟨n, hn, hhandled⟩ := Option.map_eq_some_iff.mp hrun
  exact ⟨n, hhandled, preserved_of_alone _ _ _ _ (.of_exec hn)⟩

/-- **A held event is overtaken** by one that waits in the mailbox. -/
theorem not_preserved_heldOvertaken :
    ¬∀ (rt : Runtime) (actorId actorType handlerModule : String) (state : Entries) (n : Node),
      Reaches (step rt) anyStep (start (.init actorId actorType handlerModule state)) n →
      Preserved n := by
  intro h
  have hrun : (exec (step counting) anyStep (start threadServer) heldOvertaken).map
      (fun n => (n.handled.map idOf, n.arrived.map idOf)) =
      some ([some "2", some "1"], [some "1", some "2"]) := by decide +kernel
  obtain ⟨n, hn, he⟩ := Option.map_eq_some_iff.mp hrun
  obtain ⟨hhandled, harrived⟩ := Prod.mk.inj he
  have hsub := ((List.sublist_append_left _ _).trans
    (h counting _ _ _ _ n (.of_exec hn)).inOrder).map idOf
  rw [hhandled, harrived] at hsub
  have hne : ¬[some "2", some "1"].Sublist [some "1", some "2"] := by decide
  exact hne hsub

end EntityServer
end Esr
