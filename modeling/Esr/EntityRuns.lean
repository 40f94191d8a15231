import Esr.EntityFrames
import Esr.Runs

/-! # Runs of the actor server

The server with what is around it: its mailbox, the deadline timers it has started,
and the events of a `resume` it has yet to send to itself.  Other processes put
messages into the mailbox at any time, a timer fires at any time, and the server
takes the first message when it is done with the one before.  A resume sends the
held events one by one, so that a message of another process may come in between.

Every message taken is recorded with the state it was taken in, what the rest of
the runtime answered and what the server sent; what a run has done is read off this
history.  A server that has raised is gone, and what is sent to it is lost.
-/
namespace Esr
namespace EntityServer
open Yaml

/-- A message the server has taken. -/
structure Taken where
  state : State
  msg : Msg
  answers : Answers
  effects : List Effect

/-- The server and what is around it.  `arrived` has the events other processes
sent, oldest first, and so has `history` the messages taken. -/
structure Node where
  server : Option State
  resending : List Entries
  mailbox : List Msg
  timers : List String
  arrived : List Entries
  history : List Taken

/-- A server that has just started. -/
def start (s : State) : Node := ⟨some s, [], [], [], [], []⟩

/-- What can happen next. -/
inductive Act where
  | arrive (m : Msg)
  | fire (id : String)
  | take (ans : Answers)
  | resend

/-- The envelope of an inbound event. -/
def Msg.event? : Msg → Option Entries
  | .inboundEvent envelope => some envelope
  | _ => none

/-- A message only a timer sends. -/
def Msg.isDeadline : Msg → Bool
  | .directiveDeadline _ => true
  | _ => false

/-- The event sent to the server itself. -/
def Effect.resent? : Effect → Option Entries
  | .sendSelf envelope => some envelope
  | _ => none

/-- The timer started. -/
def Effect.started? : Effect → Option String
  | .sendAfter id => some id
  | _ => none

/-- The record of a message taken in `s`. -/
def takenIn (rt : Runtime) (ans : Answers) (s : State) (m : Msg) : Taken :=
  ⟨s, m, ans, (handle rt ans s m).effects⟩

/-- The server takes the first message of its mailbox. -/
def Node.take (rt : Runtime) (ans : Answers) (s : State) (m : Msg) (rest : List Msg)
    (n : Node) : Node :=
  let o := handle rt ans s m
  { n with server := o.next
           resending := o.effects.filterMap Effect.resent?
           mailbox := rest
           timers := n.timers ++ o.effects.filterMap Effect.started?
           history := n.history ++ [takenIn rt ans s m] }

/-- One step. -/
def step (rt : Runtime) (n : Node) : Act → Option Node
  | .arrive m =>
      if m.isDeadline then none
      else
        match n.server with
        | some _ => some { n with mailbox := n.mailbox ++ [m]
                                  arrived := n.arrived ++ m.event?.toList }
        | none => some n
  | .fire id =>
      if id ∈ n.timers then
        some { n with timers := n.timers.erase id
                      mailbox := n.mailbox ++ [.directiveDeadline id] }
      else none
  | .take ans =>
      match n.server, n.resending, n.mailbox with
      | some s, [], m :: rest => some (n.take rt ans s m rest)
      | _, _, _ => none
  | .resend =>
      match n.resending with
      | envelope :: rest =>
          some { n with resending := rest, mailbox := n.mailbox ++ [.inboundEvent envelope] }
      | [] => none

theorem step_cases {rt : Runtime} {n n' : Node} {a : Act} (h : step rt n a = some n') :
    (∃ m s, a = .arrive m ∧ m.isDeadline = false ∧ n.server = some s ∧
      n' = { n with mailbox := n.mailbox ++ [m], arrived := n.arrived ++ m.event?.toList }) ∨
    (∃ m, a = .arrive m ∧ n.server = none ∧ n' = n) ∨
    (∃ id, a = .fire id ∧ id ∈ n.timers ∧
      n' = { n with timers := n.timers.erase id
                    mailbox := n.mailbox ++ [.directiveDeadline id] }) ∨
    (∃ ans s m rest, a = .take ans ∧ n.server = some s ∧ n.resending = [] ∧
      n.mailbox = m :: rest ∧ n' = n.take rt ans s m rest) ∨
    (∃ envelope rest, a = .resend ∧ n.resending = envelope :: rest ∧
      n' = { n with resending := rest, mailbox := n.mailbox ++ [.inboundEvent envelope] }) := by
  cases a with
  | arrive m =>
    cases hd : m.isDeadline with
    | true => simp [step, hd] at h
    | false =>
      cases hs : n.server with
      | none =>
        simp only [step, hd, hs] at h
        exact .inr (.inl ⟨m, rfl, rfl, (Option.some.inj h).symm⟩)
      | some s =>
        simp only [step, hd, hs] at h
        exact .inl ⟨m, s, rfl, hd, rfl, (Option.some.inj h).symm⟩
  | fire id =>
    by_cases hid : id ∈ n.timers
    · rw [step, if_pos hid] at h
      exact .inr (.inr (.inl ⟨id, rfl, hid, (Option.some.inj h).symm⟩))
    · rw [step, if_neg hid] at h
      cases h
  | take ans =>
    cases hs : n.server with
    | none =>
      simp only [step, hs] at h
      cases h
    | some s =>
      cases hr : n.resending with
      | cons envelope rest =>
        simp only [step, hs, hr] at h
        cases h
      | nil =>
        cases hm : n.mailbox with
        | nil =>
          simp only [step, hs, hr, hm] at h
          cases h
        | cons m rest =>
          simp only [step, hs, hr, hm] at h
          exact .inr (.inr (.inr (.inl ⟨ans, s, m, rest, rfl, rfl, rfl, rfl,
            (Option.some.inj h).symm⟩)))
  | resend =>
    cases hr : n.resending with
    | nil =>
      simp only [step, hr] at h
      cases h
    | cons envelope rest =>
      simp only [step, hr] at h
      exact .inr (.inr (.inr (.inr ⟨envelope, rest, rfl, rfl, (Option.some.inj h).symm⟩)))

/-! ## A concrete runtime -/

/-- A runtime whose unique integers are 1, 2, 3, … -/
def counting : Runtime where
  uniqueInteger n := n + 1
  uniqueInteger_injective := Nat.succ_injective
  basename path := path
  logsInfo := true

/-- A server with a chat adapter. -/
def threadServer : State :=
  .init "thread:s1" "cc_thread" "esr.handlers" [(.str "channel_adapter", .str "feishu")]

/-- Everything is granted, and the handler answers as given. -/
def answering (first second : Reply) : Answers where
  has _ _ := true
  readFile _ := .error ":enoent"
  first := first
  second := second

/-- A message event of a user. -/
def textEvent : Entries :=
  [(.str "payload", .map [(.str "event_type", .str "msg_received")]),
    (.str "principal_id", .str "ou_alice")]

/-- The handler returns an empty state and no actions. -/
def emptyState : Reply := .payload (some (.map [(.str "new_state", .map [])]))

end EntityServer
end Esr
