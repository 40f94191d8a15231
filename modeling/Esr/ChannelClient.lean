import Esr.Dict
import Esr.Runs
import Mathlib.Logic.Function.Basic

/-! # The Phoenix channel client

One event loop runs the caller's `join`s and `push`es, a read loop for each
WebSocket, a heartbeat task, and the reconnect loops; between two awaits a task is
alone.  A step is what one task does up to its next await, or one iteration of a
loop in which it may wait.

A read loop that ends sets `isDisconnected` and starts a reconnect loop.  That
loop connects, resets the flag, takes the handlers out, joins their topics one
after the other, each time waiting for the reply, and then pushes what was
buffered meanwhile.  A loop whose connection is lost while it waits for a reply
stays there, and the next one starts beside it.

The three outcomes of aiohttp that count are parameters of the steps: a connection
is opened or not, a connection is lost, and `send_str` writes its frame to a
connection that is up and raises on another.
-/
namespace Esr
namespace ChannelClient

/-- The arguments of `push/3`. -/
structure Push (Payload : Type) where
  topic : String
  event : String
  payload : Payload
  deriving DecidableEq

/-- A frame, with its `ref`:

    [ref, ref, topic, "phx_join", {}]
    [join_ref, ref, topic, event, payload]
    [null, ref, "phoenix", "heartbeat", {}]
-/
inductive Frame (Payload : Type) where
  | join (ref : Nat) (topic : String)
  | push (joinRef ref : Nat) (p : Push Payload)
  | heartbeat (ref : Nat)
  deriving DecidableEq

/-- A WebSocket.  A peer that is gone is `lost` until the client sees it: `closed`
is not true yet, but a send raises. -/
inductive Socket where
  | up
  | lost
  | closed
  deriving DecidableEq

/-- Where a reconnect loop is: in `asyncio.sleep`, in `self._ws.close()`, in
`ws_connect`, at the head of the loop over the topics still to be joined, at
`await fut` of a topic, or at the head of the loop that flushes. -/
inductive Loop (Handler : Type) where
  | sleeping
  | closing
  | dialing
  | rejoining (todo : List (String × Handler))
  | awaiting (topic : String) (ref : Nat) (todo : List (String × Handler))
  | flushing

/-- `PENDING_PUSH_CAP`. -/
def pendingPushCap : Nat := 1000

/-- The client, with what the runs are about: the frames written and to which
socket, the pushes that returned and those that overflowed the buffer, the handler
each topic was joined with last, and the topics whose join returned.

Sockets have numbers, and a reconnect loop that of the socket whose read loop
started it.  A future is `none` until it has its result, the status of the reply.
`spinning` is set when the flush meets its own re-buffered push: it then runs
without an await for ever, and nothing else does. -/
structure State (Handler Payload : Type) where
  ws : Option Nat
  sockets : Nat → Socket
  nextSocket : Nat
  reading : Nat → Bool
  heartbeatTask : Bool
  reconnectTask : Option Nat
  loops : Nat → Option (Loop Handler)
  refCounter : Nat
  topicJoinRefs : Dict String Nat
  topicHandlers : Dict String Handler
  pendingReplies : Dict Nat (Option Bool)
  joins : Nat → Option String
  isDisconnected : Bool
  pendingPushes : List (Push Payload)
  spinning : Bool
  written : List (Nat × Frame Payload)
  accepted : List (Push Payload)
  overflowed : List (Push Payload)
  given : String → Option Handler
  joined : List String

variable {Handler Payload : Type}

/-- What can happen next. -/
inductive Act (Handler Payload : Type) where
  | connect
  | join (topic : String) (onMsg : Handler)
  | joinReturns (ref : Nat)
  | push (p : Push Payload)
  | reply (socket ref : Nat) (ok : Bool)
  | lose (socket : Nat)
  | readEnds (socket : Nat) (clean : Bool)
  | beat
  | dialed (loop : Nat) (opened : Bool)
  | advance (loop : Nat)

/-- The frame is the join that waits for the reply with this `ref`. -/
def Frame.isJoin (ref : Nat) : Frame Payload → Bool
  | .join r _ => r = ref
  | _ => false

namespace State

/-- `connected`. -/
def connected (s : State Handler Payload) : Bool :=
  match s.ws with
  | none => false
  | some c => s.sockets c ≠ .closed

/-- `_send_frame`, and whether it returned. -/
def sendFrame (s : State Handler Payload) (f : Frame Payload) : Bool × State Handler Payload :=
  match s.ws with
  | none => (false, s)
  | some c =>
    if s.sockets c = .up then (true, { s with written := s.written ++ [(c, f)] }) else (false, s)

/-- What `_join_internal` enters before it sends. -/
def registered (s : State Handler Payload) (topic : String) (onMsg : Handler) :
    State Handler Payload :=
  { s with
    refCounter := s.refCounter + 1
    topicJoinRefs := s.topicJoinRefs.set topic s.refCounter
    topicHandlers := s.topicHandlers.set topic onMsg
    pendingReplies := s.pendingReplies.set s.refCounter none }

/-- `_join_internal` up to `await fut`, and whether it got there. -/
def joinInternal (s : State Handler Payload) (topic : String) (onMsg : Handler) :
    Bool × State Handler Payload :=
  (s.registered topic onMsg).sendFrame (.join s.refCounter topic)

/-- `_join_internal` after a reply whose status is not `ok`. -/
def rejected (s : State Handler Payload) (topic : String) : State Handler Payload :=
  { s with
    topicJoinRefs := s.topicJoinRefs.pop topic
    topicHandlers := s.topicHandlers.pop topic }

/-- The branch of `push` while disconnected: a full buffer loses its oldest. -/
def buffer (s : State Handler Payload) (p : Push Payload) : State Handler Payload :=
  if s.pendingPushes.length = pendingPushCap then
    { s with
      pendingPushes := s.pendingPushes.drop 1 ++ [p]
      overflowed := s.overflowed ++ s.pendingPushes.take 1 }
  else { s with pendingPushes := s.pendingPushes ++ [p] }

/-- `push`, and whether it returned. -/
def push (s : State Handler Payload) (p : Push Payload) : Bool × State Handler Payload :=
  match s.topicJoinRefs.get p.topic with
  | none => (false, s)
  | some joinRef =>
    if s.isDisconnected then (true, s.buffer p)
    else { s with refCounter := s.refCounter + 1 }.sendFrame (.push joinRef s.refCounter p)

/-- One round of `_heartbeat_loop` after its sleep; the task ends when it finds the
socket closed or its send raises. -/
def beat (s : State Handler Payload) : State Handler Payload :=
  if s.connected then
    { (sendFrame { s with refCounter := s.refCounter + 1 } (.heartbeat s.refCounter)).2 with
      heartbeatTask :=
        (sendFrame { s with refCounter := s.refCounter + 1 } (.heartbeat s.refCounter)).1 }
  else { s with heartbeatTask := false }

/-- The loop `i` goes on at `l`. -/
def setLoop (s : State Handler Payload) (i : Nat) (l : Option (Loop Handler)) :
    State Handler Payload :=
  { s with loops := Function.update s.loops i l }

/-- A connection is open: the socket is new, its read loop runs. -/
def opened (s : State Handler Payload) : State Handler Payload :=
  { s with
    ws := some s.nextSocket
    sockets := Function.update s.sockets s.nextSocket .up
    nextSocket := s.nextSocket + 1
    reading := Function.update s.reading s.nextSocket true
    isDisconnected := false }

/-- `self._ws.close()`. -/
def closeWs (s : State Handler Payload) : State Handler Payload :=
  match s.ws with
  | none => s
  | some c => { s with sockets := Function.update s.sockets c .closed }

/-- One iteration of the loop that flushes, or its end. -/
def flush (s : State Handler Payload) (i : Nat) : State Handler Payload :=
  match s.pendingPushes with
  | [] => s.setLoop i none
  | p :: rest =>
    if s.isDisconnected ∧ (s.topicJoinRefs.get p.topic).isSome then { s with spinning := true }
    else ({ s with pendingPushes := rest }.push p).2

/-- What the reconnect loop `i` does at `l`; `ws_connect` and the wait for a reply
end from outside. -/
def advance (s : State Handler Payload) (i : Nat) :
    Loop Handler → Option (State Handler Payload)
  | .sleeping => some (s.closeWs.setLoop i (some .closing))
  | .closing => some (s.setLoop i (some .dialing))
  | .dialing => none
  | .rejoining [] => some (s.setLoop i (some .flushing))
  | .rejoining ((topic, onMsg) :: todo) =>
    some ((s.joinInternal topic onMsg).2.setLoop i
      (if (s.joinInternal topic onMsg).1 then some (.awaiting topic s.refCounter todo)
        else some (.rejoining todo)))
  | .awaiting topic ref todo =>
    match s.pendingReplies.get ref with
    | some (some ok) =>
      some ((if ok then s else s.rejected topic).setLoop i (some (.rejoining todo)))
    | _ => none
  | .flushing => some (s.flush i)

/-- The reconnect loop `i` has its connection: the join refs and the handlers are
cleared, and the topics of the handlers are to be joined again. -/
def reconnected (s : State Handler Payload) (i : Nat) : State Handler Payload :=
  { s.opened with
    topicJoinRefs := Dict.empty
    topicHandlers := Dict.empty
    loops := Function.update s.loops i (some (.rejoining s.topicHandlers.items)) }

/-- `ws_connect` of the reconnect loop `i` returns or raises. -/
def dialed (s : State Handler Payload) (i : Nat) (success : Bool) :
    Option (State Handler Payload) :=
  match s.loops i with
  | some .dialing => some (if success then s.reconnected i else s.setLoop i (some .sleeping))
  | _ => none

/-- `connect`, which is called once. -/
def connect (s : State Handler Payload) : Option (State Handler Payload) :=
  if s.ws = none then some { s.opened with heartbeatTask := true } else none

/-- A call of `join`, up to `await fut` or to its exception. -/
def join (s : State Handler Payload) (topic : String) (onMsg : Handler) :
    State Handler Payload :=
  if s.ws = none then s
  else
    { (s.joinInternal topic onMsg).2 with
      joins := if (s.joinInternal topic onMsg).1
        then Function.update s.joins s.refCounter (some topic) else s.joins
      given := Function.update s.given topic (some onMsg) }

/-- The call of `join` that sent `ref` goes on with its reply. -/
def joinReturns (s : State Handler Payload) (ref : Nat) : Option (State Handler Payload) :=
  match s.joins ref, s.pendingReplies.get ref with
  | some topic, some (some ok) =>
    some { (if ok then { s with joined := topic :: s.joined } else s.rejected topic) with
      joins := Function.update s.joins ref none }
  | _, _ => none

/-- A call of `push`; it is accepted when it returns. -/
def callPush (s : State Handler Payload) (p : Push Payload) : State Handler Payload :=
  if (s.push p).1 then { (s.push p).2 with accepted := s.accepted ++ [p] } else (s.push p).2

/-- The read loop of `c` gets the reply to `ref`, which the server gives on the
connection that the frame came by. -/
def reply (s : State Handler Payload) (c ref : Nat) (ok : Bool) : Option (State Handler Payload) :=
  if s.reading c ∧ (s.written.any fun w => w.1 = c ∧ w.2.isJoin ref) then
    some (if s.pendingReplies.get ref = some none
      then { s with pendingReplies := s.pendingReplies.set ref (some ok) } else s)
  else none

/-- The peer of `c` is gone. -/
def lose (s : State Handler Payload) (c : Nat) : Option (State Handler Payload) :=
  if s.sockets c = .up then some { s with sockets := Function.update s.sockets c .lost } else none

/-- The read loop of `c` ends, because it saw the end of the connection (`clean`) or
by an error of its own. -/
def readEnds (s : State Handler Payload) (autoReconnect : Bool) (c : Nat) (clean : Bool) :
    State Handler Payload :=
  { s with
    reading := Function.update s.reading c false
    sockets := if clean then Function.update s.sockets c .closed else s.sockets
    isDisconnected := true
    reconnectTask := if autoReconnect then some c else s.reconnectTask
    loops := if autoReconnect then Function.update s.loops c (some .sleeping) else s.loops }

end State

/-- What an action does to a client with `auto_reconnect=autoReconnect`. -/
def act (autoReconnect : Bool) (s : State Handler Payload) :
    Act Handler Payload → Option (State Handler Payload)
  | .connect => s.connect
  | .join topic onMsg => some (s.join topic onMsg)
  | .joinReturns ref => s.joinReturns ref
  | .push p => some (s.callPush p)
  | .reply c ref ok => s.reply c ref ok
  | .lose c => s.lose c
  | .readEnds c clean => if s.reading c then some (s.readEnds autoReconnect c clean) else none
  | .beat => if s.heartbeatTask then some s.beat else none
  | .dialed i opened => s.dialed i opened
  | .advance i => (s.loops i).bind (s.advance i)

/-- The steps of the client. -/
def step (autoReconnect : Bool) (s : State Handler Payload) (a : Act Handler Payload) :
    Option (State Handler Payload) :=
  if s.spinning then none else act autoReconnect s a

/-- A client that has not been connected. -/
def start : State Handler Payload where
  ws := none
  sockets := fun _ => .closed
  nextSocket := 0
  reading := fun _ => false
  heartbeatTask := false
  reconnectTask := none
  loops := fun _ => none
  refCounter := 1
  topicJoinRefs := Dict.empty
  topicHandlers := Dict.empty
  pendingReplies := Dict.empty
  joins := fun _ => none
  isDisconnected := false
  pendingPushes := []
  spinning := false
  written := []
  accepted := []
  overflowed := []
  given := fun _ => none
  joined := []

/-- A reconnect is in progress: the task that `_reconnect_task` holds is not done. -/
def State.Reconnecting (s : State Handler Payload) : Prop :=
  ∃ i, s.reconnectTask = some i ∧ s.loops i ≠ none

/-- `send_str` would write. -/
def State.up (s : State Handler Payload) : Bool :=
  match s.ws with
  | none => false
  | some c => s.sockets c = .up

/-! ## What the operations do -/

section Operations
variable {s : State Handler Payload}

theorem up_iff : s.up = true ↔ ∃ c, s.ws = some c ∧ s.sockets c = .up := by
  unfold State.up
  cases s.ws <;> simp

theorem sendFrame_of_up {c : Nat} (hws : s.ws = some c) (hup : s.sockets c = .up)
    (f : Frame Payload) :
    s.sendFrame f = (true, { s with written := s.written ++ [(c, f)] }) := by
  simp only [State.sendFrame, hws, hup, if_true]

theorem sendFrame_of_down (h : s.up = false) (f : Frame Payload) : s.sendFrame f = (false, s) := by
  unfold State.up at h
  unfold State.sendFrame
  cases hws : s.ws with
  | none => rfl
  | some c =>
    rw [hws] at h
    exact if_neg (of_decide_eq_false h)

theorem sendFrame_cases (s : State Handler Payload) (f : Frame Payload) :
    (∃ c, s.ws = some c ∧ s.sockets c = .up ∧
      s.sendFrame f = (true, { s with written := s.written ++ [(c, f)] })) ∨
    (s.up = false ∧ s.sendFrame f = (false, s)) := by
  rcases hup : s.up with _ | _
  · exact Or.inr ⟨rfl, sendFrame_of_down hup f⟩
  · obtain ⟨c, hws, hc⟩ := up_iff.mp hup
    exact Or.inl ⟨c, hws, hc, sendFrame_of_up hws hc f⟩

theorem joinInternal_cases (s : State Handler Payload) (topic : String) (onMsg : Handler) :
    (∃ c, s.ws = some c ∧ s.up = true ∧ s.joinInternal topic onMsg =
      (true, { s.registered topic onMsg with
        written := s.written ++ [(c, .join s.refCounter topic)] })) ∨
    (s.up = false ∧ s.joinInternal topic onMsg = (false, s.registered topic onMsg)) := by
  rcases sendFrame_cases (s.registered topic onMsg) (.join s.refCounter topic) with
    ⟨c, hws, hc, h⟩ | ⟨hdown, h⟩
  · exact Or.inl ⟨c, hws, up_iff.mpr ⟨c, hws, hc⟩, h⟩
  · exact Or.inr ⟨hdown, h⟩

theorem push_cases (s : State Handler Payload) (p : Push Payload) :
    (s.topicJoinRefs.get p.topic = none ∧ s.push p = (false, s)) ∨
    ((s.topicJoinRefs.get p.topic).isSome ∧ s.isDisconnected = true ∧
      s.push p = (true, s.buffer p)) ∨
    (∃ c joinRef, (s.topicJoinRefs.get p.topic).isSome ∧ s.isDisconnected = false ∧
      s.up = true ∧ s.push p = (true, { s with
        refCounter := s.refCounter + 1
        written := s.written ++ [(c, .push joinRef s.refCounter p)] })) ∨
    (s.isDisconnected = false ∧ s.up = false ∧
      s.push p = (false, { s with refCounter := s.refCounter + 1 })) := by
  unfold State.push
  cases href : s.topicJoinRefs.get p.topic with
  | none => exact Or.inl ⟨rfl, rfl⟩
  | some joinRef =>
    by_cases hdisc : s.isDisconnected = true
    · exact Or.inr (Or.inl ⟨rfl, hdisc, if_pos hdisc⟩)
    · have hconn : s.isDisconnected = false := Bool.eq_false_iff.mpr hdisc
      refine Or.inr (Or.inr ?_)
      rcases sendFrame_cases { s with refCounter := s.refCounter + 1 }
        (.push joinRef s.refCounter p) with ⟨c, hws, hc, hsend⟩ | ⟨hdown, hsend⟩
      · exact Or.inl ⟨c, joinRef, rfl, hconn, up_iff.mpr ⟨c, hws, hc⟩,
          (if_neg hdisc).trans hsend⟩
      · exact Or.inr ⟨hconn, hdown, (if_neg hdisc).trans hsend⟩

theorem advance_awaiting {s' : State Handler Payload} {i ref : Nat} {topic : String}
    {todo : List (String × Handler)} (hs : s.advance i (.awaiting topic ref todo) = some s') :
    ∃ ok, s.pendingReplies.get ref = some (some ok) ∧
      s' = (if ok then s else s.rejected topic).setLoop i (some (.rejoining todo)) := by
  rcases hreply : s.pendingReplies.get ref with _ | _ | ok
  · simp [State.advance, hreply] at hs
  · simp [State.advance, hreply] at hs
  · refine ⟨ok, rfl, ?_⟩
    simpa [State.advance, hreply] using hs.symm

/-- The tasks, the connection they use and the flag are the same. -/
structure SameTasks (s s' : State Handler Payload) : Prop where
  ws : s'.ws = s.ws
  nextSocket : s'.nextSocket = s.nextSocket
  reading : s'.reading = s.reading
  reconnectTask : s'.reconnectTask = s.reconnectTask
  loops : s'.loops = s.loops
  isDisconnected : s'.isDisconnected = s.isDisconnected

theorem SameTasks.refl : SameTasks s s := ⟨rfl, rfl, rfl, rfl, rfl, rfl⟩

theorem sendFrame_same (s : State Handler Payload) (f : Frame Payload) :
    SameTasks s (s.sendFrame f).2 := by
  rcases sendFrame_cases s f with ⟨c, _, _, h⟩ | ⟨_, h⟩
  · rw [h]
    exact ⟨rfl, rfl, rfl, rfl, rfl, rfl⟩
  · rw [h]
    exact SameTasks.refl

theorem joinInternal_same (s : State Handler Payload) (topic : String) (onMsg : Handler) :
    SameTasks s (s.joinInternal topic onMsg).2 := by
  obtain ⟨h₁, h₂, h₃, h₄, h₅, h₆⟩ :=
    sendFrame_same (s.registered topic onMsg) (.join s.refCounter topic)
  exact ⟨h₁, h₂, h₃, h₄, h₅, h₆⟩

theorem buffer_same (s : State Handler Payload) (p : Push Payload) :
    SameTasks s (s.buffer p) := by
  unfold State.buffer
  split <;> exact ⟨rfl, rfl, rfl, rfl, rfl, rfl⟩

theorem push_same (s : State Handler Payload) (p : Push Payload) : SameTasks s (s.push p).2 := by
  rcases push_cases s p with ⟨_, h⟩ | ⟨_, _, h⟩ | ⟨c, joinRef, _, _, _, h⟩ | ⟨_, _, h⟩
  · rw [h]
    exact SameTasks.refl
  · rw [h]
    exact buffer_same s p
  · rw [h]
    exact ⟨rfl, rfl, rfl, rfl, rfl, rfl⟩
  · rw [h]
    exact ⟨rfl, rfl, rfl, rfl, rfl, rfl⟩

theorem beat_same (s : State Handler Payload) : SameTasks s s.beat := by
  unfold State.beat
  split
  · obtain ⟨h₁, h₂, h₃, h₄, h₅, h₆⟩ := sendFrame_same
      { s with refCounter := s.refCounter + 1 } (.heartbeat s.refCounter)
    exact ⟨h₁, h₂, h₃, h₄, h₅, h₆⟩
  · exact ⟨rfl, rfl, rfl, rfl, rfl, rfl⟩

theorem closeWs_same (s : State Handler Payload) : SameTasks s s.closeWs := by
  unfold State.closeWs
  split <;> exact ⟨rfl, rfl, rfl, rfl, rfl, rfl⟩

end Operations

/-! ## One loop connects at a time -/

/-- The loop has no connection yet. -/
def Loop.connecting : Loop Handler → Bool
  | .sleeping | .closing | .dialing => true
  | .rejoining _ | .awaiting .. | .flushing => false

/-- The tasks of the client: the read loop is that of the current socket, a loop
that connects is the one `_reconnect_task` holds and there is no read loop then,
and while the flag is set such a loop exists, unless reconnecting is off. -/
structure Lifecycle (autoReconnect : Bool) (s : State Handler Payload) : Prop where
  manual : autoReconnect = false → ∀ i, s.loops i = none
  unconnected : s.ws = none → s.isDisconnected = false ∧ ∀ i, s.loops i = none
  current : ∀ c, s.ws = some c → c < s.nextSocket
  reading : ∀ c, s.reading c = true → s.ws = some c
  online : s.isDisconnected = false → ∀ c, s.ws = some c → s.reading c = true
  born : ∀ i l, s.loops i = some l → i < s.nextSocket ∧ s.reading i = false
  connecting : ∀ i l, s.loops i = some l → l.connecting = true →
    s.reconnectTask = some i ∧ s.isDisconnected = true ∧ ∀ c, s.reading c = false
  offline : s.isDisconnected = true → autoReconnect = true →
    ∃ i l, s.loops i = some l ∧ l.connecting = true

theorem lifecycle_start {autoReconnect : Bool} :
    Lifecycle autoReconnect (start : State Handler Payload) where
  manual _ _ := rfl
  unconnected _ := ⟨rfl, fun _ => rfl⟩
  current _ h := nomatch h
  reading _ h := nomatch h
  online _ _ h := nomatch h
  born _ _ h := nomatch h
  connecting _ _ h := nomatch h
  offline h := nomatch h

namespace Lifecycle
variable {autoReconnect : Bool} {s s' : State Handler Payload} {i : Nat} {l l' : Loop Handler}

theorem same (h : Lifecycle autoReconnect s) (hs : SameTasks s s') :
    Lifecycle autoReconnect s' := by
  obtain ⟨hws, hnext, hreading, htask, hloops, hdisc⟩ := hs
  constructor
  · rw [hloops]
    exact h.manual
  · rw [hws, hloops, hdisc]
    exact h.unconnected
  · rw [hws, hnext]
    exact h.current
  · rw [hws, hreading]
    exact h.reading
  · rw [hws, hreading, hdisc]
    exact h.online
  · rw [hloops, hnext, hreading]
    exact h.born
  · rw [hloops, htask, hdisc, hreading]
    exact h.connecting
  · rw [hloops, hdisc]
    exact h.offline

theorem setLoop (h : Lifecycle autoReconnect s) (hi : s.loops i = some l)
    (hside : l'.connecting = l.connecting) :
    Lifecycle autoReconnect (s.setLoop i (some l')) := by
  have hloops : ∀ j m, (s.setLoop i (some l')).loops j = some m →
      ∃ m', s.loops j = some m' ∧ m.connecting = m'.connecting := by
    intro j m hm
    by_cases hj : j = i
    · subst hj
      obtain rfl : l' = m := by simpa [State.setLoop] using hm
      exact ⟨l, hi, hside⟩
    · exact ⟨m, by simpa [State.setLoop, hj] using hm, rfl⟩
  constructor
  · intro hmanual
    have hnone := h.manual hmanual i
    rw [hi] at hnone
    cases hnone
  · intro hws
    have hnone := (h.unconnected hws).2 i
    rw [hi] at hnone
    cases hnone
  · exact h.current
  · exact h.reading
  · exact h.online
  · intro j m hm
    obtain ⟨m', hm', _⟩ := hloops j m hm
    exact h.born j m' hm'
  · intro j m hm hc
    obtain ⟨m', hm', he⟩ := hloops j m hm
    exact h.connecting j m' hm' (he ▸ hc)
  · intro hdisc hauto
    obtain ⟨j, m, hm, hc⟩ := h.offline hdisc hauto
    by_cases hj : j = i
    · subst hj
      rw [hi] at hm
      obtain rfl := Option.some.inj hm
      exact ⟨j, l', by simp [State.setLoop], hside.trans hc⟩
    · exact ⟨j, m, by simpa [State.setLoop, hj] using hm, hc⟩

theorem returns (h : Lifecycle autoReconnect s) (hi : s.loops i = some l)
    (hside : l.connecting = false) : Lifecycle autoReconnect (s.setLoop i none) := by
  have hloops : ∀ j m, (s.setLoop i none).loops j = some m → j ≠ i ∧ s.loops j = some m := by
    intro j m hm
    by_cases hj : j = i
    · subst hj
      simp [State.setLoop] at hm
    · exact ⟨hj, by simpa [State.setLoop, hj] using hm⟩
  constructor
  · intro hmanual
    have hnone := h.manual hmanual i
    rw [hi] at hnone
    cases hnone
  · intro hws
    have hnone := (h.unconnected hws).2 i
    rw [hi] at hnone
    cases hnone
  · exact h.current
  · exact h.reading
  · exact h.online
  · intro j m hm
    exact h.born j m (hloops j m hm).2
  · intro j m hm hc
    exact h.connecting j m (hloops j m hm).2 hc
  · intro hdisc hauto
    obtain ⟨j, m, hm, hc⟩ := h.offline hdisc hauto
    have hj : j ≠ i := by
      intro hj
      subst hj
      rw [hm] at hi
      rw [Option.some.inj hi, hside] at hc
      cases hc
    exact ⟨j, m, by simpa [State.setLoop, hj] using hm, hc⟩

theorem flush (h : Lifecycle autoReconnect s) (hi : s.loops i = some .flushing) :
    Lifecycle autoReconnect (s.flush i) := by
  unfold State.flush
  split
  · exact h.returns hi rfl
  · split
    · exact h.same ⟨rfl, rfl, rfl, rfl, rfl, rfl⟩
    · refine (h.same ?_).same (push_same _ _)
      exact ⟨rfl, rfl, rfl, rfl, rfl, rfl⟩

theorem advance (h : Lifecycle autoReconnect s) (hi : s.loops i = some l)
    (hs : s.advance i l = some s') : Lifecycle autoReconnect s' := by
  cases l with
  | sleeping =>
    obtain rfl := Option.some.inj hs
    have hsame := closeWs_same s
    exact (h.same hsame).setLoop ((congrFun hsame.loops i).trans hi) rfl
  | closing =>
    obtain rfl := Option.some.inj hs
    exact h.setLoop hi rfl
  | dialing => cases hs
  | rejoining todo =>
    cases todo with
    | nil =>
      obtain rfl := Option.some.inj hs
      exact h.setLoop hi rfl
    | cons r todo =>
      obtain rfl := Option.some.inj hs
      have hsame := joinInternal_same s r.1 r.2
      split
      · exact (h.same hsame).setLoop ((congrFun hsame.loops i).trans hi) rfl
      · exact (h.same hsame).setLoop ((congrFun hsame.loops i).trans hi) rfl
  | awaiting topic ref todo =>
    obtain ⟨ok, _, rfl⟩ := advance_awaiting hs
    cases ok with
    | true => exact h.setLoop hi rfl
    | false =>
      have hsame : SameTasks s (s.rejected topic) := ⟨rfl, rfl, rfl, rfl, rfl, rfl⟩
      exact (h.same hsame).setLoop hi rfl
  | flushing =>
    obtain rfl := Option.some.inj hs
    exact h.flush hi

theorem opened (hreading : ∀ c, s.reading c = false)
    (hloops : ∀ j m, s'.loops j = some m →
      autoReconnect = true ∧ m.connecting = false ∧ j < s.nextSocket)
    (hws : s'.ws = some s.nextSocket) (hnext : s'.nextSocket = s.nextSocket + 1)
    (hread : s'.reading = Function.update s.reading s.nextSocket true)
    (hdisc : s'.isDisconnected = false) : Lifecycle autoReconnect s' := by
  constructor
  · intro hmanual j
    rw [Option.eq_none_iff_forall_ne_some]
    intro m hm
    have hauto := (hloops j m hm).1
    rw [hmanual] at hauto
    cases hauto
  · intro hnone
    rw [hws] at hnone
    cases hnone
  · intro c hc
    rw [hws, Option.some.injEq] at hc
    omega
  · intro c hc
    rw [hread, Function.update_apply] at hc
    split at hc
    · rename_i he
      rw [hws, he]
    · rw [hreading] at hc
      cases hc
  · intro _ c hc
    rw [hws, Option.some.injEq] at hc
    rw [hread, hc, Function.update_self]
  · intro j m hm
    obtain ⟨_, _, hlt⟩ := hloops j m hm
    refine ⟨by omega, ?_⟩
    rw [hread, Function.update_of_ne (by omega)]
    exact hreading j
  · intro j m hm hc
    rw [(hloops j m hm).2.1] at hc
    cases hc
  · intro hd
    rw [hdisc] at hd
    cases hd

theorem readEnds (h : Lifecycle autoReconnect s) {c : Nat} (hc : s.reading c = true)
    (clean : Bool) : Lifecycle autoReconnect (s.readEnds autoReconnect c clean) := by
  have hws := h.reading c hc
  have hread : ∀ d, Function.update s.reading c false d = false := by
    intro d
    rw [Function.update_apply]
    split
    · rfl
    · rename_i hne
      by_contra hd
      have hd' := h.reading d (eq_true_of_ne_false hd)
      rw [hws] at hd'
      exact hne (Option.some.inj hd').symm
  have hold : ∀ j m, s.loops j = some m → m.connecting = false := by
    intro j m hm
    by_contra hcon
    have hdone := (h.connecting j m hm (eq_true_of_ne_false hcon)).2.2 c
    rw [hc] at hdone
    cases hdone
  cases autoReconnect with
  | false =>
    have hnone : ∀ j m, (s.readEnds false c clean).loops j ≠ some m := by
      intro j m hm
      have hm' : s.loops j = some m := hm
      rw [h.manual rfl j] at hm'
      cases hm'
    constructor
    · exact fun _ => h.manual rfl
    · intro hnone
      rw [show s.ws = none from hnone] at hws
      cases hws
    · exact h.current
    · intro d hd
      exact absurd hd (ne_true_of_eq_false (hread d))
    · intro hd
      cases hd
    · intro j m hm
      exact absurd hm (hnone j m)
    · intro j m hm
      exact absurd hm (hnone j m)
    · intro _ hauto
      cases hauto
  | true =>
    have hloops : ∀ j m, (s.readEnds true c clean).loops j = some m →
        j = c ∨ s.loops j = some m := by
      intro j m hm
      by_cases hj : j = c
      · exact Or.inl hj
      · exact Or.inr (by simpa [State.readEnds, hj] using hm)
    constructor
    · intro hmanual
      cases hmanual
    · intro hnone
      rw [show s.ws = none from hnone] at hws
      cases hws
    · exact h.current
    · intro d hd
      exact absurd hd (ne_true_of_eq_false (hread d))
    · intro hd
      cases hd
    · intro j m hm
      rcases hloops j m hm with rfl | hm'
      · exact ⟨h.current j hws, hread j⟩
      · exact ⟨(h.born j m hm').1, hread j⟩
    · intro j m hm hcon
      rcases hloops j m hm with rfl | hm'
      · exact ⟨rfl, rfl, hread⟩
      · rw [hold j m hm'] at hcon
        cases hcon
    · intro _ _
      exact ⟨c, .sleeping, by simp [State.readEnds], rfl⟩

end Lifecycle

section Steps
variable {autoReconnect : Bool} {s s' : State Handler Payload}

theorem act_of_step {a : Act Handler Payload} (h : step autoReconnect s a = some s') :
    act autoReconnect s a = some s' := by
  unfold step at h
  split at h
  · cases h
  · exact h

theorem join_of_ws (hws : s.ws ≠ none) (topic : String) (onMsg : Handler) :
    s.join topic onMsg = { (s.joinInternal topic onMsg).2 with
      joins := if (s.joinInternal topic onMsg).1
        then Function.update s.joins s.refCounter (some topic) else s.joins
      given := Function.update s.given topic (some onMsg) } := if_neg hws

theorem joinReturns_eq_some {ref : Nat} (h : s.joinReturns ref = some s') :
    ∃ topic ok, s.joins ref = some topic ∧ s.pendingReplies.get ref = some (some ok) ∧
      s' = { (if ok then { s with joined := topic :: s.joined } else s.rejected topic) with
        joins := Function.update s.joins ref none } := by
  unfold State.joinReturns at h
  split at h
  · rename_i topic ok hj hr
    exact ⟨topic, ok, hj, hr, (Option.some.inj h).symm⟩
  · cases h

theorem dialed_eq_some {i : Nat} {success : Bool} (h : s.dialed i success = some s') :
    s.loops i = some .dialing ∧
      s' = if success then s.reconnected i else s.setLoop i (some .sleeping) := by
  unfold State.dialed at h
  split at h
  · rename_i hi
    exact ⟨hi, (Option.some.inj h).symm⟩
  · cases h

theorem act_same {a : Act Handler Payload} (h : act autoReconnect s a = some s') :
    SameTasks s s' ∨ a = .connect ∨ (∃ c clean, a = .readEnds c clean) ∨
      (∃ i opened, a = .dialed i opened) ∨ ∃ i, a = .advance i := by
  cases a with
  | connect => exact Or.inr (Or.inl rfl)
  | readEnds c clean => exact Or.inr (Or.inr (Or.inl ⟨c, clean, rfl⟩))
  | dialed i opened => exact Or.inr (Or.inr (Or.inr (Or.inl ⟨i, opened, rfl⟩)))
  | advance i => exact Or.inr (Or.inr (Or.inr (Or.inr ⟨i, rfl⟩)))
  | join topic onMsg =>
    refine Or.inl ?_
    obtain rfl := Option.some.inj h
    obtain ⟨h₁, h₂, h₃, h₄, h₅, h₆⟩ := joinInternal_same s topic onMsg
    unfold State.join
    split
    · exact SameTasks.refl
    · exact ⟨h₁, h₂, h₃, h₄, h₅, h₆⟩
  | joinReturns ref =>
    refine Or.inl ?_
    obtain ⟨topic, ok, _, _, rfl⟩ := joinReturns_eq_some h
    cases ok <;> exact ⟨rfl, rfl, rfl, rfl, rfl, rfl⟩
  | push p =>
    refine Or.inl ?_
    obtain rfl := Option.some.inj h
    obtain ⟨h₁, h₂, h₃, h₄, h₅, h₆⟩ := push_same s p
    unfold State.callPush
    split <;> exact ⟨h₁, h₂, h₃, h₄, h₅, h₆⟩
  | reply c ref ok =>
    refine Or.inl ?_
    obtain ⟨_, rfl⟩ := guard_eq_some.mp h
    split <;> exact ⟨rfl, rfl, rfl, rfl, rfl, rfl⟩
  | lose c =>
    refine Or.inl ?_
    obtain ⟨_, rfl⟩ := guard_eq_some.mp h
    exact ⟨rfl, rfl, rfl, rfl, rfl, rfl⟩
  | beat =>
    refine Or.inl ?_
    obtain ⟨_, rfl⟩ := guard_eq_some.mp h
    exact beat_same s

theorem Lifecycle.alone {i j : Nat} {m : Loop Handler} (h : Lifecycle autoReconnect s)
    (hi : s.loops i = some .dialing) (hj : s.loops j = some m) (hne : j ≠ i) :
    m.connecting = false := by
  by_contra hc
  have htask := (h.connecting i _ hi rfl).1
  rw [(h.connecting j m hj (eq_true_of_ne_false hc)).1] at htask
  exact hne (Option.some.inj htask)

theorem Lifecycle.step {a : Act Handler Payload} (h : Lifecycle autoReconnect s)
    (hs : ChannelClient.step autoReconnect s a = some s') : Lifecycle autoReconnect s' := by
  have hact := act_of_step hs
  rcases act_same hact with hsame | rfl | ⟨c, clean, rfl⟩ | ⟨i, opened, rfl⟩ | ⟨i, rfl⟩
  · exact h.same hsame
  · obtain ⟨hws, rfl⟩ := guard_eq_some.mp hact
    have hreading : ∀ c, s.reading c = false := by
      intro c
      by_contra hc
      have hsome := h.reading c (eq_true_of_ne_false hc)
      rw [hws] at hsome
      cases hsome
    refine Lifecycle.opened hreading ?_ rfl rfl rfl rfl
    intro j m hm
    have hnone := (h.unconnected hws).2 j
    rw [show s.loops j = some m from hm] at hnone
    cases hnone
  · obtain ⟨hc, rfl⟩ := guard_eq_some.mp hact
    exact h.readEnds hc clean
  · obtain ⟨hi, rfl⟩ := dialed_eq_some hact
    cases opened with
    | true =>
      refine Lifecycle.opened (h.connecting i _ hi rfl).2.2 ?_ rfl rfl rfl rfl
      intro j m hm
      have hauto : autoReconnect = true := by
        by_contra hmanual
        rw [h.manual (Bool.eq_false_iff.mpr hmanual)] at hi
        cases hi
      rcases eq_or_ne j i with rfl | hne
      · obtain rfl : Loop.rejoining s.topicHandlers.items = m := by
          simpa [State.reconnected] using hm
        exact ⟨hauto, rfl, (h.born _ _ hi).1⟩
      · have hm' : s.loops j = some m := by simpa [State.reconnected, hne] using hm
        exact ⟨hauto, h.alone hi hm' hne, (h.born _ _ hm').1⟩
    | false => exact h.setLoop hi rfl
  · obtain ⟨l, hl, hadv⟩ := Option.bind_eq_some_iff.mp hact
    exact h.advance hl hadv

theorem lifecycle_reaches {ok : State Handler Payload → Act Handler Payload → Prop}
    (h : Reaches (step autoReconnect) ok start s) : Lifecycle autoReconnect s :=
  h.invariant lifecycle_start fun _ _ _ hl _ hs => hl.step hs

end Steps

end ChannelClient
end Esr
