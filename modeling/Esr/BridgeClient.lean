import Mathlib.Logic.Function.Basic
import Esr.PyJson
import Esr.Runs

/-! # The channel client of the bridge

`PhoenixChannelClient` has one task that reads frames.  A `phx_reply` goes to the
future of the request that waits for its ref; every other frame goes into a queue that
the consumer's `receive()` drains.  A step is what one task does between two awaits.

The reading task ends when the connection does, when a frame raises behind it, when it
is cancelled, and in `close()`.  Only `close()` fails the futures, and nobody wakes a
consumer that waits for the queue.  `right_of_careful` says for which runs that does no
harm: the task ends only when nobody waits, the ref of each reply is one that is waited
for, and the consumer leaves nothing in the queue.
-/
namespace Esr
namespace BridgeClient
open PyJson

/-- A frame. -/
structure Frame where
  joinRef : Json
  ref : Json
  topic : Json
  event : Json
  payload : Json

/-- `event == "phx_reply"`. -/
def Frame.isReply (f : Frame) : Bool :=
  match f.event with
  | .str event => event == "phx_reply"
  | _ => false

/-- What arrives, after `json.loads`: no JSON, a text on which it raises something else,
or a value. -/
inductive Raw where
  | invalid
  | raises
  | parsed (v : Json)

/-- A list of five. -/
def Raw.frame : Raw → Option Frame
  | .parsed (.list [joinRef, ref, topic, event, payload]) =>
      some ⟨joinRef, ref, topic, event, payload⟩
  | _ => none

/-- The future of a request. -/
inductive Future where
  | waiting
  | answered (reply : Frame)
  | failed

/-- `fut.set_exception(...)`, if the future is not done. -/
def Future.fail : Future → Future
  | waiting => failed
  | fut => fut

/-- `fut.done()`. -/
def Future.isDone : Future → Bool
  | waiting => false
  | _ => true

/-- `self._ws`: connected, lost, or `None`. -/
inductive Socket where
  | up
  | lost
  | none
  deriving DecidableEq

/-- Where `close()` is: not called, waiting for the heartbeat task, or in
`self._ws.close()`. -/
inductive Closing where
  | no
  | heartbeat
  | socket
  deriving DecidableEq

/-- The consumer: busy outside of `receive()`, waiting in `self._inbox.get()`, at the
end of the iteration, or gone before it. -/
inductive Consumer where
  | busy
  | blocked
  | ended
  | left
  deriving DecidableEq

/-- The client, with the futures of all its requests, whether their frames have been
sent, the frames the consumer was given, and those that came for it. -/
structure State where
  refCounter : Nat
  pending : String → Bool
  future : String → Option Future
  sent : String → Bool
  inbox : List Frame
  reading : Bool
  socket : Socket
  closed : Bool
  closing : Closing
  consumer : Consumer
  delivered : List Frame
  pushes : List Frame

/-- What can happen next. -/
inductive Act where
  | request
  | sendReturns (ref : String)
  | sendRaises (ref : String)
  | resume (ref : String)
  | cancelRequest (ref : String)
  | heartbeat
  | arrive (raw : Raw)
  | lose
  | cancelReading
  | next
  | wake
  | leave
  | close
  | cancelTasks
  | interruptClose
  | closeReturns

namespace State

/-- `_push_and_await` up to `self._ws.send`. -/
def request (s : State) : State :=
  let ref := toString (s.refCounter + 1)
  { s with
    refCounter := s.refCounter + 1
    pending := Function.update s.pending ref true
    future := Function.update s.future ref (some .waiting)
    sent := Function.update s.sent ref false }

/-- The request leaves with an exception of its own. -/
def dropRequest (s : State) (ref : String) : State :=
  { s with
    pending := Function.update s.pending ref false
    future := Function.update s.future ref ((s.future ref).map Future.fail) }

/-- The reading task is over. -/
def endReading (s : State) : State := { s with reading := false }

/-- `fut.set_result(frame)`, if the future is not done. -/
def setResult (s : State) (ref : String) (f : Frame) : State :=
  match s.future ref with
  | some .waiting => { s with future := Function.update s.future ref (some (.answered f)) }
  | _ => s

/-- `self._inbox.put(frame)`. -/
def put (s : State) (f : Frame) : State := { s with inbox := s.inbox ++ [f] }

/-- The frame is one for the consumer. -/
def count (s : State) (f : Frame) : State :=
  if f.isReply then s else { s with pushes := s.pushes ++ [f] }

/-- The body of the loop for a frame. -/
def route (s : State) (f : Frame) : State :=
  if f.isReply then
    match f.ref with
    | .str ref => if s.pending ref then s.setResult ref f else s.put f
    | ref => if ref.hashable then s.put f else s.endReading
  else (s.count f).put f

/-- One turn of `_recv_loop`. -/
def read (s : State) (raw : Raw) : State :=
  match raw, raw.frame with
  | .raises, _ => s.endReading
  | _, none => s
  | _, some f => s.route f

/-- A frame that nobody reads any more. -/
def miss (s : State) (raw : Raw) : State :=
  match raw.frame with
  | some f => s.count f
  | none => s

/-- The first frame of the queue is yielded. -/
def deliver (s : State) (f : Frame) (rest : List Frame) : State :=
  { s with inbox := rest, delivered := s.delivered ++ [f], consumer := .busy }

/-- The consumer asks `receive()` for the next frame. -/
def askNext (s : State) : State :=
  if s.closed then { s with consumer := .ended }
  else
    match s.inbox with
    | f :: rest => s.deliver f rest
    | [] => { s with consumer := .blocked }

/-- The end of `close()`: the futures that wait are failed, and no key is left. -/
def failAll (s : State) : State :=
  { s with
    socket := .none
    closing := .no
    pending := fun _ => false
    future := fun ref =>
      if s.pending ref then (s.future ref).map Future.fail else s.future ref }

end State

/-- One step.  A socket that is not up raises in `send`, which also happens while one
that is up cannot be written to; behind `close()` no frame is taken any more. -/
def step (s : State) : Act → Option State
  | .request => if s.socket ≠ .none then some s.request else none
  | .sendReturns ref =>
      if s.socket = .up ∧ s.pending ref = true ∧ s.sent ref = false then
        some { s with sent := Function.update s.sent ref true }
      else none
  | .sendRaises ref =>
      if s.pending ref = true ∧ s.sent ref = false then some (s.dropRequest ref) else none
  | .resume ref =>
      if s.pending ref = true ∧ s.sent ref = true ∧ (s.future ref).any Future.isDone = true then
        some { s with pending := Function.update s.pending ref false }
      else none
  | .cancelRequest ref => if s.pending ref = true then some (s.dropRequest ref) else none
  | .heartbeat => if s.socket = .up then some { s with refCounter := s.refCounter + 1 } else none
  | .arrive raw =>
      if s.socket = .up then
        if s.reading then some (s.read raw) else if s.closed then none else some (s.miss raw)
      else none
  | .lose => if s.socket = .up then some { s.endReading with socket := .lost } else none
  | .cancelReading => if s.reading then some s.endReading else none
  | .next => if s.consumer = .busy then some s.askNext else none
  | .wake =>
      match s.consumer, s.inbox with
      | .blocked, f :: rest => some (s.deliver f rest)
      | _, _ => none
  | .leave =>
      if s.consumer = .busy ∨ s.consumer = .blocked then some { s with consumer := .left } else none
  | .close =>
      if s.closing = .no ∧ s.socket ≠ .none then
        some { s with closed := true, closing := .heartbeat }
      else none
  | .cancelTasks =>
      if s.closing = .heartbeat then some { s.endReading with closing := .socket } else none
  | .interruptClose => if s.closing = .socket then some { s with closing := .no } else none
  | .closeReturns => if s.closing = .socket then some s.failAll else none

/-- The client behind `connect()`. -/
def start : State where
  refCounter := 0
  pending := fun _ => false
  future := fun _ => none
  sent := fun _ => false
  inbox := []
  reading := true
  socket := .up
  closed := false
  closing := .no
  consumer := .busy
  delivered := []
  pushes := []

/-! ## What is wanted -/

/-- The request waits for its reply. -/
def State.Waits (s : State) (ref : String) : Prop :=
  s.sent ref = true ∧ s.future ref = some .waiting

/-- The consumer waits for a frame. -/
def State.Starves (s : State) : Prop := s.consumer = .blocked ∧ s.inbox = []

/-- Nobody waits. -/
structure State.Quiet (s : State) : Prop where
  requests : ∀ ref, ¬s.Waits ref
  consumer : ¬s.Starves

/-- Behind the end of the reading task nobody is left waiting, but for a `close()` that is
under way; the consumer was given no reply, and every other frame once, in order. -/
structure Right (s : State) : Prop where
  released : s.reading = false → s.closing = .no → s.Quiet
  noReply : ∀ f ∈ s.delivered, f.isReply = false
  once : s.delivered ++ s.inbox = s.pushes
  complete : s.consumer = .ended → s.inbox = []

/-! ## When it goes well -/

/-- The frame ends the reading task: it cannot be read, or its ref is no key. -/
def Raw.ends (raw : Raw) : Prop :=
  raw = .raises ∨ ∃ f, raw.frame = some f ∧ f.isReply = true ∧ f.ref.hashable = false

/-- The frame is one for the consumer. -/
def Raw.isPush (raw : Raw) : Prop := ∃ f, raw.frame = some f ∧ f.isReply = false

/-- The frame is a reply to nothing that is waited for. -/
def State.Stray (s : State) (raw : Raw) : Prop :=
  ∃ f, raw.frame = some f ∧ f.isReply = true ∧ f.ref.hashable = true ∧
    ∀ ref, f.ref = .str ref → s.pending ref = false

/-- The condition on a step: the reading task ends while nobody waits, unless in
`close()`; nobody begins to wait behind its end; a reply is one to a request that is
under way; the consumer does not end with frames in the queue, and none comes behind it
or behind the end of the reading task. -/
def Careful (s : State) : Act → Prop
  | .sendReturns ref =>
      s.reading = true ∨ s.closing ≠ .no ∨ s.future ref ≠ some .waiting
  | .arrive raw =>
      if s.reading = true then
        (raw.ends → s.closing = .no → s.Quiet) ∧ ¬s.Stray raw ∧ (raw.isPush → s.consumer ≠ .ended)
      else ¬raw.isPush
  | .lose | .cancelReading => s.reading = true → s.closing = .no → s.Quiet
  | .next => if s.closed = true then s.inbox = [] else s.inbox = [] → s.reading = true
  | .interruptClose => s.Quiet
  | .closeReturns => ¬s.Starves
  | _ => True

/-- What every careful step preserves. -/
structure Inv (s : State) : Prop where
  released : s.reading = false → s.closing = .no → s.Quiet
  noReply : ∀ f ∈ s.delivered ++ s.inbox, f.isReply = false
  once : s.delivered ++ s.inbox = s.pushes
  complete : s.consumer = .ended → s.inbox = []
  pending : ∀ ref, s.future ref = some .waiting → s.pending ref = true

namespace Inv

theorem right {s : State} (h : Inv s) : Right s :=
  ⟨h.released, fun f hf => h.noReply f (List.mem_append_left _ hf), h.once, h.complete⟩

theorem start : Inv start where
  released := by rintro ⟨⟩
  noReply := by rintro f ⟨⟩
  once := rfl
  complete _ := rfl
  pending := by rintro ref ⟨⟩

variable {s : State}

theorem requests {s' : State} (h : Inv s) (hreading : s'.reading = s.reading)
    (hclosing : s'.closing = s.closing) (hconsumer : s'.consumer = s.consumer)
    (hinbox : s'.inbox = s.inbox) (hdelivered : s'.delivered = s.delivered)
    (hpushes : s'.pushes = s.pushes)
    (hwaits : s.reading = false → s.closing = .no → ∀ ref, s'.Waits ref → s.Waits ref)
    (hpending : ∀ ref, s'.future ref = some .waiting → s'.pending ref = true) : Inv s' where
  released hread hclose := by
    rw [hreading] at hread
    rw [hclosing] at hclose
    have hquiet := h.released hread hclose
    refine ⟨fun ref hw => hquiet.requests ref (hwaits hread hclose ref hw), ?_⟩
    rw [State.Starves, hconsumer, hinbox]
    exact hquiet.consumer
  noReply := by rw [hdelivered, hinbox]; exact h.noReply
  once := by rw [hdelivered, hinbox, hpushes]; exact h.once
  complete := by rw [hconsumer, hinbox]; exact h.complete
  pending := hpending

theorem request (h : Inv s) : Inv s.request := by
  refine h.requests rfl rfl rfl rfl rfl rfl (fun _ _ ref hw => ?_) fun ref hwait => ?_
  · obtain ⟨hsent, hwait⟩ := hw
    by_cases href : ref = toString (s.refCounter + 1)
    · subst href
      simp [State.request] at hsent
    · simp only [State.request, Function.update_of_ne href] at hsent hwait
      exact ⟨hsent, hwait⟩
  · by_cases href : ref = toString (s.refCounter + 1)
    · subst href
      simp [State.request]
    · simp only [State.request, Function.update_of_ne href] at hwait ⊢
      exact h.pending ref hwait

theorem fail_ne_waiting (fut : Option Future) : fut.map Future.fail ≠ some .waiting := by
  rcases fut with _ | _ | _ | _ <;> rintro ⟨⟩

theorem dropRequest (h : Inv s) (ref : String) : Inv (s.dropRequest ref) := by
  refine h.requests rfl rfl rfl rfl rfl rfl (fun _ _ ref' hw => ?_) fun ref' hwait => ?_
  · obtain ⟨hsent, hwait⟩ := hw
    by_cases href : ref' = ref
    · subst href
      simp only [State.dropRequest, Function.update_self] at hwait
      exact (fail_ne_waiting _ hwait).elim
    · simp only [State.dropRequest, Function.update_of_ne href] at hwait
      exact ⟨hsent, hwait⟩
  · by_cases href : ref' = ref
    · subst href
      simp only [State.dropRequest, Function.update_self] at hwait
      exact (fail_ne_waiting _ hwait).elim
    · simp only [State.dropRequest, Function.update_of_ne href] at hwait ⊢
      exact h.pending ref' hwait

theorem setResult (h : Inv s) (ref : String) (f : Frame) : Inv (s.setResult ref f) := by
  rw [State.setResult]
  split
  · refine h.requests rfl rfl rfl rfl rfl rfl (fun _ _ ref' hw => ?_) fun ref' hwait => ?_
    · obtain ⟨hsent, hwait⟩ := hw
      by_cases href : ref' = ref
      · subst href
        simp at hwait
      · simp only [Function.update_of_ne href] at hwait
        exact ⟨hsent, hwait⟩
    · by_cases href : ref' = ref
      · subst href
        simp at hwait
      · simp only [Function.update_of_ne href] at hwait
        exact h.pending ref' hwait
  · exact h

theorem endReading (h : Inv s) (hquiet : s.reading = true → s.closing = .no → s.Quiet) :
    Inv s.endReading := by
  refine ⟨fun _ hclose => ?_, h.noReply, h.once, h.complete, h.pending⟩
  have hboth : s.Quiet := by
    cases hread : s.reading with
    | true => exact hquiet hread hclose
    | false => exact h.released hread hclose
  exact ⟨hboth.requests, hboth.consumer⟩

theorem setSocket (h : Inv s) (socket : Socket) : Inv { s with socket := socket } :=
  h.requests rfl rfl rfl rfl rfl rfl (fun _ _ _ hw => hw) h.pending

theorem put (h : Inv s) {f : Frame} (hf : f.isReply = false) (hread : s.reading = true)
    (hend : s.consumer ≠ .ended) : Inv ((s.count f).put f) := by
  have hcount : s.count f = { s with pushes := s.pushes ++ [f] } := by simp [State.count, hf]
  rw [hcount]
  refine ⟨fun hno => ?_, ?_, ?_, fun hended => (hend hended).elim, h.pending⟩
  · rw [State.put] at hno
    rw [hread] at hno
    cases hno
  · show ∀ g ∈ s.delivered ++ (s.inbox ++ [f]), g.isReply = false
    rw [← List.append_assoc]
    intro g hg
    rcases List.mem_append.mp hg with hg | hg
    · exact h.noReply g hg
    · obtain rfl := List.mem_singleton.mp hg
      exact hf
  · show s.delivered ++ (s.inbox ++ [f]) = s.pushes ++ [f]
    rw [← List.append_assoc, h.once]

theorem read (h : Inv s) (hread : s.reading = true) {raw : Raw}
    (hends : raw.ends → s.closing = .no → s.Quiet) (hstray : ¬s.Stray raw)
    (hpush : raw.isPush → s.consumer ≠ .ended) : Inv (s.read raw) := by
  unfold State.read
  split
  · exact h.endReading fun _ => hends (.inl rfl)
  · exact h
  · rename_i f _ hf
    rw [State.route]
    split
    · rename_i hreply
      split
      · rename_i ref href
        by_cases hpending : s.pending ref = true
        · rw [if_pos hpending]
          exact h.setResult ref f
        · refine (hstray ⟨f, hf, hreply, by rw [href]; rfl, fun ref' he => ?_⟩).elim
          obtain rfl := Json.str.inj (href.symm.trans he)
          simpa using hpending
      · rename_i href
        by_cases hhash : f.ref.hashable = true
        · exact (hstray ⟨f, hf, hreply, hhash, fun ref he => (href ref he).elim⟩).elim
        · rw [if_neg hhash]
          exact h.endReading fun _ => hends (.inr ⟨f, hf, hreply, by simpa using hhash⟩)
    · rename_i hreply
      have hnot : f.isReply = false := by simpa using hreply
      exact h.put hnot hread (hpush ⟨f, hf, hnot⟩)

theorem miss (h : Inv s) {raw : Raw} (hpush : ¬raw.isPush) : Inv (s.miss raw) := by
  rw [State.miss]
  split
  · rename_i f hf
    have hreply : f.isReply = true := by
      by_contra hno
      exact hpush ⟨f, hf, by simpa using hno⟩
    rw [State.count, if_pos hreply]
    exact h
  · exact h

theorem deliver (h : Inv s) {f : Frame} {rest : List Frame} (hinbox : s.inbox = f :: rest) :
    Inv (s.deliver f rest) := by
  have hmove : (s.delivered ++ [f]) ++ rest = s.delivered ++ s.inbox := by
    rw [hinbox, List.append_assoc]
    rfl
  refine ⟨fun hread hclose => ⟨(h.released hread hclose).requests, ?_⟩, ?_, ?_, ?_, h.pending⟩
  · rintro ⟨⟨⟩, -⟩
  · show ∀ g ∈ (s.delivered ++ [f]) ++ rest, g.isReply = false
    rw [hmove]
    exact h.noReply
  · exact hmove.trans h.once
  · rintro ⟨⟩

theorem askNext (h : Inv s)
    (hnext : if s.closed = true then s.inbox = [] else s.inbox = [] → s.reading = true) :
    Inv s.askNext := by
  rw [State.askNext]
  by_cases hclosed : s.closed = true
  · rw [if_pos hclosed] at hnext ⊢
    refine ⟨fun hread hclose => ⟨(h.released hread hclose).requests, ?_⟩, h.noReply, h.once,
      fun _ => hnext, h.pending⟩
    rintro ⟨⟨⟩, -⟩
  · rw [if_neg hclosed] at hnext ⊢
    split
    · rename_i f rest hinbox
      exact h.deliver hinbox
    · rename_i hinbox
      refine ⟨fun hread => ?_, h.noReply, h.once, ?_, h.pending⟩
      · -- the task still reads, so a frame may come
        rw [hnext hinbox] at hread
        cases hread
      · rintro ⟨⟩

theorem failAll (h : Inv s) (hstarve : ¬s.Starves) : Inv s.failAll := by
  have hnone : ∀ ref, s.failAll.future ref ≠ some .waiting := by
    intro ref
    show (if s.pending ref = true then (s.future ref).map Future.fail else s.future ref) ≠ _
    split
    · exact fail_ne_waiting _
    · rename_i hpending
      exact fun hwait => hpending (h.pending ref hwait)
  refine ⟨fun _ _ => ⟨fun ref hw => hnone ref hw.2, hstarve⟩, h.noReply, h.once, h.complete,
    fun ref hwait => (hnone ref hwait).elim⟩

/-- **The step lemma.** -/
theorem step {s' : State} {a : Act} (h : Inv s) (hok : Careful s a)
    (hs : BridgeClient.step s a = some s') : Inv s' := by
  cases a with
  | request =>
    obtain ⟨-, rfl⟩ := guard_eq_some.mp hs
    exact h.request
  | sendReturns ref =>
    obtain ⟨⟨-, hpending, -⟩, rfl⟩ := guard_eq_some.mp hs
    refine h.requests rfl rfl rfl rfl rfl rfl (fun hread hclose ref' hw => ?_) h.pending
    obtain ⟨hsent, hwait⟩ := hw
    by_cases href : ref' = ref
    · -- behind the end of the task nothing is sent that waits
      subst href
      rcases hok with hok | hok | hok
      · rw [hread] at hok
        cases hok
      · exact (hok hclose).elim
      · exact (hok hwait).elim
    · simp only [Function.update_of_ne href] at hsent
      exact ⟨hsent, hwait⟩
  | sendRaises ref =>
    obtain ⟨-, rfl⟩ := guard_eq_some.mp hs
    exact h.dropRequest ref
  | resume ref =>
    obtain ⟨⟨-, -, hdone⟩, rfl⟩ := guard_eq_some.mp hs
    refine h.requests rfl rfl rfl rfl rfl rfl (fun _ _ _ hw => hw) fun ref' hwait => ?_
    have href : ref' ≠ ref := by
      rintro rfl
      change s.future ref' = some .waiting at hwait
      rw [hwait] at hdone
      cases hdone
    simp only [Function.update_of_ne href]
    exact h.pending ref' hwait
  | cancelRequest ref =>
    obtain ⟨-, rfl⟩ := guard_eq_some.mp hs
    exact h.dropRequest ref
  | heartbeat =>
    obtain ⟨-, rfl⟩ := guard_eq_some.mp hs
    exact h.requests rfl rfl rfl rfl rfl rfl (fun _ _ _ hw => hw) h.pending
  | arrive raw =>
    obtain ⟨-, hs⟩ := Option.ite_none_right_eq_some.mp hs
    rw [Careful] at hok
    by_cases hread : s.reading = true
    · rw [if_pos hread] at hs hok
      obtain rfl := Option.some.inj hs
      exact h.read hread hok.1 hok.2.1 hok.2.2
    · rw [if_neg hread] at hs hok
      split at hs
      · cases hs
      · obtain rfl := Option.some.inj hs
        exact h.miss hok
  | lose =>
    obtain ⟨-, rfl⟩ := guard_eq_some.mp hs
    exact (h.endReading hok).setSocket .lost
  | cancelReading =>
    obtain ⟨-, rfl⟩ := guard_eq_some.mp hs
    exact h.endReading hok
  | next =>
    obtain ⟨-, rfl⟩ := guard_eq_some.mp hs
    exact h.askNext hok
  | wake =>
    rw [BridgeClient.step] at hs
    split at hs
    · rename_i f rest hconsumer hinbox
      obtain rfl := Option.some.inj hs
      exact h.deliver hinbox
    · cases hs
  | leave =>
    obtain ⟨-, rfl⟩ := guard_eq_some.mp hs
    refine ⟨fun hread hclose => ⟨(h.released hread hclose).requests, ?_⟩, h.noReply, h.once, ?_,
      h.pending⟩
    · rintro ⟨⟨⟩, -⟩
    · rintro ⟨⟩
  | close =>
    obtain ⟨-, rfl⟩ := guard_eq_some.mp hs
    exact ⟨by rintro - ⟨⟩, h.noReply, h.once, h.complete, h.pending⟩
  | cancelTasks =>
    obtain ⟨-, rfl⟩ := guard_eq_some.mp hs
    exact ⟨by rintro - ⟨⟩, h.noReply, h.once, h.complete, h.pending⟩
  | interruptClose =>
    obtain ⟨-, rfl⟩ := guard_eq_some.mp hs
    exact ⟨fun _ _ => ⟨hok.requests, hok.consumer⟩, h.noReply, h.once, h.complete, h.pending⟩
  | closeReturns =>
    obtain ⟨-, rfl⟩ := guard_eq_some.mp hs
    exact h.failAll hok

end Inv

/-- In every run of careful steps nobody is left waiting, and the consumer gets every
frame but the replies, once. -/
theorem right_of_careful {s : State} (h : Reaches step Careful start s) : Right s := by
  have hinv : Inv s := h.invariant Inv.start fun _ _ _ (hi : Inv _) hok hs => hi.step hok hs
  exact hinv.right

/-! ## Two runs -/

/-- A server frame on the bridge's topic. -/
def envelope : Frame := ⟨.null, .null, .str "cli:channel/s1", .str "envelope", .object []⟩

/-- The server's reply to the request with this ref. -/
def replyTo (ref : String) : Frame :=
  ⟨.str "1", .str ref, .str "cli:channel/s1", .str "phx_reply", .object [("status", .str "ok")]⟩

/-- The text of a frame, read. -/
def Frame.raw (f : Frame) : Raw := .parsed (.list [f.joinRef, f.ref, f.topic, f.event, f.payload])

theorem careful_arrive {s : State} {raw : Raw} (hread : s.reading = true) (hends : ¬raw.ends)
    (hstray : ¬s.Stray raw) (hpush : raw.isPush → s.consumer ≠ .ended) : Careful s (.arrive raw) := by
  rw [Careful, if_pos hread]
  exact ⟨fun h => (hends h).elim, hstray, hpush⟩

/-- A request is answered, a frame is handed on, and the connection is lost while the
consumer is busy. -/
theorem right_answered : ∃ s, Right s ∧ s.delivered = [envelope] ∧ s.reading = false := by
  have hrun : ∃ s, Run step Careful start
      [.request, .sendReturns "1", .arrive (replyTo "1").raw, .resume "1", .arrive envelope.raw,
        .next, .lose] s ∧ s.delivered = [envelope] ∧ s.reading = false := by
    refine ⟨_, .cons trivial rfl (.cons (.inl rfl) rfl (.cons ?_ rfl (.cons trivial rfl
      (.cons ?_ rfl (.cons ?_ rfl (.cons ?_ rfl .nil)))))), rfl, rfl⟩
    · refine careful_arrive rfl ?_ ?_ ?_
      · rintro (h | ⟨f, ⟨⟩, -, ⟨⟩⟩)
        cases h
      · rintro ⟨f, ⟨⟩, -, -, hno⟩
        cases hno "1" rfl
      · rintro ⟨f, ⟨⟩, ⟨⟩⟩
    · refine careful_arrive rfl ?_ ?_ ?_
      · rintro (h | ⟨f, ⟨⟩, ⟨⟩, -⟩)
        cases h
      · rintro ⟨f, ⟨⟩, ⟨⟩, -⟩
      · rintro - ⟨⟩
    · rintro ⟨⟩
    · rintro - -
      refine ⟨?_, ?_⟩
      · rintro ref ⟨hsent, hwait⟩
        by_cases href : ref = "1"
        · subst href
          cases hwait
        · have hnot : Function.update (Function.update start.sent "1" false) "1" true ref = false := by
            rw [Function.update_of_ne href, Function.update_of_ne href]
            rfl
          cases hnot.symm.trans hsent
      · rintro ⟨⟨⟩, -⟩
  obtain ⟨s, hrun, hdelivered, hread⟩ := hrun
  exact ⟨s, right_of_careful ⟨_, hrun⟩, hdelivered, hread⟩

/-- A request whose reply does not come before the connection is lost waits for ever, and
so does the consumer. -/
theorem not_right_lost :
    ∃ s, Reaches step anyStep start s ∧ ¬Right s ∧ s.Waits "1" ∧ s.Starves ∧ s.socket = .lost := by
  have hrun : ∃ s, exec step anyStep start [.request, .sendReturns "1", .next, .lose] = some s ∧
      s.Waits "1" ∧ s.Starves ∧ s.socket = .lost ∧ s.reading = false ∧ s.closing = .no :=
    ⟨_, rfl, ⟨rfl, rfl⟩, ⟨rfl, rfl⟩, rfl, rfl, rfl⟩
  obtain ⟨s, hexec, hwaits, hstarves, hsocket, hread, hclosing⟩ := hrun
  exact ⟨s, .of_exec hexec, fun h => (h.released hread hclosing).requests "1" hwaits, hwaits,
    hstarves, hsocket⟩

end BridgeClient
end Esr
