import Esr.Runs
import Esr.Yaml

/-! # The runner of an adapter

`run_with_client` joins the adapter's topic and starts three tasks: the directive loop,
the event loop and a watcher of the connection.  As soon as one of them is done, by its
return or by an exception, it cancels the others and closes the client.

The directive loop takes one envelope after the other from the queue that the read loop
fills, calls the adapter and pushes a `directive_ack`.  A step is what a task does up to
its next await.  What comes from outside is a parameter of the steps: the frames, what
the adapter does, and what a push does on a connection that is gone.
-/
namespace Esr
namespace AdapterRunner
open Yaml

/-- A source that `_check_source` accepts. -/
structure SourceUri where
  uri : String
  esr : (stripPrefix "esr://" uri).isSome

/-- What `on_directive` returns: `{"ok": bool, "result"?: …, "error"?: …}`. -/
structure DirectiveResult where
  ok : Bool
  result : Option Value
  error : Option Value

/-- The dictionary. -/
def DirectiveResult.dict (r : DirectiveResult) : Entries :=
  (r.error.map fun e => (.str "error", e)).toList ++ [(.str "ok", .bool r.ok)] ++
    (r.result.map fun v => (.str "result", v)).toList

/-- How a call of `on_directive` ends. -/
inductive Answer where
  | raised (type message : String)
  | returned (r : DirectiveResult)

/-- The adapter has reported success. -/
def Answer.succeeded : Answer → Bool
  | .raised _ _ => false
  | .returned r => r.ok

/-- What `process_directive` returns. -/
structure AckPayload where
  ok : Bool
  result : Option Entries
  error : Option Entries

/-- `process_directive`, after the call of the adapter. -/
def processDirective : Answer → AckPayload
  | .raised type message =>
      ⟨false, none, some [(.str "message", .str message), (.str "type", .str type)]⟩
  | .returned r => ⟨true, some r.dict, none⟩

/-- A `directive_ack` envelope. -/
structure Ack where
  id : Value
  source : SourceUri
  payload : Entries

/-- `make_directive_ack`. -/
def makeDirectiveAck (id : Value) (source : SourceUri) (p : AckPayload) : Ack where
  id := id
  source := source
  payload :=
    (if p.ok then [] else (p.error.map fun e => (.str "error", .map e)).toList) ++
      [(.str "ok", .bool p.ok)] ++
        (if p.ok then (p.result.map fun r => (.str "result", .map r)).toList else [])

/-- `payload.ok` of the ack. -/
def Ack.ok (ack : Ack) : Option Value := get "ok" ack.payload

/-- `make_envelope_filter("directive", queue)`: what is put into the queue. -/
def directiveOf (frame : List Value) : Option Entries :=
  match frame with
  | _ :: _ :: _ :: event :: .map payload :: _ =>
      if event.isStr "envelope" && ((get "kind" payload).any fun kind => kind.isStr "directive") then
        some payload
      else none
  | _ => none

/-- The action and the arguments of an envelope, with `none` where reading them raises. -/
def callOf (envelope : Entries) : Option (Value × Value) :=
  match get "payload" envelope with
  | some (.map payload) =>
      (get "action" payload).map fun action => (action, (get "args" payload).getD (.map []))
  | _ => none

/-- What the adapter yields, as `event_loop` wraps it. -/
structure Event where
  eventType : Value
  args : Entries
  principalId : Value
  workspaceName : Value

inductive Pushed where
  | hello
  | event (e : Event)
  | ack (a : Ack)

/-- One connection of a runner.  A task is `true` until it is done; `closed` is set when
the tasks have been cancelled and the client is closed.

`received` are the directives that came in while the connection was up, and `served` those
that the adapter has been called with, with what it made of them. -/
structure State where
  up : Bool
  queue : List Entries
  current : Option Entries
  directiveTask : Bool
  eventTask : Bool
  watchTask : Bool
  closed : Bool
  pushed : List Pushed
  received : List Entries
  served : List (Entries × Answer)

/-- What can happen next.  `raises` is what a push does once the connection is gone. -/
inductive Act where
  | frame (f : List Value)
  | take
  | answer (a : Answer) (raises : Bool)
  | yields (e : Event) (raises : Bool)
  | eventLoopEnds
  | drop
  | notice
  | unwind

section Steps
variable (emits : Bool) (source : SourceUri)

/-- The read loop hands a frame of the topic to the filter. -/
def State.receive (s : State) (f : List Value) : State :=
  match directiveOf f with
  | some envelope =>
      { s with queue := s.queue ++ [envelope], received := s.received ++ [envelope] }
  | none => s

/-- `directive_loop` up to the call of the adapter. -/
def State.take (s : State) : Option State :=
  match s.directiveTask, s.current, s.queue with
  | true, none, envelope :: rest =>
      some (match callOf envelope with
        | some _ => { s with queue := rest, current := some envelope }
        | none => { s with queue := rest, directiveTask := false })
  | _, _, _ => none

/-- `directive_loop` from the adapter's answer on. -/
def State.answer (s : State) (a : Answer) (raises : Bool) : Option State :=
  match s.directiveTask, s.current with
  | true, some envelope =>
      let s := { s with current := none, served := s.served ++ [(envelope, a)] }
      some (match get "id" envelope with
        | none => { s with directiveTask := false }
        | some id =>
            if s.up then
              { s with
                pushed := s.pushed ++ [.ack (makeDirectiveAck id source (processDirective a))] }
            else { s with directiveTask := !raises })
  | _, _ => none

/-- `event_loop` pushes what the adapter yields. -/
def State.yields (s : State) (e : Event) (raises : Bool) : Option State :=
  if s.eventTask && emits then
    some (if s.up then { s with pushed := s.pushed ++ [.event e] }
      else { s with eventTask := !raises })
  else none

/-- `event_loop` is done: the adapter has no events or no more, or the generator or the
wrapping raises. -/
def State.eventLoopEnds (s : State) : Option State :=
  if s.eventTask then some { s with eventTask := false } else none

/-- The watcher raises. -/
def State.notice (s : State) : Option State :=
  if s.watchTask && !s.up then some { s with watchTask := false } else none

/-- `asyncio.wait` returns: what is not done is cancelled, and the client is closed. -/
def State.unwind (s : State) : Option State :=
  if s.directiveTask && s.eventTask && s.watchTask then none
  else some { s with
    current := none, directiveTask := false, eventTask := false, watchTask := false,
    closed := true }

/-- The steps of a runner; `emits` says whether the adapter has `emit_events`. -/
def step (s : State) (a : Act) : Option State :=
  if s.closed then none
  else
    match a with
    | .frame f => if s.up then some (s.receive f) else none
    | .take => s.take
    | .answer a raises => s.answer source a raises
    | .yields e raises => s.yields emits e raises
    | .eventLoopEnds => s.eventLoopEnds
    | .drop => some { s with up := false }
    | .notice => s.notice
    | .unwind => s.unwind

end Steps

/-- The three tasks have been created. -/
def start : State where
  up := true
  queue := []
  current := none
  directiveTask := true
  eventTask := true
  watchTask := true
  closed := false
  pushed := [.hello]
  received := []
  served := []

/-! ## What is claimed -/

/-- The acks among what was pushed. -/
def acks (s : State) : List Ack :=
  s.pushed.filterMap fun
    | .ack a => some a
    | _ => none

/-- The directives that are still to be acknowledged. -/
def State.outstanding (s : State) : List Entries := s.current.toList ++ s.queue

/-- The ack is that of the directive, and says what the adapter has reported. -/
def Truthful (directive : Entries × Answer) (ack : Ack) : Prop :=
  get "id" directive.1 = some ack.id ∧ ack.ok = some (.bool directive.2.succeeded)

/-- The runner serves directives, the outstanding ones are the last that were received, and
the others have one ack each, in the order of arrival. -/
structure Acknowledged (s : State) : Prop where
  serving : s.directiveTask = true ∧ s.closed = false
  received : s.received = s.served.map Prod.fst ++ s.outstanding
  acks : List.Forall₂ Truthful s.served (acks s)

/-! ## When it is so -/

/-- An envelope that the directive loop can take and acknowledge. -/
def WellFormed (envelope : Entries) : Prop :=
  (get "id" envelope).isSome ∧ (callOf envelope).isSome

/-- The directives are well formed, no failure is returned as a value, and the event loop
does not end while the connection is up. -/
def Sound (s : State) : Act → Prop
  | .frame f => ∀ envelope, directiveOf f = some envelope → WellFormed envelope
  | .answer (.returned r) _ => r.ok = true
  | .eventLoopEnds => s.up = false
  | _ => True

variable {emits : Bool} {source : SourceUri} {s t : State} {envelope : Entries} {a : Answer}

/-! ## One ack -/

theorem ok_makeDirectiveAck (id : Value) (h : ∀ r, a = .returned r → r.ok = true) :
    (makeDirectiveAck id source (processDirective a)).ok = some (.bool a.succeeded) := by
  cases a with
  | raised type message => rfl
  | returned r =>
    have hok : (makeDirectiveAck id source (processDirective (.returned r))).ok =
        some (.bool true) := rfl
    rw [hok, Answer.succeeded, h r rfl]

theorem acks_of_pushed_ack {ack : Ack} (h : t.pushed = s.pushed ++ [.ack ack]) :
    acks t = acks s ++ [ack] := by
  unfold acks
  rw [h, List.filterMap_append]
  rfl

theorem acks_of_pushed_event {e : Event} (h : t.pushed = s.pushed ++ [.event e]) :
    acks t = acks s := by
  unfold acks
  rw [h, List.filterMap_append]
  exact List.append_nil _

/-! ## What every step keeps -/

/-- What holds as long as the connection is up. -/
structure RunnerInv (s : State) : Prop extends Acknowledged s where
  eventTask : s.eventTask = true
  watchTask : s.watchTask = true
  wellFormed : ∀ envelope ∈ s.outstanding, WellFormed envelope

theorem runnerInv_start : RunnerInv start where
  serving := ⟨rfl, rfl⟩
  received := rfl
  acks := .nil
  eventTask := rfl
  watchTask := rfl
  wellFormed _ h := nomatch h

theorem RunnerInv.receive {f : List Value} (h : RunnerInv s)
    (hf : ∀ envelope, directiveOf f = some envelope → WellFormed envelope) :
    RunnerInv (s.receive f) := by
  unfold State.receive
  cases hd : directiveOf f with
  | none => exact h
  | some envelope =>
    refine ⟨⟨h.serving, ?_, h.acks⟩, h.eventTask, h.watchTask, ?_⟩
    · show s.received ++ [envelope] = s.served.map Prod.fst ++ (s.current.toList ++ _)
      rw [h.received, State.outstanding]
      simp
    · intro e he
      have hmem : e ∈ s.outstanding ++ [envelope] := by
        simpa [State.outstanding] using he
      rcases List.mem_append.mp hmem with hin | hin
      · exact h.wellFormed e hin
      · rw [List.mem_singleton.mp hin]
        exact hf envelope hd

theorem RunnerInv.take_eq (h : RunnerInv s) (hidle : s.current = none) {rest : List Entries}
    (hqueue : s.queue = envelope :: rest) :
    s.take = some { s with queue := rest, current := some envelope } := by
  have hmem : envelope ∈ s.outstanding := by
    rw [State.outstanding, hidle, hqueue]
    exact List.mem_cons_self
  obtain ⟨call, hcall⟩ := Option.isSome_iff_exists.mp (h.wellFormed envelope hmem).2
  unfold State.take
  rw [h.serving.1, hidle, hqueue]
  simp only [hcall]

theorem RunnerInv.take (h : RunnerInv s) (ht : s.take = some t) : RunnerInv t := by
  cases hcurrent : s.current with
  | some envelope =>
    unfold State.take at ht
    rw [h.serving.1, hcurrent] at ht
    cases ht
  | none =>
    cases hqueue : s.queue with
    | nil =>
      unfold State.take at ht
      rw [h.serving.1, hcurrent, hqueue] at ht
      cases ht
    | cons envelope rest =>
      rw [h.take_eq hcurrent hqueue] at ht
      obtain rfl := Option.some.inj ht
      have hsame : s.outstanding = envelope :: rest := by
        rw [State.outstanding, hcurrent, hqueue]
        rfl
      refine ⟨⟨h.serving, ?_, h.acks⟩, h.eventTask, h.watchTask, ?_⟩
      · exact h.received.trans (congrArg (s.served.map Prod.fst ++ ·) hsame)
      · exact fun e he => h.wellFormed e (hsame ▸ he)

theorem RunnerInv.answer_eq (h : RunnerInv s) (hup : s.up = true)
    (hcurrent : s.current = some envelope) (raises : Bool) :
    ∃ id, get "id" envelope = some id ∧ s.answer source a raises = some { s with
      current := none
      served := s.served ++ [(envelope, a)]
      pushed := s.pushed ++ [.ack (makeDirectiveAck id source (processDirective a))] } := by
  have hmem : envelope ∈ s.outstanding := by
    rw [State.outstanding, hcurrent]
    exact List.mem_cons_self
  obtain ⟨id, hid⟩ := Option.isSome_iff_exists.mp (h.wellFormed envelope hmem).1
  refine ⟨id, hid, ?_⟩
  unfold State.answer
  rw [h.serving.1, hcurrent]
  simp only [hid, hup, if_pos]

theorem RunnerInv.answer {raises : Bool} (h : RunnerInv s) (hup : s.up = true)
    (ha : ∀ r, a = .returned r → r.ok = true) (ht : s.answer source a raises = some t) :
    RunnerInv t := by
  cases hcurrent : s.current with
  | none =>
    unfold State.answer at ht
    rw [h.serving.1, hcurrent] at ht
    cases ht
  | some envelope =>
    obtain ⟨id, hid, heq⟩ := @RunnerInv.answer_eq source s envelope a h hup hcurrent raises
    rw [heq] at ht
    obtain rfl := Option.some.inj ht
    have hrest : s.outstanding = envelope :: s.queue := by
      rw [State.outstanding, hcurrent]
      rfl
    refine ⟨⟨h.serving, ?_, ?_⟩, h.eventTask, h.watchTask, ?_⟩
    · show s.received = (s.served ++ [(envelope, a)]).map Prod.fst ++ s.queue
      rw [h.received, hrest]
      simp
    · rw [acks_of_pushed_ack rfl]
      exact List.rel_append h.acks (.cons ⟨hid, ok_makeDirectiveAck id ha⟩ .nil)
    · exact fun e he => h.wellFormed e (hrest ▸ List.mem_cons_of_mem _ he)

theorem RunnerInv.yields {e : Event} {raises : Bool} (h : RunnerInv s) (hup : s.up = true)
    (ht : s.yields emits e raises = some t) : RunnerInv t := by
  unfold State.yields at ht
  split at ht
  · rw [hup] at ht
    obtain rfl := Option.some.inj ht
    refine ⟨⟨h.serving, h.received, ?_⟩, h.eventTask, h.watchTask, h.wellFormed⟩
    rw [acks_of_pushed_event rfl]
    exact h.acks
  · cases ht

theorem up_of_step {act : Act} (hs : step emits source s act = some t) (hup : t.up = true) :
    s.up = true := by
  unfold step at hs
  split at hs
  · cases hs
  · cases act with
    | frame f =>
      dsimp only at hs
      split at hs
      · assumption
      · cases hs
    | take =>
      simp only [State.take] at hs
      split at hs
      · obtain rfl := Option.some.inj hs
        split at hup <;> exact hup
      · cases hs
    | answer a raises =>
      simp only [State.answer] at hs
      split at hs
      · obtain rfl := Option.some.inj hs
        split at hup
        · exact hup
        · split at hup <;> exact hup
      · cases hs
    | yields e raises =>
      simp only [State.yields] at hs
      split at hs
      · obtain rfl := Option.some.inj hs
        split at hup <;> exact hup
      · cases hs
    | eventLoopEnds =>
      simp only [State.eventLoopEnds] at hs
      split at hs
      · obtain rfl := Option.some.inj hs
        exact hup
      · cases hs
    | drop =>
      obtain rfl := Option.some.inj hs
      cases hup
    | notice =>
      simp only [State.notice] at hs
      split at hs
      · obtain rfl := Option.some.inj hs
        exact hup
      · cases hs
    | unwind =>
      simp only [State.unwind] at hs
      split at hs
      · cases hs
      · obtain rfl := Option.some.inj hs
        exact hup

theorem RunnerInv.step {act : Act} (h : RunnerInv s) (hup : s.up = true) (hok : Sound s act)
    (hs : step emits source s act = some t) (hup' : t.up = true) : RunnerInv t := by
  have hopen : ¬s.closed = true := by
    rw [h.serving.2]
    exact Bool.false_ne_true
  unfold AdapterRunner.step at hs
  rw [if_neg hopen] at hs
  cases act with
  | frame f =>
    obtain rfl := Option.some.inj ((if_pos hup).symm.trans hs)
    exact h.receive hok
  | take => exact h.take hs
  | answer a raises =>
    refine h.answer hup (fun r hr => ?_) hs
    subst hr
    exact hok
  | yields e raises => exact h.yields hup hs
  | eventLoopEnds =>
    have hdown : s.up = false := hok
    rw [hup] at hdown
    cases hdown
  | drop =>
    obtain rfl := Option.some.inj hs
    cases hup'
  | notice =>
    have hnone : s.notice = none := by simp [State.notice, hup]
    rw [hnone] at hs
    cases hs
  | unwind =>
    have hnone : s.unwind = none := by
      simp [State.unwind, h.serving.1, h.eventTask, h.watchTask]
    rw [hnone] at hs
    cases hs

theorem runnerInv_of_reaches (h : Reaches (step emits source) Sound start s) :
    s.up = true → RunnerInv s := by
  refine @Reaches.invariant _ _ _ _ _ _ (fun u => u.up = true → RunnerInv u) h
    (fun _ => runnerInv_start) ?_
  intro u act t hinv hok hs hup
  have hwas := up_of_step hs hup
  exact (hinv hwas).step hwas hok hs hup

theorem step_take (h : s.closed = false) : step emits source s .take = s.take := by
  unfold step
  rw [h]
  exact if_neg Bool.false_ne_true

theorem step_answer (h : s.closed = false) (raises : Bool) :
    step emits source s (.answer a raises) = s.answer source a raises := by
  unfold step
  rw [h]
  exact if_neg Bool.false_ne_true

theorem RunnerInv.exists_ack (h : RunnerInv s) (hup : s.up = true) (hout : s.outstanding ≠ [])
    (ha : ∀ r, a = .returned r → r.ok = true) :
    ∃ as t ack, Run (AdapterRunner.step emits source) Sound s as t ∧ t.up = true ∧
      acks t = acks s ++ [ack] := by
  -- at once, or after the directive has been taken
  have hnow : ∀ {u envelope}, RunnerInv u → u.up = true → u.current = some envelope →
      ∃ t ack, AdapterRunner.step emits source u (.answer a false) = some t ∧ t.up = true ∧
        acks t = acks u ++ [ack] := by
    intro u envelope hu hupu hcurrent
    obtain ⟨id, -, heq⟩ := @RunnerInv.answer_eq source u envelope a hu hupu hcurrent false
    exact ⟨_, makeDirectiveAck id source (processDirective a),
      (step_answer hu.serving.2 false).trans heq, hupu, acks_of_pushed_ack rfl⟩
  have hsound : ∀ u, Sound u (.answer a false) := by
    intro u
    cases a with
    | raised type message => trivial
    | returned r => exact ha r rfl
  cases hcurrent : s.current with
  | some envelope =>
    obtain ⟨t, ack, ht, hupt, hacks⟩ := hnow h hup hcurrent
    exact ⟨_, t, ack, .cons (hsound s) ht .nil, hupt, hacks⟩
  | none =>
    cases hqueue : s.queue with
    | nil =>
      rw [State.outstanding, hcurrent, hqueue] at hout
      exact absurd rfl hout
    | cons envelope rest =>
      have htake := h.take_eq hcurrent hqueue
      have hstep : AdapterRunner.step emits source s .take =
          some { s with queue := rest, current := some envelope } :=
        (step_take h.serving.2).trans htake
      obtain ⟨t, ack, ht, hupt, hacks⟩ := hnow (h.take htake) hup rfl
      exact ⟨_, t, ack, .cons (show Sound s .take from trivial) hstep (.cons (hsound _) ht .nil), hupt, hacks⟩

/-! ## Over all runs -/

/-- **Directives are acknowledged** once, in order and truthfully, in every run whose
directives are well formed, in which no failure is returned as a value, and in which the
event loop does not end; and the next one gets its ack. -/
theorem acknowledged_of_sound (emits : Bool) (source : SourceUri) (s : State)
    (h : Reaches (step emits source) Sound start s) (hup : s.up = true) :
    Acknowledged s ∧ ∀ a : Answer, s.outstanding ≠ [] → (∀ r, a = .returned r → r.ok = true) →
      ∃ as t ack, Run (step emits source) Sound s as t ∧ t.up = true ∧
        acks t = acks s ++ [ack] := by
  have hinv := runnerInv_of_reaches h hup
  exact ⟨hinv.toAcknowledged, fun a hout ha => hinv.exists_ack hup hout ha⟩

/-! ## A failure that is returned -/

def feishuSource : SourceUri where
  uri := "esr://localhost/adapters/feishu/cli_a1"
  esr := by decide +kernel

/-- A directive frame. -/
def directiveFrame (action : String) : List Value :=
  [.str "1", .null, .str "adapter:feishu/cli_a1", .str "envelope",
    .map [(.str "id", .str "d-1"), (.str "kind", .str "directive"),
      (.str "payload", .map [(.str "action", .str action), (.str "args", .map [])])]]

/-- The directive is received, and the adapter returns this. -/
def answered (action : String) (r : DirectiveResult) : List Act :=
  [.frame (directiveFrame action), .take, .answer (.returned r) false]

theorem acknowledged_pin : ∃ s, (acks s).length = 1 ∧ Acknowledged s := by
  have hsound : ∀ u, Sound u (.frame (directiveFrame "pin")) := by
    intro u envelope henvelope
    obtain rfl := Option.some.inj henvelope
    exact ⟨rfl, rfl⟩
  obtain ⟨s, hs, hup, hacks⟩ : ∃ s, Run (step true feishuSource) Sound start
      (answered "pin" ⟨true, none, none⟩) s ∧ s.up = true ∧ (acks s).length = 1 :=
    ⟨_, .cons (hsound _) rfl (.cons trivial rfl (.cons rfl rfl .nil)), rfl, rfl⟩
  exact ⟨s, hacks, (acknowledged_of_sound true feishuSource s ⟨_, hs⟩ hup).1⟩

/-- **An unknown action is acknowledged as done**: the adapter returns the failure. -/
theorem not_acknowledged_unknownAction : ¬∀ (emits : Bool) (source : SourceUri) (s : State),
    Reaches (step emits source) anyStep start s → s.up = true → Acknowledged s := by
  intro h
  have hrun : Run (step true feishuSource) anyStep start
      (answered "fly" ⟨false, none, some (.str "unknown action: fly")⟩) _ :=
    .cons trivial rfl (.cons trivial rfl (.cons trivial rfl .nil))
  have hacks := (h true feishuSource _ ⟨_, hrun⟩ rfl).acks
  cases hacks with
  | cons htruthful _ => cases htruthful.2

end AdapterRunner
end Esr
