import Esr.PyJson

/-! # The handler worker

`process_handler_call` answers one `handler_call`: it opens the envelope, finds the
handler and its state model, builds the state, runs the handler and writes down what
it returned.  Each `try` in it names the exceptions it turns into an error reply, and
what stands outside of them is raised into the loop that drains the queue.

`wellBehaved_iff` says for which payloads and handlers the worker keeps the promise of
its docstring, with a state that comes out as JSON.
-/
namespace Esr
namespace HandlerWorker
open PyJson

/-- `Event`. -/
structure Event where
  source : Json
  eventType : Json
  args : List (Json × Json)

/-- `HandlerEntry`. -/
structure HandlerEntry where
  actorType : String
  fn : Py → Event → Except Raised Py

/-- `StateEntry`.  The model is called with the fields as keyword arguments. -/
structure StateEntry where
  schemaVersion : Int
  model : Fields → Except Raised Py

/-- The worker: its registries, and `str`, of an object and of a JSON value. -/
structure Worker where
  handlers : String → Option HandlerEntry
  states : String → Option StateEntry
  str : Py → Except Raised String
  format : Json → String

/-- The `handler_reply` payload. -/
inductive Reply where
  | error (type message : String)
  | answer (newState : Py) (actions : List Py)

/-- What is read out of the envelope. -/
structure Call where
  handlerKey : Json
  state : Json
  event : Event

/-- The body of the first `try`. -/
def openEnvelope (payload : Json) : Except Raised Call := do
  let handlerKey ← payload.subscript "handler"
  let state ← payload.getMethod "state" (.object [])
  let event ← payload.getMethod "event" (.object [])
  let eventType ← event.subscript "event_type"
  let source ← event.getMethod "source" (.str "")
  let args ← (← event.getMethod "args" (.object [])).toDict
  return ⟨handlerKey, state, source, eventType, args⟩

/-- `HANDLER_REGISTRY.get(handler_key)`. -/
def handlerFor (w : Worker) : Json → Except Raised (Option HandlerEntry)
  | .str key => .ok (w.handlers key)
  | key =>
      if key.hashable then .ok none
      else .error (typeError ("unhashable type: '" ++ key.className ++ "'"))

/-- `_error(type(exc).__name__, str(exc))`. -/
def report (exc : Raised) : Except Raised Reply := do
  return .error exc.cls (← exc.text)

/-- `except Exception`. -/
def boundary (exc : Raised) : Except Raised Reply :=
  if exc.isException then report exc else .error exc

/-- `new_state, actions = v`. -/
def unpack (v : Py) : Except Raised (Py × Py) :=
  match v.iterate with
  | none => .error (typeError ("cannot unpack non-iterable " ++ v.className ++ " object"))
  | some ([newState, actions], none) => .ok (newState, actions)
  | some (_ :: _ :: _ :: _, _) => .error (valueError "too many values to unpack (expected 2)")
  | some (_, some exc) => .error exc
  | some (elems, none) => .error (valueError
      ("not enough values to unpack (expected 2, got " ++ toString elems.length ++ ")"))

/-- The dict `_dump_state` makes of a state. -/
def stateDict : Py → Except Raised (List (Py × Py))
  | .object _ (some dumped) _ => dumped
  | .dict entries => .ok entries
  | v => .error (typeError ("handler returned non-state value: " ++ v.className))

/-- `_dump_state`. -/
def dumpState (w : Worker) (state : Py) : Except Raised (List (Py × Py)) := do
  Py.entriesToJsonNative w.str (← stateDict state)

/-- `dumped[key] = v`. -/
def setEntry (key : String) (v : Py) (dumped : List (Py × Py)) : List (Py × Py) :=
  if dumped.any fun e => e.1.isKey key then
    dumped.map fun e => if e.1.isKey key then (e.1, v) else e
  else dumped ++ [(.str key, v)]

/-- `serialise_action`. -/
def serialiseAction : Py → Except Raised Py
  | .action (.emit adapter action args) =>
      .ok (.dict [(.str "type", .str "emit"), (.str "adapter", adapter), (.str "action", action),
        (.str "args", .dict args)])
  | .action (.route target msg) =>
      .ok (.dict [(.str "type", .str "route"), (.str "target", target), (.str "msg", msg)])
  | .action (.invokeCommand name params) =>
      .ok (.dict [(.str "type", .str "invoke_command"), (.str "name", name),
        (.str "params", .dict params)])
  | .action (.reply text .none) =>
      .ok (.dict [(.str "type", .str "reply"), (.str "text", text)])
  | .action (.reply text replyTo) =>
      .ok (.dict [(.str "type", .str "reply"), (.str "text", text),
        (.str "reply_to_message_id", replyTo)])
  | .action (.sendInput text) =>
      .ok (.dict [(.str "type", .str "send_input"), (.str "text", text)])
  | v => .error (typeError ("not an Action: " ++ v.className))

/-- `[serialise_action(a) for a in actions]`. -/
def serialiseActions (actions : Py) : Except Raised (List Py) :=
  match actions.iterate with
  | none => .error (typeError ("'" ++ actions.className ++ "' object is not iterable"))
  | some (items, stop) => do
      let out ← items.mapM serialiseAction
      match stop with
      | none => return out
      | some exc => .error exc

/-- What stands behind the handler. -/
def writeReply (w : Worker) (version : Int) (newState actions : Py) : Except Raised Reply := do
  let dumped ← dumpState w newState
  return .answer (.dict (setEntry "_schema_version" (.int version) dumped))
    (← serialiseActions actions)

/-- The handler on the state, and its reply. -/
def runHandler (w : Worker) (h : HandlerEntry) (s : StateEntry) (state : Py) (event : Event) :
    Except Raised Reply :=
  match h.fn state event >>= unpack with
  | .error exc => boundary exc
  | .ok (newState, actions) => writeReply w s.schemaVersion newState actions

/-- The meta field. -/
def schemaVersion (fields : Fields) : Json := (get "_schema_version" fields).getD .null

/-- The fields without the meta field. -/
def cleanState (fields : Fields) : Fields := fields.filter fun f => f.1 ≠ "_schema_version"

/-- The state says no version, or the one of the model. -/
def versionFits (s : StateEntry) (fields : Fields) : Bool :=
  match schemaVersion fields with
  | .null => true
  | v => v.isInt s.schemaVersion

/-- The state, built and handled. -/
def runState (w : Worker) (h : HandlerEntry) (s : StateEntry) (call : Call) : Except Raised Reply :=
  match call.state with
  | .object fields =>
      if versionFits s fields then
        match s.model (cleanState fields) with
        | .error exc => boundary exc
        | .ok state => runHandler w h s state call.event
      else .ok (.error "SchemaVersionMismatch"
        ("state for " ++ h.actorType ++ " is at schema_version " ++ w.format (schemaVersion fields) ++
          "; this worker expects " ++ toString s.schemaVersion))
  | state => .error (attributeError ("'" ++ state.className ++ "' object has no attribute 'get'"))

/-- The registered handler and state model. -/
def dispatch (w : Worker) (call : Call) : Except Raised Reply :=
  match handlerFor w call.handlerKey with
  | .error exc => .error exc
  | .ok none => .ok (.error "HandlerNotRegistered" (w.format call.handlerKey ++ " not registered"))
  | .ok (some h) =>
      match w.states h.actorType with
      | none => .ok (.error "StateNotRegistered"
          ("state model for actor_type " ++ h.actorType ++ " not registered"))
      | some s => runState w h s call

/-- What the first `try` catches. -/
def caught : List String := ["KeyError", "TypeError", "AttributeError"]

/-- `process_handler_call`. -/
def processHandlerCall (w : Worker) (payload : Json) : Except Raised Reply :=
  match openEnvelope payload with
  | .error exc =>
      if exc.cls ∈ caught then do
        return .error "MalformedEnvelope" (← exc.text)
      else .error exc
  | .ok call => dispatch w call

/-! ## What the docstring promises -/

variable (w : Worker)

/-- The payload names a handler and a state model that are registered. -/
structure Found (payload : Json) (call : Call) (h : HandlerEntry) (s : StateEntry) : Prop where
  opened : openEnvelope payload = .ok call
  handler : handlerFor w call.handlerKey = .ok (some h)
  state : w.states h.actorType = some s

/-- The state model is called, and this is what it gives. -/
def Builds (payload : Json) (call : Call) (h : HandlerEntry) (s : StateEntry)
    (built : Except Raised Py) : Prop :=
  Found w payload call h s ∧ ∃ fields, call.state = .object fields ∧ versionFits s fields = true ∧
    s.model (cleanState fields) = built

/-- The handler is called, and this is the pair it gives, or the exception it ends in. -/
def Gives (payload : Json) (s : StateEntry) (result : Except Raised (Py × Py)) : Prop :=
  ∃ call h state, Builds w payload call h s (.ok state) ∧
    (h.fn state call.event >>= unpack) = result

/-- The call does not raise; an answer has the actions the handler gave, serialised, in
their order, and a state that is JSON when it was built from sets, tuples, lists and
dicts of scalars. -/
structure WellBehaved (payload : Json) : Prop where
  returns : ∃ reply, processHandlerCall w payload = .ok reply
  inOrder : ∀ newState actions, processHandlerCall w payload = .ok (.answer newState actions) →
    ∃ s new acts items, Gives w payload s (.ok (new, acts)) ∧ acts.iterate = some (items, none) ∧
      List.Forall₂ (fun item out => serialiseAction item = .ok out) items actions
  encodable : ∀ newState actions, processHandlerCall w payload = .ok (.answer newState actions) →
    ∀ s new acts entries, Gives w payload s (.ok (new, acts)) → stateDict new = .ok entries →
      Py.EntriesPlain entries → newState.Encodable

/-! ## When it keeps the promise -/

/-- The first element that is no pair with a key for a dict is a sequence of another
length. -/
def UnevenPairs (elems : List Json) : Prop :=
  ∃ good e more l, elems = good ++ e :: more ∧
    (∀ g ∈ good, ∃ k v, g.elements = some [k, v] ∧ k.hashable = true) ∧
    e.elements = some l ∧ l.length ≠ 2

/-- The envelope is complete but for its arguments, which are no dict and have such an
element. -/
def Uneven (payload : Json) : Prop :=
  ∃ fields event args elems, payload = .object fields ∧ (get "handler" fields).isSome ∧
    get "event" fields = some (.object event) ∧ (get "event_type" event).isSome ∧
    get "args" event = some args ∧ (∀ fields, args ≠ .object fields) ∧
    args.elements = some elems ∧ UnevenPairs elems

/-- The exception is an `Exception`, and has a text. -/
def Reported (exc : Raised) : Prop := exc.isException = true ∧ ∃ message, exc.text = .ok message

/-- The dict without the entry that is set anew. -/
def untagged (entries : List (Py × Py)) : List (Py × Py) :=
  entries.filter fun e => !e.1.isKey "_schema_version"

/-- The state is a dict or has a `model_dump`, the elements of its sets can be sorted by
their texts, its sets are flat if it was built from sets, tuples, lists and dicts of
scalars, and running over the actions gives actions. -/
structure Written (newState actions : Py) : Prop where
  state : ∃ entries, stateDict newState = .ok entries ∧ Py.EntriesSortable w.str entries ∧
    (Py.EntriesPlain entries → Py.EntriesSetsFlat (untagged entries))
  actions : ∃ items, actions.iterate = some (items, none) ∧ ∀ item ∈ items, ∃ a, item = .action a

/-- The condition, along the way of the call. -/
structure Tame (payload : Json) : Prop where
  args : ¬Uneven payload
  key : ∀ call, openEnvelope payload = .ok call → call.handlerKey.hashable = true
  state : ∀ call h s, Found w payload call h s → ∃ fields, call.state = .object fields
  model : ∀ call h s exc, Builds w payload call h s (.error exc) → Reported exc
  handler : ∀ s exc, Gives w payload s (.error exc) → Reported exc
  result : ∀ s new acts, Gives w payload s (.ok (new, acts)) → Written w new acts

/-! ## The envelope -/

variable {elems : List Json} {exc : Raised} {key : String} {payload : Json} {actions newState : Py}
  {s : StateEntry}

theorem pairs_error {i : Nat} (h : Json.pairs i elems = .error exc) :
    (∃ message, exc = typeError message) ∨ UnevenPairs elems ∧ ∃ message, exc = valueError message := by
  induction elems generalizing i with
  | nil => cases h
  | cons e rest ih =>
    rw [Json.pairs] at h
    split at h
    · exact .inl ⟨_, (Except.error.inj h).symm⟩
    · rename_i k v hpair
      split at h
      · rename_i hkey
        rcases bind_eq_error.mp h with h | ⟨out, -, ⟨⟩⟩
        refine (ih h).imp_right fun ⟨⟨good, bad, more, l, he, hgood, hbad⟩, hexc⟩ => ?_
        refine ⟨⟨e :: good, bad, more, l, by rw [he]; rfl, ?_, hbad⟩, hexc⟩
        exact List.forall_mem_cons.mpr ⟨⟨k, v, hpair, hkey⟩, hgood⟩
      · exact .inl ⟨_, (Except.error.inj h).symm⟩
    · rename_i l hpair hl
      refine .inr ⟨⟨[], e, rest, l, rfl, by simp, hl, ?_⟩, _, (Except.error.inj h).symm⟩
      intro hlen
      obtain ⟨k, v, rfl⟩ := List.length_eq_two.mp hlen
      exact hpair k v rfl

theorem pairs_of_uneven (h : UnevenPairs elems) (i : Nat) :
    ∃ message, Json.pairs i elems = .error (valueError message) := by
  obtain ⟨good, e, more, l, rfl, hgood, hl, hlen⟩ := h
  induction good generalizing i with
  | nil =>
    rw [List.nil_append, Json.pairs, hl]
    rcases l with _ | ⟨k, _ | ⟨v, _ | ⟨x, l⟩⟩⟩
    · exact ⟨_, rfl⟩
    · exact ⟨_, rfl⟩
    · exact (hlen rfl).elim
    · exact ⟨_, rfl⟩
  | cons g good ih =>
    obtain ⟨⟨k, v, hpair, hkey⟩, hgood⟩ := List.forall_mem_cons.mp hgood
    obtain ⟨message, hrest⟩ := ih (i + 1) hgood
    refine ⟨message, ?_⟩
    rw [List.cons_append, Json.pairs, hpair]
    simp only [hkey, if_true]
    exact bind_eq_error.mpr (.inl hrest)

theorem toDict_error {args : Json} (h : args.toDict = .error exc) :
    (∃ message, exc = typeError message) ∨
      (∀ fields, args ≠ .object fields) ∧ (∃ elems, args.elements = some elems ∧ UnevenPairs elems) ∧
        ∃ message, exc = valueError message := by
  unfold Json.toDict at h
  split at h
  · cases h
  · rename_i hobject
    split at h
    · exact .inl ⟨_, (Except.error.inj h).symm⟩
    · rename_i elems helems
      exact (pairs_error h).imp_right fun ⟨hpairs, hexc⟩ => ⟨hobject, ⟨elems, helems, hpairs⟩, hexc⟩

theorem toDict_of_uneven {args : Json} (hobject : ∀ fields, args ≠ .object fields)
    (helems : args.elements = some elems) (h : UnevenPairs elems) :
    ∃ message, args.toDict = .error (valueError message) := by
  obtain ⟨message, hpairs⟩ := pairs_of_uneven h 0
  refine ⟨message, ?_⟩
  unfold Json.toDict
  split
  · rename_i fields
    exact (hobject fields rfl).elim
  · rw [helems]
    exact hpairs

/-- An exception of the kinds the first `try` catches. -/
def Caught (exc : Raised) : Prop := exc.cls ∈ caught ∧ ∃ message, exc.text = .ok message

theorem caught_typeError (message : String) : Caught (typeError message) :=
  ⟨by simp [caught, typeError, Raised.cls], message, rfl⟩

theorem caught_keyError (key : String) : Caught (keyError key) :=
  ⟨by simp [caught, keyError, Raised.cls], _, rfl⟩

theorem caught_attributeError (message : String) : Caught (attributeError message) :=
  ⟨by simp [caught, attributeError, Raised.cls], message, rfl⟩

theorem not_caught_valueError (message : String) : (valueError message).cls ∉ caught := by
  simp [caught, valueError, Raised.cls]

theorem caught_subscript {v : Json} (h : v.subscript key = .error exc) : Caught exc := by
  unfold Json.subscript at h
  split at h
  · split at h
    · cases h
    · obtain rfl := Except.error.inj h
      exact caught_keyError key
  all_goals
    obtain rfl := Except.error.inj h
    exact caught_typeError _

theorem subscript_eq_ok {v u : Json} :
    v.subscript key = .ok u ↔ ∃ fields, v = .object fields ∧ get key fields = some u := by
  cases v with
  | object fields =>
    rw [Json.subscript]
    cases hget : get key fields <;> simp [hget]
  | _ => simp [Json.subscript]

theorem caught_getMethod {v default : Json} (h : v.getMethod key default = .error exc) :
    Caught exc := by
  unfold Json.getMethod at h
  split at h
  · cases h
  · obtain rfl := Except.error.inj h
    exact caught_attributeError _

theorem openEnvelope_error (h : openEnvelope payload = .error exc) :
    Caught exc ∨ Uneven payload ∧ ∃ message, exc = valueError message := by
  unfold openEnvelope at h
  rcases bind_eq_error.mp h with h | ⟨key, hkey, h⟩
  · exact .inl (caught_subscript h)
  rcases bind_eq_error.mp h with h | ⟨state, -, h⟩
  · exact .inl (caught_getMethod h)
  rcases bind_eq_error.mp h with h | ⟨event, hevent, h⟩
  · exact .inl (caught_getMethod h)
  rcases bind_eq_error.mp h with h | ⟨type, htype, h⟩
  · exact .inl (caught_subscript h)
  rcases bind_eq_error.mp h with h | ⟨source, -, h⟩
  · exact .inl (caught_getMethod h)
  rcases bind_eq_error.mp h with h | ⟨args, hargs, h⟩
  · exact .inl (caught_getMethod h)
  rcases bind_eq_error.mp h with h | ⟨args', -, ⟨⟩⟩
  rcases toDict_error h with ⟨message, rfl⟩ | ⟨hobject, ⟨elems, helems, hpairs⟩, hexc⟩
  · exact .inl (caught_typeError message)
  obtain ⟨fields, rfl, hhandler⟩ := subscript_eq_ok.mp hkey
  obtain ⟨eventFields, rfl, hgetType⟩ := subscript_eq_ok.mp htype
  obtain rfl := Except.ok.inj hargs
  -- an absent event has no type, and absent arguments are a dict
  have hgetEvent : get "event" fields = some (.object eventFields) := by
    cases hget : get "event" fields with
    | none =>
      simp only [Json.getMethod, hget, Option.getD_none, Except.ok.injEq, Json.object.injEq] at hevent
      subst hevent
      cases hgetType
    | some v => simpa [Json.getMethod, hget] using hevent
  have hgetArgs : get "args" eventFields = some ((get "args" eventFields).getD (.object [])) := by
    cases hget : get "args" eventFields with
    | none => exact (hobject [] (by rw [hget]; rfl)).elim
    | some v => rfl
  exact .inr ⟨⟨fields, eventFields, _, elems, rfl, Option.isSome_of_mem hhandler, hgetEvent,
    Option.isSome_of_mem hgetType, hgetArgs, hobject, helems, hpairs⟩, hexc⟩

theorem openEnvelope_of_uneven (h : Uneven payload) :
    ∃ message, openEnvelope payload = .error (valueError message) := by
  obtain ⟨fields, event, args, elems, rfl, hhandler, hevent, htype, hargs, hobject, helems, hpairs⟩ := h
  obtain ⟨key, hkey⟩ := Option.isSome_iff_exists.mp hhandler
  obtain ⟨type, htype⟩ := Option.isSome_iff_exists.mp htype
  obtain ⟨message, hdict⟩ := toDict_of_uneven hobject helems hpairs
  refine ⟨message, ?_⟩
  refine bind_eq_error.mpr (.inr ⟨key, subscript_eq_ok.mpr ⟨fields, rfl, hkey⟩, ?_⟩)
  refine bind_eq_error.mpr (.inr ⟨_, rfl, ?_⟩)
  refine bind_eq_error.mpr (.inr ⟨.object event, by simp [Json.getMethod, hevent], ?_⟩)
  refine bind_eq_error.mpr (.inr ⟨type, subscript_eq_ok.mpr ⟨event, rfl, htype⟩, ?_⟩)
  refine bind_eq_error.mpr (.inr ⟨_, rfl, ?_⟩)
  refine bind_eq_error.mpr (.inr ⟨args, by simp [Json.getMethod, hargs], ?_⟩)
  exact bind_eq_error.mpr (.inl hdict)

/-! ## What the handler returned, written down -/

theorem exists_serialiseAction {v : Py} :
    (∃ out, serialiseAction v = .ok out) ↔ ∃ a, v = .action a := by
  constructor
  · rintro ⟨out, h⟩
    cases v with
    | action a => exact ⟨a, rfl⟩
    | _ => cases h
  · rintro ⟨a, rfl⟩
    cases a with
    | reply text replyTo => cases replyTo <;> exact ⟨_, rfl⟩
    | _ => exact ⟨_, rfl⟩

theorem serialiseActions_eq_ok {out : List Py} :
    serialiseActions actions = .ok out ↔
      ∃ items, actions.iterate = some (items, none) ∧
        List.Forall₂ (fun item o => serialiseAction item = .ok o) items out := by
  rw [serialiseActions]
  rcases hiter : actions.iterate with _ | ⟨items, stop⟩
  · simp
  · rw [bind_eq_ok]
    constructor
    · rintro ⟨out', hout, h⟩
      cases stop with
      | none =>
        obtain rfl := Except.ok.inj h
        exact ⟨items, rfl, mapM_eq_ok.mp hout⟩
      | some exc => cases h
    · rintro ⟨items', he, hout⟩
      obtain ⟨rfl, rfl⟩ := Prod.mk.inj (Option.some.inj he)
      exact ⟨out, mapM_eq_ok.mpr hout, rfl⟩

theorem exists_serialiseActions :
    (∃ out, serialiseActions actions = .ok out) ↔
      ∃ items, actions.iterate = some (items, none) ∧ ∀ item ∈ items, ∃ a, item = .action a := by
  simp only [serialiseActions_eq_ok, ← mapM_eq_ok, ← exists_serialiseAction, ← exists_mapM_eq_ok]
  constructor
  · rintro ⟨out, items, hiter, hout⟩
    exact ⟨items, hiter, out, hout⟩
  · rintro ⟨items, hiter, out, hout⟩
    exact ⟨out, items, hiter, hout⟩

variable {w : Worker}

theorem writeReply_eq_ok {version : Int} {reply : Reply} :
    writeReply w version newState actions = .ok reply ↔
      ∃ entries dumped out, stateDict newState = .ok entries ∧
        Py.entriesToJsonNative w.str entries = .ok dumped ∧ serialiseActions actions = .ok out ∧
        reply = .answer (.dict (setEntry "_schema_version" (.int version) dumped)) out := by
  simp only [writeReply, dumpState, bind_eq_ok]
  constructor
  · rintro ⟨dumped, ⟨entries, hentries, hdumped⟩, out, hout, he⟩
    exact ⟨entries, dumped, out, hentries, hdumped, hout, (Except.ok.inj he).symm⟩
  · rintro ⟨entries, dumped, out, hentries, hdumped, hout, rfl⟩
    exact ⟨dumped, ⟨entries, hentries, hdumped⟩, out, hout, rfl⟩

theorem exists_writeReply {version : Int} :
    (∃ reply, writeReply w version newState actions = .ok reply) ↔
      (∃ entries, stateDict newState = .ok entries ∧ Py.EntriesSortable w.str entries) ∧
        ∃ items, actions.iterate = some (items, none) ∧ ∀ item ∈ items, ∃ a, item = .action a := by
  simp only [writeReply_eq_ok, ← exists_serialiseActions, ← Py.exists_entriesToJsonNative]
  constructor
  · rintro ⟨reply, entries, dumped, out, hentries, hdumped, hout, -⟩
    exact ⟨⟨entries, hentries, dumped, hdumped⟩, out, hout⟩
  · rintro ⟨⟨entries, hentries, dumped, hdumped⟩, out, hout⟩
    exact ⟨_, entries, dumped, out, hentries, hdumped, hout, rfl⟩

theorem encodable_setEntry {n : Int} {dumped : List (Py × Py)} :
    (Py.dict (setEntry key (.int n) dumped)).Encodable ↔
      Py.EntriesEncodable (dumped.filter fun e => !e.1.isKey key) := by
  have hscalar : ∀ k : Py, k.isKey key = true → k.isScalar = true := by
    rintro (_ | _) hk <;> first | rfl | cases hk
  have hfilter : (∀ e ∈ dumped.filter fun e => !e.1.isKey key, e.1.isScalar = true ∧ e.2.Encodable) ↔
      ∀ e ∈ dumped, e.1.isKey key = false → e.1.isScalar = true ∧ e.2.Encodable := by
    simp only [List.mem_filter, Bool.not_eq_true', and_imp]
  rw [Py.Encodable, Py.entriesEncodable_iff, Py.entriesEncodable_iff, hfilter, setEntry]
  split
  · rw [List.forall_mem_map]
    refine forall₂_congr fun e _ => ?_
    cases hkey : e.1.isKey key with
    | false => simp
    | true => exact iff_of_true ⟨hscalar _ hkey, rfl⟩ (by simp)
  · rename_i hnone
    constructor
    · intro h e he _
      exact h e (List.mem_append_left _ he)
    · intro h e he
      rcases List.mem_append.mp he with he | he
      · exact h e he (by simpa using fun hkey => hnone (List.any_eq_true.mpr ⟨e, he, hkey⟩))
      · obtain rfl := List.mem_singleton.mp he
        exact ⟨rfl, rfl⟩

theorem entriesToJsonNative_untagged {str : Py → Except Raised String} {entries dumped : List (Py × Py)}
    (h : Py.entriesToJsonNative str entries = .ok dumped) :
    Py.entriesToJsonNative str (untagged entries) = .ok (untagged dumped) := by
  induction entries generalizing dumped with
  | nil =>
    obtain rfl := Except.ok.inj h
    rfl
  | cons e rest ih =>
    obtain ⟨v, hv, hrest⟩ := bind_eq_ok.mp h
    obtain ⟨out, hout, he⟩ := bind_eq_ok.mp hrest
    obtain rfl := Except.ok.inj he
    cases hkey : e.1.isKey "_schema_version" with
    | true => simpa [untagged, hkey] using ih hout
    | false =>
      have hentries : untagged (e :: rest) = e :: untagged rest := by simp [untagged, hkey]
      have hdumped : untagged ((e.1, v) :: out) = (e.1, v) :: untagged out := by
        simp [untagged, hkey]
      rw [hentries, hdumped]
      exact bind_eq_ok.mpr ⟨v, hv, bind_eq_ok.mpr ⟨_, ih hout, rfl⟩⟩

/-! ## The stages of the call -/

theorem report_eq_ok {reply : Reply} :
    report exc = .ok reply ↔ ∃ message, exc.text = .ok message ∧ reply = .error exc.cls message := by
  rw [report, bind_eq_ok]
  exact exists_congr fun message => and_congr_right fun _ => ⟨fun h => (Except.ok.inj h).symm,
    fun h => h ▸ rfl⟩

theorem exists_boundary : (∃ reply, boundary exc = .ok reply) ↔ Reported exc := by
  rw [boundary, Reported]
  by_cases hexc : exc.isException = true
  · simp only [hexc, if_true, report_eq_ok, true_and]
    exact ⟨fun ⟨_, message, h, _⟩ => ⟨message, h⟩, fun ⟨message, h⟩ => ⟨_, message, h, rfl⟩⟩
  · simp [hexc]

theorem boundary_ne_answer {actions : List Py} : boundary exc ≠ .ok (.answer newState actions) := by
  rw [boundary]
  split
  · rw [Ne, report_eq_ok]
    rintro ⟨message, -, ⟨⟩⟩
  · rintro ⟨⟩

theorem exists_runHandler {h : HandlerEntry} {state : Py} {event : Event} :
    (∃ reply, runHandler w h s state event = .ok reply) ↔
      (∀ exc, (h.fn state event >>= unpack) = .error exc → Reported exc) ∧
        ∀ new acts, (h.fn state event >>= unpack) = .ok (new, acts) →
          ∃ reply, writeReply w s.schemaVersion new acts = .ok reply := by
  rw [runHandler]
  rcases h.fn state event >>= unpack with exc | ⟨new, acts⟩
  · simp [exists_boundary]
  · simp

theorem exists_runState {h : HandlerEntry} {call : Call} :
    (∃ reply, runState w h s call = .ok reply) ↔
      ∃ fields, call.state = .object fields ∧ (versionFits s fields = true →
        (∀ exc, s.model (cleanState fields) = .error exc → Reported exc) ∧
          ∀ state, s.model (cleanState fields) = .ok state →
            ∃ reply, runHandler w h s state call.event = .ok reply) := by
  rw [runState]
  cases hstate : call.state with
  | object fields =>
    by_cases hfits : versionFits s fields = true
    · rcases hmodel : s.model (cleanState fields) with exc | state
      · simp [hfits, hmodel, exists_boundary]
      · simp [hfits, hmodel]
    · simp [hfits]
  | _ => simp

theorem handlerFor_eq_ok {key : Json} {h : Option HandlerEntry} (hok : handlerFor w key = .ok h) :
    key.hashable = true := by
  cases key with
  | list elems => cases hok
  | object fields => cases hok
  | _ => rfl

theorem handlerFor_of_hashable {key : Json} (hkey : key.hashable = true) :
    ∃ h, handlerFor w key = .ok h := by
  cases key with
  | list elems => cases hkey
  | object fields => cases hkey
  | _ => exact ⟨_, rfl⟩

theorem exists_dispatch {call : Call} :
    (∃ reply, dispatch w call = .ok reply) ↔
      call.handlerKey.hashable = true ∧
        ∀ h s, handlerFor w call.handlerKey = .ok (some h) → w.states h.actorType = some s →
          ∃ reply, runState w h s call = .ok reply := by
  by_cases hkey : call.handlerKey.hashable = true
  · obtain ⟨found, hfound⟩ := @handlerFor_of_hashable w _ hkey
    rw [dispatch, hfound]
    rcases found with _ | h
    · simp [hkey]
    rcases hs : w.states h.actorType with _ | s
    · refine iff_of_true ⟨_, by simp only [hs]; rfl⟩ ⟨hkey, fun h' s he hs' => ?_⟩
      obtain rfl := Option.some.inj (Except.ok.inj he)
      rw [hs] at hs'
      cases hs'
    · simp only [hs]
      constructor
      · intro hreply
        refine ⟨hkey, fun h' s' he hs' => ?_⟩
        obtain rfl := Option.some.inj (Except.ok.inj he)
        obtain rfl := Option.some.inj (hs.symm.trans hs')
        exact hreply
      · exact fun hall => hall.2 h s rfl hs
  · rcases hfound : handlerFor w call.handlerKey with exc | found
    · simp [dispatch, hfound, hkey]
    · exact (hkey (handlerFor_eq_ok hfound)).elim

theorem answer_cases {actions : List Py}
    (h : processHandlerCall w payload = .ok (.answer newState actions)) :
    ∃ s new acts, Gives w payload s (.ok (new, acts)) ∧
      writeReply w s.schemaVersion new acts = .ok (.answer newState actions) := by
  rw [processHandlerCall] at h
  rcases hopen : openEnvelope payload with exc | call
  · simp only [hopen] at h
    split at h
    · obtain ⟨message, -, ⟨⟩⟩ := bind_eq_ok.mp h
    · cases h
  simp only [hopen, dispatch] at h
  rcases hfound : handlerFor w call.handlerKey with exc | _ | entry
  · simp [hfound] at h
  · simp [hfound] at h
  rcases hs : w.states entry.actorType with _ | s
  · simp [hfound, hs] at h
  simp only [hfound, hs, runState] at h
  split at h
  · rename_i fields hfields
    split at h
    · rename_i hfits
      split at h
      · exact (boundary_ne_answer h).elim
      · rename_i state hmodel
        rw [runHandler] at h
        split at h
        · exact (boundary_ne_answer h).elim
        · rename_i new acts hgives
          exact ⟨s, new, acts, ⟨call, entry, state, ⟨⟨hopen, hfound, hs⟩, fields, hfields, hfits, hmodel⟩,
            hgives⟩, h⟩
    · cases h
  · cases h

theorem processHandlerCall_of_gives {new acts : Py} (h : Gives w payload s (.ok (new, acts))) :
    processHandlerCall w payload = writeReply w s.schemaVersion new acts := by
  obtain ⟨call, entry, state, ⟨hfound, fields, hfields, hfits, hmodel⟩, hgives⟩ := h
  simp only [processHandlerCall, hfound.opened, dispatch, hfound.handler, hfound.state, runState,
    hfields, hfits, if_true, hmodel, runHandler, hgives]

/-! ## The promise -/

theorem returns_iff :
    (∃ reply, processHandlerCall w payload = .ok reply) ↔
      ¬Uneven payload ∧ (∀ call, openEnvelope payload = .ok call → call.handlerKey.hashable = true) ∧
        (∀ call h s, Found w payload call h s → ∃ fields, call.state = .object fields) ∧
        (∀ call h s exc, Builds w payload call h s (.error exc) → Reported exc) ∧
        (∀ s exc, Gives w payload s (.error exc) → Reported exc) ∧
        ∀ s new acts, Gives w payload s (.ok (new, acts)) →
          ∃ reply, writeReply w s.schemaVersion new acts = .ok reply := by
  rw [processHandlerCall]
  rcases hopen : openEnvelope payload with exc | call
  · have hfound : ∀ {call h s}, ¬Found w payload call h s := by
      rintro call h s ⟨hcall, -, -⟩
      rw [hopen] at hcall
      cases hcall
    have hrest : (∀ call h s, Found w payload call h s → ∃ fields, call.state = .object fields) ∧
        (∀ call h s exc, Builds w payload call h s (.error exc) → Reported exc) ∧
        (∀ s exc, Gives w payload s (.error exc) → Reported exc) ∧
        ∀ s new acts, Gives w payload s (.ok (new, acts)) →
          ∃ reply, writeReply w s.schemaVersion new acts = .ok reply :=
      ⟨fun _ _ _ h => (hfound h).elim, fun _ _ _ _ h => (hfound h.1).elim,
        fun _ _ ⟨_, _, _, h, _⟩ => (hfound h.1).elim,
        fun _ _ _ ⟨_, _, _, h, _⟩ => (hfound h.1).elim⟩
    by_cases huneven : Uneven payload
    · obtain ⟨message, he⟩ := openEnvelope_of_uneven huneven
      rw [hopen] at he
      obtain rfl := Except.error.inj he
      exact iff_of_false (by simp [not_caught_valueError]) fun h => h.1 huneven
    · rcases openEnvelope_error hopen with ⟨hcaught, message, htext⟩ | ⟨h, -⟩
      · refine iff_of_true ⟨.error "MalformedEnvelope" message, ?_⟩ ⟨huneven, by rintro _ ⟨⟩, hrest⟩
        simp only [hcaught, if_true, htext]
        rfl
      · exact (huneven h).elim
  · have heven : ¬Uneven payload := by
      intro h
      obtain ⟨message, he⟩ := openEnvelope_of_uneven h
      rw [hopen] at he
      cases he
    constructor
    · intro hreply
      obtain ⟨hkey, hall⟩ := exists_dispatch.mp hreply
      have hrun : ∀ {call' h s}, Found w payload call' h s →
          call' = call ∧ ∃ reply, runState w h s call = .ok reply := by
        rintro call' h s ⟨hcall, hh, hs⟩
        obtain rfl := Except.ok.inj (hopen.symm.trans hcall)
        exact ⟨rfl, hall h s hh hs⟩
      have hbuild : ∀ {call' h s built}, Builds w payload call' h s built → call' = call ∧
          (∀ exc, built = .error exc → Reported exc) ∧ ∀ state, built = .ok state →
            ∃ reply, runHandler w h s state call.event = .ok reply := by
        rintro call' h s built ⟨hfound, fields, hfields, hfits, rfl⟩
        obtain ⟨rfl, hreply⟩ := hrun hfound
        obtain ⟨fields', hfields', hstate⟩ := exists_runState.mp hreply
        obtain rfl := Json.object.inj (hfields.symm.trans hfields')
        exact ⟨rfl, hstate hfits⟩
      refine ⟨heven, ?_, ?_, ?_, ?_, ?_⟩
      · rintro call' hcall
        obtain rfl := Except.ok.inj hcall
        exact hkey
      · intro call' h s hfound
        obtain ⟨rfl, hreply⟩ := hrun hfound
        exact (exists_runState.mp hreply).imp fun _ h => h.1
      · intro call' h s exc hbuilds
        exact (hbuild hbuilds).2.1 exc rfl
      · rintro s exc ⟨call', h, state, hbuilds, hgives⟩
        obtain ⟨rfl, -, hok⟩ := hbuild hbuilds
        exact (exists_runHandler.mp (hok state rfl)).1 exc hgives
      · rintro s new acts ⟨call', h, state, hbuilds, hgives⟩
        obtain ⟨rfl, -, hok⟩ := hbuild hbuilds
        exact (exists_runHandler.mp (hok state rfl)).2 new acts hgives
    · rintro ⟨-, hkey, hstate, hmodel, hexc, hpair⟩
      refine exists_dispatch.mpr ⟨hkey call rfl, fun h s hh hs => ?_⟩
      have hfound : Found w payload call h s := ⟨hopen, hh, hs⟩
      obtain ⟨fields, hfields⟩ := hstate call h s hfound
      refine exists_runState.mpr ⟨fields, hfields, fun hfits => ⟨fun exc he => ?_, fun state he => ?_⟩⟩
      · exact hmodel call h s exc ⟨hfound, fields, hfields, hfits, he⟩
      · have hbuilds : Builds w payload call h s (.ok state) := ⟨hfound, fields, hfields, hfits, he⟩
        exact exists_runHandler.mpr ⟨fun exc h' => hexc s exc ⟨call, h, state, hbuilds, h'⟩,
          fun new acts h' => hpair s new acts ⟨call, h, state, hbuilds, h'⟩⟩

theorem encodable_answer {new acts : Py} {actions : List Py} {entries : List (Py × Py)}
    (h : writeReply w s.schemaVersion new acts = .ok (.answer newState actions))
    (hentries : stateDict new = .ok entries) :
    newState.Encodable ↔ Py.EntriesSetsFlat (untagged entries) := by
  obtain ⟨entries', dumped, out, hentries', hdumped, -, he⟩ := writeReply_eq_ok.mp h
  obtain rfl := Except.ok.inj (hentries.symm.trans hentries')
  obtain ⟨rfl, -⟩ := Reply.answer.inj he
  rw [encodable_setEntry]
  exact Py.encodable_entriesToJsonNative_iff _ (entriesToJsonNative_untagged hdumped)

/-- The worker keeps its promise exactly on the tame payloads. -/
theorem wellBehaved_iff {payload : Json} : WellBehaved w payload ↔ Tame w payload := by
  constructor
  · intro h
    obtain ⟨hargs, hkey, hstate, hmodel, hhandler, hwrite⟩ := returns_iff.mp h.returns
    refine ⟨hargs, hkey, hstate, hmodel, hhandler, fun s new acts hgives => ?_⟩
    obtain ⟨reply, hreply⟩ := hwrite s new acts hgives
    obtain ⟨⟨entries, hentries, hsort⟩, hactions⟩ := exists_writeReply.mp ⟨reply, hreply⟩
    refine ⟨⟨entries, hentries, hsort, fun hplain => ?_⟩, hactions⟩
    obtain ⟨-, dumped, out, -, -, -, rfl⟩ := writeReply_eq_ok.mp hreply
    have hanswer := (processHandlerCall_of_gives hgives).trans hreply
    exact (encodable_answer hreply hentries).mp
      (h.encodable _ _ hanswer s new acts entries hgives hentries hplain)
  · intro h
    refine ⟨returns_iff.mpr ⟨h.args, h.key, h.state, h.model, h.handler, fun s new acts hgives => ?_⟩,
      fun newState actions hanswer => ?_, fun newState actions hanswer s new acts entries hgives
        hentries hplain => ?_⟩
    · obtain ⟨⟨entries, hentries, hsort, -⟩, hactions⟩ := h.result s new acts hgives
      exact exists_writeReply.mpr ⟨⟨entries, hentries, hsort⟩, hactions⟩
    · obtain ⟨s, new, acts, hgives, hwrite⟩ := answer_cases hanswer
      obtain ⟨_, _, out, _, _, hout, he⟩ := writeReply_eq_ok.mp hwrite
      obtain ⟨-, rfl⟩ := Reply.answer.inj he
      obtain ⟨items, hiter, hitems⟩ := serialiseActions_eq_ok.mp hout
      exact ⟨s, new, acts, items, hgives, hiter, hitems⟩
    · obtain ⟨⟨entries', hentries', -, hflat⟩, -⟩ := h.result s new acts hgives
      obtain rfl := Except.ok.inj (hentries.symm.trans hentries')
      have hwrite := (processHandlerCall_of_gives hgives).symm.trans hanswer
      exact (encodable_answer hwrite hentries).mpr (hflat hplain)

/-! ## A handler that returns no list -/

/-- A worker with one handler, which returns its state and `None`. -/
def forgetful : Worker where
  handlers key :=
    if key = "noop.on_msg" then some ⟨"noop", fun state _ => .ok (.tuple [state, .none])⟩ else none
  states actorType :=
    if actorType = "noop" then some ⟨1, fun _ => .ok (.object "_S" (some (.ok [])) none)⟩ else none
  str v := .ok v.className
  format v := v.className

/-- A call of that handler. -/
def noopCall : Json :=
  .object [("handler", .str "noop.on_msg"), ("state", .object []),
    ("event", .object [("event_type", .str "e"), ("args", .object [])])]

/-- The worker runs over `None` outside of every `try`. -/
theorem not_wellBehaved_forgetful :
    ¬WellBehaved forgetful noopCall ∧
      ∃ exc, processHandlerCall forgetful noopCall = .error exc ∧ exc.cls = "TypeError" := by
  have hraise : processHandlerCall forgetful noopCall =
      .error (typeError ("'" ++ "NoneType" ++ "' object is not iterable")) := rfl
  refine ⟨fun h => ?_, _, hraise, rfl⟩
  obtain ⟨reply, hreply⟩ := h.returns
  rw [hraise] at hreply
  cases hreply

end HandlerWorker
end Esr
