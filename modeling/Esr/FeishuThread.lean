import Mathlib.Data.Finset.Sort
import Mathlib.Data.String.Basic
import Esr.RecentKeys
import Esr.Runs

/-! # The thread handler behind the worker

`on_msg` of `feishu_thread` keeps the ids of the messages it has seen, a thousand at most,
as a set and as a tuple in the order they were recorded.  The worker keeps nothing: each
call brings the state as a JSON object and takes the new one back, the set as a sorted
list and the tuple as a list, and the object is validated into a state again.

Here are the handler, the dump and the validation, that one call of the worker is one call
of the handler (`processHandlerCall_of_stateOf`), and what holds of the states and of the
replies in every run of calls.  An id that has left the set is recorded anew when it is
seen again, so the order is that of recording and not of first sight.
-/
namespace Esr
namespace FeishuThread

/-- A JSON value; a float is its `repr`. -/
inductive Json where
  | null
  | bool (b : Bool)
  | int (n : Int)
  | float (text : String)
  | str (s : String)
  | list (elems : List Json)
  | object (fields : List (String × Json))

/-- An object with the state, whose fields may come in any order. -/
abbrev StateDict := String → Option Json

/-- What `on_msg` reads of an event. -/
structure Event where
  eventType : String
  args : String → Option Json

/-- `Emit`. -/
structure Emit where
  adapter : String
  action : String
  args : List (String × String)

/-- `FeishuThreadState`. -/
structure State where
  threadId : String
  chatId : String
  dedup : Finset String
  dedupOrder : List String
  ackMsgId : Option String

/-- `_DEDUP_CAP`. -/
def dedupCap : Nat := 1000

/-! ## The handler -/

/-- `with_added_dedup`. -/
def State.withAddedDedup (s : State) (msgId : String) : State :=
  if msgId ∈ s.dedup then s
  else if (s.dedupOrder ++ [msgId]).length > dedupCap then
    match s.dedupOrder ++ [msgId] with
    | oldest :: rest =>
      { s with dedup := (insert msgId s.dedup).erase oldest, dedupOrder := rest }
    | [] => { s with dedup := insert msgId s.dedup, dedupOrder := [] }
  else { s with dedup := insert msgId s.dedup, dedupOrder := s.dedupOrder ++ [msgId] }

/-- `with_chat_id`. -/
def State.withChatId (s : State) (chatId : String) : State := { s with chatId := chatId }

section
variable (repr : Json → String)

/-- `str(v)`, which is `repr` on all but strings. -/
def str : Json → String
  | .str s => s
  | v => repr v

/-- `str(event.args.get(key, ""))`. -/
def Event.arg (e : Event) (key : String) : String := ((e.args key).map (str repr)).getD ""

/-- The `notify_session` of an inbound message. -/
def notifySession (s : State) (e : Event) : Emit where
  adapter := "esr-channel"
  action := "notify_session"
  args := [("session_id", s.threadId), ("source", "feishu"), ("chat_id", e.arg repr "chat_id"),
    ("message_id", e.arg repr "message_id"), ("user", e.arg repr "sender_id"),
    ("content", e.arg repr "content")]

/-- `_handle_inbound`. -/
def handleInbound (s : State) (e : Event) : State × List Emit :=
  let msgId := e.arg repr "message_id"
  if msgId ≠ "" ∧ msgId ∈ s.dedup then (s, [])
  else
    let new := if msgId ≠ "" then s.withAddedDedup msgId else s
    let chatId := e.arg repr "chat_id"
    (if chatId ≠ "" ∧ new.chatId = "" then new.withChatId chatId else new, [notifySession repr s e])

/-- `_handle_outbound`. -/
def handleOutbound (s : State) (e : Event) : State × List Emit :=
  if s.chatId = "" then (s, [])
  else (s, [⟨"feishu", "send_message", [("chat_id", s.chatId), ("content", e.arg repr "text")]⟩])

/-- `on_msg`. -/
def onMsg (s : State) (e : Event) : State × List Emit :=
  if e.eventType = "msg_received" then handleInbound repr s e
  else if e.eventType = "cc_output" then handleOutbound repr s e
  else (s, [])

end

/-! ## The worker -/

/-- The registered `schema_version`. -/
def schemaVersion : Int := 1

/-- `_dump_state`, and the version tagged on. -/
def dump (s : State) : StateDict
  | "thread_id" => some (.str s.threadId)
  | "chat_id" => some (.str s.chatId)
  | "dedup" => some (.list (s.dedup.sort.map .str))
  | "dedup_order" => some (.list (s.dedupOrder.map .str))
  | "ack_msg_id" => some (s.ackMsgId.elim .null .str)
  | "_schema_version" => some (.int schemaVersion)
  | _ => none

/-- Why a call is answered with an error. -/
inductive Error where
  | schemaVersionMismatch (incoming : Json)
  | validation (field : String)

/-- `incoming == 1`. -/
def isSchemaVersion : Json → Bool
  | .int n => n = schemaVersion
  | .bool b => b
  | .float text => text = "1.0"
  | _ => false

/-- A `str` field. -/
def strField (key : String) (d : StateDict) : Except Error String :=
  match d key with
  | none => .ok ""
  | some (.str s) => .ok s
  | some _ => .error (.validation key)

/-- The strings of a list of strings. -/
def strings : List Json → Option (List String)
  | [] => some []
  | .str s :: rest => (strings rest).map (s :: ·)
  | _ :: _ => none

/-- A `frozenset[str]` or `tuple[str, ...]` field, as the list it is read from. -/
def stringsField (key : String) (d : StateDict) : Except Error (List String) :=
  match d key with
  | none => .ok []
  | some (.list elems) =>
    match strings elems with
    | some ss => .ok ss
    | none => .error (.validation key)
  | some _ => .error (.validation key)

/-- A `str | None` field. -/
def optionalField (key : String) (d : StateDict) : Except Error (Option String) :=
  match d key with
  | none | some .null => .ok none
  | some (.str s) => .ok (some s)
  | some _ => .error (.validation key)

/-- `FeishuThreadState(**clean_state_dict)`. -/
def validate (d : StateDict) : Except Error State := do
  let threadId ← strField "thread_id" d
  let chatId ← strField "chat_id" d
  let dedup ← stringsField "dedup" d
  let dedupOrder ← stringsField "dedup_order" d
  let ackMsgId ← optionalField "ack_msg_id" d
  return ⟨threadId, chatId, dedup.toFinset, dedupOrder, ackMsgId⟩

/-- The check of `_schema_version`. -/
def checkSchema (d : StateDict) : Except Error Unit :=
  match d "_schema_version" with
  | none | some .null => .ok ()
  | some v => if isSchemaVersion v then .ok () else .error (.schemaVersionMismatch v)

/-- The state an object stands for. -/
def stateOf (d : StateDict) : Except Error State := do
  checkSchema d
  validate d

/-- `process_handler_call`: the new state, dumped, and the actions. -/
def processHandlerCall (repr : Json → String) (d : StateDict) (e : Event) :
    Except Error (StateDict × List Emit) := do
  let s ← stateOf d
  return (dump (onMsg repr s e).1, (onMsg repr s e).2)

/-- The calls, each with the state the one before returned. -/
def step (repr : Json → String) (d : StateDict) (e : Event) : Option StateDict :=
  (processHandlerCall repr d e).toOption.map Prod.fst

/-! ## The round trip -/

theorem strings_map_str (ss : List String) : strings (ss.map .str) = some ss := by
  induction ss with
  | nil => rfl
  | cons s ss ih =>
    rw [List.map_cons, strings, ih]
    rfl

/-- **What is dumped is validated into the same state.** -/
theorem stateOf_dump (s : State) : stateOf (dump s) = .ok s := by
  have hdedup : stringsField "dedup" (dump s) = .ok s.dedup.sort := by
    simp only [stringsField, dump, strings_map_str]
  have horder : stringsField "dedup_order" (dump s) = .ok s.dedupOrder := by
    simp only [stringsField, dump, strings_map_str]
  have hack : optionalField "ack_msg_id" (dump s) = .ok s.ackMsgId := by
    cases hs : s.ackMsgId <;> simp [optionalField, dump, hs]
  have hset : s.dedup.sort.toFinset = s.dedup := Finset.sort_toFinset s.dedup _
  have hvalid : validate (dump s) = .ok s := by
    simp only [validate, hdedup, horder, hack]
    show Except.ok (⟨s.threadId, s.chatId, s.dedup.sort.toFinset, s.dedupOrder, s.ackMsgId⟩ : State) =
      .ok s
    rw [hset]
  exact hvalid

variable {repr : Json → String} {s : State}

/-- **One call of the worker is one call of the handler.** -/
theorem processHandlerCall_of_stateOf {d : StateDict} (h : stateOf d = .ok s) (e : Event) :
    processHandlerCall repr d e = .ok (dump (onMsg repr s e).1, (onMsg repr s e).2) := by
  rw [processHandlerCall, h]
  rfl

/-! ## One event -/

section
variable {repr : Json → String} {s : State} {e : Event} {m : String}

/-- The message id an event carries. -/
def idOf (repr : Json → String) (e : Event) : Option String :=
  if e.eventType = "msg_received" ∧ e.arg repr "message_id" ≠ "" then
    some (e.arg repr "message_id")
  else none

/-- The id that is recorded: one that is not in the set. -/
def recordedAt (repr : Json → String) (s : State) (e : Event) : Option String :=
  (idOf repr e).filter fun m => m ∉ s.dedup

/-- The set and the order are those of the keys recorded last. -/
def Valid (s : State) : Prop := RecentKeys.Valid dedupCap s.dedup s.dedupOrder

theorem idOf_eq_some : idOf repr e = some m ↔
    e.eventType = "msg_received" ∧ m ≠ "" ∧ e.arg repr "message_id" = m := by
  unfold idOf
  constructor
  · intro h
    split at h
    · rename_i hcond
      obtain rfl := Option.some.inj h
      exact ⟨hcond.1, hcond.2, rfl⟩
    · cases h
  · rintro ⟨htype, hne, rfl⟩
    rw [if_pos ⟨htype, hne⟩]

theorem recordedAt_eq_some : recordedAt repr s e = some m ↔ idOf repr e = some m ∧ m ∉ s.dedup := by
  rw [recordedAt, Option.filter_eq_some_iff, decide_eq_true_eq]

theorem withAddedDedup_of_notMem (hv : Valid s) (hm : m ∉ s.dedup) :
    s.withAddedDedup m = { s with
      dedup := (RecentKeys.push dedupCap s.dedup s.dedupOrder m).1
      dedupOrder := (RecentKeys.push dedupCap s.dedup s.dedupOrder m).2 } := by
  have hcard := hv.card_insert hm
  have hlen : (s.dedupOrder ++ [m]).length = s.dedupOrder.length + 1 := List.length_append
  unfold State.withAddedDedup RecentKeys.push
  rw [if_neg hm, hcard, hlen]
  split
  · cases s.dedupOrder <;> rfl
  · rfl

theorem onMsg_of_mem (h : idOf repr e = some m) (hm : m ∈ s.dedup) : onMsg repr s e = (s, []) := by
  obtain ⟨htype, hne, rfl⟩ := idOf_eq_some.mp h
  rw [onMsg, if_pos htype, handleInbound]
  exact if_pos ⟨hne, hm⟩

theorem onMsg_of_inbound (htype : e.eventType = "msg_received")
    (hnew : ∀ m, idOf repr e = some m → m ∉ s.dedup) :
    ∃ s', onMsg repr s e = (s', [notifySession repr s e]) ∧
      (s'.dedup, s'.dedupOrder) = (match idOf repr e with
        | some m => ((s.withAddedDedup m).dedup, (s.withAddedDedup m).dedupOrder)
        | none => (s.dedup, s.dedupOrder)) ∧
      (s.chatId ≠ "" → s'.chatId = s.chatId) := by
  have hchat : ∀ new : State, new.chatId = s.chatId →
      ((if e.arg repr "chat_id" ≠ "" ∧ new.chatId = "" then
        new.withChatId (e.arg repr "chat_id") else new).dedup = new.dedup ∧
      (if e.arg repr "chat_id" ≠ "" ∧ new.chatId = "" then
        new.withChatId (e.arg repr "chat_id") else new).dedupOrder = new.dedupOrder ∧
      (s.chatId ≠ "" → (if e.arg repr "chat_id" ≠ "" ∧ new.chatId = "" then
        new.withChatId (e.arg repr "chat_id") else new).chatId = s.chatId)) := by
    intro new hnewChat
    split
    · rename_i hcond
      exact ⟨rfl, rfl, fun hne => absurd (hnewChat.symm.trans hcond.2) hne⟩
    · exact ⟨rfl, rfl, fun _ => hnewChat⟩
  rw [onMsg, if_pos htype, handleInbound]
  by_cases hne : e.arg repr "message_id" ≠ ""
  · have hid : idOf repr e = some (e.arg repr "message_id") := idOf_eq_some.mpr ⟨htype, hne, rfl⟩
    have hnot : ¬(e.arg repr "message_id" ≠ "" ∧ e.arg repr "message_id" ∈ s.dedup) :=
      fun h => hnew _ hid h.2
    have hadded : (s.withAddedDedup (e.arg repr "message_id")).chatId = s.chatId := by
      unfold State.withAddedDedup
      split
      · rfl
      · split
        · cases s.dedupOrder <;> rfl
        · rfl
    obtain ⟨hdedup, horder, hkept⟩ := hchat _ hadded
    rw [if_neg hnot, if_pos hne, hid]
    exact ⟨_, rfl, Prod.ext hdedup horder, hkept⟩
  · have hid : idOf repr e = none := by
      rw [idOf, if_neg fun h => hne h.2]
    obtain ⟨hdedup, horder, hkept⟩ := hchat s rfl
    rw [if_neg fun h => hne h.1, if_neg hne, hid]
    exact ⟨_, rfl, Prod.ext hdedup horder, hkept⟩

theorem onMsg_of_not_inbound (htype : e.eventType ≠ "msg_received") :
    (onMsg repr s e).1 = s ∧ idOf repr e = none := by
  refine ⟨?_, if_neg fun h => htype h.1⟩
  rw [onMsg, if_neg htype]
  split
  · unfold handleOutbound
    split <;> rfl
  · rfl

theorem window_onMsg (repr : Json → String) (hv : Valid s) (e : Event) :
    ((onMsg repr s e).1.dedup, (onMsg repr s e).1.dedupOrder) =
      match recordedAt repr s e with
      | some m => RecentKeys.push dedupCap s.dedup s.dedupOrder m
      | none => (s.dedup, s.dedupOrder) := by
  by_cases htype : e.eventType = "msg_received"
  · cases hid : idOf repr e with
    | none =>
      have hnone : ∀ m, idOf repr e = some m → m ∉ s.dedup := by
        intro m hm
        cases hid.symm.trans hm
      obtain ⟨s', hs', hwindow, -⟩ := onMsg_of_inbound (s := s) htype hnone
      rw [hid] at hwindow
      rw [hs', hwindow, recordedAt, hid]
      rfl
    | some m =>
      by_cases hm : m ∈ s.dedup
      · have hrec : recordedAt repr s e = none := by simp [recordedAt, hid, hm]
        rw [onMsg_of_mem hid hm, hrec]
      · have hrec : recordedAt repr s e = some m := recordedAt_eq_some.mpr ⟨hid, hm⟩
        have hnew : ∀ m', idOf repr e = some m' → m' ∉ s.dedup := by
          intro m' hm'
          obtain rfl := Option.some.inj (hid.symm.trans hm')
          exact hm
        obtain ⟨s', hs', hwindow, -⟩ := onMsg_of_inbound htype hnew
        rw [hid] at hwindow
        change _ = ((s.withAddedDedup m).dedup, (s.withAddedDedup m).dedupOrder) at hwindow
        rw [withAddedDedup_of_notMem hv hm] at hwindow
        rw [hs', hwindow, hrec]
  · have hkept : (onMsg repr s e).1 = s ∧ idOf repr e = none := onMsg_of_not_inbound htype
    obtain ⟨hsame, hid⟩ := hkept
    rw [hsame, recordedAt, hid]
    rfl

theorem dedupOrder_of_none (hv : Valid s) (h : recordedAt repr s e = none) :
    (onMsg repr s e).1.dedupOrder = s.dedupOrder := by
  have hwindow := window_onMsg repr hv e
  rw [h] at hwindow
  exact (Prod.mk.inj hwindow).2

theorem dedupOrder_of_some (hv : Valid s) (h : recordedAt repr s e = some m) :
    (onMsg repr s e).1.dedupOrder = (RecentKeys.push dedupCap s.dedup s.dedupOrder m).2 := by
  have hwindow := window_onMsg repr hv e
  rw [h] at hwindow
  exact (Prod.mk.inj hwindow).2

theorem chatId_onMsg (h : s.chatId ≠ "") (e : Event) : (onMsg repr s e).1.chatId = s.chatId := by
  by_cases htype : e.eventType = "msg_received"
  · by_cases hmem : ∃ m, idOf repr e = some m ∧ m ∈ s.dedup
    · obtain ⟨m, hid, hm⟩ := hmem
      rw [onMsg_of_mem hid hm]
    · have hnew : ∀ m, idOf repr e = some m → m ∉ s.dedup := fun m hid hm => hmem ⟨m, hid, hm⟩
      obtain ⟨s', hs', -, hkept⟩ := onMsg_of_inbound htype hnew
      rw [hs']
      exact hkept h
  · rw [(onMsg_of_not_inbound htype).1]

theorem Valid.onMsg (hv : Valid s) (e : Event) : Valid (onMsg repr s e).1 := by
  have hwindow := window_onMsg repr hv e
  cases hrec : recordedAt repr s e with
  | none =>
    rw [hrec] at hwindow
    obtain ⟨hdedup, horder⟩ := Prod.mk.inj hwindow
    rw [Valid, hdedup, horder]
    exact hv
  | some m =>
    rw [hrec] at hwindow
    obtain ⟨hdedup, horder⟩ := Prod.mk.inj hwindow
    rw [Valid, hdedup, horder]
    exact RecentKeys.Valid.push hv (recordedAt_eq_some.mp hrec).2

end

/-! ## Runs of calls -/

section
variable (repr : Json → String)

/-- The handler's state after the events. -/
def stateAfter (s : State) (es : List Event) : State := es.foldl (fun s e => (onMsg repr s e).1) s

/-- The ids recorded at the events, in order. -/
def recorded (s : State) : List Event → List String
  | [] => []
  | e :: es => (recordedAt repr s e).toList ++ recorded (onMsg repr s e).1 es

end

section
variable {repr : Json → String} {s : State} {m : String}

theorem stateAfter_append (s : State) (es es' : List Event) :
    stateAfter repr s (es ++ es') = stateAfter repr (stateAfter repr s es) es' :=
  List.foldl_append

theorem recorded_append (s : State) (es es' : List Event) :
    recorded repr s (es ++ es') = recorded repr s es ++ recorded repr (stateAfter repr s es) es' := by
  induction es generalizing s with
  | nil => rfl
  | cons e es ih =>
    rw [List.cons_append, recorded, recorded, ih, List.append_assoc]
    rfl

theorem Valid.stateAfter (hv : Valid s) (es : List Event) : Valid (stateAfter repr s es) := by
  induction es generalizing s with
  | nil => exact hv
  | cons e es ih => exact ih (hv.onMsg e)

variable {es : List Event} {ms : List String}

theorem exists_of_mem_recorded (h : m ∈ recorded repr s es) : ∃ e ∈ es, idOf repr e = some m := by
  induction es generalizing s with
  | nil => cases h
  | cons e es ih =>
    rcases List.mem_append.mp h with hhead | htail
    · rw [Option.mem_toList] at hhead
      exact ⟨e, List.mem_cons_self, (recordedAt_eq_some.mp hhead).1⟩
    · obtain ⟨e', he', hid⟩ := ih htail
      exact ⟨e', List.mem_cons_of_mem _ he', hid⟩

/-- The last `dedupCap` of a list. -/
def latest (ms : List String) : List String := ms.drop (ms.length - dedupCap)

theorem latest_of_le (h : ms.length ≤ dedupCap) : latest ms = ms := by
  rw [latest, Nat.sub_eq_zero_of_le h, List.drop_zero]

theorem length_latest (ms : List String) : (latest ms).length = min ms.length dedupCap := by
  rw [latest, List.length_drop]
  omega

theorem latest_snoc {rest : List String} {a : String} (h : latest ms = a :: rest)
    (hfull : dedupCap ≤ ms.length) (m : String) : latest (ms ++ [m]) = rest ++ [m] := by
  have hlen : (ms ++ [m]).length = ms.length + 1 := List.length_append
  have hdrop : ms.length + 1 - dedupCap = (ms.length - dedupCap) + 1 := by omega
  have hle : ms.length - dedupCap + 1 ≤ ms.length := by
    have hpos : 0 < dedupCap := by decide
    omega
  rw [latest, hlen, hdrop, List.drop_append_of_le_length hle, ← List.tail_drop]
  rw [latest] at h
  rw [h, List.tail_cons]

/-- A state in which nothing is recorded. -/
def Fresh (s : State) : Prop := s.dedup = ∅ ∧ s.dedupOrder = []

theorem Fresh.valid (h : Fresh s) : Valid s := by
  rw [Valid, h.1, h.2]
  exact RecentKeys.valid_empty

/-- **The order is that of recording**: the last thousand ids recorded. -/
theorem dedupOrder_stateAfter (h : Fresh s) (es : List Event) :
    (stateAfter repr s es).dedupOrder = latest (recorded repr s es) := by
  induction es using List.reverseRecOn with
  | nil =>
    have hnil : latest [] = [] := latest_of_le (Nat.zero_le _)
    rw [recorded, hnil]
    exact h.2
  | append_singleton es e ih =>
    have hv : Valid (stateAfter repr s es) := h.valid.stateAfter es
    rw [stateAfter_append, recorded_append]
    change (onMsg repr (stateAfter repr s es) e).1.dedupOrder = latest (recorded repr s es ++
      ((recordedAt repr (stateAfter repr s es) e).toList ++ []))
    rw [List.append_nil]
    cases hrec : recordedAt repr (stateAfter repr s es) e with
    | none =>
      rw [dedupOrder_of_none hv hrec, Option.toList_none, List.append_nil]
      exact ih
    | some m =>
      have hnot := (recordedAt_eq_some.mp hrec).2
      have hlen : (stateAfter repr s es).dedupOrder.length =
          min (recorded repr s es).length dedupCap := by rw [ih, length_latest]
      rw [dedupOrder_of_some hv hrec, Option.toList_some]
      by_cases hroom : (recorded repr s es).length < dedupCap
      · have hmore : (recorded repr s es ++ [m]).length ≤ dedupCap := by
          rw [List.length_append]
          exact hroom
        rw [hv.push_of_room hnot (by omega), latest_of_le hmore, ih, latest_of_le hroom.le]
      · cases horder : (stateAfter repr s es).dedupOrder with
        | nil =>
          rw [horder, List.length_nil] at hlen
          have hpos : 0 < dedupCap := by decide
          omega
        | cons a rest =>
          have hfull : (a :: rest).length = dedupCap := by
            rw [← horder]
            omega
          have hv' : RecentKeys.Valid dedupCap (stateAfter repr s es).dedup (a :: rest) :=
            horder ▸ hv
          rw [hv'.push_of_full hnot hfull, latest_snoc (ih.symm.trans horder) (by omega)]

/-- **An id is in the set while fewer than a thousand others have been recorded after it.** -/
theorem mem_dedup_of_few {e : Event} (hv : Valid s) (hrec : recordedAt repr s e = some m)
    (es : List Event) (hfew : ((recorded repr (onMsg repr s e).1 es).toFinset.erase m).card <
      dedupCap) : m ∈ (stateAfter repr (onMsg repr s e).1 es).dedup := by
  have hv' : Valid (onMsg repr s e).1 := hv.onMsg e
  have hsince : ∀ es, RecentKeys.Since dedupCap m (recorded repr (onMsg repr s e).1 es)
      (stateAfter repr (onMsg repr s e).1 es).dedupOrder := by
    intro es
    induction es using List.reverseRecOn with
    | nil =>
      change RecentKeys.Since dedupCap m [] (onMsg repr s e).1.dedupOrder
      rw [dedupOrder_of_some hv hrec]
      exact RecentKeys.Since.self hv (recordedAt_eq_some.mp hrec).2 (by decide)
    | append_singleton es e' ih =>
      have hvEs : Valid (stateAfter repr (onMsg repr s e).1 es) := hv'.stateAfter es
      rw [stateAfter_append, recorded_append]
      change RecentKeys.Since dedupCap m (recorded repr (onMsg repr s e).1 es ++
        ((recordedAt repr (stateAfter repr (onMsg repr s e).1 es) e').toList ++ []))
        (onMsg repr (stateAfter repr (onMsg repr s e).1 es) e').1.dedupOrder
      rw [List.append_nil]
      cases hrec' : recordedAt repr (stateAfter repr (onMsg repr s e).1 es) e' with
      | none =>
        rw [dedupOrder_of_none hvEs hrec', Option.toList_none, List.append_nil]
        exact ih
      | some m' =>
        rw [dedupOrder_of_some hvEs hrec', Option.toList_some]
        exact ih.push hvEs (recordedAt_eq_some.mp hrec').2
  exact (hv'.stateAfter es).mem_iff.mp ((hsince es).mem hfew)

theorem exists_of_mem_dedup (h : Fresh s) (hm : m ∈ (stateAfter repr s es).dedup) :
    ∃ e ∈ es, idOf repr e = some m := by
  have hv : Valid (stateAfter repr s es) := h.valid.stateAfter es
  have horder : m ∈ (stateAfter repr s es).dedupOrder := hv.mem_iff.mpr hm
  rw [dedupOrder_stateAfter h] at horder
  exact exists_of_mem_recorded (List.mem_of_mem_drop horder)

theorem recordedAt_of_first (h : Fresh s) {e : Event} (hid : idOf repr e = some m)
    (hfirst : ∀ e' ∈ es, idOf repr e' ≠ some m) :
    recordedAt repr (stateAfter repr s es) e = some m := by
  refine recordedAt_eq_some.mpr ⟨hid, fun hmem => ?_⟩
  obtain ⟨e', he', hid'⟩ := exists_of_mem_dedup h hmem
  exact hfirst e' he' hid'

theorem onMsg_of_recordedAt {e : Event} (h : recordedAt repr s e = some m) :
    (onMsg repr s e).2 = [notifySession repr s e] := by
  obtain ⟨hid, hm⟩ := recordedAt_eq_some.mp h
  have hnew : ∀ m', idOf repr e = some m' → m' ∉ s.dedup := by
    intro m' hid'
    obtain rfl := Option.some.inj (hid.symm.trans hid')
    exact hm
  obtain ⟨s', hs', -⟩ := onMsg_of_inbound (idOf_eq_some.mp hid).1 hnew
  rw [hs']

theorem chatId_stateAfter (h : s.chatId ≠ "") (es : List Event) :
    (stateAfter repr s es).chatId = s.chatId := by
  induction es generalizing s with
  | nil => rfl
  | cons e es ih =>
    have hkept : (onMsg repr s e).1.chatId = s.chatId := chatId_onMsg h e
    rw [← hkept]
    exact ih (by rwa [hkept])

theorem recorded_of_nodup (h : Fresh s) (hids : es.map (idOf repr) = ms.map some)
    (hnodup : ms.Nodup) : recorded repr s es = ms := by
  induction es using List.reverseRecOn generalizing ms with
  | nil =>
    rw [List.map_nil, eq_comm, List.map_eq_nil_iff] at hids
    rw [hids, recorded]
  | append_singleton es e ih =>
    rw [List.map_append, List.map_singleton, eq_comm, List.map_eq_append_iff] at hids
    obtain ⟨before, last, rfl, hbefore, hlast⟩ := hids
    obtain ⟨m, rfl, hm⟩ := List.map_eq_singleton_iff.mp hlast
    obtain ⟨hnodupBefore, -, hdisjoint⟩ := List.nodup_append'.mp hnodup
    have hfirst : ∀ e' ∈ es, idOf repr e' ≠ some m := by
      intro e' he' hid
      have hmem : some m ∈ before.map some := by
        rw [hbefore, ← hid]
        exact List.mem_map_of_mem he'
      obtain ⟨m', hm', heq⟩ := List.mem_map.mp hmem
      obtain rfl := Option.some.inj heq
      exact hdisjoint hm' List.mem_cons_self
    rw [recorded_append, ih hbefore.symm hnodupBefore, recorded, recorded,
      recordedAt_of_first h hm.symm hfirst]
    rfl

end

/-! ## Runs of the worker -/

theorem step_of_stateOf {d : StateDict} (h : stateOf d = .ok s) (e : Event) :
    step repr d e = some (dump (onMsg repr s e).1) := by
  rw [step, processHandlerCall_of_stateOf h]
  rfl

/-- **The object a run ends with stands for the handler's state after the run's events.** -/
theorem stateOf_of_run {start d : StateDict} {es : List Event} (hstart : stateOf start = .ok s)
    (hr : Run (step repr) anyStep start es d) :
    stateOf d = .ok (stateAfter repr s es) := by
  induction hr with
  | nil => exact hstart
  | snoc _ _ hs ih =>
    rw [step_of_stateOf ih] at hs
    obtain rfl := Option.some.inj hs
    rw [stateOf_dump, stateAfter_append]
    rfl

/-- What holds of an object and of the next call after the events. -/
structure Deduplicated (repr : Json → String) (s : State) (es : List Event) (d : StateDict) :
    Prop where
  /-- The set is that of the order, which has no id twice and a thousand at most. -/
  window : ∃ t, stateOf d = .ok t ∧ t = stateAfter repr s es ∧ t.dedup = t.dedupOrder.toFinset ∧
    t.dedupOrder.Nodup ∧ t.dedupOrder.length ≤ 1000
  /-- The order is that of recording: the ids recorded last. -/
  order : (stateAfter repr s es).dedupOrder = latest (recorded repr s es)
  /-- No call fails. -/
  answered : ∀ e, ∃ reply, processHandlerCall repr d e = .ok reply
  /-- An id at its first sight is answered with one notification, and recorded. -/
  first : ∀ e m, idOf repr e = some m → (∀ e' ∈ es, idOf repr e' ≠ some m) →
    (∃ d', processHandlerCall repr d e =
      .ok (d', [notifySession repr (stateAfter repr s es) e])) ∧
      recordedAt repr (stateAfter repr s es) e = some m
  /-- An id is answered with nothing while fewer than a thousand others were recorded since. -/
  again : ∀ es₁ e₁ es₂ e m, es = es₁ ++ e₁ :: es₂ →
    recordedAt repr (stateAfter repr s es₁) e₁ = some m →
    ((recorded repr (stateAfter repr s (es₁ ++ [e₁])) es₂).toFinset.erase m).card < 1000 →
    idOf repr e = some m → ∃ d', processHandlerCall repr d e = .ok (d', [])
  /-- A chat id that was set is still there. -/
  chat : ∀ es₁ es₂, es = es₁ ++ es₂ → (stateAfter repr s es₁).chatId ≠ "" →
    (stateAfter repr s es).chatId = (stateAfter repr s es₁).chatId

/-- **Every run from a state with nothing recorded keeps the window and drops what is in it.** -/
theorem deduplicated_of_run (repr : Json → String) (start : StateDict) (s : State)
    (hstart : stateOf start = .ok s) (hfresh : Fresh s) (es : List Event) (d : StateDict)
    (hr : Run (step repr) anyStep start es d) : Deduplicated repr s es d := by
  have hd : stateOf d = .ok (stateAfter repr s es) := stateOf_of_run hstart hr
  have hv : Valid (stateAfter repr s es) := hfresh.valid.stateAfter es
  have hcall : ∀ e, processHandlerCall repr d e = .ok (dump (onMsg repr (stateAfter repr s es) e).1,
      (onMsg repr (stateAfter repr s es) e).2) := processHandlerCall_of_stateOf hd
  exact {
    window := ⟨_, hd, rfl, hv.sameKeys.symm, hv.nodup, hv.length_le⟩
    order := dedupOrder_stateAfter hfresh es
    answered := fun e => ⟨_, hcall e⟩
    first := by
      intro e m hid hfirst
      have hrec := recordedAt_of_first hfresh hid hfirst
      refine ⟨⟨dump (onMsg repr (stateAfter repr s es) e).1, ?_⟩, hrec⟩
      rw [hcall, onMsg_of_recordedAt hrec]
    again := by
      intro es₁ e₁ es₂ e m hes hrec hfew hid
      have hmem : m ∈ (stateAfter repr s es).dedup := by
        rw [stateAfter_append] at hfew
        rw [hes, stateAfter_append]
        exact mem_dedup_of_few (hfresh.valid.stateAfter es₁) hrec es₂ hfew
      refine ⟨dump (stateAfter repr s es), ?_⟩
      rw [hcall, onMsg_of_mem hid hmem]
    chat := by
      intro es₁ es₂ hes hset
      rw [hes, stateAfter_append]
      exact chatId_stateAfter hset es₂ }

/-- The object of an actor before its first message. -/
def noState : StateDict := fun _ => none

/-- The state it stands for. -/
def noMessages : State where
  threadId := ""
  chatId := ""
  dedup := ∅
  dedupOrder := []
  ackMsgId := none

/-- A message with an id and nothing else. -/
def received (m : String) : Event where
  eventType := "msg_received"
  args := fun key => if key = "message_id" then some (.str m) else none

theorem deduplicated_received : Deduplicated (fun _ => "") noMessages [received "om_1"]
    (dump (onMsg (fun _ => "") noMessages (received "om_1")).1) :=
  deduplicated_of_run (fun _ => "") noState noMessages rfl ⟨rfl, rfl⟩ [received "om_1"] _
    (.snoc .nil trivial (step_of_stateOf (s := noMessages) rfl _))

/-! ## Not the order of first sight -/

/-- Each id stands before the ids first seen after it. -/
def InFirstSeenOrder (repr : Json → String) (es : List Event) (order : List String) : Prop :=
  order.Pairwise fun a b => (es.filterMap (idOf repr)).idxOf a < (es.filterMap (idOf repr)).idxOf b

theorem idOf_received {m : String} (hm : m ≠ "") :
    idOf repr (received m) = some m := idOf_eq_some.mpr ⟨rfl, hm, rfl⟩

theorem run_of_events (repr : Json → String) {start : StateDict} (hstart : stateOf start = .ok s)
    (es : List Event) :
    ∃ d, Run (step repr) anyStep start es d := by
  induction es using List.reverseRecOn with
  | nil => exact ⟨start, .nil⟩
  | append_singleton es e ih =>
    obtain ⟨d, hr⟩ := ih
    exact ⟨_, .snoc hr trivial (step_of_stateOf (stateOf_of_run hstart hr) e)⟩

theorem dedupOrder_seenAgain (h : Fresh s) {a b : String} {ms : List String}
    (hnodup : (a :: b :: ms).Nodup) (hne : ∀ m ∈ a :: b :: ms, m ≠ "")
    (hlen : (b :: ms).length = dedupCap) :
    (stateAfter repr s ((a :: b :: ms).map received ++ [received a])).dedupOrder = ms ++ [a] := by
  have hids : ((a :: b :: ms).map received).map (idOf repr) = (a :: b :: ms).map some := by
    rw [List.map_map]
    exact List.map_congr_left fun m hm => idOf_received (hne m hm)
  have hrec : recorded repr s ((a :: b :: ms).map received) = a :: b :: ms :=
    recorded_of_nodup h hids hnodup
  have hlatest : latest (a :: b :: ms) = b :: ms := by
    have hdrop : (a :: b :: ms).length - dedupCap = 1 := by
      rw [List.length_cons]
      omega
    rw [latest, hdrop, List.drop_succ_cons, List.drop_zero]
  have horder : (stateAfter repr s ((a :: b :: ms).map received)).dedupOrder = b :: ms := by
    rw [dedupOrder_stateAfter h, hrec, hlatest]
  have hv : Valid (stateAfter repr s ((a :: b :: ms).map received)) := h.valid.stateAfter _
  have hgone : a ∉ (stateAfter repr s ((a :: b :: ms).map received)).dedup := by
    intro hmem
    have hin := hv.mem_iff.mpr hmem
    rw [horder] at hin
    exact (List.nodup_cons.mp hnodup).1 hin
  have hagain : recordedAt repr (stateAfter repr s ((a :: b :: ms).map received)) (received a) =
      some a := recordedAt_eq_some.mpr ⟨idOf_received (hne a List.mem_cons_self), hgone⟩
  have hfull : dedupCap ≤ (a :: b :: ms).length := by
    rw [List.length_cons]
    omega
  rw [dedupOrder_stateAfter h, recorded_append, recorded, recorded, hrec, hagain]
  exact latest_snoc hlatest hfull a

/-- Ids that are all different. -/
def idNo (n : Nat) : String := String.ofList (List.replicate (n + 1) 'm')

theorem idNo_injective : Function.Injective idNo := by
  intro i j hij
  have hlists : List.replicate (i + 1) 'm' = List.replicate (j + 1) 'm' := String.ofList_injective hij
  have hlen := congrArg List.length hlists
  rw [List.length_replicate, List.length_replicate] at hlen
  exact Nat.succ.inj hlen

theorem idNo_ne_empty (n : Nat) : idNo n ≠ "" := by
  intro h
  have hlist := congrArg String.toList h
  rw [idNo, String.toList_ofList, List.replicate_succ] at hlist
  cases hlist

/-- The first 1001 ids. -/
def manyIds : List String := (List.range' 3 998).map idNo

/-- The order is not that of first sight: the first of 1001 ids, seen once more, is last. -/
theorem not_inFirstSeenOrder :
    ¬∀ (repr : Json → String) (start : StateDict) (s : State), stateOf start = .ok s → Fresh s →
      ∀ (es : List Event) (d : StateDict), Run (step repr) anyStep start es d →
        InFirstSeenOrder repr es (stateAfter repr s es).dedupOrder := by
  intro hall
  have hnodup : (idNo 0 :: idNo 1 :: idNo 2 :: manyIds).Nodup := by
    have hrange : (List.range' 0 1001).Nodup := List.nodup_range'
    exact hrange.map idNo_injective
  have hne : ∀ m ∈ idNo 0 :: idNo 1 :: idNo 2 :: manyIds, m ≠ "" := by
    intro m hm
    have hm' : m ∈ (List.range' 0 1001).map idNo := hm
    obtain ⟨n, -, rfl⟩ := List.mem_map.mp hm'
    exact idNo_ne_empty n
  have hlen : (idNo 1 :: idNo 2 :: manyIds).length = dedupCap := by
    rw [List.length_cons, List.length_cons, manyIds, List.length_map, List.length_range']
    rfl
  obtain ⟨d, hr⟩ := run_of_events (fun _ => "") (rfl : stateOf noState = .ok noMessages)
    ((idNo 0 :: idNo 1 :: idNo 2 :: manyIds).map received ++ [received (idNo 0)])
  have hordered := hall _ _ _ rfl ⟨rfl, rfl⟩ _ _ hr
  rw [dedupOrder_seenAgain ⟨rfl, rfl⟩ hnodup hne hlen] at hordered
  have hlast : idNo 0 ∈ manyIds ++ [idNo 0] := List.mem_append_right _ List.mem_cons_self
  have hlt := List.rel_of_pairwise_cons hordered hlast
  have hzero : ∀ l : List String, (idNo 0 :: l).idxOf (idNo 0) = 0 := fun l => List.idxOf_cons_self
  rw [List.map_cons, List.cons_append, List.filterMap_cons_some (idOf_received (idNo_ne_empty 0)),
    hzero] at hlt
  exact Nat.not_lt_zero _ hlt

end FeishuThread
end Esr
