import Esr.ReplyTool

/-! # Media on their way to CC

A medium is handed to CC when the adapter has downloaded it.  The proxy keeps an entry
under the id of the download directive, and the first acknowledgement or timeout with
the id settles it, whatever the acknowledgement says.

`ExactlyOnce` says what that comes to over a whole run: which media are forwarded, and
which entries are there.
-/
namespace Esr
namespace MediaInbound
open Yaml FeishuChatProxy
open EntityServer (Pid access)

/-- A message that was handled: in what surroundings, the entry it put into
`pending_media`, what was sent, and whether the proxy went on. -/
structure Handled where
  env : Env
  msg : Msg
  entry : Option (String × Pending)
  effects : List Effect
  alive : Bool

/-- The proxy, unless it has crashed, and what it has handled, oldest first. -/
structure Node where
  state : Option State
  history : List Handled

/-- The entry that is there after a message and was not before: the one of the id drawn. -/
def newEntry (ids : Ids) (s : State) (o : Outcome) : Option (String × Pending) :=
  match o.next with
  | some s' =>
      if s.drawn < s'.drawn then
        (s'.pendingMedia.lookup (ids.newId s.drawn)).map fun p => (ids.newId s.drawn, p)
      else none
  | none => none

/-- The record of a message that is handled. -/
def record (ids : Ids) (env : Env) (s : State) (msg : Msg) : Handled :=
  let o := handle ids env s msg
  ⟨env, msg, newEntry ids s o, o.effects, o.next.isSome⟩

/-- The proxy takes a message. -/
def step (ids : Ids) (n : Node) (a : Env × Msg) : Option Node :=
  n.state.map fun s => ⟨(handle ids a.1 s a.2).next, n.history ++ [record ids a.1 s a.2]⟩

/-- A proxy that has handled nothing. -/
def start (sessionId chatId threadId appId principalId : String) : Node :=
  ⟨some (init sessionId chatId threadId appId principalId), []⟩

/-! ## The property -/

/-- The id and the payload of an acknowledgement, if it has both. -/
def ackOf : Msg → Option (Value × Value)
  | .directiveAck (.map entries) =>
      match get "id" entries, get "payload" entries with
      | some id, some payload => some (id, payload)
      | _, _ => none
  | _ => none

/-- The message is an acknowledgement or the timeout of the directive. -/
def Handled.settles (u : Handled) (id : String) : Bool :=
  match u.msg with
  | .pendingMediaTimeout id' => id' = id
  | msg =>
      match ackOf msg with
      | some (id', _) => id'.isStr id
      | none => false

/-- The message made the proxy emit the directive. -/
def Handled.emits (u : Handled) (id : String) : Prop :=
  ∃ pid envelope, .outbound pid envelope ∈ u.effects ∧ get "id" envelope = some (.str id)

/-- What an acknowledgement of the directive sends to CC. -/
def Handled.forwards (u : Handled) (id : String) : List Effect :=
  match ackOf u.msg with
  | some (id', _) =>
      if id'.isStr id then
        u.effects.filter fun
          | .text _ _ _ => true
          | _ => false
      else []
  | none => []

/-- What the directive has sent to CC. -/
def forwardsOf (id : String) (h : List Handled) : List Effect := h.flatMap fun u => u.forwards id

/-- What CC is to get when the message settles the entry: the medium, if it is an ok
acknowledgement with a uri, and if there is a CC process. -/
def dueAt (sessionId : String) (p : Pending) (u : Handled) : List Effect :=
  match (ackOf u.msg).bind fun ack => uriOf ack.2 with
  | some uri => forwardMediaToCc u.env sessionId p uri
  | none => []

/-- What CC is to get of an entry, given what is handled after it was put. -/
def due (sessionId : String) (p : Pending) (id : String) (after : List Handled) : List Effect :=
  match after.find? fun u => u.settles id with
  | some u => dueAt sessionId p u
  | none => []

/-- **Media are forwarded once**, by the message that settles their entry. -/
structure ExactlyOnce (sessionId : String) (n : Node) : Prop where
  /-- A directive that is emitted has its entry at once. -/
  emitted : ∀ u ∈ n.history, ∀ id, u.emits id → ∃ p, u.entry = some (id, p)
  /-- After the entry is put, CC gets what is due; the entry is there until it is settled. -/
  entered : ∀ before u after id p, n.history = before ++ u :: after → u.entry = some (id, p) →
    forwardsOf id before = [] ∧ forwardsOf id after = due sessionId p id after ∧
      ∀ s, n.state = some s → s.pendingMedia.lookup id =
        if after.any fun u => u.settles id then none else some p
  /-- Of a directive without an entry, CC gets nothing. -/
  unknown : ∀ id, (∀ u ∈ n.history, ∀ p, u.entry ≠ some (id, p)) →
    forwardsOf id n.history = [] ∧ ∀ s, n.state = some s → s.pendingMedia.lookup id = none
  /-- No acknowledgement or timeout ends the proxy. -/
  alive : ∀ u ∈ n.history, ∀ id, u.settles id = true → u.alive = true

/-- An acknowledgement has an id and a payload. -/
def Shaped (_ : Node) (a : Env × Msg) : Prop :=
  match a.2 with
  | .directiveAck envelope => (ackOf (.directiveAck envelope)).isSome = true
  | _ => True

/-! ## One message -/

/-- What handling a message does to the entries, and what it sends to CC. -/
structure Spec (ids : Ids) (s : State) (u : Handled) (next : Option State) : Prop where
  emits : ∀ id, u.emits id → ∃ p, u.entry = some (id, p)
  entry : ∀ id p, u.entry = some (id, p) → id = ids.newId s.drawn
  forwards : ∀ id, u.forwards id =
    if u.settles id then
      match s.pendingMedia.lookup id with
      | some p => dueAt s.sessionId p u
      | none => []
    else []
  alive : ∀ id, u.settles id = true → u.alive = true
  drawn : ∀ s', next = some s' → s'.sessionId = s.sessionId ∧ s.drawn ≤ s'.drawn ∧
    (u.entry ≠ none → s.drawn < s'.drawn)
  put : ∀ s', next = some s' → ∀ id p, u.entry = some (id, p) → s'.pendingMedia.lookup id = some p
  kept : ∀ s', next = some s' → ∀ id, (∀ p, u.entry ≠ some (id, p)) →
    s'.pendingMedia.lookup id = if u.settles id then none else s.pendingMedia.lookup id

section
variable {ids : Ids} {env : Env} {s : State} {msg : Msg}

/-- Neither an acknowledgement nor a timeout. -/
def Msg.quiet : Msg → Bool
  | .directiveAck _ => false
  | .pendingMediaTimeout _ => false
  | _ => true

theorem settles_of_quiet (h : Msg.quiet msg = true) (id : String) :
    (record ids env s msg).settles id = false := by
  cases msg with
  | directiveAck envelope => cases h
  | pendingMediaTimeout id' => cases h
  | _ => rfl

theorem forwards_of_quiet (h : Msg.quiet msg = true) (id : String) :
    (record ids env s msg).forwards id = [] := by
  cases msg with
  | directiveAck envelope => cases h
  | pendingMediaTimeout id' => cases h
  | _ => rfl

theorem entry_of_stay (h : ∀ s', (handle ids env s msg).next = some s' → s' = s) :
    (record ids env s msg).entry = none := by
  show newEntry ids s (handle ids env s msg) = none
  unfold newEntry
  split
  · rename_i s' hs'
    rw [h s' hs', if_neg (Nat.lt_irrefl _)]
  · rfl

theorem spec_of_stay (hquiet : Msg.quiet msg = true)
    (hstay : ∀ s', (handle ids env s msg).next = some s' → s' = s)
    (hemits : ∀ id, ¬(record ids env s msg).emits id) :
    Spec ids s (record ids env s msg) (handle ids env s msg).next := by
  have hentry := entry_of_stay hstay
  refine ⟨fun id he => absurd he (hemits id), ?_, fun id => ?_, fun id hs => ?_, fun s' hs' => ?_,
    ?_, fun s' hs' id _ => ?_⟩
  · intro id p he
    rw [hentry] at he
    cases he
  · rw [forwards_of_quiet hquiet, settles_of_quiet hquiet]
    rfl
  · rw [settles_of_quiet hquiet] at hs
    cases hs
  · rw [hstay s' hs', hentry]
    exact ⟨rfl, Nat.le_refl _, fun hne => absurd rfl hne⟩
  · intro s' _ id p he
    rw [hentry] at he
    cases he
  · rw [hstay s' hs', settles_of_quiet hquiet]
    rfl

/-- No message for an adapter among the effects is a directive. -/
def NoDirective (es : List Effect) : Prop :=
  ∀ pid envelope, .outbound pid envelope ∈ es → get "id" envelope = none

theorem not_emits_of_noDirective (h : NoDirective (handle ids env s msg).effects) (id : String) :
    ¬(record ids env s msg).emits id := by
  rintro ⟨pid, envelope, hmem, hid⟩
  rw [h pid envelope hmem] at hid
  cases hid

theorem noDirective_forwardReply (env : Env) (s : State) (text replyTo : Value) :
    NoDirective (forwardReply env s text replyTo) := by
  intro pid envelope hmem
  rcases ReplyTool.forwardReply_spec env s text replyTo with ⟨-, h⟩ | ⟨pid', envelope', -, h, args, rfl, -⟩
  · rw [h] at hmem
    cases hmem
  · rw [h] at hmem
    obtain ⟨-, rfl⟩ := Effect.outbound.inj (List.mem_singleton.mp hmem)
    rfl

theorem noDirective_dispatchReply (reqId args : Value) (channelPid : Pid) :
    NoDirective (handle ids env s (.replyTool reqId args channelPid)).effects := by
  cases ReplyTool.handle_cases ids env s ⟨reqId, args, channelPid⟩ with
  | raised h =>
    rw [show handle ids env s (.replyTool reqId args channelPid) = .raised from h]
    rintro pid envelope ⟨⟩
  | own _ _ h =>
    rw [show handle ids env s (.replyTool reqId args channelPid) = _ from h]
    intro pid envelope hmem
    rcases List.mem_append.mp hmem with hmem | hmem
    · exact noDirective_forwardReply _ _ _ _ pid envelope hmem
    · cases List.mem_singleton.mp hmem
  | other _ _ _ _ h =>
    rw [show handle ids env s (.replyTool reqId args channelPid) = _ from h]
    intro pid envelope hmem
    rcases ReplyTool.dispatchCrossAppReply_spec env s _ _ _ reqId channelPid with
      ⟨error, h⟩ | ⟨ws, pid', data, -, -, -, h⟩
    · rw [h] at hmem
      cases List.mem_singleton.mp hmem
    · rw [h] at hmem
      rcases List.mem_cons.mp hmem with hmem | hmem
      · obtain ⟨-, rfl⟩ := Effect.outbound.inj hmem
        rfl
      · cases List.mem_singleton.mp hmem

theorem next_dispatchReply {s' : State} (reqId args : Value) (channelPid : Pid)
    (h : (handle ids env s (.replyTool reqId args channelPid)).next = some s') : s' = s := by
  cases ReplyTool.handle_cases ids env s ⟨reqId, args, channelPid⟩ with
  | raised h' =>
    rw [show handle ids env s (.replyTool reqId args channelPid) = .raised from h'] at h
    cases h
  | own _ _ h' =>
    rw [show handle ids env s (.replyTool reqId args channelPid) = _ from h'] at h
    exact (Option.some.inj h).symm
  | other _ _ _ _ h' =>
    rw [show handle ids env s (.replyTool reqId args channelPid) = _ from h'] at h
    exact (Option.some.inj h).symm

/-- What comes from the chat leaves the state, or draws an id; with the id goes an entry,
if the directive was emitted. -/
inductive InboundCases (ids : Ids) (s : State) (o : Outcome) : Prop
  | stays (hnext : ∀ s', o.next = some s' → s' = s) (h : NoDirective o.effects)
  | notEmitted (h : o = ⟨[.subscribe (ids.newId s.drawn), .unsubscribe (ids.newId s.drawn)],
      some { s with drawn := s.drawn + 1 }⟩)
  | emitted (pid : Pid) (directive : Entries) (p : Pending)
      (hid : get "id" directive = some (.str (ids.newId s.drawn)))
      (h : o = ⟨[.subscribe (ids.newId s.drawn), .outbound pid directive, .sendAfter (ids.newId s.drawn)],
        some { s with
          pendingMedia := s.pendingMedia.insert (ids.newId s.drawn) p
          drawn := s.drawn + 1 }⟩)

theorem doHandleNonTextInbound_cases (envelope : Value) (kind : String) (arg : String → Value)
    (sender : Value) :
    InboundCases ids s (doHandleNonTextInbound ids env s envelope kind arg sender) := by
  unfold doHandleNonTextInbound
  dsimp only
  split
  · unfold emitToFeishuAppProxy
    cases ownAdapter env s with
    | none => exact .notEmitted rfl
    | some pid => exact .emitted pid _ _ rfl rfl
  · refine .stays (fun s' h => (Option.some.inj h).symm) fun pid envelope hmem => ?_
    cases List.mem_singleton.mp hmem

theorem handleUpstream_cases (envelope : Value) :
    InboundCases ids s (handleUpstream ids env s envelope) := by
  have hraised : InboundCases ids s .raised :=
    .stays (fun s' h => by cases h) fun pid envelope h => by cases h
  unfold handleUpstream
  split
  · exact hraised
  · dsimp only
    split
    · exact hraised
    · split
      · rename_i kind _
        split
        · refine .stays (fun s' h => (Option.some.inj h).symm) fun pid envelope hmem => ?_
          unfold forwardTextAndReact at hmem
          split at hmem
          · cases List.mem_singleton.mp hmem
          · cases hmem
        · split
          · exact doHandleNonTextInbound_cases envelope kind _ _
          · exact .stays (fun s' h => (Option.some.inj h).symm) fun pid envelope h => by cases h
      · exact .stays (fun s' h => (Option.some.inj h).symm) fun pid envelope h => by cases h

theorem spec_notEmitted (hquiet : Msg.quiet msg = true)
    (h : handle ids env s msg = ⟨[.subscribe (ids.newId s.drawn), .unsubscribe (ids.newId s.drawn)],
      some { s with drawn := s.drawn + 1 }⟩) (hfresh : s.pendingMedia.lookup (ids.newId s.drawn) = none) :
    Spec ids s (record ids env s msg) (handle ids env s msg).next := by
  have hentry : (record ids env s msg).entry = none := by
    show newEntry ids s (handle ids env s msg) = none
    rw [h]
    simp [newEntry, hfresh]
  have hemits : NoDirective (handle ids env s msg).effects := by
    rw [h]
    intro pid envelope hmem
    rcases List.mem_cons.mp hmem with hmem | hmem
    · cases hmem
    · cases List.mem_singleton.mp hmem
  refine ⟨fun id he => absurd he (not_emits_of_noDirective hemits id), ?_, fun id => ?_,
    fun id hs => ?_, fun s' hs' => ?_, ?_, fun s' hs' id _ => ?_⟩
  · intro id p he
    rw [hentry] at he
    cases he
  · rw [forwards_of_quiet hquiet, settles_of_quiet hquiet]
    rfl
  · rw [settles_of_quiet hquiet] at hs
    cases hs
  · rw [h] at hs'
    obtain rfl := Option.some.inj hs'
    rw [hentry]
    exact ⟨rfl, Nat.le_succ _, fun hne => absurd rfl hne⟩
  · intro s' _ id p he
    rw [hentry] at he
    cases he
  · rw [h] at hs'
    obtain rfl := Option.some.inj hs'
    rw [settles_of_quiet hquiet]
    rfl

theorem spec_emitted (hquiet : Msg.quiet msg = true) {pid : Pid} {directive : Entries} {p : Pending}
    (hid : get "id" directive = some (.str (ids.newId s.drawn)))
    (h : handle ids env s msg =
      ⟨[.subscribe (ids.newId s.drawn), .outbound pid directive, .sendAfter (ids.newId s.drawn)],
        some { s with
          pendingMedia := s.pendingMedia.insert (ids.newId s.drawn) p
          drawn := s.drawn + 1 }⟩) :
    Spec ids s (record ids env s msg) (handle ids env s msg).next := by
  have hentry : (record ids env s msg).entry = some (ids.newId s.drawn, p) := by
    show newEntry ids s (handle ids env s msg) = _
    rw [h]
    simp [newEntry]
  have hof : ∀ id q, (record ids env s msg).entry = some (id, q) → id = ids.newId s.drawn ∧ q = p := by
    intro id q he
    obtain ⟨hid, hq⟩ := Prod.mk.inj (Option.some.inj (hentry.symm.trans he))
    exact ⟨hid.symm, hq.symm⟩
  refine ⟨?_, fun id q he => (hof id q he).1, fun id => ?_, fun id hs => ?_, fun s' hs' => ?_,
    fun s' hs' id q he => ?_, fun s' hs' id hno => ?_⟩
  · rintro id ⟨pid', envelope, hmem, hid'⟩
    rw [show (record ids env s msg).effects = _ from congrArg Outcome.effects h] at hmem
    rcases List.mem_cons.mp hmem with hmem | hmem
    · cases hmem
    · rcases List.mem_cons.mp hmem with hmem | hmem
      · obtain ⟨-, rfl⟩ := Effect.outbound.inj hmem
        obtain rfl := Value.str.inj (Option.some.inj (hid.symm.trans hid'))
        exact ⟨p, hentry⟩
      · cases List.mem_singleton.mp hmem
  · rw [forwards_of_quiet hquiet, settles_of_quiet hquiet]
    rfl
  · rw [settles_of_quiet hquiet] at hs
    cases hs
  · rw [h] at hs'
    obtain rfl := Option.some.inj hs'
    exact ⟨rfl, Nat.le_succ _, fun _ => Nat.lt_succ_self _⟩
  · rw [h] at hs'
    obtain rfl := Option.some.inj hs'
    obtain ⟨rfl, rfl⟩ := hof id q he
    exact Ets.lookup_insert_self _ _ _
  · rw [h] at hs'
    obtain rfl := Option.some.inj hs'
    rw [settles_of_quiet hquiet]
    refine Ets.lookup_insert_of_ne _ _ ?_
    rintro rfl
    exact hno p hentry

/-- The part of the effects that goes to CC. -/
def texts (es : List Effect) : List Effect :=
  es.filter fun
    | .text _ _ _ => true
    | _ => false

theorem forwardMediaToCc_texts (env : Env) (sessionId : String) (p : Pending) (uri : Value) :
    texts (forwardMediaToCc env sessionId p uri) = forwardMediaToCc env sessionId p uri ∧
      NoDirective (forwardMediaToCc env sessionId p uri) := by
  unfold forwardMediaToCc
  split
  · refine ⟨rfl, fun pid envelope hmem => ?_⟩
    cases List.mem_singleton.mp hmem
  · exact ⟨rfl, fun pid envelope hmem => by cases hmem⟩

theorem dueAt_texts (sessionId : String) (p : Pending) (u : Handled) :
    texts (dueAt sessionId p u) = dueAt sessionId p u ∧ NoDirective (dueAt sessionId p u) := by
  unfold dueAt
  split
  · exact forwardMediaToCc_texts _ _ _ _
  · exact ⟨rfl, fun pid envelope hmem => by cases hmem⟩

theorem spec_settles {v : Value}
    (hsettles : ∀ id, (record ids env s msg).settles id = v.isStr id)
    (hforwards : ∀ id, (record ids env s msg).forwards id =
      if v.isStr id then texts (record ids env s msg).effects else [])
    (h : handle ids env s msg = match pending s v with
      | none => ⟨[], some s⟩
      | some (id, p) =>
          ⟨.unsubscribe id :: dueAt s.sessionId p (record ids env s msg), some (settle s id)⟩) :
    Spec ids s (record ids env s msg) (handle ids env s msg).next := by
  have heffects : (record ids env s msg).effects = (handle ids env s msg).effects := rfl
  have hnext : ∀ s', (handle ids env s msg).next = some s' → s'.drawn = s.drawn ∧
      s'.sessionId = s.sessionId := by
    intro s' hs'
    rw [h] at hs'
    split at hs'
    · obtain rfl := Option.some.inj hs'
      exact ⟨rfl, rfl⟩
    · obtain rfl := Option.some.inj hs'
      exact ⟨rfl, rfl⟩
  have hentry : (record ids env s msg).entry = none := by
    show newEntry ids s (handle ids env s msg) = none
    unfold newEntry
    split
    · rename_i s' hs'
      rw [(hnext s' hs').1, if_neg (Nat.lt_irrefl _)]
    · rfl
  have hlookup : ∀ id, v.isStr id = true →
      pending s v = (s.pendingMedia.lookup id).map fun p => (id, p) := by
    intro id hid
    rw [Value.isStr_iff.mp hid]
    rfl
  refine ⟨?_, ?_, fun id => ?_, fun id _ => ?_, fun s' hs' => ?_, ?_, fun s' hs' id _ => ?_⟩
  · intro id he
    refine absurd he (not_emits_of_noDirective ?_ id)
    rw [h]
    split
    · rintro pid envelope ⟨⟩
    · intro pid envelope hmem
      rcases List.mem_cons.mp hmem with hmem | hmem
      · cases hmem
      · exact (dueAt_texts _ _ _).2 pid envelope hmem
  · intro id p he
    rw [hentry] at he
    cases he
  · rw [hforwards, hsettles]
    by_cases hid : v.isStr id = true
    · rw [if_pos hid, if_pos hid, heffects, h, hlookup id hid]
      cases s.pendingMedia.lookup id with
      | none => rfl
      | some p => exact (dueAt_texts s.sessionId p _).1
    · rw [if_neg hid, if_neg hid]
  · show (handle ids env s msg).next.isSome = true
    rw [h]
    split <;> rfl
  · rw [hentry]
    exact ⟨(hnext s' hs').2, (hnext s' hs').1.ge, fun hne => absurd rfl hne⟩
  · intro s' _ id p he
    rw [hentry] at he
    cases he
  · rw [hsettles]
    rw [h] at hs'
    by_cases hid : v.isStr id = true
    · rw [if_pos hid]
      rw [hlookup id hid] at hs'
      cases hrow : s.pendingMedia.lookup id with
      | none =>
        rw [hrow] at hs'
        obtain rfl := Option.some.inj hs'
        exact hrow
      | some p =>
        rw [hrow] at hs'
        obtain rfl := Option.some.inj hs'
        exact Ets.lookup_delete_self _ _
    · rw [if_neg hid]
      split at hs'
      · obtain rfl := Option.some.inj hs'
        rfl
      · rename_i id' p hp
        obtain rfl := Option.some.inj hs'
        refine Ets.lookup_delete_of_ne _ ?_
        rintro rfl
        unfold pending at hp
        split at hp
        · obtain ⟨q, -, hq⟩ := Option.map_eq_some_iff.mp hp
          exact hid (Value.isStr_iff.mpr (by rw [(Prod.mk.inj hq).1]))
        · cases hp

theorem spec_directiveAck {envelope : Value} (h : (ackOf (.directiveAck envelope)).isSome = true) :
    Spec ids s (record ids env s (.directiveAck envelope))
      (handle ids env s (.directiveAck envelope)).next := by
  obtain ⟨⟨v, payload⟩, hack⟩ := Option.isSome_iff_exists.mp h
  have hsettles : ∀ id, (record ids env s (.directiveAck envelope)).settles id = v.isStr id := by
    intro id
    show (match ackOf (.directiveAck envelope) with
      | some (id', _) => id'.isStr id
      | none => false) = v.isStr id
    rw [hack]
  refine spec_settles hsettles (fun id => ?_) ?_
  · unfold Handled.forwards
    rw [show (record ids env s (.directiveAck envelope)).msg = .directiveAck envelope from rfl, hack]
    rfl
  · have hdue : ∀ p, dueAt s.sessionId p (record ids env s (.directiveAck envelope)) =
        match uriOf payload with
        | some uri => forwardMediaToCc env s.sessionId p uri
        | none => [] := by
      intro p
      unfold dueAt
      rw [show (record ids env s (.directiveAck envelope)).msg = .directiveAck envelope from rfl, hack]
      rfl
    unfold ackOf at hack
    show handleDirectiveAck env s envelope = _
    unfold handleDirectiveAck
    split at hack
    · rename_i entries hentries
      obtain rfl := Msg.directiveAck.inj hentries
      dsimp only
      cases hid : get "id" entries with
      | none => simp [hid] at hack
      | some id' =>
        cases hpayload : get "payload" entries with
        | none => simp [hid, hpayload] at hack
        | some payload' =>
          obtain ⟨rfl, rfl⟩ : id' = v ∧ payload' = payload := by simpa [hid, hpayload] using hack
          dsimp only
          cases pending s id' with
          | none => rfl
          | some r => cases huri : uriOf payload' <;> simp [hdue, huri]
    · cases hack

theorem spec_pendingMediaTimeout (id : String) :
    Spec ids s (record ids env s (.pendingMediaTimeout id))
      (handle ids env s (.pendingMediaTimeout id)).next := by
  refine spec_settles (v := .str id) (fun id' => rfl) (fun id' => ?_) ?_
  · show [] = if (Value.str id).isStr id' then texts (handlePendingMediaTimeout s id).effects else []
    unfold handlePendingMediaTimeout
    cases s.pendingMedia.lookup id with
    | none => exact (ite_self _).symm
    | some p => exact (ite_self _).symm
  · show handlePendingMediaTimeout s id = _
    unfold handlePendingMediaTimeout pending
    dsimp only
    cases s.pendingMedia.lookup id with
    | none => rfl
    | some p => rfl

/-- The ids to come are not in use. -/
def Fresh (ids : Ids) (s : State) : Prop :=
  ∀ k, s.drawn ≤ k → s.pendingMedia.lookup (ids.newId k) = none

/-- **Every message does what `Spec` says.** -/
theorem spec_handle {n : Node} (hok : Shaped n (env, msg)) (hfresh : Fresh ids s) :
    Spec ids s (record ids env s msg) (handle ids env s msg).next := by
  cases msg with
  | feishuInbound envelope =>
    cases (handleUpstream_cases envelope : InboundCases ids s (handleUpstream ids env s envelope)) with
    | stays hnext hno => exact spec_of_stay rfl hnext (not_emits_of_noDirective hno)
    | notEmitted h => exact spec_notEmitted rfl h (hfresh _ (Nat.le_refl _))
    | emitted pid directive p hid h => exact spec_emitted rfl hid h
  | reply text replyTo =>
    exact spec_of_stay rfl (fun s' hs' => (Option.some.inj hs').symm)
      (not_emits_of_noDirective (noDirective_forwardReply env s text replyTo))
  | replyTool reqId args channelPid =>
    exact spec_of_stay rfl (fun s' hs' => next_dispatchReply reqId args channelPid hs')
      (not_emits_of_noDirective (noDirective_dispatchReply reqId args channelPid))
  | directiveAck envelope => exact spec_directiveAck hok
  | pendingMediaTimeout id => exact spec_pendingMediaTimeout id

end

/-! ## Runs -/

theorem forwardsOf_snoc (id : String) (h : List Handled) (u : Handled) :
    forwardsOf id (h ++ [u]) = forwardsOf id h ++ u.forwards id := by
  simp [forwardsOf]

theorem due_snoc (sessionId : String) (p : Pending) (id : String) (after : List Handled) (u : Handled) :
    due sessionId p id (after ++ [u]) = due sessionId p id after ++
      if u.settles id = true ∧ (after.any fun u => u.settles id) = false then dueAt sessionId p u
      else [] := by
  unfold due
  rw [List.find?_append]
  cases hfound : after.find? fun u => u.settles id with
  | some v =>
    have hany : (after.any fun u => u.settles id) = true :=
      List.any_eq_true.mpr ⟨v, List.mem_of_find?_eq_some hfound,
        List.find?_some (p := fun u : Handled => u.settles id) hfound⟩
    simp [hany]
  | none =>
    have hany : (after.any fun u => u.settles id) = false := by
      rw [List.any_eq_false]
      exact fun v hv => by simpa using List.find?_eq_none.mp hfound v hv
    by_cases hu : u.settles id = true
    · simp [hu, hany]
    · simp [hu]

/-- The property, and the ids so far. -/
structure Inv (ids : Ids) (sessionId : String) (n : Node) : Prop where
  once : ExactlyOnce sessionId n
  drawn : ∀ s, n.state = some s → s.sessionId = sessionId ∧
    ∀ u ∈ n.history, ∀ id p, u.entry = some (id, p) → ∃ k < s.drawn, id = ids.newId k

namespace Inv
variable {ids : Ids} {sessionId : String}

theorem start (chatId threadId appId principalId : String) :
    Inv ids sessionId (start sessionId chatId threadId appId principalId) := by
  refine ⟨⟨?_, ?_, ?_, ?_⟩, ?_⟩
  · rintro u ⟨⟩
  · intro before u after id p h
    cases before <;> cases h
  · intro id _
    refine ⟨rfl, fun s hs => ?_⟩
    obtain rfl := Option.some.inj hs
    exact Ets.lookup_empty _
  · rintro u ⟨⟩
  · intro s hs
    obtain rfl := Option.some.inj hs
    refine ⟨rfl, ?_⟩
    rintro u ⟨⟩

theorem fresh {n : Node} (h : Inv ids sessionId n) {s : State} (hs : n.state = some s) : Fresh ids s := by
  intro k hk
  refine (h.once.unknown _ fun u hu p he => ?_).2 s hs
  obtain ⟨k', hk', hid⟩ := (h.drawn s hs).2 u hu _ p he
  have heq := ids.newId_injective hid
  omega

/-- **One message.** -/
theorem step {n n' : Node} {a : Env × Msg} (h : Inv ids sessionId n) (hok : Shaped n a)
    (hs : step ids n a = some n') : Inv ids sessionId n' := by
  obtain ⟨env, msg⟩ := a
  obtain ⟨s, hstate, rfl⟩ := Option.map_eq_some_iff.mp hs
  obtain ⟨hsid, hbound⟩ := h.drawn s hstate
  have hspec := spec_handle hok (h.fresh hstate)
  generalize record ids env s msg = u at hspec ⊢
  -- an entry that the message puts has an id that no one before it has
  have hnew : ∀ id p, u.entry = some (id, p) → ∀ v ∈ n.history, ∀ q, v.entry ≠ some (id, q) := by
    intro id p he v hv q hq
    obtain ⟨k, hk, hid⟩ := hbound v hv id q hq
    have heq := ids.newId_injective (hid.symm.trans (hspec.entry id p he))
    omega
  refine ⟨⟨?_, ?_, ?_, ?_⟩, ?_⟩
  · intro v hv id hemits
    rcases List.mem_append.mp hv with hold | hlast
    · exact h.once.emitted v hold id hemits
    · rw [List.mem_singleton.mp hlast] at hemits ⊢
      exact hspec.emits id hemits
  · intro before v after id p hsplit he
    rcases snoc_eq_split hsplit with ⟨rfl, rfl, rfl⟩ | ⟨after', rfl, hold⟩
    · refine ⟨(h.once.unknown id (hnew id p he)).1, rfl, fun s' hs' => ?_⟩
      exact hspec.put s' hs' id p he
    · obtain ⟨hbefore, hafter, hrow⟩ := h.once.entered before v after' id p hold he
      have hnone : ∀ q, u.entry ≠ some (id, q) := fun q hq =>
        hnew id q hq v (by rw [hold]; simp) p he
      refine ⟨hbefore, ?_, fun s' hs' => ?_⟩
      · rw [forwardsOf_snoc, hafter, due_snoc, hspec.forwards, hrow s hstate, hsid]
        congr 1
        by_cases hu : u.settles id = true
        · cases hany : after'.any fun u => u.settles id <;> simp [hu]
        · simp [hu]
      · rw [hspec.kept s' hs' id hnone, hrow s hstate, List.any_append]
        by_cases hu : u.settles id = true
        · simp [hu]
        · simp [hu]
  · intro id hno
    obtain ⟨hnone, hrow⟩ := h.once.unknown id fun v hv => hno v (List.mem_append_left _ hv)
    have hlast : ∀ p, u.entry ≠ some (id, p) := hno u (List.mem_append_right _ (List.mem_singleton.mpr rfl))
    refine ⟨?_, fun s' hs' => ?_⟩
    · rw [forwardsOf_snoc, hnone, hspec.forwards, hrow s hstate]
      exact ite_self _
    · rw [hspec.kept s' hs' id hlast, hrow s hstate]
      exact ite_self _
  · intro v hv id hsettles
    rcases List.mem_append.mp hv with hold | hlast
    · exact h.once.alive v hold id hsettles
    · rw [List.mem_singleton.mp hlast] at hsettles ⊢
      exact hspec.alive id hsettles
  · intro s' hs'
    obtain ⟨hsid', hdrawn, hmore⟩ := hspec.drawn s' hs'
    refine ⟨hsid'.trans hsid, fun v hv id p he => ?_⟩
    rcases List.mem_append.mp hv with hold | hlast
    · obtain ⟨k, hk, hid⟩ := hbound v hold id p he
      exact ⟨k, Nat.lt_of_lt_of_le hk hdrawn, hid⟩
    · rw [List.mem_singleton.mp hlast] at he
      exact ⟨s.drawn, hmore (by rw [he]; rintro ⟨⟩), hspec.entry id p he⟩

end Inv

/-- **Each medium is forwarded once**, by the first message that settles its entry, if
that is an ok acknowledgement with a uri; in every run in which acknowledgements have an
id and a payload. -/
theorem exactlyOnce_of_shaped {ids : Ids} {sessionId chatId threadId appId principalId : String}
    {n : Node} (h : Reaches (step ids) Shaped (start sessionId chatId threadId appId principalId) n) :
    ExactlyOnce sessionId n :=
  (h.invariant (Inv.start chatId threadId appId principalId)
    fun _ _ _ (hinv : Inv ids sessionId _) hok hs => hinv.step hok hs).once

/-! ## The first acknowledgement counts -/

/-- The message is an ok acknowledgement of the directive, with a uri. -/
def Handled.isOk (u : Handled) (id : String) : Bool :=
  match ackOf u.msg with
  | some (id', payload) => id'.isStr id && (uriOf payload).isSome
  | none => false

/-- The message is the timeout of the directive. -/
def Handled.isTimeout (u : Handled) (id : String) : Bool :=
  match u.msg with
  | .pendingMediaTimeout id' => id' = id
  | _ => false

/-- A medium is forwarded once if any ok acknowledgement comes before the timeout. -/
def ForwardedIfOk (n : Node) : Prop :=
  ∀ before u after id p, n.history = before ++ u :: after → u.entry = some (id, p) →
    (after.takeWhile fun v => !v.isTimeout id).any (fun v => v.isOk id) = true →
      (forwardsOf id after).length = 1

/-- A session with its adapter and its CC process. -/
def devEnv : Env where
  listByRole := fun _ role => match role with
    | .feishuAppProxy => [1]
    | .ccProcess => [2]
  lookup := fun _ => none
  supportsInbound := fun _ => true
  workspaceNameForChat := fun _ _ => none
  hasCapability := fun _ _ => false
  inspect := fun s => s
  now := "2026-05-10T00:00:00Z"

/-- An image in the chat. -/
def image : Msg := .feishuInbound (.map [(.str "payload", .map [(.str "args", .map
  [(.str "chat_id", .str "oc_dev"), (.str "file_key", .str "img_1"), (.str "message_id", .str "om_1"),
    (.str "msg_type", .str "image")])])])

/-- An acknowledgement of the first directive. -/
def ackFirst (payload : Entries) : Msg :=
  .directiveAck (.map [(.str "id", .str (strokes.newId 0)), (.str "payload", .map payload)])

/-- The download has failed. -/
def failed : Msg := ackFirst [(.str "error", .str "expired"), (.str "ok", .bool false)]

/-- The download has succeeded. -/
def downloaded : Msg := ackFirst [(.str "ok", .bool true),
  (.str "result", .map [(.str "uri", .str "esr://localhost/resources/image/0a.png")])]

/-- An image is downloaded at the second attempt of the adapter. -/
def failedThenDownloaded : List (Env × Msg) :=
  [(devEnv, image), (devEnv, failed), (devEnv, downloaded)]

/-- An image is downloaded, which the adapter says twice before the timeout. -/
def downloadedTwice : List (Env × Msg) :=
  [(devEnv, image), (devEnv, downloaded), (devEnv, downloaded),
    (devEnv, .pendingMediaTimeout (strokes.newId 0))]

instance (n : Node) (a : Env × Msg) : Decidable (Shaped n a) := by
  obtain ⟨env, msg⟩ := a
  cases msg with
  | directiveAck envelope =>
    exact inferInstanceAs (Decidable ((ackOf (.directiveAck envelope)).isSome = true))
  | _ => exact isTrue trivial

theorem exactlyOnce_downloadedTwice :
    ∃ n, n.history.map (fun u => (u.forwards (strokes.newId 0)).length) = [0, 1, 0, 0] ∧
      ExactlyOnce "s1" n := by
  have hrun : (exec (step strokes) Shaped (start "s1" "oc_dev" "" "cli_a" "ou_alice")
      downloadedTwice).map (fun n => n.history.map fun u => (u.forwards (strokes.newId 0)).length) =
      some [0, 1, 0, 0] := by decide +kernel
  obtain ⟨n, hn, hforwards⟩ := Option.map_eq_some_iff.mp hrun
  exact ⟨n, hforwards, exactlyOnce_of_shaped (.of_exec hn)⟩

/-- **The second acknowledgement comes too late**, although it is ok. -/
theorem not_forwardedIfOk_failedThenDownloaded :
    ¬∀ (ids : Ids) (sessionId chatId threadId appId principalId : String) (n : Node),
      Reaches (step ids) anyStep (start sessionId chatId threadId appId principalId) n →
        ForwardedIfOk n := by
  intro h
  have hrun : (exec (step strokes) anyStep (start "s1" "oc_dev" "" "cli_a" "ou_alice")
      failedThenDownloaded).map (fun n => (n.history.head?.bind fun u => u.entry.map Prod.fst,
        ((n.history.tail.takeWhile fun v => !v.isTimeout (strokes.newId 0)).any
          fun v => v.isOk (strokes.newId 0)),
        (forwardsOf (strokes.newId 0) n.history.tail).length)) =
      some (some (strokes.newId 0), true, 0) := by decide +kernel
  obtain ⟨n, hn, he⟩ := Option.map_eq_some_iff.mp hrun
  simp only [Prod.mk.injEq] at he
  obtain ⟨hentry, hok, hnone⟩ := he
  obtain ⟨u, hu, hid⟩ := Option.bind_eq_some_iff.mp hentry
  obtain ⟨⟨id, p⟩, hp, rfl⟩ := Option.map_eq_some_iff.mp hid
  have hsplit : n.history = [] ++ u :: n.history.tail := (List.cons_head?_tail hu).symm
  have hone := h strokes "s1" "oc_dev" "" "cli_a" "ou_alice" n (.of_exec hn) [] u _ _ p hsplit hp hok
  rw [hnone] at hone
  cases hone

end MediaInbound
end Esr
