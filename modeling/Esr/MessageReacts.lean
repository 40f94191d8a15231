import Esr.FeishuAppAdapter
import Esr.Marks
import Esr.Runs

/-! # The react on a message

The adapter puts a react on each message it receives and takes it back when the message
has been dealt with.  It keeps the reacts that are there in `pending_reacts`, and
`Lifecycle` says what that comes to over a whole run: no react is taken back twice, none
is there after an entry that ends the message, and until then it stays.
-/
namespace Esr
namespace MessageReacts
open Yaml FeishuAppAdapter
open EntityServer (access orElse getIn)

/-- A message that was handled: in which state, and what it came to. -/
structure Handled where
  state : State
  msg : Msg
  outcome : Outcome

/-- The adapter, unless it has crashed, and what it has handled, oldest first. -/
structure Node where
  state : Option State
  history : List Handled

/-- The adapter takes a message. -/
def step (n : Node) (a : Env × Msg) : Option Node :=
  n.state.map fun s =>
    let o := handle a.1 s a.2
    ⟨o.next, n.history ++ [⟨s, a.2, o⟩]⟩

/-- An adapter that has handled nothing. -/
def start (instanceId : String) : Node := ⟨some (init instanceId), []⟩

/-! ## The property -/

/-- The react that an envelope puts on the message, or takes back. -/
def envelopeMark (mid : String) (envelope : Entries) : Option (Mark String) :=
  match get "kind" envelope, get "args" envelope with
  | some (.str kind), some (.map args) =>
      match get "msg_id" args, get "emoji_type" args with
      | some (.str m), some (.str emoji) =>
          if m = mid then
            if kind = "react" then some (.set emoji)
            else if kind = "un_react" then some (.clear emoji)
            else none
          else none
      | _, _ => none
  | _, _ => none

/-- What the adapter sends to itself about the message's react. -/
def marksOf (mid : String) (es : List Effect) : List (Mark String) :=
  es.filterMap fun
    | .toSelf envelope => envelopeMark mid envelope
    | _ => none

/-- The same over a history. -/
def marks (mid : String) (h : List Handled) : List (Mark String) :=
  h.flatMap fun v => marksOf mid v.outcome.effects

/-- The message of an inbound event. -/
def inboundMessage (envelope : Value) : Option String :=
  (readInbound envelope).bind fun i => messageOf i.messageId

/-- The message that the entry receives: of an event `msg_received`. -/
def Handled.receives (v : Handled) : Option String :=
  match v.msg with
  | .inboundEvent envelope => (readInbound envelope).bind fun i =>
      if i.eventType.isStr "msg_received" then messageOf i.messageId else none
  | _ => none

/-- The message that the entry ends: a pending action took it, or the user got the guide
or has it already; a reply says that it answers the message; or the slash handler
answers it. -/
def Handled.ends (v : Handled) : Option String :=
  match v.msg, v.outcome.exit with
  | .inboundEvent envelope, .consumed | .inboundEvent envelope, .unboundUserGuideSent
  | .inboundEvent envelope, .unboundUserGuideRateLimited => inboundMessage envelope
  | .outbound envelope, _ => messageOf (repliesTo envelope)
  | .reply _ ref, .slashReplied =>
      (v.state.slashPendingChat.lookup ref).bind fun p => messageOf p.2
  | _, _ => none

/-- The message that the entry leaves without an answer of its own: the session is dead
or incomplete, the chat is not bound, or the answer of the slash handler has no chat. -/
def Handled.leaves (v : Handled) : Option String :=
  match v.msg, v.outcome.exit with
  | .inboundEvent envelope, .sessionDead | .inboundEvent envelope, .sessionIncomplete
  | .inboundEvent envelope, .unboundChatGuideSent
  | .inboundEvent envelope, .unboundChatGuideRateLimited => inboundMessage envelope
  | .reply _ ref, .raised => (v.state.slashPendingChat.lookup ref).bind fun p => messageOf p.2
  | _, _ => none

/-- The reference under which the slash handler is asked. -/
def asksOf (es : List Effect) : Option Ref :=
  es.findSome? fun
    | .dispatch _ ref => some ref
    | _ => none

/-- The reference under which the entry has asked it. -/
def Handled.asks (v : Handled) : Option Ref := asksOf v.outcome.effects

/-- The reference that the entry has the answer of. -/
def Handled.answers (v : Handled) : Option Ref :=
  match v.msg with
  | .reply _ ref => some ref
  | _ => none

/-- The chat and the message of an inbound event. -/
def Handled.origin (v : Handled) : Option (Value × Value) :=
  match v.msg with
  | .inboundEvent envelope => (readInbound envelope).map fun i => (i.chatId, i.messageId)
  | _ => none

/-- The life of the reacts in a run. -/
structure Lifecycle (n : Node) : Prop where
  /-- A react is put on a message when it is received, and at no other time. -/
  received : ∀ v ∈ n.history, ∀ mid,
    (∃ emoji, .set emoji ∈ marksOf mid v.outcome.effects) ↔ v.receives = some mid
  /-- Only a react that is there is taken back. -/
  atMost : ∀ mid, (Mark.scan none (marks mid n.history)).isSome ∧
    (marks mid n.history).countP (fun a => !a.isSet) ≤ (marks mid n.history).countP Mark.isSet
  /-- It is taken back only by an entry that ends or leaves the message. -/
  timely : ∀ v ∈ n.history, ∀ mid emoji, .clear emoji ∈ marksOf mid v.outcome.effects →
    v.ends = some mid ∨ v.leaves = some mid
  /-- None is there when the message has ended. -/
  ended : ∀ before v after mid, n.history = before ++ v :: after → v.ends = some mid →
    Mark.scan none (marks mid (before ++ [v])) = some none
  /-- A react on a message that is received once and ends is taken back once. -/
  once : ∀ before v after mid, n.history = before ++ v :: after → v.ends = some mid →
    (∃ w ∈ before ++ [v], w.receives = some mid) →
    (marks mid n.history).countP Mark.isSet = 1 →
    marks mid n.history = [.set typingEmoji, .clear typingEmoji]
  /-- A react stays as long as nothing ends or leaves the message. -/
  kept : ∀ before v after mid, n.history = before ++ v :: after → v.receives = some mid →
    (∀ w ∈ v :: after, w.ends ≠ some mid ∧ w.leaves ≠ some mid) →
    Mark.scan none (marks mid n.history) = some (some typingEmoji)
  /-- The first answer to a slash command ends or leaves the message of the command. -/
  answered : ∀ before v between w after ref,
    n.history = before ++ v :: between ++ w :: after → v.asks = some ref →
    (∀ u ∈ between, u.answers ≠ some ref) → w.answers = some ref →
    ∃ chatId messageId, v.origin = some (chatId, messageId) ∧
      if (messageOf chatId).isSome then w.ends = messageOf messageId
      else w.leaves = messageOf messageId

/-! ## What is sent about a react -/

section
variable {mid : String} {s s' : State} {v : Value} {es : List Effect} {o : Outcome}

theorem marksOf_append (mid : String) (es fs : List Effect) :
    marksOf mid (es ++ fs) = marksOf mid es ++ marksOf mid fs := List.filterMap_append ..

theorem marksOf_toSelf (mid : String) (envelope : Entries) (es : List Effect) :
    marksOf mid (.toSelf envelope :: es) = (envelopeMark mid envelope).toList ++ marksOf mid es := by
  unfold marksOf
  rw [List.filterMap_cons]
  dsimp only
  cases envelopeMark mid envelope <;> rfl

theorem envelopeMark_react (mid m emoji : String) :
    envelopeMark mid (reactEnvelope "react" m emoji) = if m = mid then some (.set emoji) else none := rfl

theorem envelopeMark_unReact (mid m emoji : String) :
    envelopeMark mid (reactEnvelope "un_react" m emoji) =
      if m = mid then some (.clear emoji) else none := rfl

theorem envelopeMark_reply (mid : String) (chatId : Value) (text : String) :
    envelopeMark mid (replyEnvelope chatId text) = none := rfl

theorem marksOf_reply (mid : String) (chatId : Value) (text : String) :
    marksOf mid [.toSelf (replyEnvelope chatId text)] = [] := rfl

theorem maybeEmitReact_marks (v : Value) (s : State) (mid : String) :
    marksOf mid (maybeEmitReact v s).1 =
      if messageOf v = some mid then [.set typingEmoji] else [] := by
  unfold maybeEmitReact
  cases messageOf v with
  | none => rfl
  | some m =>
    rw [marksOf_toSelf, envelopeMark_react]
    by_cases hm : m = mid <;> simp [hm, marksOf]

theorem maybeEmitReact_lookup (v : Value) (s : State) (mid : String) :
    (maybeEmitReact v s).2.pendingReacts.lookup mid =
      if messageOf v = some mid then some typingEmoji else s.pendingReacts.lookup mid := by
  unfold maybeEmitReact
  cases messageOf v with
  | none => rfl
  | some m =>
    rw [Ets.lookup_insert]
    simp only [Option.some.injEq, eq_comm]

theorem maybeEmitUnReact_marks (v : Value) (s : State) (mid : String) :
    marksOf mid (maybeEmitUnReact v s).1 =
      if messageOf v = some mid then (s.pendingReacts.lookup mid).toList.map .clear else [] := by
  unfold maybeEmitUnReact
  cases messageOf v with
  | none => rfl
  | some m =>
    by_cases hm : m = mid
    · subst hm
      rw [if_pos rfl]
      cases hl : s.pendingReacts.lookup m with
      | none => simp [hl, marksOf]
      | some emoji => simp [hl, envelopeMark_unReact, marksOf]
    · rw [if_neg (fun h => hm (Option.some.inj h))]
      cases hl : s.pendingReacts.lookup m with
      | none => simp [hl, marksOf]
      | some emoji => simp [hl, envelopeMark_unReact, hm, marksOf]

theorem maybeEmitUnReact_lookup (v : Value) (s : State) (mid : String) :
    (maybeEmitUnReact v s).2.pendingReacts.lookup mid =
      if messageOf v = some mid then none else s.pendingReacts.lookup mid := by
  unfold maybeEmitUnReact
  cases messageOf v with
  | none => rfl
  | some m =>
    by_cases hm : m = mid
    · subst hm
      rw [if_pos rfl]
      cases hl : s.pendingReacts.lookup m with
      | none => simp [hl]
      | some emoji => simp [hl]
    · rw [if_neg (fun h => hm (Option.some.inj h))]
      cases hl : s.pendingReacts.lookup m with
      | none => simp [hl]
      | some emoji => simp [hl, Ets.lookup_delete_of_ne _ (Ne.symm hm)]

end

/-! ## What a message does to the reacts -/

/-- The react on the message `received` is put there, then the one on the message
`ended` is taken back, and nothing else happens to reacts. -/
structure Tracks (s : State) (o : Outcome) (received ended : Option String) : Prop where
  marks : ∀ mid, marksOf mid o.effects =
    (if received = some mid then [.set typingEmoji] else []) ++
      if ended = some mid then
        ((if received = some mid then some typingEmoji else s.pendingReacts.lookup mid).toList.map
          .clear)
      else []
  next : ∀ s', o.next = some s' → ∀ mid, s'.pendingReacts.lookup mid =
    if ended = some mid then none
    else if received = some mid then some typingEmoji
    else s.pendingReacts.lookup mid

namespace Tracks
variable {s : State} {o : Outcome} {received ended : Option String}

theorem quiet (hmarks : ∀ mid, marksOf mid o.effects = [])
    (hnext : ∀ s', o.next = some s' → s'.pendingReacts = s.pendingReacts) :
    Tracks s o none none := by
  constructor
  · intro mid
    rw [hmarks]
    simp
  · intro s' hs' mid
    rw [hnext s' hs']
    simp

theorem raised (s : State) : Tracks s .raised none none :=
  quiet (fun _ => rfl) (fun _ h => nomatch h)

theorem unReact {v : Value}
    (hmarks : ∀ mid, marksOf mid o.effects = marksOf mid (maybeEmitUnReact v s).1)
    (hnext : ∀ s', o.next = some s' → s'.pendingReacts = (maybeEmitUnReact v s).2.pendingReacts) :
    Tracks s o none (messageOf v) := by
  constructor
  · intro mid
    rw [hmarks, maybeEmitUnReact_marks]
    simp
  · intro s' hs' mid
    rw [hnext s' hs', maybeEmitUnReact_lookup]
    simp

theorem afterReact {v : Value} (h : Tracks (maybeEmitReact v s).2 o none ended) :
    Tracks s (o.after (maybeEmitReact v s).1) (messageOf v) ended := by
  constructor
  · intro mid
    show marksOf mid ((maybeEmitReact v s).1 ++ o.effects) = _
    rw [marksOf_append, maybeEmitReact_marks, h.marks, maybeEmitReact_lookup]
    simp
  · intro s' hs' mid
    rw [h.next s' hs', maybeEmitReact_lookup]
    simp

theorem scan (h : Tracks s o received ended) (mid : String) :
    Mark.scan (s.pendingReacts.lookup mid) (marksOf mid o.effects) =
      some (if ended = some mid then none
        else if received = some mid then some typingEmoji
        else s.pendingReacts.lookup mid) := by
  rw [h.marks]
  by_cases hr : received = some mid <;> by_cases he : ended = some mid
  · simp [hr, he, Mark.scan]
  · simp [hr, he, Mark.scan]
  · cases hl : s.pendingReacts.lookup mid <;> simp [hr, he, Mark.scan]
  · simp [hr, he]

theorem set_mem_iff (h : Tracks s o received ended) (mid : String) :
    (∃ emoji, .set emoji ∈ marksOf mid o.effects) ↔ received = some mid := by
  rw [h.marks]
  by_cases hr : received = some mid <;> by_cases he : ended = some mid <;> simp [hr, he]

theorem eq_typing_of_set_mem (h : Tracks s o received ended) {mid emoji : String}
    (hmem : .set emoji ∈ marksOf mid o.effects) : emoji = typingEmoji := by
  rw [h.marks] at hmem
  by_cases hr : received = some mid <;> by_cases he : ended = some mid <;> simp [hr, he] at hmem <;>
    exact hmem

theorem ended_of_clear_mem (h : Tracks s o received ended) {mid emoji : String}
    (hmem : .clear emoji ∈ marksOf mid o.effects) : ended = some mid := by
  rw [h.marks] at hmem
  by_cases hr : received = some mid <;> by_cases he : ended = some mid <;> simp [hr, he] at hmem <;>
    exact he

end Tracks

/-! ## Each message -/

/-- The message that an inbound event ends. -/
def endedBy (messageId : Value) : Exit → Option String
  | .consumed | .unboundUserGuideSent | .unboundUserGuideRateLimited => messageOf messageId
  | _ => none

section
variable (env : Env) (s : State) (envelope : Value) (i : Inbound)

theorem cleanupAndReply_tracks (chatId appId : Value) (sid : String) {reason : Exit}
    (hreason : endedBy i.messageId reason = none) :
    Tracks s (cleanupAndReply env chatId appId sid reason s) none
      (endedBy i.messageId (cleanupAndReply env chatId appId sid reason s).exit) := by
  unfold cleanupAndReply
  split
  · dsimp only
    rw [hreason]
    refine .quiet (fun mid => ?_) fun s' h => by rw [Option.some.inj h]
    split <;> rfl
  · exact .raised s

theorem doHandleUpstreamInbound_tracks (appId : Value) :
    Tracks s (doHandleUpstreamInbound env envelope appId i s) none
      (endedBy i.messageId (doHandleUpstreamInbound env envelope appId i s).exit) := by
  unfold doHandleUpstreamInbound
  split
  · split
    · split
      · exact .quiet (fun _ => rfl) fun s' h => by rw [Option.some.inj h]
      · exact cleanupAndReply_tracks env s i i.chatId appId _ rfl
    · exact cleanupAndReply_tracks env s i i.chatId appId _ rfl
  · split
    · exact .quiet (fun _ => rfl) fun s' h => by rw [Option.some.inj h]
    · exact .quiet (fun _ => rfl) fun s' h => by rw [Option.some.inj h]
    · exact .quiet (fun _ => rfl) fun s' h => by rw [Option.some.inj h]

theorem handleFreeText_tracks :
    Tracks s (handleFreeText env envelope i s) none
      (endedBy i.messageId (handleFreeText env envelope i s).exit) := by
  unfold handleFreeText
  split
  · dsimp only
    split
    · split
      · exact .unReact (fun _ => rfl) fun s' h => by rw [← Option.some.inj h]
      · exact .unReact (fun _ => rfl) fun s' h => by rw [← Option.some.inj h]
      · exact doHandleUpstreamInbound_tracks env s envelope i _
    · exact .raised s
  · exact .raised s

theorem dispatchSlash_tracks (text : String) (chatId messageId : Value) :
    Tracks s (dispatchSlash envelope text chatId messageId s) none
      (endedBy i.messageId (dispatchSlash envelope text chatId messageId s).exit) := by
  unfold dispatchSlash
  split
  · exact .quiet (fun _ => rfl) fun s' h => by rw [← Option.some.inj h]
  · exact .raised s

theorem classify_tracks :
    Tracks s (classify env envelope i s) none
      (endedBy i.messageId (classify env envelope i s).exit) := by
  unfold classify
  split
  · split
    · exact .unReact (fun _ => rfl) fun s' h => by rw [← Option.some.inj h]
    · split
      · exact dispatchSlash_tracks s envelope i _ _ _
      · exact handleFreeText_tracks env s envelope i
    · exact .raised s
  · exact .raised s

end

/-- An inbound event puts a react on the message it receives, and takes it back if that
is where the message ends. -/
theorem handleUpstream_tracks (env : Env) (s : State) (envelope : Value) :
    let v : Handled := ⟨s, .inboundEvent envelope, handleUpstream env s envelope⟩
    Tracks s v.outcome v.receives v.ends := by
  have hends : ∀ o : Outcome, Handled.ends ⟨s, .inboundEvent envelope, o⟩ =
      (readInbound envelope).bind fun i => endedBy i.messageId o.exit := by
    rintro ⟨es, next, exit⟩
    cases h : readInbound envelope <;> cases exit <;> simp [Handled.ends, endedBy, inboundMessage, h]
  have hreceives : ∀ o : Outcome, Handled.receives ⟨s, .inboundEvent envelope, o⟩ =
      (readInbound envelope).bind fun i =>
        if i.eventType.isStr "msg_received" then messageOf i.messageId else none := fun _ => rfl
  show Tracks s (handleUpstream env s envelope) (Handled.receives ⟨s, _, _⟩)
    (Handled.ends ⟨s, _, _⟩)
  rw [hends, hreceives]
  unfold handleUpstream
  cases h : readInbound envelope with
  | none => exact .raised s
  | some i =>
    dsimp only [Option.bind_some]
    by_cases he : i.eventType.isStr "msg_received" = true
    · rw [if_pos he, if_pos he]
      exact (classify_tracks env _ envelope i).afterReact
    · rw [if_neg he, if_neg he]
      exact classify_tracks env s envelope i

theorem handleDownstream_tracks (env : Env) (s : State) (envelope : Entries) :
    Tracks s (handleDownstream env s envelope) none (messageOf (repliesTo envelope)) := by
  unfold handleDownstream
  dsimp only
  split
  · refine .unReact (fun mid => ?_) fun s' h => by rw [← Option.some.inj h]
    show marksOf mid (_ ++ [_]) = _
    rw [marksOf_append]
    exact List.append_nil _
  · exact .unReact (fun _ => rfl) fun _ h => nomatch h

theorem handleReply_tracks (s : State) (text : String) (ref : Ref) :
    let v : Handled := ⟨s, .reply text ref, handleReply s text ref⟩
    Tracks s v.outcome none v.ends := by
  show Tracks s (handleReply s text ref) none
    (Handled.ends ⟨s, .reply text ref, handleReply s text ref⟩)
  unfold handleReply
  cases hl : s.slashPendingChat.lookup ref with
  | none => exact .quiet (fun _ => rfl) fun s' h => by rw [Option.some.inj h]
  | some p =>
    obtain ⟨chatId, messageId⟩ := p
    dsimp only
    cases messageOf chatId with
    | none => exact .raised s
    | some chat =>
      have hends : ∀ es next, Handled.ends ⟨s, .reply text ref, ⟨es, next, .slashReplied⟩⟩ =
          messageOf messageId := fun es next => by simp [Handled.ends, hl]
      rw [hends]
      refine .unReact (fun mid => ?_) fun s' h => by rw [← Option.some.inj h]
      show marksOf mid (_ ++ [_]) = _
      rw [marksOf_append, marksOf_reply, List.append_nil]

/-- **What a message does to the reacts.** -/
theorem handle_tracks (env : Env) (s : State) (msg : Msg) :
    let v : Handled := ⟨s, msg, handle env s msg⟩
    Tracks s v.outcome v.receives v.ends := by
  cases msg with
  | inboundEvent envelope => exact handleUpstream_tracks env s envelope
  | outbound envelope => exact handleDownstream_tracks env s envelope
  | reply text ref => exact handleReply_tracks s text ref

/-! ## Slash commands -/

/-- What a message does to the commands that wait for an answer: one more waits, under a
new reference, or none but the one answered is touched. -/
inductive Asked (s : State) (o : Outcome) (origin : Option (Value × Value)) (answers : Option Ref) :
    Prop
  | asked {origin' : Value × Value} {s' : State} (horigin : origin = some origin')
      (hasks : asksOf o.effects = some s.refs) (hanswers : answers = none) (hnext : o.next = some s')
      (hslash : s'.slashPendingChat = s.slashPendingChat.insert s.refs origin')
      (hrefs : s'.refs = s.refs + 1)
  | other (hasks : asksOf o.effects = none)
      (hnext : ∀ s', o.next = some s' → s'.refs = s.refs ∧
        ∀ ref, answers ≠ some ref → s'.slashPendingChat.lookup ref = s.slashPendingChat.lookup ref)

namespace Asked
variable {s : State} {o : Outcome} {origin : Option (Value × Value)} {answers : Option Ref}

theorem raised (s : State) : Asked s .raised origin answers := .other rfl fun _ h => nomatch h

theorem kept (hasks : asksOf o.effects = none) (hnext : ∀ s', o.next = some s' →
    s'.refs = s.refs ∧ s'.slashPendingChat = s.slashPendingChat) : Asked s o origin answers :=
  .other hasks fun s' h => ⟨(hnext s' h).1, fun ref _ => by rw [(hnext s' h).2]⟩

end Asked

theorem asksOf_append (es fs : List Effect) :
    asksOf (es ++ fs) = (asksOf es).or (asksOf fs) := List.findSome?_append

theorem maybeEmitReact_slash (v : Value) (s : State) :
    asksOf (maybeEmitReact v s).1 = none ∧ (maybeEmitReact v s).2.refs = s.refs ∧
      (maybeEmitReact v s).2.slashPendingChat = s.slashPendingChat := by
  unfold maybeEmitReact
  split <;> exact ⟨rfl, rfl, rfl⟩

theorem maybeEmitUnReact_slash (v : Value) (s : State) :
    asksOf (maybeEmitUnReact v s).1 = none ∧ (maybeEmitUnReact v s).2.refs = s.refs ∧
      (maybeEmitUnReact v s).2.slashPendingChat = s.slashPendingChat := by
  unfold maybeEmitUnReact
  split
  · split <;> exact ⟨rfl, rfl, rfl⟩
  · exact ⟨rfl, rfl, rfl⟩

section
variable (env : Env) (s : State) (envelope : Value) (i : Inbound)
  {origin : Option (Value × Value)} {answers : Option Ref}

theorem cleanupAndReply_asked (chatId appId : Value) (sid : String) (reason : Exit) :
    Asked s (cleanupAndReply env chatId appId sid reason s) origin answers := by
  unfold cleanupAndReply
  split
  · refine .kept ?_ fun s' h => by rw [Option.some.inj h]; exact ⟨rfl, rfl⟩
    dsimp only
    split <;> rfl
  · exact .raised s

theorem doHandleUpstreamInbound_asked (appId : Value) :
    Asked s (doHandleUpstreamInbound env envelope appId i s) origin answers := by
  unfold doHandleUpstreamInbound
  split
  · split
    · split
      · exact .kept rfl fun s' h => by rw [Option.some.inj h]; exact ⟨rfl, rfl⟩
      · exact cleanupAndReply_asked env s i.chatId appId _ _
    · exact cleanupAndReply_asked env s i.chatId appId _ _
  · split
    · exact .kept rfl fun s' h => by rw [Option.some.inj h]; exact ⟨rfl, rfl⟩
    · exact .kept rfl fun s' h => by rw [Option.some.inj h]; exact ⟨rfl, rfl⟩
    · exact .kept rfl fun s' h => by rw [Option.some.inj h]; exact ⟨rfl, rfl⟩

theorem unReact_asked (before : List Effect) {v : Value} {exit : Exit}
    (hbefore : asksOf before = none) :
    Asked s ⟨before ++ (maybeEmitUnReact v s).1, some (maybeEmitUnReact v s).2, exit⟩ origin
      answers := by
  obtain ⟨hasks, hslash⟩ := maybeEmitUnReact_slash v s
  refine .kept ?_ fun s' h => by rw [← Option.some.inj h]; exact hslash
  show asksOf (_ ++ _) = none
  rw [asksOf_append, hbefore, hasks]
  rfl

theorem handleFreeText_asked : Asked s (handleFreeText env envelope i s) origin answers := by
  unfold handleFreeText
  split
  · dsimp only
    split
    · split
      · exact unReact_asked s [_] rfl
      · exact unReact_asked s [] rfl
      · exact doHandleUpstreamInbound_asked env s envelope i _
    · exact .raised s
  · exact .raised s

theorem classify_asked :
    Asked s (classify env envelope i s) (some (i.chatId, i.messageId)) none := by
  unfold classify
  split
  · split
    · exact unReact_asked s [] rfl
    · split
      · unfold dispatchSlash
        split
        · exact .asked rfl rfl rfl rfl rfl rfl
        · exact .raised s
      · exact handleFreeText_asked env s envelope i
    · exact .raised s
  · exact .raised s

end

theorem Asked.afterReact {v : Value} {s : State} {o : Outcome} {origin : Option (Value × Value)}
    {answers : Option Ref} (h : Asked (maybeEmitReact v s).2 o origin answers) :
    Asked s (o.after (maybeEmitReact v s).1) origin answers := by
  obtain ⟨hquiet, hrefs, hslash⟩ := maybeEmitReact_slash v s
  have hafter : asksOf (o.after (maybeEmitReact v s).1).effects = asksOf o.effects := by
    show asksOf (_ ++ _) = _
    rw [asksOf_append, hquiet, Option.none_or]
  cases h with
  | asked horigin hasks hanswers hnext hslash' hrefs' =>
    rw [hrefs] at hasks hslash' hrefs'
    rw [hslash] at hslash'
    exact .asked horigin (hafter.trans hasks) hanswers hnext hslash' hrefs'
  | other hasks hnext =>
    rw [hrefs, hslash] at hnext
    exact .other (hafter.trans hasks) hnext

/-- **What a message does to the commands that wait.** -/
theorem handle_asked (env : Env) (s : State) (msg : Msg) :
    let v : Handled := ⟨s, msg, handle env s msg⟩
    Asked s v.outcome v.origin v.answers := by
  cases msg with
  | inboundEvent envelope =>
    show Asked s (handleUpstream env s envelope)
      ((readInbound envelope).map fun i => (i.chatId, i.messageId)) none
    unfold handleUpstream
    cases readInbound envelope with
    | none => exact .raised s
    | some i =>
      dsimp only [Option.map_some]
      split
      · exact (classify_asked env _ envelope i).afterReact
      · exact classify_asked env s envelope i
  | outbound envelope =>
    show Asked s (handleDownstream env s envelope) none none
    obtain ⟨hasks, hslash⟩ := maybeEmitUnReact_slash (repliesTo envelope) s
    unfold handleDownstream
    dsimp only
    split
    · refine .kept ?_ fun s' h => by rw [← Option.some.inj h]; exact hslash
      show asksOf (_ ++ _) = none
      rw [asksOf_append, hasks]
      rfl
    · exact .kept hasks fun _ h => nomatch h
  | reply text ref =>
    show Asked s (handleReply s text ref) none (some ref)
    unfold handleReply
    split
    · rename_i chatId messageId _
      obtain ⟨hasks, hrefs, hslash⟩ := maybeEmitUnReact_slash messageId s
      split
      · refine .other ?_ fun s' h => ?_
        · show asksOf (_ ++ _) = none
          rw [asksOf_append, hasks]
          rfl
        · rw [← Option.some.inj h]
          refine ⟨hrefs, fun ref' hne => ?_⟩
          show ((maybeEmitUnReact messageId s).2.slashPendingChat.delete ref).lookup ref' = _
          rw [hslash, Ets.lookup_delete_of_ne _ fun he => hne (by rw [he])]
      · exact .raised s
    · exact .kept rfl fun s' h => by rw [Option.some.inj h]; exact ⟨rfl, rfl⟩

theorem answer_ends {env : Env} {s : State} {msg : Msg} {ref : Ref} {chatId messageId : Value}
    (hans : Handled.answers ⟨s, msg, handle env s msg⟩ = some ref)
    (hwaits : s.slashPendingChat.lookup ref = some (chatId, messageId)) :
    if (messageOf chatId).isSome then
      Handled.ends ⟨s, msg, handle env s msg⟩ = messageOf messageId
    else Handled.leaves ⟨s, msg, handle env s msg⟩ = messageOf messageId := by
  cases msg with
  | inboundEvent envelope => cases hans
  | outbound envelope => cases hans
  | reply text ref' =>
    obtain rfl := Option.some.inj hans
    simp only [handle, handleReply, hwaits]
    cases hchat : messageOf chatId with
    | none => simp [Handled.leaves, Outcome.raised, hwaits]
    | some chat => simp [Handled.ends, hwaits]

/-! ## Runs -/

/-- What holds of every entry. -/
structure Entry (v : Handled) : Prop where
  tracks : Tracks v.state v.outcome v.receives v.ends
  asked : Asked v.state v.outcome v.origin v.answers

/-- What holds in every state of a run. -/
structure Inv (n : Node) : Prop where
  entries : ∀ v ∈ n.history, Entry v
  scan : ∀ mid, ∃ r, Mark.scan none (marks mid n.history) = some r ∧
    ∀ s, n.state = some s → r = s.pendingReacts.lookup mid
  ended : ∀ before v after mid, n.history = before ++ v :: after → v.ends = some mid →
    Mark.scan none (marks mid (before ++ [v])) = some none
  bound : ∀ v ∈ n.history, ∀ ref s, v.asks = some ref → n.state = some s → ref < s.refs
  waits : ∀ before v after ref, n.history = before ++ v :: after → v.asks = some ref →
    (∀ u ∈ after, u.answers ≠ some ref) →
    ∃ origin, v.origin = some origin ∧
      ∀ s, n.state = some s → s.slashPendingChat.lookup ref = some origin
  answered : ∀ before v between w after ref,
    n.history = before ++ v :: between ++ w :: after → v.asks = some ref →
    (∀ u ∈ between, u.answers ≠ some ref) → w.answers = some ref →
    ∃ chatId messageId, v.origin = some (chatId, messageId) ∧
      if (messageOf chatId).isSome then w.ends = messageOf messageId
      else w.leaves = messageOf messageId

theorem marks_append (mid : String) (h h' : List Handled) :
    marks mid (h ++ h') = marks mid h ++ marks mid h' := List.flatMap_append

theorem marks_singleton (mid : String) (v : Handled) :
    marks mid [v] = marksOf mid v.outcome.effects := List.flatMap_singleton ..

theorem inv_start (instanceId : String) : Inv (start instanceId) := by
  have hnone : ∀ {before after : List Handled} {v : Handled}, [] ≠ before ++ v :: after :=
    fun h => List.append_ne_nil_of_right_ne_nil _ (List.cons_ne_nil _ _) h.symm
  constructor
  · exact fun v h => nomatch h
  · refine fun mid => ⟨none, rfl, fun s h => ?_⟩
    rw [← Option.some.inj h]
    rfl
  · exact fun before v after mid h => absurd h hnone
  · exact fun v h => nomatch h
  · exact fun before v after ref h => absurd h hnone
  · intro before v between w after ref h
    exact absurd h hnone

section
variable {history : List Handled} {s : State} {env : Env} {msg : Msg}

theorem scan_snoc (hn : Inv ⟨some s, history⟩) {v : Handled} (hv : Entry v) (hs : v.state = s)
    (mid : String) : Mark.scan none (marks mid (history ++ [v])) =
      some (if v.ends = some mid then none
        else if v.receives = some mid then some typingEmoji
        else s.pendingReacts.lookup mid) := by
  obtain ⟨r, hr, hlookup⟩ := hn.scan mid
  rw [marks_append, marks_singleton, Mark.scan_append, hr, Option.bind_some, hlookup s rfl, ← hs]
  exact hv.tracks.scan mid

theorem waits_snoc {v : Handled} (hv : Entry v) {ref : Ref} {origin : Value × Value}
    (hwaits : v.state.slashPendingChat.lookup ref = some origin) (hbound : ref < v.state.refs)
    (hans : v.answers ≠ some ref) {s' : State} (hnext : v.outcome.next = some s') :
    s'.slashPendingChat.lookup ref = some origin := by
  cases hv.asked with
  | asked _ _ _ hs' hslash _ =>
    obtain rfl := Option.some.inj (hs'.symm.trans hnext)
    rw [hslash, Ets.lookup_insert_of_ne _ _ (Nat.ne_of_lt hbound), hwaits]
  | other _ hother => rw [(hother s' hnext).2 ref hans, hwaits]

end

theorem inv_step {n n' : Node} {a : Env × Msg} (hn : Inv n) (hs : step n a = some n') : Inv n' := by
  obtain ⟨env, msg⟩ := a
  obtain ⟨state, history⟩ := n
  obtain ⟨s, hstate, he⟩ := Option.map_eq_some_iff.mp hs
  obtain rfl : state = some s := hstate
  subst he
  dsimp only
  have hv : Entry ⟨s, msg, handle env s msg⟩ := ⟨handle_tracks env s msg, handle_asked env s msg⟩
  have hscan := scan_snoc hn hv rfl
  have hans := @answer_ends env s msg
  generalize handle env s msg = o at hv hscan hans ⊢
  refine ⟨?_, fun mid => ⟨_, hscan mid, fun s' h => ((hv.tracks.next s' h) mid).symm⟩, ?_, ?_, ?_, ?_⟩
  · intro v hmem
    rcases List.mem_append.mp hmem with hmem | hmem
    · exact hn.entries v hmem
    · rw [List.mem_singleton.mp hmem]
      exact hv
  · intro before v after mid hsplit hends
    rcases snoc_eq_split hsplit with ⟨-, rfl, rfl⟩ | ⟨after', -, hh⟩
    · rw [hscan, if_pos hends]
    · exact hn.ended before v after' mid hh hends
  · intro v hmem ref s' hasks hs'
    cases hv.asked with
    | asked _ hnew _ hnext _ hrefs =>
      obtain rfl := Option.some.inj (hnext.symm.trans hs')
      rw [hrefs]
      rcases List.mem_append.mp hmem with hmem | hmem
      · exact Nat.lt_succ_of_lt (hn.bound v hmem ref s hasks rfl)
      · rw [List.mem_singleton.mp hmem] at hasks
        rw [Option.some.inj (hasks.symm.trans hnew)]
        exact Nat.lt_succ_self _
    | other hnone hother =>
      rw [(hother s' hs').1]
      rcases List.mem_append.mp hmem with hmem | hmem
      · exact hn.bound v hmem ref s hasks rfl
      · rw [List.mem_singleton.mp hmem] at hasks
        cases hasks.symm.trans hnone
  · intro before v after ref hsplit hasks hlater
    rcases snoc_eq_split hsplit with ⟨-, rfl, rfl⟩ | ⟨after', rfl, hh⟩
    · cases hv.asked with
      | asked horigin hnew _ hnext hslash _ =>
        refine ⟨_, horigin, fun s' hs' => ?_⟩
        obtain rfl := Option.some.inj (hnext.symm.trans hs')
        rw [hslash, Option.some.inj (hasks.symm.trans hnew), Ets.lookup_insert_self]
      | other hnone _ => cases hasks.symm.trans hnone
    · obtain ⟨origin, horigin, hwaits⟩ := hn.waits before v after' ref hh hasks
        fun u hu => hlater u (List.mem_append_left _ hu)
      have hbound := hn.bound v (by rw [hh]; exact List.mem_append_right _ List.mem_cons_self) ref s
        hasks rfl
      exact ⟨origin, horigin, fun s' hs' => waits_snoc hv (hwaits s rfl) hbound
        (hlater _ (List.mem_append_right _ List.mem_cons_self)) hs'⟩
  · intro before v between w after ref hsplit hasks hlater hw
    rcases snoc_eq_split hsplit with ⟨-, rfl, hh⟩ | ⟨after', -, hh⟩
    · obtain ⟨⟨chatId, messageId⟩, horigin, hwaits⟩ := hn.waits before v between ref hh hasks hlater
      exact ⟨chatId, messageId, horigin, hans hw (hwaits s rfl)⟩
    · exact hn.answered before v between w after' ref hh hasks hlater hw

theorem inv_of_reaches {instanceId : String} {n : Node}
    (h : Reaches step anyStep (start instanceId) n) : Inv n :=
  h.invariant (inv_start instanceId) fun _ _ _ hn _ hs => inv_step hn hs

theorem mem_marks {mid : String} {a : Mark String} {h : List Handled} :
    a ∈ marks mid h ↔ ∃ v ∈ h, a ∈ marksOf mid v.outcome.effects := List.mem_flatMap

theorem set_eq {n : Node} (hn : Inv n) {mid emoji : String} {h : List Handled}
    (hsub : ∀ v ∈ h, v ∈ n.history) (hmem : .set emoji ∈ marks mid h) : emoji = typingEmoji := by
  obtain ⟨v, hv, hset⟩ := mem_marks.mp hmem
  exact (hn.entries v (hsub v hv)).tracks.eq_typing_of_set_mem hset

theorem set_mem {n : Node} (hn : Inv n) {mid : String} {h : List Handled} {v : Handled}
    (hsub : ∀ v ∈ h, v ∈ n.history) (hv : v ∈ h) (hrec : v.receives = some mid) :
    ∃ emoji, .set emoji ∈ marks mid h := by
  obtain ⟨emoji, hset⟩ := ((hn.entries v (hsub v hv)).tracks.set_mem_iff mid).mpr hrec
  exact ⟨emoji, mem_marks.mpr ⟨v, hv, hset⟩⟩

theorem once_of_inv {n : Node} (hn : Inv n) {before : List Handled} {v : Handled}
    {after : List Handled} {mid : String} (hsplit : n.history = before ++ v :: after)
    (hends : v.ends = some mid) (hrec : ∃ w ∈ before ++ [v], w.receives = some mid)
    (hone : (marks mid n.history).countP Mark.isSet = 1) :
    marks mid n.history = [.set typingEmoji, .clear typingEmoji] := by
  have hparts : n.history = (before ++ [v]) ++ after := by rw [hsplit, List.append_cons]
  have hsub : ∀ u ∈ before ++ [v], u ∈ n.history := by
    intro u hu
    rw [hparts]
    exact List.mem_append_left _ hu
  have hclosed := hn.ended before v after mid hsplit hends
  obtain ⟨w, hw, hwrec⟩ := hrec
  obtain ⟨emoji, hset⟩ := set_mem hn hsub hw hwrec
  have hpos : 0 < (marks mid (before ++ [v])).countP Mark.isSet :=
    List.countP_pos_iff.mpr ⟨_, hset, rfl⟩
  obtain ⟨r, hr, -⟩ := hn.scan mid
  rw [hparts, marks_append, Mark.scan_append, hclosed, Option.bind_some] at hr
  rw [hparts, marks_append, List.countP_append] at hone
  obtain ⟨e, hpair⟩ := Mark.eq_pair hclosed (by omega)
  have hnone : marks mid after = [] := by
    refine Mark.eq_nil_of_no_set hr fun a ha => Bool.eq_false_iff.mpr ?_
    exact List.countP_eq_zero.mp (by omega) a ha
  have hemoji : e = typingEmoji := set_eq hn hsub (by rw [hpair]; exact List.mem_cons_self)
  rw [hparts, marks_append, hpair, hnone, hemoji]
  rfl

theorem kept_of_inv {n : Node} (hn : Inv n) {before : List Handled} {v : Handled}
    {after : List Handled} {mid : String} (hsplit : n.history = before ++ v :: after)
    (hrec : v.receives = some mid) (hlater : ∀ w ∈ v :: after, w.ends ≠ some mid) :
    Mark.scan none (marks mid n.history) = some (some typingEmoji) := by
  have hsub : ∀ u ∈ v :: after, u ∈ n.history := by
    intro u hu
    rw [hsplit]
    exact List.mem_append_right _ hu
  have hall : ∀ a ∈ marks mid (v :: after), a = .set typingEmoji := by
    intro a ha
    cases a with
    | set emoji => rw [set_eq hn hsub ha]
    | clear emoji =>
      obtain ⟨w, hw, hclear⟩ := mem_marks.mp ha
      exact absurd ((hn.entries w (hsub w hw)).tracks.ended_of_clear_mem hclear) (hlater w hw)
  obtain ⟨emoji, hset⟩ := set_mem hn hsub List.mem_cons_self hrec
  obtain ⟨r, hr, -⟩ := hn.scan mid
  rw [hsplit, marks_append, Mark.scan_append] at hr ⊢
  obtain ⟨r', hr', -⟩ := Option.bind_eq_some_iff.mp hr
  rw [hr', Option.bind_some, Mark.scan_of_no_clear hall, if_neg (List.ne_nil_of_mem hset)]

/-- **The life of the reacts**, in every run of the adapter. -/
theorem lifecycle_of_reaches {instanceId : String} {n : Node}
    (h : Reaches step anyStep (start instanceId) n) : Lifecycle n := by
  have hn := inv_of_reaches h
  constructor
  · exact fun v hv mid => (hn.entries v hv).tracks.set_mem_iff mid
  · intro mid
    obtain ⟨r, hr, -⟩ := hn.scan mid
    exact ⟨by rw [hr]; rfl, Mark.count_clear_le hr⟩
  · exact fun v hv mid emoji hmem => .inl ((hn.entries v hv).tracks.ended_of_clear_mem hmem)
  · exact hn.ended
  · exact fun before v after mid hsplit hends hrec hone => once_of_inv hn hsplit hends hrec hone
  · exact fun before v after mid hsplit hrec hlater =>
      kept_of_inv hn hsplit hrec fun w hw => (hlater w hw).1
  · exact hn.answered

/-! ## An answer that does not say what it answers -/

/-- The chat that an event comes from, or a reply goes to. -/
def Handled.chat (v : Handled) : Option String :=
  match v.msg with
  | .inboundEvent envelope => (readInbound envelope).bind fun i => messageOf i.chatId
  | .outbound envelope =>
      match get "kind" envelope, get "args" envelope with
      | some (.str "reply"), some (.map args) => (get "chat_id" args).bind messageOf
      | _, _ => none
  | .reply _ _ => none

/-- The react on a message that was routed and then answered in its chat has been taken
back once. -/
def UnReactedWhenAnswered (n : Node) : Prop :=
  ∀ before v between w after mid chat, n.history = before ++ v :: between ++ w :: after →
    v.receives = some mid → v.outcome.exit = .routed → v.chat = some chat →
    w.outcome.exit = .forwarded → w.chat = some chat →
    (marks mid n.history).countP (fun a => !a.isSet) = 1

/-- A chat with a session. -/
def devEnv : Env where
  intercept := none
  unboundUser := fun _ _ _ => .passthrough
  unboundChat := fun _ _ _ => .passthrough
  currentSession := fun _ _ => some "s1"
  fcpForSession := fun _ => some 7
  alive := fun _ => true
  lookup := fun _ => none
  randomId := "k3J0"
  now := "2026-05-10T00:00:00Z"

/-- A text in the chat. -/
def hello : Msg := .inboundEvent (.map [(.str "payload", .map
  [(.str "args", .map [(.str "chat_id", .str "oc_dev"), (.str "content", .str "hello"),
      (.str "message_id", .str "om_1")]),
    (.str "event_type", .str "msg_received")])])

/-- A reply into the chat. -/
def hi : Entries :=
  [(.str "args", .map [(.str "chat_id", .str "oc_dev"), (.str "text", .str "hi")]),
    (.str "kind", .str "reply")]

/-- The same reply, which says what it answers. -/
def hiToHello : Entries :=
  [(.str "args", .map [(.str "chat_id", .str "oc_dev"), (.str "reply_to_message_id", .str "om_1"),
      (.str "text", .str "hi")]),
    (.str "kind", .str "reply")]

theorem lifecycle_helloAndHi :
    ∃ n, marks "om_1" n.history = [.set "Typing", .clear "Typing"] ∧ Lifecycle n := by
  have hrun : (exec step anyStep (start "main_bot") [(devEnv, hello), (devEnv, .outbound hi),
      (devEnv, .outbound hiToHello)]).map (fun n => marks "om_1" n.history) =
      some [.set "Typing", .clear "Typing"] := by decide +kernel
  obtain ⟨n, hn, hmarks⟩ := Option.map_eq_some_iff.mp hrun
  exact ⟨n, hmarks, lifecycle_of_reaches (.of_exec hn)⟩

/-- **An answer that does not say what it answers** leaves the react there. -/
theorem not_unReactedWhenAnswered_hi :
    ¬∀ (instanceId : String) (n : Node), Reaches step anyStep (start instanceId) n →
      UnReactedWhenAnswered n := by
  intro h
  have hrun : (exec step anyStep (start "main_bot") [(devEnv, hello), (devEnv, .outbound hi)]).map
      (fun n => (n.history.map fun v => (v.receives, v.outcome.exit, v.chat),
        (marks "om_1" n.history).countP fun a => !a.isSet)) =
      some ([(some "om_1", .routed, some "oc_dev"), (none, .forwarded, some "oc_dev")], 0) := by
    decide +kernel
  obtain ⟨n, hn, he⟩ := Option.map_eq_some_iff.mp hrun
  obtain ⟨hhistory, hcount⟩ := Prod.mk.inj he
  obtain ⟨v, rest, hh, hv, hrest⟩ := List.map_eq_cons_iff.mp hhistory
  obtain ⟨w, rest, rfl, hw, hnil⟩ := List.map_eq_cons_iff.mp hrest
  obtain rfl := List.map_eq_nil_iff.mp hnil
  simp only [Prod.mk.injEq] at hv hw
  have hone := h "main_bot" n (.of_exec hn) [] v [] w [] "om_1" "oc_dev" hh hv.1 hv.2.1 hv.2.2
    hw.2.1 hw.2.2
  rw [hcount] at hone
  cases hone

end MessageReacts
end Esr
