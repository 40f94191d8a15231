import Esr.EntityServer

/-! # What a message of the actor server leaves alone

The invariants of the runs each look at one part of the state and at one kind of
effect.  Every function of the server keeps the parts it does not write (`Keeps`),
and sends only effects of its own kinds (`Sends`); where it has several ways to go,
a lemma ending in `_cases` lists them.
-/
namespace Esr
namespace EntityServer
open Yaml

/-- What an effect is about: an event sent again, the actor's handler, the result of
a tool, a timer, or none of these. -/
inductive Kind where
  | resent
  | handler
  | result
  | timer
  | other
  deriving DecidableEq

/-- The kind of an effect. -/
def Effect.kind : Effect → Kind
  | .sendSelf _ => .resent
  | .handlerCall _ | .persist _ => .handler
  | .toolResult _ _ _ => .result
  | .sendAfter _ => .timer
  | _ => .other

/-- Whatever state the message leads to, the part is as before. -/
def Outcome.Keeps {α : Type} (part : State → α) (s : State) (o : Outcome) : Prop :=
  ∀ s', o.next = some s' → part s' = part s

/-- Every effect is of one of the kinds. -/
def Outcome.Sends (kinds : List Kind) (o : Outcome) : Prop := ∀ e ∈ o.effects, e.kind ∈ kinds

namespace Outcome
variable {α : Type} {part : State → α} {s s' : State} {o : Outcome} {kinds : List Kind}

theorem keeps_raised : raised.Keeps part s := by
  rintro s' ⟨⟩

theorem keeps_none (es : List Effect) : (⟨es, none⟩ : Outcome).Keeps part s := by
  rintro s' ⟨⟩

theorem keeps_some (es : List Effect) (h : part s' = part s) :
    (⟨es, some s'⟩ : Outcome).Keeps part s := by
  rintro s'' ⟨⟩
  exact h

theorem Keeps.after (es : List Effect) (h : o.Keeps part s') (hs : part s' = part s) :
    (Outcome.after es o).Keeps part s :=
  fun s'' hnext => (h s'' hnext).trans hs

theorem sends_nil (next : Option State) : (⟨[], next⟩ : Outcome).Sends kinds := by
  rintro e ⟨⟩

theorem Sends.after {es : List Effect} (h : o.Sends kinds) (hes : ∀ e ∈ es, e.kind ∈ kinds) :
    (Outcome.after es o).Sends kinds := by
  intro e he
  rcases List.mem_append.mp he with hfirst | hrest
  · exact hes e hfirst
  · exact h e hrest

theorem Sends.mono {kinds' : List Kind} (h : o.Sends kinds) (hsub : kinds ⊆ kinds') :
    o.Sends kinds' := fun e he => hsub (h e he)

end Outcome

section Frames
variable {α : Type} {part : State → α} (rt : Runtime) (ans : Answers) (s : State)

theorem track_sends (adapter : String) (action : Entries) :
    ∀ e ∈ (track rt adapter action s).2.2, e.kind ∈ [Kind.timer, .other] := by
  simp [track, Effect.kind]

theorem dispatchAction_cases {rt : Runtime} {s s' : State} {action : Value} {es : List Effect}
    (h : dispatchAction rt s action = some (s', es)) :
    (s' = s ∧ ∀ e ∈ es, e.kind = .other) ∨
    ∃ adapter entries, (track rt adapter entries s).2 = (s', es) := by
  cases action with
  | map action =>
    unfold dispatchAction at h
    dsimp only at h
    split_ifs at h
    · left
      unfold notifySession at h
      split at h
      · split at h
        · obtain ⟨rfl, rfl⟩ := Prod.mk.inj (Option.some.inj h)
          simp [Effect.kind]
        · cases h
      · cases h
    · right
      obtain ⟨r, hr, he⟩ := Option.map_eq_some_iff.mp h
      unfold emitAndTrack at hr
      split at hr
      · exact ⟨_, _, (congrArg Prod.snd (Option.some.inj hr)).trans he⟩
      · cases hr
    · obtain ⟨rfl, rfl⟩ := Prod.mk.inj (Option.some.inj h)
      exact .inl ⟨rfl, by simp⟩
  | _ =>
    obtain ⟨rfl, rfl⟩ := Prod.mk.inj (Option.some.inj h)
    exact .inl ⟨rfl, by simp⟩

theorem dispatchActions_keeps
    (hpart : ∀ s d n, part { s with pendingDirectives := d, directives := n } = part s)
    (actions : List Value) : (dispatchActions rt s actions).Keeps part s := by
  induction actions generalizing s with
  | nil => exact Outcome.keeps_some [] rfl
  | cons action rest ih =>
    unfold dispatchActions
    cases hd : dispatchAction rt s action with
    | none => exact Outcome.keeps_raised
    | some r =>
      refine (ih r.1).after r.2 ?_
      rcases dispatchAction_cases hd with ⟨he, -⟩ | ⟨adapter, entries, ht⟩
      · rw [he]
      · rw [← congrArg Prod.fst ht]
        exact hpart s _ _

theorem dispatchActions_sends (actions : List Value) :
    (dispatchActions rt s actions).Sends [.timer, .other] := by
  induction actions generalizing s with
  | nil => exact Outcome.sends_nil _
  | cons action rest ih =>
    unfold dispatchActions
    cases hd : dispatchAction rt s action with
    | none => exact Outcome.sends_nil _
    | some r =>
      refine (ih r.1).after ?_
      rcases dispatchAction_cases hd with ⟨-, he⟩ | ⟨adapter, entries, ht⟩
      · intro e hmem
        rw [he e hmem]
        decide
      · rw [← congrArg Prod.snd ht]
        exact track_sends rt s adapter entries

theorem answerTool_keeps
    (hpart : ∀ s d t n, part { s with pendingDirectives := d, pendingToolReqs := t,
                                      directives := n } = part s)
    (reqId : Value) (replyPid : Pid) (built : Built) :
    (answerTool rt s reqId replyPid built).Keeps part s := by
  cases built with
  | emit action =>
    unfold answerTool emitAndTrack
    dsimp only
    split
    · rename_i hd
      split at hd
      · obtain ⟨-, he⟩ := Prod.mk.inj (Option.some.inj hd)
        obtain ⟨rfl, -⟩ := Prod.mk.inj he
        exact Outcome.keeps_some _ (hpart s _ _ _)
      · cases hd
    · exact Outcome.keeps_raised
  | directAck sessionId status details => exact Outcome.keeps_some _ rfl
  | error reason => exact Outcome.keeps_some _ rfl

theorem answerTool_sends (reqId : Value) (replyPid : Pid) (built : Built) :
    (answerTool rt s reqId replyPid built).Sends [.result, .timer, .other] := by
  cases built with
  | emit action =>
    unfold answerTool emitAndTrack
    dsimp only
    split
    · rename_i hd
      split at hd
      · obtain ⟨-, he⟩ := Prod.mk.inj (Option.some.inj hd)
        obtain ⟨-, rfl⟩ := Prod.mk.inj he
        exact fun e hmem => List.mem_cons_of_mem _ (track_sends rt s _ _ e hmem)
      · cases hd
    · exact Outcome.sends_nil _
  | directAck sessionId status details => simp [answerTool, Outcome.Sends, Effect.kind]
  | error reason => simp [answerTool, Outcome.Sends, Effect.kind]

theorem handleToolInvoke_cases (reqId tool args : Value) (replyPid : Pid) (principalId : Value) :
    handleToolInvoke rt ans s reqId tool args replyPid principalId = .raised ∨
    (∃ error, handleToolInvoke rt ans s reqId tool args replyPid principalId =
      ⟨[.toolResult replyPid reqId (failure error)], some s⟩) ∨
    ∃ built, handleToolInvoke rt ans s reqId tool args replyPid principalId =
      answerTool rt s reqId replyPid built := by
  unfold handleToolInvoke
  split
  · split
    · exact .inl rfl
    · split
      · exact .inl rfl
      · split_ifs
        · unfold grantedTool
          split_ifs
          · split
            · exact .inr (.inr ⟨_, rfl⟩)
            · exact .inl rfl
          · exact .inl rfl
        · exact .inr (.inl ⟨_, rfl⟩)
  · exact .inl rfl

theorem handleToolInvoke_keeps
    (hpart : ∀ s d t n, part { s with pendingDirectives := d, pendingToolReqs := t,
                                      directives := n } = part s)
    (reqId tool args : Value) (replyPid : Pid) (principalId : Value) :
    (handleToolInvoke rt ans s reqId tool args replyPid principalId).Keeps part s := by
  rcases handleToolInvoke_cases rt ans s reqId tool args replyPid principalId with
    h | ⟨error, h⟩ | ⟨built, h⟩
  · rw [h]
    exact Outcome.keeps_raised
  · rw [h]
    exact Outcome.keeps_some _ rfl
  · rw [h]
    exact answerTool_keeps rt s hpart reqId replyPid built

theorem handleToolInvoke_sends (reqId tool args : Value) (replyPid : Pid) (principalId : Value) :
    (handleToolInvoke rt ans s reqId tool args replyPid principalId).Sends
      [.result, .timer, .other] := by
  rcases handleToolInvoke_cases rt ans s reqId tool args replyPid principalId with
    h | ⟨error, h⟩ | ⟨built, h⟩
  · rw [h]
    exact Outcome.sends_nil _
  · rw [h]
    simp [Outcome.Sends, Effect.kind]
  · rw [h]
    exact answerTool_sends rt s reqId replyPid built

/-- How an acknowledgement or a deadline goes, unless it raises: it answers a tool
request and forgets it, forgets another directive, or finds nothing to do. -/
inductive Concluded (s : State) (id : String) : Outcome → Prop
  | answered {reqId : Value} {pid : Pid} (result : Entries) :
      s.pendingToolReqs.lookup id = some (reqId, pid) →
      Concluded s id ⟨[.toolResult pid reqId result, .unsubscribe id], some (s.forget id)⟩
  | forgotten : s.pendingToolReqs.lookup id = none →
      Concluded s id ⟨[.unsubscribe id],
        some { s with pendingDirectives := s.pendingDirectives.delete id }⟩
  | unknown : s.pendingToolReqs.lookup id = none → Concluded s id (.stay s)

theorem handleDirectiveAck_cases (id : String) (payload : Option Value) :
    handleDirectiveAck s id payload = .raised ∨
      Concluded s id (handleDirectiveAck s id payload) := by
  unfold handleDirectiveAck
  cases hreq : s.pendingToolReqs.lookup id with
  | some req =>
    dsimp only
    cases ackResult payload with
    | none => exact .inl rfl
    | some result => exact .inr (.answered result hreq)
  | none =>
    dsimp only [handleAck]
    cases payload with
    | none => exact .inl rfl
    | some payload =>
      dsimp only
      split_ifs
      · exact .inr (.forgotten hreq)
      · exact .inr (.unknown hreq)

theorem handleDirectiveDeadline_concluded (id : String) :
    Concluded s id (handleDirectiveDeadline s id) := by
  unfold handleDirectiveDeadline
  cases hreq : s.pendingToolReqs.lookup id with
  | some req => exact .answered _ hreq
  | none =>
    dsimp only
    split_ifs
    · exact .forgotten hreq
    · exact .unknown hreq

theorem Concluded.keeps {s : State} {id : String} {o : Outcome} (h : Concluded s id o)
    (hpart : ∀ s d t, part { s with pendingDirectives := d, pendingToolReqs := t } = part s) :
    o.Keeps part s := by
  cases h with
  | answered result _ => exact Outcome.keeps_some _ (hpart s _ _)
  | forgotten _ => exact Outcome.keeps_some _ (hpart s _ _)
  | unknown _ => exact Outcome.keeps_some _ rfl

theorem Concluded.sends {s : State} {id : String} {o : Outcome} (h : Concluded s id o) :
    o.Sends [.result, .other] := by
  cases h with
  | answered result _ => simp [Outcome.Sends, Effect.kind]
  | forgotten _ => simp [Outcome.Sends, Effect.kind]
  | unknown _ => exact Outcome.sends_nil _

theorem handleDirectiveAck_keeps
    (hpart : ∀ s d t, part { s with pendingDirectives := d, pendingToolReqs := t } = part s)
    (id : String) (payload : Option Value) : (handleDirectiveAck s id payload).Keeps part s := by
  rcases handleDirectiveAck_cases s id payload with h | h
  · rw [h]
    exact Outcome.keeps_raised
  · exact h.keeps hpart

theorem handleDirectiveAck_sends (id : String) (payload : Option Value) :
    (handleDirectiveAck s id payload).Sends [.result, .other] := by
  rcases handleDirectiveAck_cases s id payload with h | h
  · rw [h]
    exact Outcome.sends_nil _
  · exact h.sends

/-- The calls an event makes of its handler. -/
def callsOf (envelope : Entries) : List Effect :=
  List.replicate (callWithRetry ans).1 (Effect.handlerCall (handlerPayload s envelope))

theorem callsOf_kind (envelope : Entries) : ∀ e ∈ callsOf ans s envelope, e.kind = .handler := by
  intro e he
  rw [List.eq_of_mem_replicate he]
  rfl

/-- An event handed to its handler is committed, or the handler is called and nothing
else happens to the state. -/
theorem invokeHandler_cases (envelope : Entries) (key : Option String) :
    (∃ newState actions, invokeHandler rt ans s envelope key =
      .after (callsOf ans s envelope ++ [.persist newState])
        (dispatchActions rt (recordDedup { s with state := newState } key) actions)) ∨
    ∃ es, (∀ e ∈ es, e.kind = .other) ∧
      (invokeHandler rt ans s envelope key = ⟨callsOf ans s envelope ++ es, none⟩ ∨
        invokeHandler rt ans s envelope key = ⟨callsOf ans s envelope ++ es, some s⟩) := by
  unfold invokeHandler
  dsimp only
  split
  · exact .inl ⟨_, _, rfl⟩
  · exact .inr ⟨[], by simp, .inl (by rw [List.append_nil]; rfl)⟩
  · exact .inr ⟨[.deadLetter envelope _], by simp [Effect.kind], .inr rfl⟩
  · exact .inr ⟨[], by simp, .inr (by rw [List.append_nil]; rfl)⟩

/-- An event raises, is refused or known and leaves the state as it is, or goes to the
handler with a key that is new. -/
theorem handleEvent_cases (envelope : Entries) :
    handleEvent rt ans s envelope = .raised ∨
    (∃ es, (∀ e ∈ es, e.kind = .other) ∧ handleEvent rt ans s envelope = ⟨es, some s⟩) ∨
    ∃ key, extractIdempotencyKey envelope = some key ∧ (∀ k, key = some k → k ∉ s.dedupKeys) ∧
      handleEvent rt ans s envelope = invokeHandler rt ans s envelope key := by
  unfold handleEvent
  split
  · exact .inl rfl
  · split_ifs
    · unfold grantedEvent
      split
      · exact .inl rfl
      · rename_i hkey
        exact .inr (.inr ⟨none, hkey, by simp, rfl⟩)
      · rename_i key hkey
        split_ifs with hk
        · exact .inr (.inl ⟨[], by simp, rfl⟩)
        · refine .inr (.inr ⟨some key, hkey, ?_, rfl⟩)
          rintro k ⟨⟩
          exact hk
    · unfold maybeDispatchDenyDm
      split
      · rename_i hdm
        refine .inr (.inl ⟨_, ?_, rfl⟩)
        split at hdm
        · obtain rfl := Option.some.inj hdm
          simp
        · obtain ⟨chatId, -, he⟩ := Option.map_eq_some_iff.mp hdm
          rw [← he]
          split
          · split_ifs <;> simp [Effect.kind]
          · simp
      · exact .inl rfl

theorem handleCall_sends (c : Call) : (handleCall s c).Sends [.resent, .other] := by
  intro e he
  cases c with
  | resume =>
    rcases List.mem_append.mp he with hsent | hreply
    · obtain ⟨envelope, -, rfl⟩ := List.mem_map.mp hsent
      exact List.mem_cons_self
    · rw [List.mem_singleton.mp hreply]
      exact List.mem_cons_of_mem _ List.mem_cons_self
  | _ =>
    rw [List.mem_singleton.mp he]
    exact List.mem_cons_of_mem _ List.mem_cons_self

theorem holdEvent_sends (kinds : List Kind) (envelope : Entries) :
    (holdEvent s envelope).Sends kinds := by
  unfold holdEvent
  split_ifs <;> exact Outcome.sends_nil _

theorem invokeHandler_sends (envelope : Entries) (key : Option String) :
    (invokeHandler rt ans s envelope key).Sends [.handler, .timer, .other] := by
  have hcalls := callsOf_kind ans s envelope
  rcases invokeHandler_cases rt ans s envelope key with ⟨newState, actions, h⟩ | ⟨es, hes, h⟩
  · rw [h]
    refine ((dispatchActions_sends rt _ actions).mono (by decide)).after ?_
    intro e he
    rcases List.mem_append.mp he with hcall | hpersist
    · rw [hcalls e hcall]
      exact List.mem_cons_self
    · rw [List.mem_singleton.mp hpersist]
      exact List.mem_cons_self
  · have hkinds : ∀ e ∈ callsOf ans s envelope ++ es, e.kind ∈ [Kind.handler, .timer, .other] := by
      intro e he
      rcases List.mem_append.mp he with hcall | hother
      · rw [hcalls e hcall]
        exact List.mem_cons_self
      · rw [hes e hother]
        decide
    rcases h with h | h <;> rw [h] <;> exact hkinds

theorem handleEvent_sends (envelope : Entries) :
    (handleEvent rt ans s envelope).Sends [.handler, .timer, .other] := by
  rcases handleEvent_cases rt ans s envelope with h | ⟨es, hes, h⟩ | ⟨key, -, -, h⟩
  · rw [h]
    exact Outcome.sends_nil _
  · rw [h]
    intro e he
    rw [hes e he]
    decide
  · rw [h]
    exact invokeHandler_sends rt ans s envelope key

/-- An event that is handled leaves alone what is neither the actor's state, nor the
dedup window, nor the directives. -/
theorem handleEvent_keeps
    (hpart : ∀ s st k o d n, part { s with state := st, dedupKeys := k, dedupOrder := o,
                                           pendingDirectives := d, directives := n } = part s)
    (envelope : Entries) : (handleEvent rt ans s envelope).Keeps part s := by
  rcases handleEvent_cases rt ans s envelope with h | ⟨es, -, h⟩ | ⟨key, -, -, h⟩
  · rw [h]
    exact Outcome.keeps_raised
  · rw [h]
    exact Outcome.keeps_some _ rfl
  · rw [h]
    rcases invokeHandler_cases rt ans s envelope key with ⟨newState, actions, hi⟩ |
      ⟨es, -, hi | hi⟩
    · rw [hi]
      refine (dispatchActions_keeps rt _ (fun s d n => ?_) actions).after _ ?_
      · exact hpart s s.state s.dedupKeys s.dedupOrder d n
      · cases key with
        | none => exact hpart s newState s.dedupKeys s.dedupOrder s.pendingDirectives s.directives
        | some key => exact hpart s newState _ _ s.pendingDirectives s.directives
    · rw [hi]
      exact Outcome.keeps_none _
    · rw [hi]
      exact Outcome.keeps_some _ rfl

end Frames

end EntityServer
end Esr
