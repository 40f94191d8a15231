import Esr.EntityRuns
import Esr.RecentKeys

/-! # The idempotency window of the actor server

An event may carry an idempotency key.  The server records the key when it commits
the state its handler returned, keeps the last thousand, and drops an event whose
key is among them.  So once an event with a key has been committed, no event with
that key reaches the handler until a thousand other keys have been recorded.

`Windowed` says this of a node, in the terms of its history; the invariant behind it
is `RecentKeys.Valid` of the set and the queue, and `RecentKeys.Since` of every key
recorded so far.
-/
namespace Esr
namespace EntityServer
open Yaml

/-- The effect hands the event to the handler. -/
def Effect.isCall : Effect → Bool
  | .handlerCall _ => true
  | _ => false

/-- The effect commits a state. -/
def Effect.isPersist : Effect → Bool
  | .persist _ => true
  | _ => false

namespace Taken

/-- The idempotency key of the event taken. -/
def key (t : Taken) : Option String :=
  t.msg.event?.bind fun envelope => (extractIdempotencyKey envelope).join

/-- The event was handed to the handler. -/
def handsOver (t : Taken) : Bool := t.effects.any Effect.isCall

/-- A state was committed. -/
def commits (t : Taken) : Bool := t.effects.any Effect.isPersist

/-- The key recorded. -/
def recorded (t : Taken) : Option String := if t.commits then t.key else none

end Taken

/-- The keys recorded by the messages, oldest first. -/
def recordedIn (h : List Taken) : List String := h.filterMap Taken.recorded

/-- The idempotency window. -/
structure Windowed (n : Node) : Prop where
  valid : ∀ s, n.server = some s → s.dedupOrder.Nodup ∧
    s.dedupOrder.toFinset = s.dedupKeys ∧ s.dedupOrder.length ≤ dedupLimit
  once : ∀ before t between u after k, n.history = before ++ t :: between ++ u :: after →
    t.recorded = some k → ((recordedIn between).toFinset.erase k).card < dedupLimit →
    u.key = some k → u.handsOver = false ∧ u.commits = false

/-! ## One message -/

/-- The set and the queue. -/
def State.window (s : State) : Finset String × List String := (s.dedupKeys, s.dedupOrder)

/-- Record the key, if there is one. -/
def record (key : Option String) (w : Finset String × List String) :
    Finset String × List String :=
  match key with
  | some k => RecentKeys.push dedupLimit w.1 w.2 k
  | none => w

theorem recordDedup_window (s : State) (key : Option String) :
    (recordDedup s key).window = record key s.window := by
  cases key with
  | none => rfl
  | some k =>
    unfold recordDedup record RecentKeys.push evictIfFull State.window
    dsimp only
    split_ifs
    · cases s.dedupOrder <;> rfl
    · rfl

theorem any_eq_false_of_kind {es : List Effect} {p : Effect → Bool} {kinds : List Kind}
    (h : ∀ e ∈ es, e.kind ∈ kinds) (hp : ∀ e, p e = true → e.kind ∉ kinds) :
    es.any p = false := by
  rw [List.any_eq_false]
  exact fun e he ht => hp e ht (h e he)

theorem Effect.isCall_kind {kinds : List Kind} (hk : Kind.handler ∉ kinds) (e : Effect)
    (h : e.isCall = true) : e.kind ∉ kinds := by
  cases e with
  | handlerCall _ => exact hk
  | _ => cases h

theorem Effect.isPersist_kind {kinds : List Kind} (hk : Kind.handler ∉ kinds) (e : Effect)
    (h : e.isPersist = true) : e.kind ∉ kinds := by
  cases e with
  | persist _ => exact hk
  | _ => cases h

/-- What a message does to the window.  One that calls no handler leaves it as it is;
an event that does has a new key, and records it exactly if it is committed. -/
structure WindowStep (s : State) (m : Msg) (o : Outcome) : Prop where
  quiet : o.effects.any Effect.isPersist = false → o.Keeps State.window s
  fresh : o.effects.any Effect.isCall = true ∨ o.effects.any Effect.isPersist = true →
    ∃ envelope key, m = .inboundEvent envelope ∧ extractIdempotencyKey envelope = some key ∧
      (∀ k, key = some k → k ∉ s.dedupKeys) ∧
      (o.effects.any Effect.isPersist = true →
        ∀ s', o.next = some s' → s'.window = record key s.window)

theorem windowStep_of_sends {s : State} {m : Msg} {o : Outcome} {kinds : List Kind}
    (hkeeps : o.Keeps State.window s) (hsends : o.Sends kinds) (hk : Kind.handler ∉ kinds) :
    WindowStep s m o := by
  refine ⟨fun _ => hkeeps, ?_⟩
  rintro (h | h)
  · rw [any_eq_false_of_kind hsends (Effect.isCall_kind hk)] at h
    cases h
  · rw [any_eq_false_of_kind hsends (Effect.isPersist_kind hk)] at h
    cases h

theorem callsOf_any_isPersist (ans : Answers) (s : State) (envelope : Entries) :
    (callsOf ans s envelope).any Effect.isPersist = false := by
  rw [List.any_eq_false]
  intro e he
  rw [List.eq_of_mem_replicate he]
  exact Bool.false_ne_true

theorem invokeHandler_windowStep (rt : Runtime) (ans : Answers) (s : State) {envelope : Entries}
    {key : Option String} (hkey : extractIdempotencyKey envelope = some key)
    (hfresh : ∀ k, key = some k → k ∉ s.dedupKeys) :
    WindowStep s (.inboundEvent envelope) (invokeHandler rt ans s envelope key) := by
  rcases invokeHandler_cases rt ans s envelope key with ⟨newState, actions, h⟩ | ⟨es, hes, h⟩
  · rw [h]
    have hkeeps : (dispatchActions rt (recordDedup { s with state := newState } key)
        actions).Keeps State.window (recordDedup { s with state := newState } key) :=
      dispatchActions_keeps rt _ (fun _ _ _ => rfl) actions
    refine ⟨fun hp => ?_, fun _ => ⟨envelope, key, rfl, hkey, hfresh, fun _ s' hs' => ?_⟩⟩
    · simp [Outcome.after, Effect.isPersist] at hp
    · rw [hkeeps s' hs', recordDedup_window]
      rfl
  · have hother : ∀ e ∈ es, e.kind ∈ [Kind.other] := fun e he => by
      rw [hes e he]
      exact List.mem_cons_self
    have hnone : (callsOf ans s envelope ++ es).any Effect.isPersist = false := by
      rw [List.any_append, callsOf_any_isPersist,
        any_eq_false_of_kind hother (Effect.isPersist_kind (by decide))]
      rfl
    rcases h with h | h
    · rw [h]
      refine ⟨fun _ => Outcome.keeps_none _,
        fun _ => ⟨envelope, key, rfl, hkey, hfresh, fun hp => ?_⟩⟩
      exact absurd hp (Bool.eq_false_iff.mp hnone)
    · rw [h]
      refine ⟨fun _ => Outcome.keeps_some _ rfl,
        fun _ => ⟨envelope, key, rfl, hkey, hfresh, fun hp => ?_⟩⟩
      exact absurd hp (Bool.eq_false_iff.mp hnone)

theorem handleEvent_windowStep (rt : Runtime) (ans : Answers) (s : State) (envelope : Entries) :
    WindowStep s (.inboundEvent envelope) (handleEvent rt ans s envelope) := by
  rcases handleEvent_cases rt ans s envelope with h | ⟨es, hes, h⟩ | ⟨key, hkey, hfresh, h⟩
  · rw [h]
    exact windowStep_of_sends Outcome.keeps_raised (Outcome.sends_nil _) (List.not_mem_nil)
  · rw [h]
    refine windowStep_of_sends (Outcome.keeps_some _ rfl) ?_
      (show Kind.handler ∉ [Kind.other] by decide)
    intro e he
    rw [hes e he]
    exact List.mem_cons_self
  · rw [h]
    exact invokeHandler_windowStep rt ans s hkey hfresh

theorem handle_windowStep (rt : Runtime) (ans : Answers) (s : State) (m : Msg) :
    WindowStep s m (handle rt ans s m) := by
  cases m with
  | call c =>
    refine windowStep_of_sends ?_ (handleCall_sends s c) (by decide)
    cases c <;> exact Outcome.keeps_some _ rfl
  | inboundEvent envelope =>
    unfold handle
    dsimp only
    split_ifs
    · refine windowStep_of_sends ?_ (holdEvent_sends s [] envelope) List.not_mem_nil
      unfold holdEvent
      split_ifs <;> exact Outcome.keeps_some _ rfl
    · exact handleEvent_windowStep rt ans s envelope
  | toolInvoke reqId tool args replyPid principalId =>
    exact windowStep_of_sends
      (handleToolInvoke_keeps rt ans s (fun _ _ _ _ => rfl) reqId tool args replyPid principalId)
      (handleToolInvoke_sends rt ans s reqId tool args replyPid principalId) (by decide)
  | directiveAck id payload =>
    exact windowStep_of_sends (handleDirectiveAck_keeps s (fun _ _ _ => rfl) id payload)
      (handleDirectiveAck_sends s id payload) (by decide)
  | directiveDeadline id =>
    have hc := handleDirectiveDeadline_concluded s id
    exact windowStep_of_sends (hc.keeps fun _ _ _ => rfl) hc.sends (by decide)
  | exit =>
    exact windowStep_of_sends (Outcome.keeps_some _ rfl) (Outcome.sends_nil _) List.not_mem_nil
  | handlerReply envelope =>
    exact windowStep_of_sends Outcome.keeps_raised (Outcome.sends_nil _) List.not_mem_nil

/-! ## Runs -/

section
variable {rt : Runtime} {ans : Answers} {s s' : State} {m : Msg}

theorem takenIn_fresh {k : String} (hk : (takenIn rt ans s m).key = some k)
    (h : (takenIn rt ans s m).handsOver = true ∨ (takenIn rt ans s m).commits = true) :
    k ∉ s.dedupKeys := by
  obtain ⟨envelope, key, rfl, hkey, hfresh, -⟩ := (handle_windowStep rt ans s m).fresh h
  have he : (extractIdempotencyKey envelope).join = some k := hk
  rw [hkey] at he
  exact hfresh k he

theorem takenIn_recorded {k : String} (hk : (takenIn rt ans s m).recorded = some k) :
    (takenIn rt ans s m).commits = true ∧ (takenIn rt ans s m).key = some k := by
  unfold Taken.recorded at hk
  split_ifs at hk with hc
  exact ⟨hc, hk⟩

theorem takenIn_window (hs' : (handle rt ans s m).next = some s') :
    s'.window = record (takenIn rt ans s m).recorded s.window := by
  have hstep := handle_windowStep rt ans s m
  unfold Taken.recorded
  split_ifs with hc
  · obtain ⟨envelope, key, rfl, hkey, -, hwindow⟩ := hstep.fresh (.inr hc)
    have he : (takenIn rt ans s (.inboundEvent envelope)).key =
        (extractIdempotencyKey envelope).join := rfl
    rw [hwindow hc s' hs', he, hkey]
    rfl
  · exact hstep.quiet (Bool.eq_false_iff.mpr hc) s' hs'

theorem takenIn_pushed {k : String} (hr : (takenIn rt ans s m).recorded = some k)
    (hs' : (handle rt ans s m).next = some s') :
    s'.dedupKeys = (RecentKeys.push dedupLimit s.dedupKeys s.dedupOrder k).1 ∧
      s'.dedupOrder = (RecentKeys.push dedupLimit s.dedupKeys s.dedupOrder k).2 := by
  have hwindow := takenIn_window hs'
  rw [hr] at hwindow
  exact ⟨congrArg Prod.fst hwindow, congrArg Prod.snd hwindow⟩

theorem takenIn_unrecorded (hr : (takenIn rt ans s m).recorded = none)
    (hs' : (handle rt ans s m).next = some s') :
    s'.dedupKeys = s.dedupKeys ∧ s'.dedupOrder = s.dedupOrder := by
  have hwindow := takenIn_window hs'
  rw [hr] at hwindow
  exact ⟨congrArg Prod.fst hwindow, congrArg Prod.snd hwindow⟩

end

/-- The invariant: the window of a server that is there is valid, and knows what has
become of every key recorded. -/
structure WindowInv (n : Node) : Prop where
  valid : ∀ s, n.server = some s → RecentKeys.Valid dedupLimit s.dedupKeys s.dedupOrder
  since : ∀ s, n.server = some s → ∀ before t after k, n.history = before ++ t :: after →
    t.recorded = some k → RecentKeys.Since dedupLimit k (recordedIn after) s.dedupOrder
  once : ∀ before t between u after k, n.history = before ++ t :: between ++ u :: after →
    t.recorded = some k → ((recordedIn between).toFinset.erase k).card < dedupLimit →
    u.key = some k → u.handsOver = false ∧ u.commits = false

theorem recordedIn_snoc (h : List Taken) (t : Taken) :
    recordedIn (h ++ [t]) = recordedIn h ++ t.recorded.toList := by
  unfold recordedIn
  rw [List.filterMap_append]
  cases hr : t.recorded <;> simp [hr]

theorem WindowInv.same {n n' : Node} (h : WindowInv n) (hserver : n'.server = n.server)
    (hhistory : n'.history = n.history) : WindowInv n' := by
  refine ⟨?_, ?_, ?_⟩
  · rw [hserver]
    exact h.valid
  · rw [hserver, hhistory]
    exact h.since
  · rw [hhistory]
    exact h.once

theorem WindowInv.take {n : Node} {rt : Runtime} {ans : Answers} {s : State} {m : Msg}
    {rest : List Msg} (h : WindowInv n) (hs : n.server = some s) :
    WindowInv (n.take rt ans s m rest) := by
  have hvalid := h.valid s hs
  have hnew : ∀ k, (takenIn rt ans s m).recorded = some k → k ∉ s.dedupKeys := by
    intro k hk
    obtain ⟨hc, hkey⟩ := takenIn_recorded hk
    exact takenIn_fresh hkey (.inr hc)
  refine ⟨?_, ?_, ?_⟩
  · intro s' hs'
    cases hr : (takenIn rt ans s m).recorded with
    | none =>
      obtain ⟨hkeys, horder⟩ := takenIn_unrecorded hr hs'
      rw [hkeys, horder]
      exact hvalid
    | some k =>
      obtain ⟨hkeys, horder⟩ := takenIn_pushed hr hs'
      rw [hkeys, horder]
      exact hvalid.push (hnew k hr)
  · intro s' hs' before t after k he ht
    rcases snoc_eq_split he with ⟨rfl, rfl, rfl⟩ | ⟨after', rfl, hold⟩
    · rw [(takenIn_pushed ht hs').2]
      exact .self hvalid (hnew k ht) (by decide)
    · have hsince := h.since s hs before t after' k hold ht
      rw [recordedIn_snoc]
      cases hr : (takenIn rt ans s m).recorded with
      | none =>
        rw [Option.toList_none, List.append_nil, (takenIn_unrecorded hr hs').2]
        exact hsince
      | some k' =>
        rw [(takenIn_pushed hr hs').2]
        exact hsince.push hvalid (hnew k' hr)
  · intro before t between u after k he ht hfew hu
    rcases snoc_eq_split he with ⟨rfl, rfl, hold⟩ | ⟨after', rfl, hold⟩
    · have hmem := (h.since s hs before t between k hold ht).mem hfew
      have hkey : k ∈ s.dedupKeys := hvalid.mem_iff.mp hmem
      refine ⟨Bool.eq_false_iff.mpr fun hh => ?_, Bool.eq_false_iff.mpr fun hc => ?_⟩
      · exact takenIn_fresh hu (.inl hh) hkey
      · exact takenIn_fresh hu (.inr hc) hkey
    · exact h.once before t between u after' k hold ht hfew hu

variable {rt : Runtime} {n : Node}

theorem windowInv_reaches {s₀ : State} (hkeys : s₀.dedupKeys = ∅) (horder : s₀.dedupOrder = [])
    (h : Reaches (step rt) anyStep (start s₀) n) : WindowInv n := by
  refine h.invariant ⟨?_, ?_, ?_⟩ ?_
  · rintro s ⟨⟩
    rw [hkeys, horder]
    exact RecentKeys.valid_empty
  · intro s _ before t after k he
    exact absurd he (by simp [start])
  · intro before t between u after k he
    exact absurd he (by simp [start])
  · intro n a n' ih _ hstep
    rcases step_cases hstep with ⟨m, s, -, -, -, rfl⟩ | ⟨m, -, -, rfl⟩ | ⟨id, -, -, rfl⟩ |
      ⟨ans, s, m, rest, -, hs, -, -, rfl⟩ | ⟨envelope, rest, -, -, rfl⟩
    · exact ih.same rfl rfl
    · exact ih
    · exact ih.same rfl rfl
    · exact ih.take hs
    · exact ih.same rfl rfl

/-- **The idempotency window.**  In every state a server that started afresh reaches,
the set and the queue have the same keys, once each and at most a thousand; and once
an event with a key has been committed, no event with that key is handed to the
handler or committed until a thousand other keys have been recorded. -/
theorem windowed_of_reaches (actorId actorType handlerModule : String) (state : Entries)
    (h : Reaches (step rt) anyStep (start (.init actorId actorType handlerModule state)) n) :
    Windowed n := by
  have hinv := windowInv_reaches rfl rfl h
  refine ⟨fun s hs => ?_, hinv.once⟩
  have hvalid := hinv.valid s hs
  exact ⟨hvalid.nodup, hvalid.sameKeys, hvalid.length_le⟩

/-- An event with an idempotency key. -/
def keyedEvent : Entries :=
  [(.str "payload", .map [(.str "args", .map [(.str "idempotency_key", .str "om_1")]),
      (.str "event_type", .str "msg_received")]),
    (.str "principal_id", .str "ou_alice")]

/-- An event that is delivered twice is handled once. -/
theorem windowed_repeated :
    ∃ n : Node, n.history.map (fun t => (t.handsOver, t.commits)) = [(true, true), (false, false)] ∧
      Windowed n := by
  have hrun : (exec (step counting) anyStep (start threadServer)
      [.arrive (.inboundEvent keyedEvent), .arrive (.inboundEvent keyedEvent),
        .take (answering emptyState .timeout), .take (answering emptyState .timeout)]).map
      (fun n => n.history.map fun t => (t.handsOver, t.commits)) =
      some [(true, true), (false, false)] := by decide +kernel
  obtain ⟨n, hn, hhistory⟩ := Option.map_eq_some_iff.mp hrun
  exact ⟨n, hhistory, windowed_of_reaches _ _ _ _ (.of_exec hn)⟩

end EntityServer
end Esr
