import Esr.ChannelClient

/-! # What survives a reconnect

`Maintained`: while the client reports itself connected and no reconnect is in
progress, each topic the caller joined has its handler, was joined on the current
connection, and the heartbeat task runs.

The reconnect loop takes all handlers out and puts them back one at a time, each
with a wait.  A join that is rejected then, or a connection lost during the wait,
drops topics for good, and nothing starts the heartbeat task again
(`not_maintained_lostTopic`).  `maintained_of_survivable` is for the runs without
these.
-/
namespace Esr
namespace ChannelClient

variable {Handler Payload : Type}

/-- The topics that a loop has still to join. -/
def Loop.todo : Loop Handler → List (String × Handler)
  | .rejoining todo | .awaiting _ _ todo => todo
  | .sleeping | .closing | .dialing | .flushing => []

def State.todo (s : State Handler Payload) (i : Nat) : List (String × Handler) :=
  (s.loops i).elim [] Loop.todo

/-- The join of the topic went out on `c` and the reply was `ok`. -/
def State.JoinedOn (s : State Handler Payload) (c : Nat) (topic : String) : Prop :=
  ∃ ref, (c, Frame.join ref topic) ∈ s.written ∧ s.pendingReplies.get ref = some (some true)

/-- **What a caller relies on**, while the client is connected and not reconnecting. -/
structure Maintained (s : State Handler Payload) : Prop where
  topics : s.connected = true → ¬s.Reconnecting → ∀ topic ∈ s.joined,
    (∃ onMsg, s.given topic = some onMsg ∧ s.topicHandlers.get topic = some onMsg) ∧
      ∃ c, s.ws = some c ∧ s.JoinedOn c topic
  heartbeat : s.connected = true → ¬s.Reconnecting → s.heartbeatTask = true

/-- The caller's joins come before the first disconnect, and succeed. -/
def JoinsFirst (s : State Handler Payload) : Act Handler Payload → Prop
  | .join _ _ => s.isDisconnected = false ∧ s.nextSocket ≤ 1
  | .joinReturns ref => s.pendingReplies.get ref ≠ some (some false)
  | .readEnds _ _ => ∀ ref < s.refCounter, s.joins ref = none
  | _ => True

/-- A topic is joined again: its frame can be sent, unless the next reconnect has
begun, and the reply is not a rejection. -/
def Loop.Survivable (s : State Handler Payload) : Loop Handler → Prop
  | .rejoining (_ :: _) => s.isDisconnected = true ∨ s.up = true
  | .awaiting _ ref _ => s.pendingReplies.get ref ≠ some (some false)
  | _ => True

/-- No topic is lost when it is joined again, no loop is left with topics to join
when the next one takes the handlers, and the heartbeat meets no lost socket. -/
def Survivable (s : State Handler Payload) : Act Handler Payload → Prop
  | .beat => s.up = true
  | .dialed i true => ∀ j < s.nextSocket, j ≠ i → s.todo j = []
  | .advance i => ∀ l ∈ s.loops i, l.Survivable s
  | _ => True

section Decidable

instance (s : State Handler Payload) : (a : Act Handler Payload) → Decidable (JoinsFirst s a)
  | .join _ _ => inferInstanceAs (Decidable (_ ∧ _))
  | .joinReturns _ => inferInstanceAs (Decidable (_ ≠ _))
  | .readEnds _ _ => inferInstanceAs (Decidable (∀ ref < s.refCounter, s.joins ref = none))
  | .connect | .push _ | .reply .. | .lose _ | .beat | .dialed .. | .advance _ => isTrue trivial

instance (s : State Handler Payload) : (l : Loop Handler) → Decidable (l.Survivable s)
  | .rejoining (_ :: _) => inferInstanceAs (Decidable (_ ∨ _))
  | .awaiting .. => inferInstanceAs (Decidable (_ ≠ _))
  | .rejoining [] | .sleeping | .closing | .dialing | .flushing => isTrue trivial

scoped instance instDecidableTodoDone (l : List (String × Handler)) : Decidable (l = []) :=
  decidable_of_iff (l.isEmpty = true) List.isEmpty_iff

instance (s : State Handler Payload) : (a : Act Handler Payload) → Decidable (Survivable s a)
  | .beat => inferInstanceAs (Decidable (s.up = true))
  | .dialed i true => inferInstanceAs (Decidable (∀ j < s.nextSocket, j ≠ i → s.todo j = []))
  | .advance i => inferInstanceAs (Decidable (∀ l ∈ s.loops i, l.Survivable s))
  | .connect | .join .. | .joinReturns _ | .push _ | .reply .. | .lose _ | .readEnds .. |
    .dialed _ false => isTrue trivial

end Decidable

/-- The loop `i` is on its way to join the topic on `c`. -/
def State.Due (s : State Handler Payload) (i c : Nat) (topic : String) : Prop :=
  (∃ onMsg, (topic, onMsg) ∈ s.todo i) ∨
    ∃ ref todo, s.loops i = some (.awaiting topic ref todo) ∧
      (c, Frame.join ref topic) ∈ s.written

/-- No loop is on the way to a connection. -/
def State.Settled (s : State Handler Payload) : Prop :=
  ∀ i l, s.loops i = some l → l.connecting = false

/-- Each joined topic has its handler, or a loop has it in hand; once a connection
is there, only the last loop has any, and what it has not in hand is joined. -/
structure Kept (s : State Handler Payload) : Prop where
  fresh : ∀ ref r, s.pendingReplies.get ref = some r → ref < s.refCounter
  handlers : ∀ topic onMsg, s.topicHandlers.get topic = some onMsg → s.given topic = some onMsg
  todo : ∀ i topic onMsg, (topic, onMsg) ∈ s.todo i → s.given topic = some onMsg
  installed : ∀ topic ∈ s.joined, ∃ onMsg, s.given topic = some onMsg ∧
    (s.topicHandlers.get topic = some onMsg ∨ ∃ i, (topic, onMsg) ∈ s.todo i)
  last : s.Settled → ∀ j, s.reconnectTask ≠ some j → s.todo j = []
  joined : s.Settled → ∀ topic ∈ s.joined, ∃ c, s.ws = some c ∧
    (s.JoinedOn c topic ∨ ∃ i, s.reconnectTask = some i ∧ s.Due i c topic)
  heartbeat : s.ws ≠ none → s.heartbeatTask = true
  joining : ∀ ref topic, s.joins ref = some topic →
    ref < s.refCounter ∧ (∀ i, s.loops i = none) ∧
      (∃ onMsg, s.given topic = some onMsg ∧ s.topicHandlers.get topic = some onMsg) ∧
      ∃ c, s.ws = some c ∧ (c, Frame.join ref topic) ∈ s.written

theorem kept_start : Kept (start : State Handler Payload) where
  fresh _ _ h := nomatch h
  handlers _ _ h := nomatch h
  todo _ _ _ h := nomatch h
  installed _ h := nomatch h
  last _ _ _ := rfl
  joined _ _ h := nomatch h
  heartbeat h := absurd rfl h
  joining _ _ h := nomatch h

section Kept
variable {s s' : State Handler Payload} {i c : Nat} {l : Loop Handler} {topic : String}

theorem todo_of_loop (h : s.loops i = some l) : s.todo i = l.todo := by
  rw [State.todo, h]
  rfl

theorem todo_of_none (h : s.loops i = none) : s.todo i = [] := by
  rw [State.todo, h]
  rfl

theorem JoinedOn.mono (h : s.JoinedOn c topic) (hw : ∀ w ∈ s.written, w ∈ s'.written)
    (hr : ∀ ref, s.pendingReplies.get ref = some (some true) →
      s'.pendingReplies.get ref = some (some true)) : s'.JoinedOn c topic := by
  obtain ⟨ref, hframe, hreply⟩ := h
  exact ⟨ref, hw _ hframe, hr ref hreply⟩

/-- The topics are as they were; frames may have been written since. -/
structure SameTopics (s s' : State Handler Payload) : Prop where
  handlers : s'.topicHandlers = s.topicHandlers
  given : s'.given = s.given
  joined : s'.joined = s.joined
  joins : s'.joins = s.joins
  heartbeat : s'.heartbeatTask = s.heartbeatTask
  replies : s'.pendingReplies = s.pendingReplies
  refCounter : s.refCounter ≤ s'.refCounter
  written : ∀ w ∈ s.written, w ∈ s'.written

theorem push_sameTopics (s : State Handler Payload) (p : Push Payload) :
    SameTopics s (s.push p).2 := by
  rcases push_cases s p with ⟨_, h⟩ | ⟨_, _, h⟩ | ⟨c, joinRef, _, _, _, h⟩ | ⟨_, _, h⟩
  · rw [h]
    exact ⟨rfl, rfl, rfl, rfl, rfl, rfl, Nat.le_refl _, fun _ => id⟩
  · rw [h]
    show SameTopics s (s.buffer p)
    unfold State.buffer
    split <;> exact ⟨rfl, rfl, rfl, rfl, rfl, rfl, Nat.le_refl _, fun _ => id⟩
  · rw [h]
    exact ⟨rfl, rfl, rfl, rfl, rfl, rfl, Nat.le_succ _, fun _ hw => List.mem_append_left _ hw⟩
  · rw [h]
    exact ⟨rfl, rfl, rfl, rfl, rfl, rfl, Nat.le_succ _, fun _ => id⟩

theorem closeWs_sameTopics (s : State Handler Payload) : SameTopics s s.closeWs := by
  unfold State.closeWs
  split <;> exact ⟨rfl, rfl, rfl, rfl, rfl, rfl, Nat.le_refl _, fun _ => id⟩

theorem Kept.same (h : Kept s) (ht : SameTasks s s') (hp : SameTopics s s') : Kept s' := by
  have htodo : s'.todo = s.todo := by
    funext i
    rw [State.todo, State.todo, ht.loops]
  have hsettled : s'.Settled → s.Settled := by
    rw [State.Settled, ht.loops]
    exact id
  have hon : ∀ c topic, s.JoinedOn c topic → s'.JoinedOn c topic :=
    fun c topic hj => JoinedOn.mono hj hp.written (by rw [hp.replies]; exact fun _ => id)
  constructor
  · rw [hp.replies]
    exact fun ref r hr => Nat.lt_of_lt_of_le (h.fresh ref r hr) hp.refCounter
  · rw [hp.handlers, hp.given]
    exact h.handlers
  · rw [htodo, hp.given]
    exact h.todo
  · rw [htodo, hp.given, hp.handlers, hp.joined]
    exact h.installed
  · rw [htodo, ht.reconnectTask]
    exact fun hs => h.last (hsettled hs)
  · intro hs topic hj
    rw [hp.joined] at hj
    obtain ⟨c, hws, hc⟩ := h.joined (hsettled hs) topic hj
    refine ⟨c, ht.ws.trans hws, ?_⟩
    rcases hc with hj | ⟨i, htask, hdue⟩
    · exact Or.inl (hon c topic hj)
    · refine Or.inr ⟨i, ht.reconnectTask.trans htask, ?_⟩
      rcases hdue with hin | ⟨ref, todo, hi, hframe⟩
      · exact Or.inl (htodo ▸ hin)
      · exact Or.inr ⟨ref, todo, ht.loops ▸ hi, hp.written _ hframe⟩
  · rw [ht.ws, hp.heartbeat]
    exact h.heartbeat
  · intro ref topic hj
    rw [hp.joins] at hj
    obtain ⟨hlt, hloops, hinst, c, hws, hframe⟩ := h.joining ref topic hj
    rw [ht.loops, hp.given, hp.handlers]
    exact ⟨Nat.lt_of_lt_of_le hlt hp.refCounter, hloops, hinst, c, ht.ws.trans hws,
      hp.written _ hframe⟩

theorem Kept.joins_none (h : Kept s) (hi : s.loops i = some l) (ref : Nat) :
    s.joins ref = none := by
  rw [Option.eq_none_iff_forall_ne_some]
  intro topic hj
  rw [(h.joining ref topic hj).2.1 i] at hi
  cases hi

/-- A loop goes on or returns: a topic it has no longer to join has its handler and
is waited for, and the one it waited for is joined. -/
theorem Kept.setLoop (h : Kept s) (hi : s.loops i = some l) {l' : Option (Loop Handler)}
    (hless : ∀ r ∈ l'.elim [] Loop.todo, r ∈ l.todo)
    (hout : ∀ topic onMsg, (topic, onMsg) ∈ l.todo → (topic, onMsg) ∈ l'.elim [] Loop.todo ∨
      (s.topicHandlers.get topic = some onMsg ∧ (s.Settled → ∀ c, s.ws = some c →
        ∃ ref todo, l' = some (.awaiting topic ref todo) ∧
          (c, Frame.join ref topic) ∈ s.written)))
    (hside : l.connecting = true → ∃ m, l' = some m ∧ m.connecting = true)
    (hdue : ∀ topic ref todo c, l = .awaiting topic ref todo →
      (c, Frame.join ref topic) ∈ s.written → s.JoinedOn c topic) :
    Kept (s.setLoop i l') := by
  have hself : (s.setLoop i l').loops i = l' := Function.update_self ..
  have hother : ∀ j, j ≠ i → (s.setLoop i l').loops j = s.loops j :=
    fun j hj => Function.update_of_ne hj ..
  have htodo : (s.setLoop i l').todo i = l'.elim [] Loop.todo := by rw [State.todo, hself]
  have htodo_other : ∀ j, j ≠ i → (s.setLoop i l').todo j = s.todo j := by
    intro j hj
    rw [State.todo, State.todo, hother j hj]
  have hsub : ∀ j r, r ∈ (s.setLoop i l').todo j → r ∈ s.todo j := by
    intro j r hr
    by_cases hj : j = i
    · subst hj
      rw [htodo] at hr
      rw [todo_of_loop hi]
      exact hless r hr
    · exact htodo_other j hj ▸ hr
  have hsettled : (s.setLoop i l').Settled → s.Settled := by
    intro hs j m hm
    by_cases hj : j = i
    · rw [hj, hi, Option.some.injEq] at hm
      subst hm
      by_contra hc
      obtain ⟨m, hm, hmc⟩ := hside (eq_true_of_ne_false hc)
      rw [hs i m (hself.trans hm)] at hmc
      cases hmc
    · exact hs j m ((hother j hj).trans hm)
  constructor
  · exact h.fresh
  · exact h.handlers
  · exact fun j topic onMsg hin => h.todo j topic onMsg (hsub j _ hin)
  · intro topic hj
    obtain ⟨onMsg, hgiven, hinst⟩ := h.installed topic hj
    refine ⟨onMsg, hgiven, ?_⟩
    rcases hinst with hhandler | ⟨j, hin⟩
    · exact Or.inl hhandler
    · by_cases hji : j = i
      · rw [hji, todo_of_loop hi] at hin
        rcases hout topic onMsg hin with hstill | ⟨hhandler, _⟩
        · exact Or.inr ⟨i, htodo ▸ hstill⟩
        · exact Or.inl hhandler
      · exact Or.inr ⟨j, (htodo_other j hji).symm ▸ hin⟩
  · intro hs j hne
    rw [List.eq_nil_iff_forall_not_mem]
    intro r hr
    have hin := hsub j r hr
    rw [h.last (hsettled hs) j hne] at hin
    cases hin
  · intro hs topic hj
    obtain ⟨c, hws, hc⟩ := h.joined (hsettled hs) topic hj
    refine ⟨c, hws, ?_⟩
    rcases hc with hj | ⟨j, htask, ⟨onMsg, hin⟩ | ⟨ref, todo, hj, hframe⟩⟩
    · exact Or.inl hj
    · by_cases hji : j = i
      · rw [hji, todo_of_loop hi] at hin
        rw [hji] at htask
        rcases hout topic onMsg hin with hstill | ⟨_, hawait⟩
        · exact Or.inr ⟨i, htask, Or.inl ⟨onMsg, htodo ▸ hstill⟩⟩
        · obtain ⟨ref, todo, hl', hframe⟩ := hawait (hsettled hs) c hws
          exact Or.inr ⟨i, htask, Or.inr ⟨ref, todo, hself.trans hl', hframe⟩⟩
      · exact Or.inr ⟨j, htask, Or.inl ⟨onMsg, (htodo_other j hji).symm ▸ hin⟩⟩
    · by_cases hji : j = i
      · rw [hji, hi, Option.some.injEq] at hj
        exact Or.inl (hdue topic ref todo c hj hframe)
      · exact Or.inr ⟨j, htask, Or.inr ⟨ref, todo, (hother j hji).trans hj, hframe⟩⟩
  · exact h.heartbeat
  · intro ref topic hj
    have hnone : s.joins ref = none := h.joins_none hi ref
    rw [show s.joins ref = some topic from hj] at hnone
    cases hnone

theorem Kept.setLoop_same (h : Kept s) (hi : s.loops i = some l) {l' : Loop Handler}
    (htodo : l'.todo = l.todo) (hside : l'.connecting = l.connecting)
    (hdue : ∀ topic ref todo c, l = .awaiting topic ref todo →
      (c, Frame.join ref topic) ∈ s.written → s.JoinedOn c topic) :
    Kept (s.setLoop i (some l')) := by
  refine h.setLoop hi (fun r hr => htodo ▸ hr) ?_ (fun hc => ⟨l', rfl, hside.trans hc⟩) hdue
  intro topic onMsg hin
  exact Or.inl (show (topic, onMsg) ∈ l'.todo from htodo ▸ hin)

variable {onMsg : Handler} {autoReconnect : Bool}

theorem Kept.registered (h : Kept s) {given : String → Option Handler}
    (hgiven : given topic = some onMsg) (hsame : ∀ t, t ≠ topic → given t = s.given t)
    (htodo : ∀ i m, (topic, m) ∈ s.todo i → m = onMsg) :
    Kept { s.registered topic onMsg with given := given } := by
  have hhandlers : ∀ t m, (s.topicHandlers.set topic onMsg).get t = some m ↔
      (t = topic ∧ m = onMsg) ∨ (t ≠ topic ∧ s.topicHandlers.get t = some m) := by
    intro t m
    rw [Dict.get_set]
    by_cases ht : t = topic
    · simp [ht, eq_comm]
    · simp [ht]
  -- a topic with its handler has it afterwards too
  have hkept : ∀ t, (∃ m, s.given t = some m ∧ s.topicHandlers.get t = some m) →
      ∃ m, given t = some m ∧ (s.topicHandlers.set topic onMsg).get t = some m := by
    rintro t ⟨m, hg, hm⟩
    by_cases ht : t = topic
    · exact ⟨onMsg, ht ▸ hgiven, (hhandlers t onMsg).mpr (Or.inl ⟨ht, rfl⟩)⟩
    · exact ⟨m, (hsame t ht).trans hg, (hhandlers t m).mpr (Or.inr ⟨ht, hm⟩)⟩
  have hreplies : ∀ ref, s.pendingReplies.get ref = some (some true) →
      (s.pendingReplies.set s.refCounter none).get ref = some (some true) := by
    intro ref hr
    have hlt := h.fresh ref _ hr
    rw [Dict.get_set_of_ne _ _ (by omega), hr]
  have htodo_given : ∀ i t m, (t, m) ∈ s.todo i → given t = some m := by
    intro i t m hin
    by_cases ht : t = topic
    · subst ht
      rw [hgiven, htodo i m hin]
    · rw [hsame t ht]
      exact h.todo i t m hin
  constructor
  · intro ref r hr
    show ref < s.refCounter + 1
    rw [show (s.registered topic onMsg).pendingReplies.get ref =
      (s.pendingReplies.set s.refCounter none).get ref from rfl, Dict.get_set] at hr
    split at hr
    · omega
    · have hlt := h.fresh ref r hr
      omega
  · intro t m hm
    rcases (hhandlers t m).mp hm with ⟨rfl, rfl⟩ | ⟨ht, hm'⟩
    · exact hgiven
    · exact (hsame t ht).trans (h.handlers t m hm')
  · exact htodo_given
  · intro t hj
    obtain ⟨m, hg, hm | ⟨i, hin⟩⟩ := h.installed t hj
    · obtain ⟨m', hg', hm'⟩ := hkept t ⟨m, hg, hm⟩
      exact ⟨m', hg', Or.inl hm'⟩
    · exact ⟨m, htodo_given i t m hin, Or.inr ⟨i, hin⟩⟩
  · exact h.last
  · intro hs t hj
    obtain ⟨c, hws, hc⟩ := h.joined hs t hj
    refine ⟨c, hws, ?_⟩
    rcases hc with hon | hdue
    · exact Or.inl (JoinedOn.mono hon (fun _ => id) hreplies)
    · exact Or.inr hdue
  · exact h.heartbeat
  · intro ref t hj
    obtain ⟨hlt, hloops, hinst, hws⟩ := h.joining ref t hj
    exact ⟨Nat.lt_succ_of_lt hlt, hloops, hkept t hinst, hws⟩

theorem Kept.written (h : Kept s) (c : Nat) (f : Frame Payload) :
    Kept { s with written := s.written ++ [(c, f)] } :=
  h.same ⟨rfl, rfl, rfl, rfl, rfl, rfl⟩
    ⟨rfl, rfl, rfl, rfl, rfl, rfl, Nat.le_refl _, fun _ hw => List.mem_append_left _ hw⟩

theorem Kept.joinInternal (h : Kept s) (hgiven : s.given topic = some onMsg) :
    Kept (s.joinInternal topic onMsg).2 := by
  have hregistered : Kept (s.registered topic onMsg) := by
    refine h.registered hgiven (fun _ _ => rfl) ?_
    intro i m hin
    have hm := h.todo i topic m hin
    rw [hgiven] at hm
    exact (Option.some.inj hm).symm
  rcases joinInternal_cases s topic onMsg with ⟨c, _, _, he⟩ | ⟨_, he⟩
  · rw [he]
    exact hregistered.written c _
  · rw [he]
    exact hregistered

theorem Kept.rejoin (h : Kept s) (hl : Lifecycle autoReconnect s) {todo : List (String × Handler)}
    (hi : s.loops i = some (.rejoining ((topic, onMsg) :: todo)))
    (hok : s.isDisconnected = true ∨ s.up = true)
    (hs : s.advance i (.rejoining ((topic, onMsg) :: todo)) = some s') : Kept s' := by
  have hgiven : s.given topic = some onMsg :=
    h.todo i topic onMsg (by rw [todo_of_loop hi]; exact List.mem_cons_self)
  have hjoin := h.joinInternal hgiven
  have hi' := (congrFun (joinInternal_same s topic onMsg).loops i).trans hi
  obtain rfl := Option.some.inj hs
  rcases joinInternal_cases s topic onMsg with ⟨c, hws, _, he⟩ | ⟨hdown, he⟩
  · rw [he] at hjoin hi' ⊢
    refine hjoin.setLoop hi' (fun r hr => List.mem_cons_of_mem _ hr) ?_ nofun nofun
    intro t m hin
    rcases List.mem_cons.mp hin with htop | hin
    · obtain ⟨rfl, rfl⟩ := Prod.mk.inj htop
      refine Or.inr ⟨Dict.get_set_self .., fun _ d hd => ⟨s.refCounter, todo, rfl, ?_⟩⟩
      obtain rfl : c = d := Option.some.inj (hws.symm.trans hd)
      exact List.mem_append_right _ List.mem_cons_self
    · exact Or.inl hin
  · rw [he] at hjoin hi' ⊢
    refine hjoin.setLoop hi' (fun r hr => List.mem_cons_of_mem _ hr) ?_ nofun nofun
    intro t m hin
    rcases List.mem_cons.mp hin with htop | hin
    · obtain ⟨rfl, rfl⟩ := Prod.mk.inj htop
      refine Or.inr ⟨Dict.get_set_self .., fun hsettled => ?_⟩
      -- the send failed, so the next loop is already on its way to a connection
      have hdisc : s.isDisconnected = true := by
        rcases hok with hdisc | hup
        · exact hdisc
        · rw [hdown] at hup
          cases hup
      have hauto : autoReconnect = true := by
        by_contra hmanual
        rw [hl.manual (Bool.eq_false_iff.mpr hmanual)] at hi
        cases hi
      obtain ⟨j, m', hj, hc⟩ := hl.offline hdisc hauto
      rw [hsettled j m' hj] at hc
      cases hc
    · exact Or.inl hin

theorem Kept.flush (h : Kept s) (hi : s.loops i = some .flushing) : Kept (s.flush i) := by
  unfold State.flush
  split
  · exact h.setLoop hi nofun nofun nofun nofun
  · rename_i p rest _
    split
    · exact h.same ⟨rfl, rfl, rfl, rfl, rfl, rfl⟩
        ⟨rfl, rfl, rfl, rfl, rfl, rfl, Nat.le_refl _, fun _ => id⟩
    · have hrest : Kept { s with pendingPushes := rest } :=
        h.same ⟨rfl, rfl, rfl, rfl, rfl, rfl⟩
          ⟨rfl, rfl, rfl, rfl, rfl, rfl, Nat.le_refl _, fun _ => id⟩
      exact hrest.same (push_same _ p) (push_sameTopics _ p)

theorem Kept.advance (h : Kept s) (hl : Lifecycle autoReconnect s) (hi : s.loops i = some l)
    (hok : l.Survivable s) (hs : s.advance i l = some s') :
    Kept s' := by
  cases l with
  | sleeping =>
    obtain rfl := Option.some.inj hs
    have hclosed := h.same (closeWs_same s) (closeWs_sameTopics s)
    exact hclosed.setLoop_same ((congrFun (closeWs_same s).loops i).trans hi) rfl rfl nofun
  | closing =>
    obtain rfl := Option.some.inj hs
    exact h.setLoop_same hi rfl rfl nofun
  | dialing => cases hs
  | rejoining todo =>
    cases todo with
    | nil =>
      obtain rfl := Option.some.inj hs
      exact h.setLoop_same hi rfl rfl nofun
    | cons r todo => exact h.rejoin hl hi hok hs
  | awaiting topic ref todo =>
    obtain ⟨ok, hreply, rfl⟩ := advance_awaiting hs
    cases ok with
    | true =>
      refine h.setLoop_same hi rfl rfl ?_
      intro t ref' todo' c he hframe
      obtain ⟨rfl, rfl, _⟩ := Loop.awaiting.inj he
      exact ⟨ref, hframe, hreply⟩
    | false => exact absurd hreply hok
  | flushing =>
    obtain rfl := Option.some.inj hs
    exact h.flush hi

theorem Kept.reconnected (h : Kept s) (hl : Lifecycle autoReconnect s)
    (hi : s.loops i = some .dialing) (hok : ∀ j < s.nextSocket, j ≠ i → s.todo j = []) :
    Kept (s.reconnected i) := by
  have hself : (s.reconnected i).todo i = s.topicHandlers.items := by
    simp [State.todo, State.reconnected, Loop.todo]
  have hempty : ∀ j, s.todo j = [] := by
    intro j
    by_cases hj : j = i
    · rw [hj, todo_of_loop hi]
      rfl
    · rcases hm : s.loops j with _ | m
      · exact todo_of_none hm
      · exact hok j (hl.born j m hm).1 hj
  have hother : ∀ j, j ≠ i → (s.reconnected i).todo j = [] := by
    intro j hj
    rw [← hempty j]
    simp [State.todo, State.reconnected, hj]
  have htask : s.reconnectTask = some i := (hl.connecting i _ hi rfl).1
  have hall : ∀ topic ∈ s.joined, ∃ onMsg, s.given topic = some onMsg ∧
      (topic, onMsg) ∈ (s.reconnected i).todo i := by
    intro topic hj
    obtain ⟨onMsg, hgiven, hhandler | ⟨j, hin⟩⟩ := h.installed topic hj
    · exact ⟨onMsg, hgiven, hself ▸ Dict.get_eq_some.mp hhandler⟩
    · rw [hempty j] at hin
      cases hin
  constructor
  · exact h.fresh
  · intro topic onMsg hm
    cases hm
  · intro j topic onMsg hin
    by_cases hj : j = i
    · rw [hj, hself] at hin
      exact h.handlers topic onMsg (Dict.get_eq_some.mpr hin)
    · rw [hother j hj] at hin
      cases hin
  · intro topic hj
    obtain ⟨onMsg, hgiven, hin⟩ := hall topic hj
    exact ⟨onMsg, hgiven, Or.inr ⟨i, hin⟩⟩
  · intro _ j hne
    exact hother j fun hj => hne (hj ▸ htask)
  · intro _ topic hj
    obtain ⟨onMsg, _, hin⟩ := hall topic hj
    exact ⟨_, rfl, Or.inr ⟨i, htask, Or.inl ⟨onMsg, hin⟩⟩⟩
  · intro _
    refine h.heartbeat fun hws => ?_
    rw [(hl.unconnected hws).2 i] at hi
    cases hi
  · intro ref topic hj
    have hnone : s.joins ref = none := h.joins_none hi ref
    rw [show s.joins ref = some topic from hj] at hnone
    cases hnone

theorem Kept.readEnds (h : Kept s) (hl : Lifecycle autoReconnect s) (hc : s.reading c = true)
    (hok : ∀ ref < s.refCounter, s.joins ref = none) (clean : Bool) :
    Kept (s.readEnds autoReconnect c clean) := by
  have hjoins : ∀ ref topic, s.joins ref ≠ some topic := by
    intro ref topic hj
    rw [hok ref (h.joining ref topic hj).1] at hj
    cases hj
  have hnone : s.loops c = none := by
    rw [Option.eq_none_iff_forall_ne_some]
    intro m hm
    rw [(hl.born c m hm).2] at hc
    cases hc
  have htodo : (s.readEnds autoReconnect c clean).todo = s.todo := by
    funext j
    cases autoReconnect with
    | false => rfl
    | true =>
      by_cases hj : j = c
      · subst hj
        simp [State.todo, State.readEnds, hnone, Loop.todo]
      · simp [State.todo, State.readEnds, hj]
  -- with reconnecting on, the new loop is on its way to a connection
  have hmanual : (s.readEnds autoReconnect c clean).Settled → autoReconnect = false := by
    intro hs
    by_contra hauto
    obtain rfl := eq_true_of_ne_false hauto
    have hself : (s.readEnds true c clean).loops c = some .sleeping := by simp [State.readEnds]
    cases hs c .sleeping hself
  constructor
  · exact h.fresh
  · exact h.handlers
  · rw [htodo]
    exact h.todo
  · rw [htodo]
    exact h.installed
  · intro hs
    obtain rfl := hmanual hs
    exact h.last hs
  · intro hs
    obtain rfl := hmanual hs
    exact h.joined hs
  · exact h.heartbeat
  · intro ref topic hj
    exact absurd hj (hjoins ref topic)

theorem Kept.connect (h : Kept s) (hl : Lifecycle autoReconnect s) (hws : s.ws = none) :
    Kept { s.opened with heartbeatTask := true } := by
  have hloops := (hl.unconnected hws).2
  have hnone : ∀ topic, topic ∉ s.joined := by
    intro topic hj
    have hsettled : s.Settled := by
      intro i l hi
      rw [hloops i] at hi
      cases hi
    obtain ⟨c, hc, _⟩ := h.joined hsettled topic hj
    rw [hws] at hc
    cases hc
  refine { h with last := ?_, joined := ?_, heartbeat := ?_, joining := ?_ }
  · exact fun _ j _ => todo_of_none (hloops j)
  · intro _ topic hj
    exact absurd hj (hnone topic)
  · exact fun _ => rfl
  · intro ref topic hj
    obtain ⟨_, _, _, c, hc, _⟩ := h.joining ref topic hj
    rw [hws] at hc
    cases hc

theorem Kept.reply (h : Kept s) {ref : Nat} {ok : Bool}
    (hpending : s.pendingReplies.get ref = some none) :
    Kept { s with pendingReplies := s.pendingReplies.set ref (some ok) } := by
  have hreplies : ∀ ref', s.pendingReplies.get ref' = some (some true) →
      (s.pendingReplies.set ref (some ok)).get ref' = some (some true) := by
    intro ref' hr
    have hne : ref' ≠ ref := by
      intro he
      rw [he, hpending] at hr
      cases hr
    rw [Dict.get_set_of_ne _ _ hne, hr]
  refine { h with fresh := ?_, joined := ?_ }
  · intro ref' r hr
    by_cases he : ref' = ref
    · exact he ▸ h.fresh ref none hpending
    · refine h.fresh ref' r ?_
      rw [← hr]
      exact (Dict.get_set_of_ne _ _ he).symm
  · intro hs topic hj
    obtain ⟨c, hws, hc⟩ := h.joined hs topic hj
    refine ⟨c, hws, ?_⟩
    rcases hc with hon | hdue
    · exact Or.inl (JoinedOn.mono hon (fun _ => id) hreplies)
    · exact Or.inr hdue

theorem Kept.joinReturns (h : Kept s) {ref : Nat} (hj : s.joins ref = some topic)
    (hreply : s.pendingReplies.get ref = some (some true)) :
    Kept { s with
      joined := topic :: s.joined
      joins := Function.update s.joins ref none } := by
  obtain ⟨_, hloops, ⟨onMsg, hgiven, hhandler⟩, c, hws, hframe⟩ := h.joining ref topic hj
  refine { h with installed := ?_, joined := ?_, joining := ?_ }
  · intro t ht
    rcases List.mem_cons.mp ht with rfl | ht
    · exact ⟨onMsg, hgiven, Or.inl hhandler⟩
    · exact h.installed t ht
  · intro hs t ht
    rcases List.mem_cons.mp ht with rfl | ht
    · exact ⟨c, hws, Or.inl ⟨ref, hframe, hreply⟩⟩
    · exact h.joined hs t ht
  · intro ref' t hj'
    by_cases he : ref' = ref
    · simp [he] at hj'
    · exact h.joining ref' t (by simpa [he] using hj')

theorem Kept.joins (h : Kept s) {ref : Nat} (hlt : ref < s.refCounter)
    (hloops : ∀ i, s.loops i = none)
    (hinst : ∃ onMsg, s.given topic = some onMsg ∧ s.topicHandlers.get topic = some onMsg)
    (hframe : ∃ c, s.ws = some c ∧ (c, Frame.join ref topic) ∈ s.written) :
    Kept { s with joins := Function.update s.joins ref (some topic) } := by
  refine { h with joining := ?_ }
  intro ref' t hj
  by_cases he : ref' = ref
  · subst he
    obtain rfl : topic = t := by simpa using hj
    exact ⟨hlt, hloops, hinst, hframe⟩
  · exact h.joining ref' t (by simpa [he] using hj)

theorem Kept.join (h : Kept s) (hl : Lifecycle autoReconnect s)
    (hok : s.isDisconnected = false ∧ s.nextSocket ≤ 1) :
    Kept (s.join topic onMsg) := by
  by_cases hws : s.ws = none
  · rw [State.join, if_pos hws]
    exact h
  · obtain ⟨c, hc⟩ := Option.ne_none_iff_exists'.mp hws
    have hlt := hl.current c hc
    have hloops : ∀ i, s.loops i = none := by
      intro i
      rw [Option.eq_none_iff_forall_ne_some]
      intro m hm
      obtain ⟨hi, hread⟩ := hl.born i m hm
      rw [show i = c by omega, hl.online hok.1 c hc] at hread
      cases hread
    have hregistered : Kept { s.registered topic onMsg with
        given := Function.update s.given topic (some onMsg) } := by
      refine h.registered (Function.update_self ..) (fun _ ht => Function.update_of_ne ht ..) ?_
      intro i m hin
      rw [todo_of_none (hloops i)] at hin
      cases hin
    rw [join_of_ws hws]
    rcases joinInternal_cases s topic onMsg with ⟨d, hd, _, he⟩ | ⟨_, he⟩
    · rw [he]
      refine (hregistered.written d (.join s.refCounter topic)).joins ?_ hloops ?_ ?_
      · exact Nat.lt_succ_self _
      · exact ⟨onMsg, Function.update_self .., Dict.get_set_self ..⟩
      · exact ⟨d, hd, List.mem_append_right _ List.mem_cons_self⟩
    · rw [he]
      exact hregistered

theorem Kept.beat (h : Kept s) (hup : s.up = true) (hbeat : s.heartbeatTask = true) :
    Kept s.beat := by
  obtain ⟨c, hws, hc⟩ := up_iff.mp hup
  have hsend := sendFrame_of_up (s := { s with refCounter := s.refCounter + 1 }) hws hc
    (.heartbeat s.refCounter)
  have hconnected : s.connected = true := by simp [State.connected, hws, hc]
  have he : s.beat = { s with
      refCounter := s.refCounter + 1
      written := s.written ++ [(c, .heartbeat s.refCounter)]
      heartbeatTask := true } := by
    rw [State.beat, if_pos hconnected, hsend]
  rw [he]
  exact h.same ⟨rfl, rfl, rfl, rfl, rfl, rfl⟩
    ⟨rfl, rfl, rfl, rfl, hbeat.symm, rfl, Nat.le_succ _, fun _ hw => List.mem_append_left _ hw⟩

end Kept

section Runs
variable {autoReconnect : Bool} {s s' : State Handler Payload}

theorem Kept.step {a : Act Handler Payload} (h : Kept s) (hl : Lifecycle autoReconnect s)
    (hok : JoinsFirst s a ∧ Survivable s a)
    (hs : ChannelClient.step autoReconnect s a = some s') : Kept s' := by
  have hact := act_of_step hs
  obtain ⟨hfirst, hsurvivable⟩ := hok
  cases a with
  | connect =>
    obtain ⟨hws, rfl⟩ := guard_eq_some.mp hact
    exact h.connect hl hws
  | join topic onMsg =>
    obtain rfl := Option.some.inj hact
    exact h.join hl hfirst
  | joinReturns ref =>
    obtain ⟨topic, ok, hj, hreply, rfl⟩ := joinReturns_eq_some hact
    cases ok with
    | true => exact h.joinReturns hj hreply
    | false => exact absurd hreply hfirst
  | push p =>
    obtain rfl := Option.some.inj hact
    have hpush := h.same (push_same s p) (push_sameTopics s p)
    unfold State.callPush
    split
    · exact hpush.same ⟨rfl, rfl, rfl, rfl, rfl, rfl⟩
        ⟨rfl, rfl, rfl, rfl, rfl, rfl, Nat.le_refl _, fun _ => id⟩
    · exact hpush
  | reply c ref ok =>
    obtain ⟨_, rfl⟩ := guard_eq_some.mp hact
    split
    · rename_i hpending
      exact h.reply hpending
    · exact h
  | lose c =>
    obtain ⟨_, rfl⟩ := guard_eq_some.mp hact
    exact h.same ⟨rfl, rfl, rfl, rfl, rfl, rfl⟩
      ⟨rfl, rfl, rfl, rfl, rfl, rfl, Nat.le_refl _, fun _ => id⟩
  | readEnds c clean =>
    obtain ⟨hc, rfl⟩ := guard_eq_some.mp hact
    exact h.readEnds hl hc hfirst clean
  | beat =>
    obtain ⟨hbeat, rfl⟩ := guard_eq_some.mp hact
    exact h.beat hsurvivable hbeat
  | dialed i opened =>
    obtain ⟨hi, rfl⟩ := dialed_eq_some hact
    cases opened with
    | true => exact h.reconnected hl hi hsurvivable
    | false =>
      refine h.setLoop_same hi rfl rfl ?_
      intro topic ref todo c he
      cases he
  | advance i =>
    obtain ⟨l, hi, hadv⟩ := Option.bind_eq_some_iff.mp hact
    exact h.advance hl hi (hsurvivable l hi) hadv

theorem kept_reaches
    (h : Reaches (step autoReconnect) (fun s a => JoinsFirst s a ∧ Survivable s a) start s) :
    Kept s := by
  obtain ⟨as, hr⟩ := h
  induction hr with
  | nil => exact kept_start
  | snoc hr hok hs ih => exact ih.step (lifecycle_reaches ⟨_, hr⟩) hok hs

/-- **The joined topics and the heartbeat survive** every run in which no topic is
lost when it is joined again and the heartbeat meets no lost socket. -/
theorem maintained_of_survivable
    (h : Reaches (step autoReconnect) (fun s a => JoinsFirst s a ∧ Survivable s a) start s) :
    Maintained s := by
  have hkept := kept_reaches h
  have hl := lifecycle_reaches h
  -- without a reconnect, the last loop is gone and none is connecting
  have hidle : ¬s.Reconnecting → ∀ i, s.reconnectTask = some i → s.loops i = none := by
    intro hno i htask
    by_contra hi
    exact hno ⟨i, htask, hi⟩
  have hsettled : ¬s.Reconnecting → s.Settled := by
    intro hno i l hi
    by_contra hc
    have htask := (hl.connecting i l hi (eq_true_of_ne_false hc)).1
    rw [hidle hno i htask] at hi
    cases hi
  have htodo : ¬s.Reconnecting → ∀ i, s.todo i = [] := by
    intro hno i
    by_cases htask : s.reconnectTask = some i
    · exact todo_of_none (hidle hno i htask)
    · exact hkept.last (hsettled hno) i htask
  constructor
  · intro _ hno topic hj
    constructor
    · obtain ⟨onMsg, hgiven, hhandler | ⟨i, hin⟩⟩ := hkept.installed topic hj
      · exact ⟨onMsg, hgiven, hhandler⟩
      · rw [htodo hno i] at hin
        cases hin
    · obtain ⟨c, hws, hon | ⟨i, htask, ⟨onMsg, hin⟩ | ⟨ref, todo, hi, _⟩⟩⟩ :=
        hkept.joined (hsettled hno) topic hj
      · exact ⟨c, hws, hon⟩
      · rw [htodo hno i] at hin
        cases hin
      · rw [hidle hno i htask] at hi
        cases hi
  · intro hconnected _
    refine hkept.heartbeat fun hws => ?_
    rw [State.connected, hws] at hconnected
    cases hconnected

end Runs

/-- Topics `a` and `b` are joined, and the connection is lost. -/
def twoTopicsLost : List (Act Unit Nat) :=
  [.connect, .join "a" (), .reply 0 1 true, .joinReturns 1,
    .join "b" (), .reply 0 2 true, .joinReturns 2, .lose 0, .readEnds 0 true]

/-- The reconnect loop `i` connects and sends the join of its first topic. -/
def redial (i : Nat) : List (Act Unit Nat) :=
  [.advance i, .advance i, .dialed i true, .advance i]

/-- Both topics are joined again, and the heartbeat goes on. -/
def bothRejoined : List (Act Unit Nat) :=
  twoTopicsLost ++ redial 0 ++ [.reply 1 3 true, .advance 0, .advance 0, .reply 1 4 true,
    .advance 0, .advance 0, .advance 0, .beat]

/-- The second connection is lost while `a` is joined again, and the next loop
finds only `a` among the handlers. -/
def lostTopic : List (Act Unit Nat) :=
  twoTopicsLost ++ redial 0 ++ [.lose 1, .readEnds 1 true] ++ redial 1 ++
    [.reply 2 4 true, .advance 1, .advance 1, .advance 1]

theorem maintained_bothRejoined :
    ∃ s : State Unit Nat, s.connected = true ∧ s.reconnectTask = some 0 ∧
      (s.loops 0).isNone = true ∧ s.joined = ["b", "a"] ∧ Maintained s := by
  have hrun : (exec (step true) (fun s a => JoinsFirst s a ∧ Survivable s a) start
      bothRejoined).map (fun s => (s.connected, s.reconnectTask, (s.loops 0).isNone, s.joined)) =
      some (true, some 0, true, ["b", "a"]) := by decide +kernel
  obtain ⟨s, hs, hall⟩ := Option.map_eq_some_iff.mp hrun
  obtain ⟨hconnected, hall⟩ := Prod.mk.inj hall
  obtain ⟨htask, hall⟩ := Prod.mk.inj hall
  obtain ⟨hdone, hjoined⟩ := Prod.mk.inj hall
  exact ⟨s, hconnected, htask, hdone, hjoined, maintained_of_survivable (.of_exec hs)⟩

/-- **A topic lost for good**: the caller joined `b`, and after a connection lost in
the middle of a rejoin its handler is gone, while the client looks healthy. -/
theorem not_maintained_lostTopic :
    ¬∀ s : State Unit Nat, Reaches (step true) JoinsFirst start s → Maintained s := by
  intro h
  have hrun : (exec (step true) JoinsFirst start lostTopic).map (fun s => (s.connected,
      s.reconnectTask, (s.loops 1).isNone, s.joined, (s.topicHandlers.get "b").isNone)) =
      some (true, some 1, true, ["b", "a"], true) := by decide +kernel
  obtain ⟨s, hs, hall⟩ := Option.map_eq_some_iff.mp hrun
  obtain ⟨hconnected, hall⟩ := Prod.mk.inj hall
  obtain ⟨htask, hall⟩ := Prod.mk.inj hall
  obtain ⟨hdone, hall⟩ := Prod.mk.inj hall
  obtain ⟨hjoined, hgone⟩ := Prod.mk.inj hall
  have hidle : ¬s.Reconnecting := by
    intro ⟨i, hi, hloop⟩
    rw [htask, Option.some.injEq] at hi
    subst hi
    exact hloop (Option.isNone_iff_eq_none.mp hdone)
  obtain ⟨⟨_, _, hhandler⟩, _⟩ :=
    (h s (.of_exec hs)).topics hconnected hidle "b" (by simp [hjoined])
  rw [Option.isNone_iff_eq_none.mp hgone] at hhandler
  cases hhandler

end ChannelClient
end Esr
