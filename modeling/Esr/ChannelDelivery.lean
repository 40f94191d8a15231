import Esr.ChannelClient

/-! # Delivery of the pushes

`Delivered` is what the buffering contract promises: the pushes written are a
subsequence of the accepted ones, none twice, and once the client is connected and
idle the only ones missing are those that overflowed the buffer.

A push that comes between the reset of the flag and the end of the flush is written
at once and overtakes the buffer (`not_delivered_overtaken`), and a flush loses the
push whose topic is not joined or whose frame cannot be written.
`delivered_of_prompt` is for the runs without these two.
-/
namespace Esr
namespace ChannelClient

variable {Handler Payload : Type}

/-- The push that a frame carries. -/
def Frame.push? : Frame Payload → Option (Push Payload)
  | .push _ _ p => some p
  | .join .. | .heartbeat _ => none

/-- The pushes written, in the order of their frames. -/
def State.pushesWritten (s : State Handler Payload) : List (Push Payload) :=
  s.written.filterMap fun w => w.2.push?

/-- **The delivery of the pushes.** -/
structure Delivered (s : State Handler Payload) : Prop where
  inOrder : s.pushesWritten.Sublist s.accepted
  complete : s.connected = true → s.isDisconnected = false → ¬s.Reconnecting →
    (s.pushesWritten ++ s.overflowed).Perm s.accepted

/-- The loop is at the head of the flush. -/
def Loop.isFlushing : Loop Handler → Bool
  | .flushing => true
  | _ => false

/-- A push is written only past an empty buffer, and the flush takes out only a push
whose topic is joined and that can be written. -/
def Prompt (s : State Handler Payload) : Act Handler Payload → Prop
  | .push p => s.isDisconnected = false → s.up = true →
      (s.topicJoinRefs.get p.topic).isSome → s.pendingPushes = []
  | .advance i => (s.loops i).any Loop.isFlushing →
      ∀ p ∈ s.pendingPushes.head?, (s.topicJoinRefs.get p.topic).isSome ∧
        (s.isDisconnected = true ∨ s.up = true)
  | _ => True

instance (s : State Handler Payload) : (a : Act Handler Payload) → Decidable (Prompt s a)
  | .push _ => inferInstanceAs (Decidable (_ → _ → _ → _ = []))
  | .advance _ => inferInstanceAs (Decidable (_ → ∀ p ∈ s.pendingPushes.head?, _))
  | .connect | .join .. | .joinReturns _ | .reply .. | .lose _ | .readEnds .. | .beat |
    .dialed .. => isTrue trivial

/-- The pushes written and then those waiting are in order, with those that
overflowed they are all, and none waits once the client is idle. -/
structure Accounted (s : State Handler Payload) : Prop where
  inOrder : (s.pushesWritten ++ s.pendingPushes).Sublist s.accepted
  complete : (s.pushesWritten ++ s.pendingPushes ++ s.overflowed).Perm s.accepted
  waiting : s.isDisconnected = false → s.pendingPushes ≠ [] → s.Reconnecting

/-- Nothing about the pushes has changed. -/
structure SamePushes (s s' : State Handler Payload) : Prop where
  written : s'.pushesWritten = s.pushesWritten
  pending : s'.pendingPushes = s.pendingPushes
  accepted : s'.accepted = s.accepted
  overflowed : s'.overflowed = s.overflowed

section Pushes
variable {s s' : State Handler Payload} {f : Frame Payload} {c : Nat}

theorem pushesWritten_append (s : State Handler Payload) (c : Nat) (f : Frame Payload) :
    { s with written := s.written ++ [(c, f)] }.pushesWritten =
      s.pushesWritten ++ f.push?.toList := by
  show (s.written ++ [(c, f)]).filterMap _ = _
  rw [List.filterMap_append]
  cases hf : f.push? <;> simp [State.pushesWritten, hf]

theorem sendFrame_samePushes (s : State Handler Payload) (hf : f.push? = none) :
    SamePushes s (s.sendFrame f).2 := by
  rcases sendFrame_cases s f with ⟨c, _, _, h⟩ | ⟨_, h⟩
  · rw [h]
    refine ⟨?_, rfl, rfl, rfl⟩
    rw [pushesWritten_append, hf, Option.toList_none, List.append_nil]
  · rw [h]
    exact ⟨rfl, rfl, rfl, rfl⟩

theorem joinInternal_samePushes (s : State Handler Payload) (topic : String) (onMsg : Handler) :
    SamePushes s (s.joinInternal topic onMsg).2 := by
  obtain ⟨h₁, h₂, h₃, h₄⟩ :=
    sendFrame_samePushes (s.registered topic onMsg) (f := .join s.refCounter topic) rfl
  exact ⟨h₁, h₂, h₃, h₄⟩

theorem beat_samePushes (s : State Handler Payload) : SamePushes s s.beat := by
  unfold State.beat
  split
  · obtain ⟨h₁, h₂, h₃, h₄⟩ := sendFrame_samePushes
      { s with refCounter := s.refCounter + 1 } (f := .heartbeat s.refCounter) rfl
    exact ⟨h₁, h₂, h₃, h₄⟩
  · exact ⟨rfl, rfl, rfl, rfl⟩

theorem closeWs_samePushes (s : State Handler Payload) : SamePushes s s.closeWs := by
  unfold State.closeWs
  split <;> exact ⟨rfl, rfl, rfl, rfl⟩

theorem Reconnecting.setLoop {i : Nat} {l : Loop Handler} (h : s.Reconnecting) :
    (s.setLoop i (some l)).Reconnecting := by
  obtain ⟨j, htask, hj⟩ := h
  refine ⟨j, htask, ?_⟩
  show Function.update s.loops i (some l) j ≠ none
  rw [Function.update_apply]
  split
  · simp
  · exact hj

theorem Accounted.same (h : Accounted s) (hp : SamePushes s s')
    (hw : s'.isDisconnected = false → s'.pendingPushes ≠ [] → s'.Reconnecting) :
    Accounted s' := by
  obtain ⟨hwritten, hpending, haccepted, hoverflowed⟩ := hp
  constructor
  · rw [hwritten, hpending, haccepted]
    exact h.inOrder
  · rw [hwritten, hpending, haccepted, hoverflowed]
    exact h.complete
  · exact hw

theorem Accounted.unaffected (h : Accounted s) (ht : SameTasks s s') (hp : SamePushes s s') :
    Accounted s' := by
  refine h.same hp ?_
  rw [State.Reconnecting, ht.isDisconnected, hp.pending, ht.reconnectTask, ht.loops]
  exact h.waiting

theorem Accounted.setLoop (h : Accounted s) {i : Nat} {l : Loop Handler} :
    Accounted (s.setLoop i (some l)) :=
  h.same ⟨rfl, rfl, rfl, rfl⟩ fun hd hp => Reconnecting.setLoop (h.waiting hd hp)

theorem Accounted.buffered (h : Accounted s) {p : Push Payload} (hd : s.isDisconnected = true) :
    Accounted { s.buffer p with accepted := s.accepted ++ [p] } := by
  have hw : ∀ q : Prop, s.isDisconnected = false → q := by
    intro q hf
    rw [hd] at hf
    cases hf
  by_cases hfull : s.pendingPushes.length = pendingPushCap
  · have he : s.buffer p = { s with
        pendingPushes := s.pendingPushes.drop 1 ++ [p]
        overflowed := s.overflowed ++ s.pendingPushes.take 1 } := if_pos hfull
    rw [he]
    constructor
    · show (s.pushesWritten ++ (s.pendingPushes.drop 1 ++ [p])).Sublist (s.accepted ++ [p])
      rw [← List.append_assoc]
      refine List.Sublist.append ?_ (List.Sublist.refl _)
      exact ((List.drop_sublist 1 _).append_left _).trans h.inOrder
    · show (s.pushesWritten ++ (s.pendingPushes.drop 1 ++ [p]) ++
        (s.overflowed ++ s.pendingPushes.take 1)).Perm (s.accepted ++ [p])
      classical
      rw [List.perm_iff_count]
      intro q
      have hcount := h.complete.count_eq q
      have hsplit := congrArg (List.count q) (List.take_append_drop 1 s.pendingPushes)
      simp only [List.count_append] at hcount hsplit ⊢
      omega
    · exact fun hf => hw _ hf
  · have he : s.buffer p = { s with pendingPushes := s.pendingPushes ++ [p] } := if_neg hfull
    rw [he]
    constructor
    · show (s.pushesWritten ++ (s.pendingPushes ++ [p])).Sublist (s.accepted ++ [p])
      rw [← List.append_assoc]
      exact h.inOrder.append (List.Sublist.refl _)
    · show (s.pushesWritten ++ (s.pendingPushes ++ [p]) ++ s.overflowed).Perm (s.accepted ++ [p])
      classical
      rw [List.perm_iff_count]
      intro q
      have hcount := h.complete.count_eq q
      simp only [List.count_append] at hcount ⊢
      omega
    · exact fun hf => hw _ hf

theorem Accounted.callPush (h : Accounted s) {p : Push Payload} (hok : Prompt s (.push p)) :
    Accounted (s.callPush p) := by
  rcases push_cases s p with ⟨_, he⟩ | ⟨_, hd, he⟩ | ⟨c, joinRef, hjoined, hd, hup, he⟩ |
    ⟨_, _, he⟩
  · rw [show s.callPush p = s by rw [State.callPush, he]; rfl]
    exact h
  · rw [show s.callPush p = { s.buffer p with accepted := s.accepted ++ [p] } by
      rw [State.callPush, he]; rfl]
    exact h.buffered hd
  · have hempty := hok hd hup hjoined
    have hinOrder := h.inOrder
    have hcomplete := h.complete
    rw [hempty, List.append_nil] at hinOrder hcomplete
    have hs : s.callPush p = { s with
        refCounter := s.refCounter + 1
        written := s.written ++ [(c, .push joinRef s.refCounter p)]
        accepted := s.accepted ++ [p] } := by
      rw [State.callPush, he]
      rfl
    have hwritten : (s.callPush p).pushesWritten = s.pushesWritten ++ [p] := by
      rw [hs]
      exact pushesWritten_append s c (.push joinRef s.refCounter p)
    have hpending : (s.callPush p).pendingPushes = [] := by rw [hs, hempty]
    constructor
    · rw [hwritten, hpending, hs, List.append_nil]
      exact hinOrder.append (List.Sublist.refl _)
    · rw [hwritten, hpending, hs, List.append_nil]
      show (s.pushesWritten ++ [p] ++ s.overflowed).Perm (s.accepted ++ [p])
      classical
      rw [List.perm_iff_count]
      intro q
      have hcount := hcomplete.count_eq q
      simp only [List.count_append] at hcount ⊢
      omega
    · intro _ hne
      exact absurd hpending hne
  · rw [show s.callPush p = { s with refCounter := s.refCounter + 1 } by
      rw [State.callPush, he]; rfl]
    exact h.unaffected ⟨rfl, rfl, rfl, rfl, rfl, rfl⟩ ⟨rfl, rfl, rfl, rfl⟩

theorem Accounted.flush (h : Accounted s) {i : Nat} (hi : s.loops i = some .flushing)
    (hok : Prompt s (.advance i)) : Accounted (s.flush i) := by
  unfold State.flush
  split
  · rename_i hempty
    exact h.same ⟨rfl, rfl, rfl, rfl⟩ fun _ hne => absurd hempty hne
  · rename_i p rest hpending
    split
    · exact h.unaffected ⟨rfl, rfl, rfl, rfl, rfl, rfl⟩ ⟨rfl, rfl, rfl, rfl⟩
    · rename_i hspin
      obtain ⟨hjoined, hready⟩ := hok (by rw [hi]; rfl) p (by rw [hpending]; rfl)
      have hd : s.isDisconnected = false := by
        by_contra hd
        exact hspin ⟨eq_true_of_ne_false hd, hjoined⟩
      have hup : s.up = true := by
        rcases hready with hd' | hup
        · rw [hd] at hd'
          cases hd'
        · exact hup
      rcases push_cases { s with pendingPushes := rest } p with
        ⟨hnone, _⟩ | ⟨_, hd', _⟩ | ⟨c, joinRef, _, _, _, he⟩ | ⟨_, hdown, _⟩
      · rw [show s.topicJoinRefs.get p.topic = none from hnone] at hjoined
        cases hjoined
      · rw [show s.isDisconnected = true from hd'] at hd
        cases hd
      · rw [he]
        have hlist : s.pushesWritten ++ [p] ++ rest = s.pushesWritten ++ s.pendingPushes := by
          rw [hpending, List.append_assoc]
          rfl
        have hwritten := pushesWritten_append s c (.push joinRef s.refCounter p)
        constructor
        · show (State.pushesWritten { s with written := _ } ++ rest).Sublist s.accepted
          rw [hwritten]
          show (s.pushesWritten ++ [p] ++ rest).Sublist s.accepted
          rw [hlist]
          exact h.inOrder
        · show (State.pushesWritten { s with written := _ } ++ rest ++ s.overflowed).Perm s.accepted
          rw [hwritten]
          show (s.pushesWritten ++ [p] ++ rest ++ s.overflowed).Perm s.accepted
          rw [hlist]
          exact h.complete
        · intro _ _
          exact h.waiting hd (by rw [hpending]; exact List.cons_ne_nil _ _)
      · rw [show s.up = false from hdown] at hup
        cases hup

theorem Accounted.advance (h : Accounted s) {i : Nat} {l : Loop Handler}
    (hi : s.loops i = some l) (hok : Prompt s (.advance i)) (hs : s.advance i l = some s') :
    Accounted s' := by
  cases l with
  | sleeping =>
    obtain rfl := Option.some.inj hs
    exact (h.unaffected (closeWs_same s) (closeWs_samePushes s)).setLoop
  | closing =>
    obtain rfl := Option.some.inj hs
    exact h.setLoop
  | dialing => cases hs
  | rejoining todo =>
    cases todo with
    | nil =>
      obtain rfl := Option.some.inj hs
      exact h.setLoop
    | cons r todo =>
      obtain rfl := Option.some.inj hs
      have hjoin := h.unaffected (joinInternal_same s r.1 r.2) (joinInternal_samePushes s r.1 r.2)
      split
      · exact hjoin.setLoop
      · exact hjoin.setLoop
  | awaiting topic ref todo =>
    obtain ⟨ok, _, rfl⟩ := advance_awaiting hs
    cases ok with
    | true => exact h.setLoop
    | false =>
      have hrejected : Accounted (s.rejected topic) :=
        h.unaffected ⟨rfl, rfl, rfl, rfl, rfl, rfl⟩ ⟨rfl, rfl, rfl, rfl⟩
      exact hrejected.setLoop
  | flushing =>
    obtain rfl := Option.some.inj hs
    exact h.flush hi hok

theorem accounted_start : Accounted (start : State Handler Payload) :=
  ⟨List.Sublist.refl _, List.Perm.refl _, fun _ hne => absurd rfl hne⟩

end Pushes

section Runs
variable {autoReconnect : Bool} {s s' : State Handler Payload}

theorem Accounted.step {a : Act Handler Payload} (h : Accounted s) (hl : Lifecycle autoReconnect s)
    (hok : Prompt s a) (hs : ChannelClient.step autoReconnect s a = some s') : Accounted s' := by
  have hact := act_of_step hs
  cases a with
  | connect =>
    obtain ⟨hws, rfl⟩ := guard_eq_some.mp hact
    obtain ⟨hd, hloops⟩ := hl.unconnected hws
    refine h.same ⟨rfl, rfl, rfl, rfl⟩ ?_
    intro _ hne
    obtain ⟨i, _, hi⟩ := h.waiting hd hne
    exact absurd (hloops i) hi
  | join topic onMsg =>
    obtain rfl := Option.some.inj hact
    by_cases hws : s.ws = none
    · rw [State.join, if_pos hws]
      exact h
    · obtain ⟨h₁, h₂, h₃, h₄, h₅, h₆⟩ := joinInternal_same s topic onMsg
      obtain ⟨g₁, g₂, g₃, g₄⟩ := joinInternal_samePushes s topic onMsg
      rw [join_of_ws hws]
      exact h.unaffected ⟨h₁, h₂, h₃, h₄, h₅, h₆⟩ ⟨g₁, g₂, g₃, g₄⟩
  | joinReturns ref =>
    obtain ⟨topic, ok, _, _, rfl⟩ := joinReturns_eq_some hact
    cases ok <;> exact h.unaffected ⟨rfl, rfl, rfl, rfl, rfl, rfl⟩ ⟨rfl, rfl, rfl, rfl⟩
  | push p =>
    obtain rfl := Option.some.inj hact
    exact h.callPush hok
  | reply c ref ok =>
    obtain ⟨_, rfl⟩ := guard_eq_some.mp hact
    split <;> exact h.unaffected ⟨rfl, rfl, rfl, rfl, rfl, rfl⟩ ⟨rfl, rfl, rfl, rfl⟩
  | lose c =>
    obtain ⟨_, rfl⟩ := guard_eq_some.mp hact
    exact h.unaffected ⟨rfl, rfl, rfl, rfl, rfl, rfl⟩ ⟨rfl, rfl, rfl, rfl⟩
  | readEnds c clean =>
    obtain ⟨_, rfl⟩ := guard_eq_some.mp hact
    refine h.same ⟨rfl, rfl, rfl, rfl⟩ ?_
    intro hdown
    cases hdown
  | beat =>
    obtain ⟨_, rfl⟩ := guard_eq_some.mp hact
    exact h.unaffected (beat_same s) (beat_samePushes s)
  | dialed i opened =>
    obtain ⟨hi, rfl⟩ := dialed_eq_some hact
    cases opened with
    | true =>
      refine h.same ⟨rfl, rfl, rfl, rfl⟩ ?_
      intro _ _
      exact ⟨i, (hl.connecting i _ hi rfl).1, by simp [State.reconnected]⟩
    | false => exact h.setLoop
  | advance i =>
    obtain ⟨l, hi, hadv⟩ := Option.bind_eq_some_iff.mp hact
    exact h.advance hi hok hadv

theorem accounted_reaches (h : Reaches (step autoReconnect) Prompt start s) : Accounted s := by
  obtain ⟨as, hr⟩ := h
  induction hr with
  | nil => exact accounted_start
  | snoc hr hok hs ih => exact ih.step (lifecycle_reaches ⟨_, hr⟩) hok hs

/-- **The pushes are delivered**, in every run in which no push overtakes the buffer
and the flush can write what it takes out. -/
theorem delivered_of_prompt (h : Reaches (step autoReconnect) Prompt start s) :
    Delivered s := by
  have hacc := accounted_reaches h
  constructor
  · exact (List.sublist_append_left _ _).trans hacc.inOrder
  · intro _ hd hidle
    have hempty : s.pendingPushes = [] := by
      by_contra hne
      exact hidle (hacc.waiting hd hne)
    have hcomplete := hacc.complete
    rw [hempty, List.append_nil] at hcomplete
    exact hcomplete

end Runs

/-- The topic `t` is joined and the connection is lost. -/
def joinedAndLost : List (Act Unit Nat) :=
  [.connect, .join "t" (), .reply 0 1 true, .joinReturns 1, .lose 0, .readEnds 0 true]

/-- The reconnect loop connects and sends the join of `t` again. -/
def rejoining : List (Act Unit Nat) := [.advance 0, .advance 0, .dialed 0 true, .advance 0]

/-- It gets the reply, and flushes one push. -/
def rejoinedAndFlushed : List (Act Unit Nat) :=
  [.reply 1 2 true, .advance 0, .advance 0, .advance 0]

def earlier : Push Nat := ⟨"t", "envelope", 1⟩

def later : Push Nat := ⟨"t", "envelope", 2⟩

/-- A push while disconnected and one after the flush. -/
def oneAfterTheOther : List (Act Unit Nat) :=
  joinedAndLost ++ [.push earlier] ++ rejoining ++ rejoinedAndFlushed ++
    [.advance 0, .push later]

/-- A push while disconnected and one while the join is under way. -/
def overtaken : List (Act Unit Nat) :=
  joinedAndLost ++ [.push earlier] ++ rejoining ++ [.push later] ++ rejoinedAndFlushed

theorem delivered_oneAfterTheOther :
    ∃ s : State Unit Nat, s.pushesWritten = [earlier, later] ∧ Delivered s := by
  have hrun : (exec (step true) Prompt start oneAfterTheOther).map State.pushesWritten =
      some [earlier, later] := by decide +kernel
  obtain ⟨s, hs, hwritten⟩ := Option.map_eq_some_iff.mp hrun
  exact ⟨s, hwritten, delivered_of_prompt (.of_exec hs)⟩

/-- **A push that overtakes the buffer**: it comes while the topic is being joined
again, and is written before the one that was accepted earlier. -/
theorem not_delivered_overtaken :
    ¬∀ s : State Unit Nat, Reaches (step true) anyStep start s → Delivered s := by
  intro h
  have hrun : (exec (step true) anyStep start overtaken).map
      (fun s => (s.pushesWritten, s.accepted)) = some ([later, earlier], [earlier, later]) := by
    decide +kernel
  obtain ⟨s, hs, hlists⟩ := Option.map_eq_some_iff.mp hrun
  obtain ⟨hwritten, haccepted⟩ := Prod.mk.inj hlists
  have hsub := (h s (.of_exec hs)).inOrder
  rw [hwritten, haccepted] at hsub
  have hne : ¬[later, earlier].Sublist [earlier, later] := by decide
  exact hne hsub

end ChannelClient
end Esr
