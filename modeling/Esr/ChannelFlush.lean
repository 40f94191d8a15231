import Esr.ChannelClient

/-! # The loop that flushes

After a reconnect the loop

    while self._pending_pushes:
        topic, event, payload = self._pending_pushes.popleft()
        try: await self.push(topic, event, payload)
        except Exception: ...

sends what was buffered.  `push` puts its argument back while the client is disconnected,
without an await: when the connection is lost again during the flush and a buffered
push has a topic that is joined, the loop takes it out and puts it back for ever.

Other tasks run only while a send waits.  What they do is a parameter (`Others`), except
that they buffer no more than finitely many pushes while the loop runs.
-/
namespace Esr
namespace ChannelClient
namespace Flush

variable {Handler Payload : Type}

/-- `push` gets to `_send_frame`, in which other tasks can run. -/
def waits (s : State Handler Payload) (p : Push Payload) : Bool :=
  (s.topicJoinRefs.get p.topic).isSome && !s.isDisconnected

/-- One iteration, with what the other tasks do while its send waits; nothing once the
buffer is empty. -/
def iterate (others : State Handler Payload → State Handler Payload)
    (s : State Handler Payload) : State Handler Payload :=
  match s.pendingPushes with
  | [] => s
  | p :: rest =>
    if waits s p then others ({ s with pendingPushes := rest }.push p).2
    else ({ s with pendingPushes := rest }.push p).2

/-- What the other tasks do while the `k`-th iteration waits. -/
structure Others (Handler Payload : Type) where
  during : Nat → State Handler Payload → State Handler Payload
  quiet : ∃ n, ∀ k ≥ n, ∀ s, (during k s).pendingPushes.length ≤ s.pendingPushes.length

/-- Nothing. -/
def Others.none : Others Handler Payload := ⟨fun _ s => s, 0, fun _ _ _ => Nat.le_refl _⟩

/-- The state at the head of the loop after `k` iterations. -/
def head (others : Others Handler Payload) (s : State Handler Payload) :
    Nat → State Handler Payload
  | 0 => s
  | k + 1 => iterate (others.during k) (head others s k)

/-- The loop finds the buffer empty. -/
def Ends (others : Others Handler Payload) (s : State Handler Payload) : Prop :=
  ∃ k, (head others s k).pendingPushes = []

/-- The client is disconnected, and some buffered push has a topic that is joined. -/
def Spins (s : State Handler Payload) : Prop :=
  s.isDisconnected = true ∧ ∃ p ∈ s.pendingPushes, (s.topicJoinRefs.get p.topic).isSome

section
variable {s : State Handler Payload} {others : State Handler Payload → State Handler Payload}
  {p : Push Payload} {rest : List (Push Payload)}

theorem iterate_unjoined (hs : s.pendingPushes = p :: rest)
    (hp : s.topicJoinRefs.get p.topic = none) :
    iterate others s = { s with pendingPushes := rest } := by
  have hwaits : waits s p = false := by simp [waits, hp]
  simp only [iterate, hs, hwaits, State.push, hp]
  rfl

theorem iterate_disconnected (hs : s.pendingPushes = p :: rest) (hd : s.isDisconnected = true)
    (hp : (s.topicJoinRefs.get p.topic).isSome) :
    iterate others s = ({ s with pendingPushes := rest } : State Handler Payload).buffer p := by
  obtain ⟨joinRef, href⟩ := Option.isSome_iff_exists.mp hp
  have hwaits : waits s p = false := by simp [waits, hd]
  simp only [iterate, hs, hwaits, State.push, href, hd]
  rfl

theorem iterate_connected (others : State Handler Payload → State Handler Payload)
    (hs : s.pendingPushes = p :: rest) (hd : s.isDisconnected = false)
    (hp : (s.topicJoinRefs.get p.topic).isSome) :
    ∃ s', iterate others s = others s' ∧ s'.pendingPushes = rest := by
  have hwaits : waits s p = true := by simp [waits, hd, hp]
  refine ⟨({ s with pendingPushes := rest }.push p).2, by simp [iterate, hs, hwaits], ?_⟩
  rcases push_cases { s with pendingPushes := rest } p with
    ⟨-, h⟩ | ⟨-, hd', -⟩ | ⟨c, joinRef, -, -, -, h⟩ | ⟨-, -, h⟩
  · rw [h]
  · exact absurd (hd.symm.trans hd') (by decide)
  · rw [h]
  · rw [h]

theorem mem_buffer {q : Push Payload} :
    p ∈ (s.buffer p).pendingPushes ∧
      (q ∈ s.pendingPushes.drop 1 → q ∈ (s.buffer p).pendingPushes) := by
  unfold State.buffer
  split
  · simp only [List.mem_append, List.mem_singleton, or_true, true_and]
    exact Or.inl
  · simp only [List.mem_append, List.mem_singleton, or_true, true_and]
    exact fun hq => Or.inl (List.drop_subset 1 _ hq)

theorem buffer_frame (s : State Handler Payload) (p : Push Payload) :
    (s.buffer p).isDisconnected = s.isDisconnected ∧
      (s.buffer p).topicJoinRefs = s.topicJoinRefs := by
  unfold State.buffer
  split <;> exact ⟨rfl, rfl⟩

/-- **A loop that spins goes on to spin**: no other task gets to run. -/
theorem Spins.iterate (h : Spins s) : Spins (iterate others s) := by
  obtain ⟨hd, q, hq, hjoined⟩ := h
  obtain ⟨p, rest, hs⟩ := List.exists_cons_of_ne_nil (List.ne_nil_of_mem hq)
  rcases href : s.topicJoinRefs.get p.topic with _ | joinRef
  · rw [iterate_unjoined hs href]
    refine ⟨hd, q, ?_, hjoined⟩
    -- the push that is dropped is not the one with the joined topic
    rcases List.mem_cons.mp (hs ▸ hq) with rfl | hrest
    · rw [href] at hjoined
      cases hjoined
    · exact hrest
  · have hp : (s.topicJoinRefs.get p.topic).isSome := by rw [href]; rfl
    rw [iterate_disconnected hs hd hp]
    obtain ⟨hflag, hrefs⟩ := buffer_frame { s with pendingPushes := rest } p
    exact ⟨hflag.trans hd, p, (mem_buffer (q := p)).1, by rw [hrefs]; exact hp⟩

theorem length_iterate (hne : s.pendingPushes ≠ []) (h : ¬Spins s)
    (hquiet : ∀ s, (others s).pendingPushes.length ≤ s.pendingPushes.length) :
    (iterate others s).pendingPushes.length < s.pendingPushes.length := by
  obtain ⟨p, rest, hs⟩ := List.exists_cons_of_ne_nil hne
  have hlen : rest.length < s.pendingPushes.length := by rw [hs]; simp
  rcases href : s.topicJoinRefs.get p.topic with _ | joinRef
  · rw [iterate_unjoined hs href]
    exact hlen
  · have hp : (s.topicJoinRefs.get p.topic).isSome := by rw [href]; rfl
    cases hd : s.isDisconnected with
    | true => exact absurd ⟨hd, p, hs ▸ List.mem_cons_self, hp⟩ h
    | false =>
      obtain ⟨s', hs', hrest⟩ := iterate_connected others hs hd hp
      rw [hs']
      have hle := hquiet s'
      rw [hrest] at hle
      omega

end

section
variable (others : Others Handler Payload) (s : State Handler Payload)

theorem spins_head {k : Nat} (h : Spins (head others s k)) (j : Nat) :
    Spins (head others s (k + j)) := by
  induction j with
  | zero => exact h
  | succ j ih => exact ih.iterate

theorem Spins.ne_nil {s : State Handler Payload} (h : Spins s) : s.pendingPushes ≠ [] :=
  h.2.elim fun _ hq => List.ne_nil_of_mem hq.1

theorem head_of_nil {k : Nat} (h : (head others s k).pendingPushes = []) (j : Nat) :
    head others s (k + j) = head others s k := by
  induction j with
  | zero => rfl
  | succ j ih =>
    show iterate _ (head others s (k + j)) = _
    rw [ih, iterate]
    simp only [h]

theorem ends_of_quiet (h : ∀ k, ¬Spins (head others s k)) {n : Nat}
    (hquiet : ∀ k ≥ n, ∀ s, (others.during k s).pendingPushes.length ≤ s.pendingPushes.length) :
    Ends others s := by
  by_contra hends
  have hne : ∀ k, (head others s k).pendingPushes ≠ [] := fun k hk => hends ⟨k, hk⟩
  have hlt : ∀ k ≥ n, (head others s (k + 1)).pendingPushes.length <
      (head others s k).pendingPushes.length := fun k hk =>
    length_iterate (hne k) (h k) (hquiet k hk)
  have hdown : ∀ j, (head others s (n + j)).pendingPushes.length + j ≤
      (head others s n).pendingPushes.length := by
    intro j
    induction j with
    | zero => exact Nat.le_refl _
    | succ j ih =>
      have hstep := hlt (n + j) (Nat.le_add_right n j)
      have hsucc : n + (j + 1) = n + j + 1 := rfl
      rw [hsucc]
      omega
  have hlast := hdown ((head others s n).pendingPushes.length + 1)
  omega

/-- **The flush ends exactly where it is never at its head** with the client disconnected
and a push in the buffer whose topic is joined. -/
theorem ends_iff : Ends others s ↔ ∀ k, ¬Spins (head others s k) := by
  constructor
  · rintro ⟨n, hn⟩ k hspins
    rcases Nat.le_total k n with hle | hle
    · obtain ⟨j, rfl⟩ := Nat.exists_eq_add_of_le hle
      exact (spins_head others s hspins j).ne_nil hn
    · obtain ⟨j, rfl⟩ := Nat.exists_eq_add_of_le hle
      rw [head_of_nil others s hn j] at hspins
      exact hspins.ne_nil hn
  · intro h
    obtain ⟨n, hquiet⟩ := others.quiet
    exact ends_of_quiet others s h hquiet

end

/-! ## The flush among the other tasks -/

/-- The connection is lost, a push is buffered, and after the reconnect the connection is
lost again before the flush. -/
def lostAgain : List (Act Unit Unit) :=
  [.connect, .join "a" (), .reply 0 1 true, .joinReturns 1, .readEnds 0 true,
    .push ⟨"a", "e", ()⟩, .advance 0, .advance 0, .dialed 0 true, .advance 0, .reply 1 2 true,
    .readEnds 1 true, .advance 0, .advance 0]

/-- **The flush does not end** where the connection is lost again before it starts. -/
theorem not_ends_lostAgain :
    ¬∀ (s : State Unit Unit) (i : Nat) (others : Others Unit Unit),
      Reaches (step true) anyStep start s → s.loops i = some .flushing → Ends others s := by
  intro h
  have hsome : (exec (step true) anyStep start lostAgain).isSome = true := rfl
  obtain ⟨s, hs⟩ := Option.isSome_iff_exists.mp hsome
  have hlast : (exec (step true) anyStep start lostAgain).map
      (fun s => (s.isDisconnected, s.pendingPushes, (s.topicJoinRefs.get "a").isSome)) =
      some (true, [⟨"a", "e", ()⟩], true) := rfl
  have hloop : (exec (step true) anyStep start lostAgain).map (fun s => s.loops 0) =
      some (some .flushing) := rfl
  rw [hs] at hlast hloop
  obtain ⟨hflag, hlast⟩ := Prod.mk.inj (Option.some.inj hlast)
  obtain ⟨hpending, hjoined⟩ := Prod.mk.inj hlast
  have hspins : Spins s := ⟨hflag, ⟨"a", "e", ()⟩, hpending ▸ List.mem_cons_self, hjoined⟩
  have hends := h s 0 .none (.of_exec hs) (Option.some.inj hloop)
  obtain ⟨n, hn⟩ := hends
  have hnever := (spins_head .none s (k := 0) hspins n).ne_nil
  rw [Nat.zero_add] at hnever
  exact hnever hn

end Flush
end ChannelClient
end Esr
