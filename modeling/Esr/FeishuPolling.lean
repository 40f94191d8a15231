import Mathlib.Data.List.Nodup
import Mathlib.Data.List.Perm.Basic
import Esr.FeishuInbound
import Esr.Runs

/-! # The poller beside the WebSocket

The messages of a chat come to the queue on two ways: the WebSocket delivers some of them,
and every two seconds the poller goes through the newest twenty messages of the chat and
puts the ones it has not seen there.  The two do not know of each other.  The poller also
leaves out whatever it finds in the first list that is not empty, as the history of the
chat.

Here is the system of the chat, the WebSocket and the poller, with the list call answered
at one moment and gone through at a later one.  What the poller puts into the queue is
always new and in the order of posting (`Inv.inOrder`); that nothing is there twice and
nothing is missing takes conditions on each step (`Meets`).
-/
namespace Esr
namespace FeishuInbound
open Yaml

/-- `page_size`. -/
def pageSize : Nat := 20

/-- What the list call answers of the messages posted: the newest ones, the newest first. -/
def newest (posted : List Message) : List Message := posted.reverse.take pageSize

/-- An envelope in the queue, and whether the poller has put it there. -/
structure Put where
  polled : Bool
  envelope : Envelope

/-- The id of the message it is of. -/
def Put.messageId (p : Put) : Option Value := p.envelope.messageId

/-- The id that an envelope of the message has. -/
def Message.key (m : Message) : Option Value := some (.str m.messageId)

structure Chat where
  /-- The messages posted, the oldest first. -/
  posted : List Message
  /-- How many there were when the list call was answered, until that is gone through. -/
  answer : Option Nat
  poller : Poller
  /-- All that was put into the queue. -/
  queue : List Put
  /-- How many messages there were at the first poll that did not fail. -/
  first : Option Nat
  /-- How many there were at the last one. -/
  covered : Nat

inductive Chat.Action where
  | post (m : Message)
  /-- The WebSocket delivers a message that was posted. -/
  | deliver (i : Nat)
  | list
  | fail
  | goThrough

/-- What the chat was before the listener's start. -/
def Chat.start (before : List Message) : Chat where
  posted := before
  answer := none
  poller := ⟨[], true⟩
  queue := []
  first := none
  covered := 0

/-- The messages of a chat have different ids. -/
structure WellFormed (posted : List Message) : Prop where
  nonEmpty : ∀ m ∈ posted, m.messageId ≠ ""
  distinct : (posted.map Message.messageId).Nodup

section
variable (py : Py) (a : Adapter) (chatId : String) (ids : Sender → PolledId)

/-- The pass of the poller over the list that was answered when `n` messages were there. -/
def Chat.pass (s : Chat) (n : Nat) : Poller × List Envelope :=
  pollOnce py a chatId s.poller ((newest (s.posted.take n)).map (Message.polled ids))

def Chat.step (s : Chat) : Action → Option Chat
  | .post m =>
    if m.messageId ≠ "" ∧ m.messageId ∉ s.posted.map Message.messageId ∧ m.chatId = chatId then
      some { s with posted := s.posted ++ [m] }
    else none
  | .deliver i => (s.posted[i]?).map fun m =>
      { s with queue := s.queue ++ (handleReceive py a m.event).toList.map (Put.mk false) }
  | .list => if s.answer = none then some { s with answer := some s.posted.length } else none
  | .fail => if s.answer = none then some s else none
  | .goThrough => s.answer.map fun n =>
      { s with
        answer := none
        poller := (s.pass py a chatId ids n).1
        queue := s.queue ++ (s.pass py a chatId ids n).2.map (Put.mk true)
        first := s.first.or (some n)
        covered := n }

end

/-- The message is in the queue. -/
def Chat.OnQueue (s : Chat) (m : Message) : Prop :=
  m.key ∈ s.queue.map Put.messageId

/-- No message is in the queue twice; all that were posted between the first poll and the
last one are there; the poller has put none there that was posted before the start, and
its messages are there in the order of posting. -/
structure Chat.EmitsOnce (before : List Message) (s : Chat) : Prop where
  once : (s.queue.map Put.messageId).Nodup
  atLeastOnce : ∀ k, s.first = some k → ∀ m ∈ (s.posted.take s.covered).drop k, s.OnQueue m
  notBefore : ∀ p ∈ s.queue, p.polled = true → ∀ m ∈ before, p.messageId ≠ m.key
  inOrder : List.Sublist ((s.queue.filter Put.polled).map Put.messageId)
    (s.posted.map Message.key)

section
variable (py : Py) (a : Adapter) (chatId : String) (ids : Sender → PolledId)

/-- What a pass takes to be right. -/
structure Chat.PassOk (s : Chat) (n : Nat) : Prop where
  /-- The WebSocket has delivered none of the messages that are new to the poller. -/
  apart : s.poller.bootstrap = false → ∀ m ∈ newest (s.posted.take n),
    m.messageId ∉ s.poller.seen → ¬s.OnQueue m
  /-- Each of them can be turned into an envelope. -/
  readable : s.poller.bootstrap = false → ∀ m ∈ newest (s.posted.take n),
    m.messageId ∉ s.poller.seen → messageToEnvelope py a (m.polled ids) chatId ≠ none
  /-- What was posted since the last list fits on the page, or has been delivered. -/
  page : s.poller.bootstrap = false → ∀ m ∈ (s.posted.take n).drop s.covered,
    m ∈ newest (s.posted.take n) ∨ s.OnQueue m
  /-- The list that is taken for the history is the first one, or has been delivered. -/
  history : s.poller.bootstrap = true → s.first ≠ none → ∀ m ∈ s.posted.take n, s.OnQueue m

/-- What a step takes to be right. -/
def Chat.Meets (s : Chat) : Action → Prop
  | .deliver i => ∀ m, s.posted[i]? = some m → ¬s.OnQueue m
  | .goThrough => ∀ n, s.answer = some n → s.PassOk py a chatId ids n
  | _ => True

end

/-! ## The page -/

section
variable {posted : List Message} {m : Message}

theorem newest_eq (posted : List Message) :
    newest posted = (posted.drop (posted.length - pageSize)).reverse := by
  rw [newest, List.take_reverse]

theorem mem_newest : m ∈ newest posted ↔ m ∈ posted.drop (posted.length - pageSize) := by
  rw [newest_eq, List.mem_reverse]

theorem mem_of_mem_newest (h : m ∈ newest posted) : m ∈ posted :=
  List.mem_of_mem_drop (mem_newest.mp h)

theorem collect_polled {ids : Sender → PolledId} {ms : List Message} {seen : List String}
    (h : WellFormed ms) : (collect false seen (ms.map (Message.polled ids))).2 =
      (ms.filter fun m => m.messageId ∉ seen).map (Message.polled ids) := by
  induction ms generalizing seen with
  | nil => rfl
  | cons m ms ih =>
    have htail : WellFormed ms := ⟨fun m' hm' => h.nonEmpty m' (List.mem_cons_of_mem _ hm'),
      (List.nodup_cons.mp h.distinct).2⟩
    have hne : m.messageId ≠ "" := h.nonEmpty m List.mem_cons_self
    have hstep : collect false seen ((m :: ms).map (Message.polled ids)) =
        if m.messageId ∈ seen then collect false seen (ms.map (Message.polled ids))
        else ((collect false (m.messageId :: seen) (ms.map (Message.polled ids))).1,
          m.polled ids :: (collect false (m.messageId :: seen) (ms.map (Message.polled ids))).2) := by
      rw [List.map_cons, collect]
      split
      · rename_i hid
        cases hid
      · rename_i hid
        exact absurd (Option.some.inj hid) hne
      · rename_i mid _ hid
        obtain rfl : m.messageId = mid := Option.some.inj hid
        rfl
    rw [hstep]
    by_cases hseen : m.messageId ∈ seen
    · rw [if_pos hseen, ih htail, List.filter_cons_of_neg (by simpa using hseen)]
    · have hother : ms.filter (fun m' => m'.messageId ∉ m.messageId :: seen) =
          ms.filter fun m' => m'.messageId ∉ seen := by
        refine List.filter_congr fun m' hm' => ?_
        have hdiff : m'.messageId ≠ m.messageId := by
          intro heq
          exact (List.nodup_cons.mp h.distinct).1 (heq ▸ List.mem_map_of_mem hm')
        simp [hdiff]
      rw [if_neg hseen, ih htail, hother, List.filter_cons_of_pos (by simpa using hseen),
        List.map_cons]

theorem ids_enqueue {py : Py} {a : Adapter} {chatId : String} {fresh : List Polled}
    (h : ∀ m ∈ fresh, messageToEnvelope py a m chatId ≠ none) :
    (enqueue py a chatId fresh).1.map Envelope.messageId =
      fresh.map fun m => some (attrOr m.messageId) := by
  induction fresh with
  | nil => rfl
  | cons m fresh ih =>
    obtain ⟨envelope, he⟩ := Option.ne_none_iff_exists'.mp (h m List.mem_cons_self)
    rw [enqueue, he, List.map_cons, List.map_cons, messageId_of_messageToEnvelope he,
      ih fun m' hm' => h m' (List.mem_cons_of_mem _ hm')]

theorem WellFormed.sublist {ms : List Message} (h : WellFormed posted) (hsub : ms.Sublist posted) :
    WellFormed ms :=
  ⟨fun m hm => h.nonEmpty m (hsub.subset hm), h.distinct.sublist (hsub.map _)⟩

theorem WellFormed.key_inj {m' : Message} (h : WellFormed posted) (hm : m ∈ posted)
    (hm' : m' ∈ posted) (heq : m.key = m'.key) : m = m' := by
  have hids : m.messageId = m'.messageId := Value.str.inj (Option.some.inj heq)
  exact List.inj_on_of_nodup_map h.distinct hm hm' hids

theorem WellFormed.notMem_drop {n : Nat} (h : WellFormed posted) (hm : m ∈ posted.drop n) :
    m.messageId ∉ (posted.take n).map Message.messageId := by
  intro hmem
  have hnodup := h.distinct
  rw [← List.take_append_drop n posted, List.map_append] at hnodup
  exact (List.nodup_append'.mp hnodup).2.2 hmem (List.mem_map_of_mem hm)

end

/-! ## One pass -/

/-- The messages of the page that are new to the poller, the oldest first. -/
def Chat.fresh (s : Chat) (n : Nat) : List Message :=
  ((s.posted.take n).drop ((s.posted.take n).length - pageSize)).filter fun m =>
    m.messageId ∉ s.poller.seen

section
variable {py : Py} {a : Adapter} {chatId : String} {ids : Sender → PolledId}
variable {s s' : Chat} {n : Nat} {m : Message} {before : List Message}

theorem mem_fresh : m ∈ s.fresh n ↔
    m ∈ newest (s.posted.take n) ∧ m.messageId ∉ s.poller.seen := by
  rw [Chat.fresh, List.mem_filter, mem_newest, decide_eq_true_eq]

theorem mem_seen_pass {mid : String} (h : WellFormed s.posted) :
    mid ∈ (s.pass py a chatId ids n).1.seen ↔
      mid ∈ s.poller.seen ∨ mid ∈ (newest (s.posted.take n)).map Message.messageId := by
  rw [Chat.pass]
  cases hpage : newest (s.posted.take n) with
  | nil => simp [pollOnce]
  | cons m rest =>
    have hne : ∀ m' ∈ m :: rest, m'.messageId ≠ "" := by
      intro m' hm'
      have hin : m' ∈ newest (s.posted.take n) := hpage ▸ hm'
      exact h.nonEmpty m' (List.mem_of_mem_take (mem_of_mem_newest hin))
    change mid ∈ (collect s.poller.bootstrap s.poller.seen
      ((m :: rest).map (Message.polled ids))).1 ↔ _
    rw [mem_collect_seen]
    refine or_congr_right ⟨?_, ?_⟩
    · rintro ⟨-, item, hitem, hid⟩
      obtain ⟨m', hm', rfl⟩ := List.mem_map.mp hitem
      exact List.mem_map.mpr ⟨m', hm', Option.some.inj hid⟩
    · intro hmid
      obtain ⟨m', hm', rfl⟩ := List.mem_map.mp hmid
      exact ⟨hne m' hm', _, List.mem_map_of_mem hm', rfl⟩

theorem pass_of_bootstrap (h : s.poller.bootstrap = true) :
    (s.pass py a chatId ids n).2 = [] ∧
      ((s.pass py a chatId ids n).1.bootstrap = true ↔ newest (s.posted.take n) = []) := by
  rw [Chat.pass]
  cases hpage : newest (s.posted.take n) with
  | nil => exact ⟨rfl, iff_of_true h rfl⟩
  | cons m rest =>
    rw [List.map_cons]
    simp only [pollOnce]
    rw [h, fresh_bootstrap]
    simp [enqueue]

theorem pass_of_not_bootstrap (hw : WellFormed s.posted) (h : s.poller.bootstrap = false) :
    (s.pass py a chatId ids n).2 =
        (enqueue py a chatId ((s.fresh n).map (Message.polled ids))).1 ∧
      (s.pass py a chatId ids n).1.bootstrap = false := by
  have hpageEq : newest (s.posted.take n) =
      ((s.posted.take n).drop ((s.posted.take n).length - pageSize)).reverse := newest_eq _
  rw [Chat.pass, Chat.fresh]
  cases hpage : newest (s.posted.take n) with
  | nil =>
    have hnil : (s.posted.take n).drop ((s.posted.take n).length - pageSize) = [] :=
      List.reverse_eq_nil_iff.mp (hpageEq.symm.trans hpage)
    rw [hnil]
    exact ⟨rfl, h⟩
  | cons m rest =>
    have hwPage : WellFormed (m :: rest) := by
      rw [← hpage]
      refine ⟨fun m' hm' => hw.nonEmpty m' (List.mem_of_mem_take (mem_of_mem_newest hm')), ?_⟩
      rw [hpageEq, List.map_reverse, List.nodup_reverse]
      exact hw.distinct.sublist (((List.drop_sublist _ _).trans (List.take_sublist _ _)).map _)
    have hcollect : (collect false s.poller.seen ((m :: rest).map (Message.polled ids))).2 = _ :=
      collect_polled hwPage
    have hfresh : ((m :: rest).filter fun m => m.messageId ∉ s.poller.seen).reverse =
        ((s.posted.take n).drop ((s.posted.take n).length - pageSize)).filter fun m =>
          m.messageId ∉ s.poller.seen := by
      rw [← hpage, hpageEq, List.filter_reverse, List.reverse_reverse]
    rw [List.map_cons] at hcollect ⊢
    simp only [pollOnce]
    rw [h, hcollect, ← List.map_reverse, hfresh]
    exact ⟨rfl, Bool.false_and _⟩

theorem keys_pass (hw : WellFormed s.posted) (h : s.poller.bootstrap = false) :
    (s.pass py a chatId ids n).2.map Envelope.messageId <+: (s.fresh n).map Message.key := by
  obtain ⟨sent, hsent, hall⟩ := @exists_sent py a chatId
    ((s.fresh n).map (Message.polled ids))
  have hkeys : (s.fresh n).map Message.key =
      ((s.fresh n).map (Message.polled ids)).map fun m => some (attrOr m.messageId) := by
    rw [List.map_map]
    rfl
  rw [(pass_of_not_bootstrap hw h).1, ids_of_forall₂ hall, hkeys]
  exact hsent.map _

end

/-! ## Every run -/

/-- What holds in every state, whatever the steps were. -/
structure Chat.Inv (before : List Message) (s : Chat) : Prop where
  wellFormed : WellFormed s.posted
  started : before <+: s.posted
  covered_le : s.covered ≤ s.posted.length
  answer : ∀ n, s.answer = some n → s.covered ≤ n ∧ n ≤ s.posted.length ∧ before.length ≤ n
  /-- The poller has seen the page of the last list, and nothing posted after it. -/
  seenPage : ∀ m ∈ newest (s.posted.take s.covered), m.messageId ∈ s.poller.seen
  seenPosted : ∀ mid ∈ s.poller.seen, mid ∈ (s.posted.take s.covered).map Message.messageId
  bootstrap : s.poller.bootstrap = true ↔ s.covered = 0
  first_none : s.first = none → s.covered = 0
  first_some : ∀ k, s.first = some k → k ≤ s.covered ∧ before.length ≤ k
  inOrder : List.Sublist ((s.queue.filter Put.polled).map Put.messageId)
    (((s.posted.take s.covered).drop before.length).map Message.key)

section
variable {py : Py} {a : Adapter} {chatId : String} {ids : Sender → PolledId}
variable {s s' : Chat} {n : Nat} {m : Message} {before : List Message}

theorem Chat.inv_start (h : WellFormed before) : (Chat.start before).Inv before where
  wellFormed := h
  started := List.prefix_refl _
  covered_le := Nat.zero_le _
  answer := by
    intro n hn
    cases hn
  seenPage := by
    intro m hm
    have hmem := mem_of_mem_newest hm
    rw [Chat.start, List.take_zero] at hmem
    cases hmem
  seenPosted := by
    intro mid hmid
    cases hmid
  bootstrap := iff_of_true rfl rfl
  first_none := fun _ => rfl
  first_some := by
    intro k hk
    cases hk
  inOrder := List.nil_sublist _

theorem Chat.Inv.take_take (h : s.Inv before) (hn : s.answer = some n) :
    (s.posted.take n).take s.covered = s.posted.take s.covered := by
  rw [List.take_take, Nat.min_eq_left (h.answer n hn).1]

theorem Chat.Inv.drop_eq (h : s.Inv before) (hn : s.answer = some n) {k : Nat}
    (hk : k ≤ s.covered) : (s.posted.take s.covered).drop k ++ (s.posted.take n).drop s.covered =
      (s.posted.take n).drop k := by
  have hlen : k ≤ (s.posted.take s.covered).length := by
    rw [List.length_take]
    exact le_min hk (hk.trans h.covered_le)
  rw [← List.drop_append_of_le_length hlen, ← h.take_take hn, List.take_append_drop]

/-- What is fresh was posted after the list before.  The part of the page that was there then
is a part of the page of then, and so it is seen. -/
theorem Chat.Inv.fresh_sublist (h : s.Inv before) (hn : s.answer = some n) :
    (s.fresh n).Sublist ((s.posted.take n).drop s.covered) := by
  obtain ⟨hcovered, hle, -⟩ := h.answer n hn
  have hlen : (s.posted.take n).length = n := List.length_take_of_le hle
  rw [Chat.fresh, hlen]
  by_cases hpage : s.covered ≤ n - pageSize
  · exact List.filter_sublist.trans (List.drop_sublist_drop_left _ hpage)
  · have hsplit : (s.posted.take n).drop (n - pageSize) =
        (s.posted.take s.covered).drop (n - pageSize) ++ (s.posted.take n).drop s.covered := by
      have hinside : n - pageSize ≤ (s.posted.take s.covered).length := by
        rw [List.length_take]
        omega
      rw [← List.drop_append_of_le_length hinside, ← h.take_take hn, List.take_append_drop]
    have hseen : ((s.posted.take s.covered).drop (n - pageSize)).filter
        (fun m => m.messageId ∉ s.poller.seen) = [] := by
      refine List.filter_eq_nil_iff.mpr fun m hm => ?_
      have hin : m ∈ newest (s.posted.take s.covered) := by
        refine mem_newest.mpr ((List.drop_sublist_drop_left _ ?_).subset hm)
        rw [List.length_take]
        omega
      simpa using h.seenPage m hin
    rw [hsplit, List.filter_append, hseen, List.nil_append]
    exact List.filter_sublist

theorem Chat.Inv.not_seen (h : s.Inv before) (hn : s.answer = some n)
    (hm : m ∈ (s.posted.take n).drop s.covered) : m.messageId ∉ s.poller.seen := by
  intro hseen
  have hwell : WellFormed (s.posted.take n) := h.wellFormed.sublist (List.take_sublist _ _)
  refine hwell.notMem_drop hm ?_
  rw [h.take_take hn]
  exact h.seenPosted _ hseen

theorem newest_take_eq_nil (hn : n ≤ s.posted.length) : newest (s.posted.take n) = [] ↔ n = 0 := by
  have hlen : (newest (s.posted.take n)).length = min pageSize n := by
    rw [newest, List.length_take, List.length_reverse, List.length_take_of_le hn]
  rw [← List.length_eq_zero_iff, hlen, pageSize]
  omega

theorem polled_append (es : List Envelope) :
    ((s.queue ++ es.map (Put.mk true)).filter Put.polled).map Put.messageId =
      (s.queue.filter Put.polled).map Put.messageId ++ es.map Envelope.messageId := by
  have hall : (es.map (Put.mk true)).filter Put.polled = es.map (Put.mk true) := by
    refine List.filter_eq_self.mpr fun p hp => ?_
    obtain ⟨e, -, rfl⟩ := List.mem_map.mp hp
    rfl
  rw [List.filter_append, hall, List.map_append, List.map_map]
  rfl

theorem Chat.Inv.pass (h : s.Inv before) (hn : s.answer = some n) :
    Chat.Inv before { s with
      answer := none
      poller := (s.pass py a chatId ids n).1
      queue := s.queue ++ (s.pass py a chatId ids n).2.map (Put.mk true)
      first := s.first.or (some n)
      covered := n } := by
  obtain ⟨hcovered, hle, hbefore⟩ := h.answer n hn
  exact {
    wellFormed := h.wellFormed
    started := h.started
    covered_le := hle
    answer := by
      intro k hk
      cases hk
    seenPage := by
      intro m hm
      exact (mem_seen_pass h.wellFormed).mpr (.inr (List.mem_map_of_mem hm))
    seenPosted := by
      intro mid hmid
      rcases (mem_seen_pass h.wellFormed).mp hmid with hold | hpage
      · have hsub : (s.posted.take s.covered).Sublist (s.posted.take n) :=
          List.take_sublist_take_left hcovered
        exact (hsub.map _).subset (h.seenPosted mid hold)
      · obtain ⟨m, hm, rfl⟩ := List.mem_map.mp hpage
        exact List.mem_map_of_mem (mem_of_mem_newest hm)
    bootstrap := by
      cases hboot : s.poller.bootstrap with
      | true => exact (pass_of_bootstrap hboot).2.trans (newest_take_eq_nil hle)
      | false =>
        have hpos : s.covered ≠ 0 := by
          intro hzero
          cases hboot.symm.trans (h.bootstrap.mpr hzero)
        have hstays : (s.pass py a chatId ids n).1.bootstrap = false :=
          (pass_of_not_bootstrap h.wellFormed hboot).2
        have hn0 : n ≠ 0 := by omega
        refine iff_of_false ?_ hn0
        rw [hstays]
        exact Bool.false_ne_true
    first_none := by
      intro hfirst
      cases hs : s.first <;> simp [hs] at hfirst
    first_some := by
      intro k hk
      cases hs : s.first with
      | none =>
        rw [hs] at hk
        obtain rfl : n = k := Option.some.inj hk
        exact ⟨Nat.le_refl _, hbefore⟩
      | some k' =>
        rw [hs] at hk
        obtain rfl : k' = k := Option.some.inj hk
        obtain ⟨hk', hb⟩ := h.first_some k' hs
        exact ⟨hk'.trans hcovered, hb⟩
    inOrder := by
      rw [polled_append]
      cases hboot : s.poller.bootstrap with
      | true =>
        rw [(pass_of_bootstrap hboot).1, List.map_nil, List.append_nil]
        refine h.inOrder.trans (List.Sublist.map _ (List.Sublist.drop ?_ _))
        exact List.take_sublist_take_left hcovered
      | false =>
        -- There was a list already, so the start is not behind it.
        have hstart : before.length ≤ s.covered := by
          cases hs : s.first with
          | none => cases hboot.symm.trans (h.bootstrap.mpr (h.first_none hs))
          | some k =>
            obtain ⟨hk, hb⟩ := h.first_some k hs
            exact hb.trans hk
        have hnew : List.Sublist ((s.pass py a chatId ids n).2.map Envelope.messageId)
            (((s.posted.take n).drop s.covered).map Message.key) :=
          (keys_pass h.wellFormed hboot).sublist.trans ((h.fresh_sublist hn).map _)
        have hboth := h.inOrder.append hnew
        rw [← List.map_append, h.drop_eq hn hstart] at hboth
        exact hboth }

theorem Chat.Inv.post (h : s.Inv before) (hne : m.messageId ≠ "")
    (hnew : m.messageId ∉ s.posted.map Message.messageId) :
    Chat.Inv before { s with posted := s.posted ++ [m] } := by
  have htake : (s.posted ++ [m]).take s.covered = s.posted.take s.covered :=
    List.take_append_of_le_length h.covered_le
  have hlen : (s.posted ++ [m]).length = s.posted.length + 1 := List.length_append
  refine ⟨?_, h.started.trans (List.prefix_append _ _), ?_, ?_, ?_, ?_, h.bootstrap, h.first_none,
    h.first_some, ?_⟩
  · refine ⟨fun m' hm' => ?_, ?_⟩
    · rcases List.mem_append.mp hm' with hold | hlast
      · exact h.wellFormed.nonEmpty m' hold
      · rw [List.mem_singleton] at hlast
        rwa [hlast]
    · rw [List.map_append]
      exact h.wellFormed.distinct.append (List.nodup_singleton _)
        (List.disjoint_singleton.mpr hnew)
  · rw [hlen]
    exact Nat.le_succ_of_le h.covered_le
  · intro n hn
    obtain ⟨hcovered, hle, hb⟩ := h.answer n hn
    rw [hlen]
    exact ⟨hcovered, Nat.le_succ_of_le hle, hb⟩
  · rw [htake]
    exact h.seenPage
  · rw [htake]
    exact h.seenPosted
  · rw [htake]
    exact h.inOrder

theorem Chat.Inv.deliver (h : s.Inv before) (es : List Envelope) :
    Chat.Inv before { s with queue := s.queue ++ es.map (Put.mk false) } := by
  have hnone : (es.map (Put.mk false)).filter Put.polled = [] := by
    refine List.filter_eq_nil_iff.mpr fun p hp => ?_
    obtain ⟨e, -, rfl⟩ := List.mem_map.mp hp
    exact Bool.false_ne_true
  refine ⟨h.wellFormed, h.started, h.covered_le, h.answer, h.seenPage, h.seenPosted, h.bootstrap,
    h.first_none, h.first_some, ?_⟩
  rw [List.filter_append, hnone, List.append_nil]
  exact h.inOrder

theorem Chat.Inv.list (h : s.Inv before) :
    Chat.Inv before { s with answer := some s.posted.length } := by
  refine ⟨h.wellFormed, h.started, h.covered_le, ?_, h.seenPage, h.seenPosted, h.bootstrap,
    h.first_none, h.first_some, h.inOrder⟩
  intro n hn
  obtain rfl : s.posted.length = n := Option.some.inj hn
  exact ⟨h.covered_le, Nat.le_refl _, h.started.length_le⟩

theorem Chat.step_cases {act : Chat.Action} (hs : s.step py a chatId ids act = some s') :
    (∃ m, act = .post m ∧ m.messageId ≠ "" ∧ m.messageId ∉ s.posted.map Message.messageId ∧
      s' = { s with posted := s.posted ++ [m] }) ∨
    (∃ i m, act = .deliver i ∧ s.posted[i]? = some m ∧
      s' = { s with queue := s.queue ++ (handleReceive py a m.event).toList.map (Put.mk false) }) ∨
    (act = .list ∧ s' = { s with answer := some s.posted.length }) ∨
    (act = .fail ∧ s' = s) ∨
    ∃ n, act = .goThrough ∧ s.answer = some n ∧
      s' = { s with
        answer := none
        poller := (s.pass py a chatId ids n).1
        queue := s.queue ++ (s.pass py a chatId ids n).2.map (Put.mk true)
        first := s.first.or (some n)
        covered := n } := by
  cases act with
  | post m =>
    rw [Chat.step] at hs
    split at hs
    · rename_i hcond
      exact .inl ⟨m, rfl, hcond.1, hcond.2.1, (Option.some.inj hs).symm⟩
    · cases hs
  | deliver i =>
    obtain ⟨m, hm, rfl⟩ := Option.map_eq_some_iff.mp hs
    exact .inr (.inl ⟨i, m, rfl, hm, rfl⟩)
  | list =>
    rw [Chat.step] at hs
    split at hs
    · exact .inr (.inr (.inl ⟨rfl, (Option.some.inj hs).symm⟩))
    · cases hs
  | fail =>
    rw [Chat.step] at hs
    split at hs
    · exact .inr (.inr (.inr (.inl ⟨rfl, (Option.some.inj hs).symm⟩)))
    · cases hs
  | goThrough =>
    obtain ⟨n, hn, rfl⟩ := Option.map_eq_some_iff.mp hs
    exact .inr (.inr (.inr (.inr ⟨n, rfl, hn, rfl⟩)))

theorem Chat.Inv.step {act : Chat.Action} (h : s.Inv before)
    (hs : s.step py a chatId ids act = some s') : s'.Inv before := by
  obtain ⟨m, -, hne, hnew, rfl⟩ | ⟨i, m, -, -, rfl⟩ | ⟨-, rfl⟩ | ⟨-, rfl⟩ | ⟨n, -, hn, rfl⟩ :=
    Chat.step_cases hs
  · exact h.post hne hnew
  · exact h.deliver _
  · exact h.list
  · exact h
  · exact h.pass hn

theorem Chat.Inv.keys_inOrder (h : s.Inv before) :
    List.Sublist ((s.queue.filter Put.polled).map Put.messageId) (s.posted.map Message.key) :=
  h.inOrder.trans (((List.drop_sublist _ _).trans (List.take_sublist _ _)).map _)

theorem Chat.Inv.notBefore (h : s.Inv before) : ∀ p ∈ s.queue, p.polled = true →
    ∀ m ∈ before, p.messageId ≠ m.key := by
  intro p hp hpolled m hm heq
  have hin := h.inOrder.subset (List.mem_map_of_mem (List.mem_filter.mpr ⟨hp, hpolled⟩))
  obtain ⟨m', hm', hkey⟩ := List.mem_map.mp hin
  have hpast : m' ∈ s.posted.drop before.length :=
    ((List.take_sublist _ _).drop _).subset hm'
  have hmem : m ∈ s.posted.take before.length := by
    rw [← List.prefix_iff_eq_take.mp h.started]
    exact hm
  obtain rfl : m' = m := h.wellFormed.key_inj (List.mem_of_mem_drop hpast)
    (List.mem_of_mem_take hmem) (hkey.trans heq)
  exact h.wellFormed.notMem_drop hpast (List.mem_map_of_mem hmem)

end

/-! ## Once each -/

section
variable {py : Py} {a : Adapter} {chatId : String} {ids : Sender → PolledId}
variable {s s' : Chat} {n : Nat} {m : Message} {before : List Message}

theorem messageId_of_handleReceive {e : Envelope} (h : handleReceive py a m.event = some e) :
    e.messageId = m.key := by
  rw [handleReceive_event] at h
  obtain ⟨content, -, rfl⟩ := Option.map_eq_some_iff.mp h
  rfl

theorem Chat.OnQueue.append (h : s.OnQueue m) (ps : List Put) :
    Chat.OnQueue { s with queue := s.queue ++ ps } m := by
  rw [Chat.OnQueue, List.map_append]
  exact List.mem_append_left _ h

theorem once_deliver (hm : ¬s.OnQueue m) (honce : (s.queue.map Put.messageId).Nodup) :
    ((s.queue ++ (handleReceive py a m.event).toList.map (Put.mk false)).map
      Put.messageId).Nodup := by
  cases he : handleReceive py a m.event with
  | none =>
    rw [Option.toList_none, List.map_nil, List.append_nil]
    exact honce
  | some e =>
    have hkey : (Put.mk false e).messageId = m.key := messageId_of_handleReceive he
    rw [Option.toList_some, List.map_singleton, List.map_append, List.map_singleton, hkey]
    exact honce.append (List.nodup_singleton _) (List.disjoint_singleton.mpr hm)

theorem keys_append (es : List Envelope) :
    (s.queue ++ es.map (Put.mk true)).map Put.messageId =
      s.queue.map Put.messageId ++ es.map Envelope.messageId := by
  rw [List.map_append, List.map_map]
  rfl

theorem once_pass (h : s.Inv before) (hn : s.answer = some n)
    (hok : s.PassOk py a chatId ids n) (honce : (s.queue.map Put.messageId).Nodup) :
    ((s.queue ++ (s.pass py a chatId ids n).2.map (Put.mk true)).map Put.messageId).Nodup := by
  rw [keys_append]
  cases hboot : s.poller.bootstrap with
  | true =>
    rw [(pass_of_bootstrap hboot).1, List.map_nil, List.append_nil]
    exact honce
  | false =>
    have hkeys := @keys_pass py a chatId ids s n h.wellFormed hboot
    have hfresh : WellFormed (s.fresh n) := h.wellFormed.sublist
      ((h.fresh_sublist hn).trans ((List.drop_sublist _ _).trans (List.take_sublist _ _)))
    have hnodup : ((s.fresh n).map Message.key).Nodup := by
      refine List.Nodup.map_on ?_ hfresh.distinct.of_map
      exact fun m hm m' hm' heq => hfresh.key_inj hm hm' heq
    refine honce.append (hnodup.sublist hkeys.sublist) fun key hold hnew => ?_
    obtain ⟨m, hm, rfl⟩ := List.mem_map.mp (hkeys.subset hnew)
    obtain ⟨hpage, hunseen⟩ := mem_fresh.mp hm
    exact hok.apart hboot m hpage hunseen hold

theorem atLeastOnce_pass (h : s.Inv before) (hn : s.answer = some n)
    (hok : s.PassOk py a chatId ids n)
    (hall : ∀ k, s.first = some k → ∀ m ∈ (s.posted.take s.covered).drop k, s.OnQueue m) {k : Nat}
    (hk : s.first.or (some n) = some k) (hm : m ∈ (s.posted.take n).drop k) :
    m.key ∈ s.queue.map Put.messageId ++ (s.pass py a chatId ids n).2.map Envelope.messageId := by
  cases hfirst : s.first with
  | none =>
    -- This is the first poll, and nothing was posted after it.
    rw [hfirst] at hk
    obtain rfl : n = k := Option.some.inj hk
    have hnil : (s.posted.take n).drop n = [] := by
      rw [List.drop_eq_nil_iff, List.length_take]
      exact Nat.min_le_left _ _
    rw [hnil] at hm
    cases hm
  | some k' =>
    rw [hfirst] at hk
    obtain rfl : k' = k := Option.some.inj hk
    cases hboot : s.poller.bootstrap with
    | true =>
      have hne : s.first ≠ none := by
        rw [hfirst]
        exact Option.some_ne_none _
      exact List.mem_append_left _ (hok.history hboot hne m (List.mem_of_mem_drop hm))
    | false =>
      rw [← h.drop_eq hn (h.first_some k' hfirst).1] at hm
      rcases List.mem_append.mp hm with hold | hnew
      · exact List.mem_append_left _ (hall k' hfirst m hold)
      · rcases hok.page hboot m hnew with hpage | hqueue
        · have hfresh : m ∈ s.fresh n := mem_fresh.mpr ⟨hpage, h.not_seen hn hnew⟩
          have hread : ∀ item ∈ (s.fresh n).map (Message.polled ids),
              messageToEnvelope py a item chatId ≠ none := by
            intro item hitem
            obtain ⟨m', hm', rfl⟩ := List.mem_map.mp hitem
            obtain ⟨hpage', hunseen'⟩ := mem_fresh.mp hm'
            exact hok.readable hboot m' hpage' hunseen'
          refine List.mem_append_right _ ?_
          rw [(pass_of_not_bootstrap h.wellFormed hboot).1, ids_enqueue hread, List.map_map]
          exact List.mem_map.mpr ⟨m, hfresh, rfl⟩
        · exact List.mem_append_left _ hqueue

theorem Chat.EmitsOnce.step {act : Chat.Action} (hinv : s.Inv before) (h : s.EmitsOnce before)
    (hok : s.Meets py a chatId ids act) (hs : s.step py a chatId ids act = some s') :
    s'.EmitsOnce before := by
  have hinv' : s'.Inv before := hinv.step hs
  obtain ⟨m, rfl, hne, hnew, rfl⟩ | ⟨i, m, rfl, hm, rfl⟩ | ⟨rfl, rfl⟩ | ⟨rfl, rfl⟩ |
    ⟨n, rfl, hn, rfl⟩ := Chat.step_cases hs
  · refine ⟨h.once, ?_, hinv'.notBefore, hinv'.keys_inOrder⟩
    have htake : (s.posted ++ [m]).take s.covered = s.posted.take s.covered :=
      List.take_append_of_le_length hinv.covered_le
    intro k hk m' hm'
    rw [htake] at hm'
    exact h.atLeastOnce k hk m' hm'
  · refine ⟨once_deliver (hok m hm) h.once, ?_, hinv'.notBefore, hinv'.keys_inOrder⟩
    exact fun k hk m' hm' => (h.atLeastOnce k hk m' hm').append _
  · exact ⟨h.once, h.atLeastOnce, hinv'.notBefore, hinv'.keys_inOrder⟩
  · exact h
  · refine ⟨once_pass hinv hn (hok n hn) h.once, ?_, hinv'.notBefore, hinv'.keys_inOrder⟩
    intro k hk m hm
    rw [Chat.OnQueue, keys_append]
    exact atLeastOnce_pass hinv hn (hok n hn) h.atLeastOnce hk hm

/-- **In every run whose steps all meet the conditions each message is there once.** -/
theorem emitsOnce_of_meets (py : Py) (a : Adapter) (chatId : String) (ids : Sender → PolledId)
    (before : List Message) (hb : WellFormed before) (s : Chat)
    (hr : Reaches (Chat.step py a chatId ids) (Chat.Meets py a chatId ids) (Chat.start before) s) :
    s.EmitsOnce before := by
  have hinv := Chat.inv_start hb
  have hstart : (Chat.start before).EmitsOnce before := by
    refine ⟨List.nodup_nil, ?_, hinv.notBefore, hinv.keys_inOrder⟩
    intro k hk
    cases hk
  have hboth : s.Inv before ∧ s.EmitsOnce before := by
    refine @Reaches.invariant _ _ _ _ _ _ (fun t => t.Inv before ∧ t.EmitsOnce before) hr ?_ ?_
    · exact ⟨hinv, hstart⟩
    · intro t act u h hok hs
      exact ⟨h.1.step hs, h.2.step h.1 hok hs⟩
  exact hboth.2

end

/-! ### One message of a bot, and one of a user -/

/-- `json.loads` of texts that are no JSON. -/
def noJson : Py where
  loads _ := .error .decode
  str _ := ""

def hello (messageId : String) : Message where
  messageId := messageId
  chatId := "oc_1"
  msgType := "text"
  content := "hello"
  threadId := none
  rootId := none
  sender := some ⟨some "ou_1", some "user"⟩

theorem messageToEnvelope_hello {messageId : String} :
    messageToEnvelope noJson instance1 ((hello messageId).polled fun s => .object s.openId) "oc_1" ≠
      none := by
  intro h
  cases h

theorem wellFormed_hello : WellFormed [hello "om_1"] := by
  refine ⟨fun m hm => ?_, List.nodup_singleton _⟩
  rw [List.mem_singleton] at hm
  rw [hm]
  decide

section
variable {py : Py} {a : Adapter} {chatId : String} {ids : Sender → PolledId} {s : Chat} {n : Nat}

theorem passOk_first (hboot : s.poller.bootstrap = true) (hfirst : s.first = none) :
    s.PassOk py a chatId ids n where
  apart := fun hno => absurd (hboot.symm.trans hno) Bool.false_ne_true.symm
  readable := fun hno => absurd (hboot.symm.trans hno) Bool.false_ne_true.symm
  page := fun hno => absurd (hboot.symm.trans hno) Bool.false_ne_true.symm
  history := fun _ hne => absurd hfirst hne

theorem passOk_undelivered (hboot : s.poller.bootstrap = false) (hqueue : s.queue = [])
    (hn : n ≤ pageSize)
    (hread : ∀ m ∈ s.posted, messageToEnvelope py a (m.polled ids) chatId ≠ none) :
    s.PassOk py a chatId ids n where
  apart := by
    intro _ m _ _ hm
    rw [Chat.OnQueue, hqueue] at hm
    cases hm
  readable := fun _ m hm _ => hread m (List.mem_of_mem_take (mem_of_mem_newest hm))
  page := by
    intro _ m hm
    have hzero : (s.posted.take n).length - pageSize = 0 := by
      rw [List.length_take]
      omega
    left
    rw [mem_newest, hzero, List.drop_zero]
    exact List.mem_of_mem_drop hm
  history := fun hno => absurd (hboot.symm.trans hno) Bool.false_ne_true

end

/-- The chat after these steps. -/
def chatAfter (before : List Message) (acts : List Chat.Action) : Option Chat :=
  exec (Chat.step noJson instance1 "oc_1" fun s => .object s.openId) anyStep (Chat.start before) acts

/-- A message of a bot is polled. -/
theorem emitsOnce_polled : ∃ s, chatAfter [hello "om_1"]
    [.list, .goThrough, .post (hello "om_2"), .list, .goThrough] = some s ∧
      s.EmitsOnce [hello "om_1"] := by
  refine ⟨_, rfl, emitsOnce_of_meets noJson instance1 "oc_1" (fun s => .object s.openId) _
    wellFormed_hello _ ⟨[.list, .goThrough, .post (hello "om_2"), .list, .goThrough],
      .cons ?_ rfl (.cons ?_ rfl (.cons ?_ rfl (.cons ?_ rfl (.cons ?_ rfl .nil))))⟩⟩
  · exact trivial
  · exact fun n _ => passOk_first rfl rfl
  · exact trivial
  · exact trivial
  · intro n hn
    obtain rfl : 2 = n := Option.some.inj hn
    refine passOk_undelivered rfl rfl (by decide) fun m hm => ?_
    rcases List.mem_cons.mp hm with rfl | hm
    · exact messageToEnvelope_hello
    · rw [List.mem_singleton.mp hm]
      exact messageToEnvelope_hello

/-- A message of a user is delivered and polled. -/
theorem not_emitsOnce_delivered :
    ¬∀ (py : Py) (a : Adapter) (chatId : String) (ids : Sender → PolledId) (before : List Message),
      WellFormed before → ∀ s, Reaches (Chat.step py a chatId ids) anyStep (Chat.start before) s →
        s.EmitsOnce before := by
  intro hall
  have hrun : ∃ s, chatAfter [hello "om_1"] [.list, .goThrough, .post (hello "om_2"), .deliver 1,
      .list, .goThrough] = some s ∧
      s.queue.map Put.messageId = [some (.str "om_2"), some (.str "om_2")] := ⟨_, rfl, rfl⟩
  obtain ⟨s, hs, hqueue⟩ := hrun
  have honce := (hall noJson instance1 "oc_1" _ _ wellFormed_hello s (.of_exec hs)).once
  rw [hqueue] at honce
  exact (List.nodup_cons.mp honce).1 List.mem_cons_self

/-- A message that is posted after an empty list is taken for the history. -/
example : (chatAfter [] [.list, .goThrough, .post (hello "om_1"), .list, .goThrough]).map
    (fun s => s.queue.length) = some 0 := rfl

end FeishuInbound
end Esr
