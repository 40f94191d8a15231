import Esr.CcProcess
import Mathlib.Logic.Function.Basic

/-! # Notifications around a join

A `send_input` becomes a broadcast on the topic of the session, and PubSub delivers it to
the channel processes that are subscribed to the topic at that moment, which push it.  A
channel process subscribes when its join is complete.  `do_join/2` announces it before
that on `cc_mcp_ready/<sid>`, for `Esr.Entity.CCProcess` to push what it has kept; but
that process neither subscribes to the topic nor keeps anything.

The processes take their steps in any order; the actions of one event are dispatched one
after the other.  `Delivered` is what the announcement is for.
-/
namespace Esr
namespace ChannelNotifications
open CcProcess (Term Terms Env Event Emission)

variable {T C : Type}

abbrev Pid := Nat

/-- A notification, with its place in the order of dispatch. -/
structure Notification (T : Type) where
  no : Nat
  topic : String
  envelope : List (String × Term T)

/-- A message for a channel process: a `{:notification, envelope}`, or the end of its
connection. -/
inductive Inbound (T : Type) where
  | notification (m : Notification T)
  | leave

/-- A channel process.  `joinedAt` and `leftAt` say how many notifications had been
dispatched when its join was complete and when its connection ended, and `first` that no
process of its session had joined before. -/
structure Channel (T : Type) where
  sessionId : String
  subscribed : Bool
  mailbox : List (Inbound T)
  pushed : List (Notification T)
  joinedAt : Option Nat
  leftAt : Option Nat
  first : Bool

/-- The topic of a channel. -/
def Channel.topic (c : Channel T) : String := "cli:channel/" ++ c.sessionId

/-- The notifications that a mailbox holds before the end of the connection. -/
def beforeLeave : List (Inbound T) → List (Notification T)
  | .notification m :: rest => m :: beforeLeave rest
  | _ => []

/-- The notifications that a channel process is still to push. -/
def Channel.waiting (c : Channel T) : List (Notification T) := beforeLeave c.mailbox

/-- The CC processes, each with what it is still to dispatch, the channel processes, what
has been dispatched, and the sessions that have been joined. -/
structure Net (T C : Type) where
  ccs : Pid → Option (CcProcess.State T C × List (Emission T))
  channels : Pid → Option (Channel T)
  dispatched : List (Notification T)
  joins : List String

/-- What can happen next. -/
inductive Act (T C : Type) where
  | spawn (i : Pid) (sessionId handlerModule : String) (initialState : C)
      (proxyCtx : Option (Terms T))
  | event (i : Pid) (env : Env T C) (event : Event T)
  | dispatch (i : Pid)
  | connect (p : Pid) (sessionId : String)
  | subscribe (p : Pid)
  | disconnect (p : Pid)
  | handle (p : Pid)

namespace Net

/-- A CC process goes on, or is gone. -/
def setCc (n : Net T C) (i : Pid) (cc : Option (CcProcess.State T C × List (Emission T))) :
    Net T C :=
  { n with ccs := Function.update n.ccs i cc }

/-- A channel process goes on. -/
def setChannel (n : Net T C) (p : Pid) (c : Channel T) : Net T C :=
  { n with channels := Function.update n.channels p (some c) }

/-- `Phoenix.PubSub.broadcast/3`, as a channel process sees it. -/
def deliver (m : Notification T) (c : Channel T) : Channel T :=
  if c.subscribed && c.topic = m.topic then
    { c with mailbox := c.mailbox ++ [.notification m] }
  else c

/-- `broadcast_notification/2`. -/
def broadcast (n : Net T C) (topic : String) (envelope : List (String × Term T)) : Net T C :=
  { n with
    dispatched := n.dispatched ++ [⟨n.dispatched.length, topic, envelope⟩]
    channels := fun p => (n.channels p).map (deliver ⟨n.dispatched.length, topic, envelope⟩) }

/-- `dispatch_actions/2` of a CC process, one action. -/
def dispatch (n : Net T C) (i : Pid) : Option (Net T C) :=
  match n.ccs i with
  | some (s, m :: rest) =>
      let n := n.setCc i (some (s, rest))
      some (match m with
        | .broadcast topic envelope => n.broadcast topic envelope
        | .send _ _ => n)
  | _ => none

/-- The join of a channel process is complete. -/
def subscribe (n : Net T C) (p : Pid) : Option (Net T C) :=
  match n.channels p with
  | some c =>
      if c.joinedAt = none then
        some ({ n with joins := n.joins ++ [c.sessionId] }.setChannel p { c with
          subscribed := true
          joinedAt := some n.dispatched.length
          first := !n.joins.contains c.sessionId })
      else none
  | none => none

/-- The connection of a joined channel process ends. -/
def disconnect (n : Net T C) (p : Pid) : Option (Net T C) :=
  match n.channels p with
  | some c =>
      if c.subscribed && c.leftAt.isNone then
        some (n.setChannel p { c with
          mailbox := c.mailbox ++ [.leave]
          leftAt := some n.dispatched.length })
      else none
  | none => none

/-- `handle_info/2` of a channel process; at the end of its connection it terminates. -/
def handle (n : Net T C) (p : Pid) : Option (Net T C) :=
  match n.channels p with
  | some c =>
      match c.mailbox with
      | [] => none
      | .notification m :: rest =>
          some (n.setChannel p { c with mailbox := rest, pushed := c.pushed ++ [m] })
      | .leave :: _ => some (n.setChannel p { c with mailbox := [], subscribed := false })
  | none => none

end Net

/-- One step.  A CC process that raises is gone; one that gets `cc_mcp_ready`, or any
other message but an event, does nothing. -/
def step (n : Net T C) : Act T C → Option (Net T C)
  | .spawn i sessionId handlerModule initialState proxyCtx =>
      match n.ccs i with
      | none =>
          some (n.setCc i (some (CcProcess.init sessionId handlerModule initialState proxyCtx, [])))
      | some _ => none
  | .event i env event =>
      match n.ccs i with
      | some (s, []) => some (n.setCc i (CcProcess.handleUpstream env event s))
      | _ => none
  | .dispatch i => n.dispatch i
  | .connect p sessionId =>
      match n.channels p with
      | none => some (n.setChannel p ⟨sessionId, false, [], [], none, none, false⟩)
      | some _ => none
  | .subscribe p => n.subscribe p
  | .disconnect p => n.disconnect p
  | .handle p => n.handle p

/-- Before any process has started. -/
def start : Net T C := ⟨fun _ => none, fun _ => none, [], []⟩

/-! ## What is claimed -/

/-- The notification may still be pushed. -/
def MayBePushed (n : Net T C) (p : Pid) (m : Notification T) : Prop :=
  ∃ n' c, Reaches step anyStep n n' ∧ n'.channels p = some c ∧ m ∈ c.pushed

/-- What was dispatched before the first join of its session is pushed after it, what is
dispatched while a process is joined is pushed, and both once and in order. -/
structure Delivered (n : Net T C) : Prop where
  early : ∀ p c a m, n.channels p = some c → c.first = true → c.joinedAt = some a →
    m ∈ n.dispatched → m.topic = c.topic → m.no < a → MayBePushed n p m
  joined : ∀ p c a m, n.channels p = some c → c.joinedAt = some a →
    m ∈ n.dispatched → m.topic = c.topic → a ≤ m.no → (∀ l ∈ c.leftAt, m.no < l) →
      m ∈ c.pushed ++ c.waiting
  ordered : ∀ p c, n.channels p = some c → (c.pushed ++ c.waiting).Pairwise fun m m' => m.no < m'.no

/-- Nothing was dispatched before the first join of its session. -/
def NoneEarly (n : Net T C) : Prop :=
  ∀ p c a m, n.channels p = some c → c.first = true → c.joinedAt = some a →
    m ∈ n.dispatched → m.topic = c.topic → a ≤ m.no

/-! ## What every step keeps -/

/-- What was dispatched on the topic of a channel while it was joined. -/
def share (dispatched : List (Notification T)) (c : Channel T) (a : Nat) : List (Notification T) :=
  ((match c.leftAt with
    | none => dispatched
    | some l => dispatched.take l).drop a).filter fun m => m.topic = c.topic

/-- What a channel process has pushed and is to push is its share. -/
structure ChannelInv (dispatched : List (Notification T)) (c : Channel T) : Prop where
  connecting : c.joinedAt = none →
    c.subscribed = false ∧ c.mailbox = [] ∧ c.pushed = [] ∧ c.leftAt = none
  bounds : ∀ a ∈ c.joinedAt, a ≤ dispatched.length
  left : ∀ l ∈ c.leftAt, l ≤ dispatched.length ∧ (c.subscribed = true → .leave ∈ c.mailbox)
  here : c.joinedAt.isSome = true → c.leftAt = none → c.subscribed = true ∧ .leave ∉ c.mailbox
  owed : ∀ a ∈ c.joinedAt, c.pushed ++ c.waiting = share dispatched c a

/-- The notifications have their numbers, and every channel process its share. -/
structure Inv (n : Net T C) : Prop where
  numbered : n.dispatched.map Notification.no = List.range n.dispatched.length
  channels : ∀ p c, n.channels p = some c → ChannelInv n.dispatched c

variable {n n' : Net T C} {p : Pid} {c : Channel T} {m : Notification T}

theorem beforeLeave_append_of_leave {mailbox more : List (Inbound T)}
    (h : Inbound.leave ∈ mailbox) : beforeLeave (mailbox ++ more) = beforeLeave mailbox := by
  induction mailbox with
  | nil => cases h
  | cons x rest ih =>
    cases x with
    | leave => rfl
    | notification m =>
      have hrest : Inbound.leave ∈ rest := by
        rcases List.mem_cons.mp h with he | hin
        · cases he
        · exact hin
      show m :: beforeLeave (rest ++ more) = m :: beforeLeave rest
      rw [ih hrest]

theorem beforeLeave_append {mailbox more : List (Inbound T)} (h : Inbound.leave ∉ mailbox) :
    beforeLeave (mailbox ++ more) = beforeLeave mailbox ++ beforeLeave more := by
  induction mailbox with
  | nil => rfl
  | cons x rest ih =>
    cases x with
    | leave => exact absurd List.mem_cons_self h
    | notification m =>
      have hrest : Inbound.leave ∉ rest := fun hin => h (List.mem_cons_of_mem _ hin)
      show m :: beforeLeave (rest ++ more) = m :: (beforeLeave rest ++ beforeLeave more)
      rw [ih hrest]

variable {dispatched : List (Notification T)} {a : Nat}

theorem share_append (hleft : c.leftAt = none) (ha : a ≤ dispatched.length) :
    share (dispatched ++ [m]) c a =
      share dispatched c a ++ if m.topic = c.topic then [m] else [] := by
  unfold share
  rw [hleft]
  dsimp only
  rw [List.drop_append_of_le_length ha, List.filter_append]
  by_cases ht : m.topic = c.topic <;> simp [ht]

theorem share_append_of_left {l : Nat} (hleft : c.leftAt = some l) (hl : l ≤ dispatched.length) :
    share (dispatched ++ [m]) c a = share dispatched c a := by
  unfold share
  rw [hleft]
  dsimp only
  rw [List.take_append_of_le_length hl]

theorem ChannelInv.deliver (h : ChannelInv dispatched c) :
    ChannelInv (dispatched ++ [m]) (Net.deliver m c) := by
  have hlen : dispatched.length ≤ (dispatched ++ [m]).length := by simp
  have hgrow : ∀ k, k ≤ dispatched.length → k ≤ (dispatched ++ [m]).length := by
    intro k hk
    omega
  unfold Net.deliver
  split
  · rename_i hsub
    obtain ⟨hsub, htopic⟩ : c.subscribed = true ∧ c.topic = m.topic := by
      simpa using hsub
    refine ⟨?_, ?_, ?_, ?_, ?_⟩
    · intro hnone
      rw [(h.connecting hnone).1] at hsub
      cases hsub
    · exact fun a ha => hgrow a (h.bounds a ha)
    · intro l hl
      exact ⟨hgrow l (h.left l hl).1, fun _ => List.mem_append_left _ ((h.left l hl).2 hsub)⟩
    · intro hj hl
      refine ⟨hsub, ?_⟩
      intro hmem
      rcases List.mem_append.mp hmem with hin | hin
      · exact (h.here hj hl).2 hin
      · cases List.mem_singleton.mp hin
    · intro a ha
      have hold := h.owed a ha
      rcases Option.eq_none_or_eq_some c.leftAt with hleft | ⟨l, hleft⟩
      · have hnot := (h.here (by rw [ha]; rfl) hleft).2
        have hshare : share (dispatched ++ [m]) c a =
            share dispatched c a ++ [m] := by
          rw [share_append hleft (h.bounds a ha), if_pos htopic.symm]
        show c.pushed ++ beforeLeave (c.mailbox ++ [.notification m]) = share (dispatched ++ [m]) c a
        rw [beforeLeave_append hnot, hshare, ← hold, List.append_assoc]
        rfl
      · show c.pushed ++ beforeLeave (c.mailbox ++ [.notification m]) = share (dispatched ++ [m]) c a
        rw [beforeLeave_append_of_leave ((h.left l hleft).2 hsub),
          share_append_of_left hleft (h.left l hleft).1]
        exact hold
  · rename_i hsub
    refine ⟨h.connecting, fun a ha => hgrow a (h.bounds a ha),
      fun l hl => ⟨hgrow l (h.left l hl).1, (h.left l hl).2⟩, h.here, ?_⟩
    intro a ha
    rw [h.owed a ha]
    rcases Option.eq_none_or_eq_some c.leftAt with hleft | ⟨l, hleft⟩
    · have htopic : ¬m.topic = c.topic := by
        intro he
        have hjoined := (h.here (by rw [ha]; rfl) hleft).1
        simp [hjoined, he] at hsub
      rw [share_append hleft (h.bounds a ha), if_neg htopic, List.append_nil]
    · rw [share_append_of_left hleft (h.left l hleft).1]

namespace Inv

theorem start : Inv (start : Net T C) where
  numbered := rfl
  channels _ _ h := nomatch h

theorem setCc (h : Inv n) (i : Pid) (cc : Option (CcProcess.State T C × List (Emission T))) :
    Inv (n.setCc i cc) := ⟨h.numbered, h.channels⟩

theorem setChannel (h : Inv n) (hc : ChannelInv n.dispatched c) : Inv (n.setChannel p c) where
  numbered := h.numbered
  channels q d hd := by
    have hget : Function.update n.channels p (some c) q = some d := hd
    rw [Function.update_apply] at hget
    split at hget
    · obtain rfl := Option.some.inj hget
      exact hc
    · exact h.channels q d hget

theorem broadcast (h : Inv n) (topic : String) (envelope : List (String × Term T)) :
    Inv (n.broadcast topic envelope) where
  numbered := by
    show (n.dispatched ++ [_]).map Notification.no = List.range (n.dispatched ++ [_]).length
    rw [List.map_append, h.numbered, List.length_append, List.length_singleton, List.range_succ]
    rfl
  channels p c hc := by
    obtain ⟨d, hd, rfl⟩ := Option.map_eq_some_iff.mp hc
    exact (h.channels p d hd).deliver

theorem dispatch {i : Pid} (h : Inv n) (ht : n.dispatch i = some n') : Inv n' := by
  unfold Net.dispatch at ht
  split at ht
  · rename_i s m rest _
    obtain rfl := Option.some.inj ht
    cases m with
    | broadcast topic envelope => exact (h.setCc i _).broadcast topic envelope
    | send pid msg => exact h.setCc i _
  · cases ht

theorem connect (h : Inv n) (sessionId : String) :
    Inv (n.setChannel p ⟨sessionId, false, [], [], none, none, false⟩) := by
  refine h.setChannel ⟨fun _ => ⟨rfl, rfl, rfl, rfl⟩, ?_, ?_, ?_, ?_⟩
  · exact fun a ha => nomatch ha
  · exact fun l hl => nomatch hl
  · exact fun hj => nomatch hj
  · exact fun a ha => nomatch ha

theorem subscribe (h : Inv n) (ht : n.subscribe p = some n') : Inv n' := by
  unfold Net.subscribe at ht
  split at ht
  · rename_i c hc
    split at ht
    · rename_i hnone
      obtain rfl := Option.some.inj ht
      obtain ⟨-, hmailbox, hpushed, hleft⟩ := (h.channels p c hc).connecting hnone
      have hjoins : Inv { n with joins := n.joins ++ [c.sessionId] } := ⟨h.numbered, h.channels⟩
      refine hjoins.setChannel ⟨?_, ?_, ?_, ?_, ?_⟩
      · exact fun hj => nomatch hj
      · intro a ha
        obtain rfl := Option.some.inj ha
        exact Nat.le_refl _
      · intro l hl
        rw [show c.leftAt = some l from hl] at hleft
        cases hleft
      · intro _ _
        refine ⟨rfl, ?_⟩
        show Inbound.leave ∉ c.mailbox
        rw [hmailbox]
        exact List.not_mem_nil
      · intro a ha
        obtain rfl := Option.some.inj ha
        show c.pushed ++ beforeLeave c.mailbox = share n.dispatched c n.dispatched.length
        unfold share
        rw [hpushed, hmailbox, hleft, List.drop_length]
        rfl
    · cases ht
  · cases ht

theorem disconnect (h : Inv n) (ht : n.disconnect p = some n') : Inv n' := by
  unfold Net.disconnect at ht
  split at ht
  · rename_i c hc
    split at ht
    · rename_i hjoined
      obtain rfl := Option.some.inj ht
      obtain ⟨hsub, hleft⟩ : c.subscribed = true ∧ c.leftAt = none := by
        simpa using hjoined
      have hinv := h.channels p c hc
      refine h.setChannel ⟨?_, hinv.bounds, ?_, ?_, ?_⟩
      · intro hnone
        rw [(hinv.connecting hnone).1] at hsub
        cases hsub
      · intro l hl
        obtain rfl := Option.some.inj hl
        exact ⟨Nat.le_refl _, fun _ => List.mem_append_right _ List.mem_cons_self⟩
      · exact fun _ hl => nomatch hl
      · intro a ha
        have hnot := (hinv.here (by rw [ha]; rfl) hleft).2
        have hold := hinv.owed a ha
        -- up to now the share of a channel that is still joined
        show c.pushed ++ beforeLeave (c.mailbox ++ [.leave]) =
          ((n.dispatched.take n.dispatched.length).drop a).filter fun m => m.topic = c.topic
        unfold share at hold
        rw [hleft] at hold
        rw [beforeLeave_append hnot, List.take_length, ← hold]
        show c.pushed ++ (beforeLeave c.mailbox ++ []) = c.pushed ++ beforeLeave c.mailbox
        rw [List.append_nil]
    · cases ht
  · cases ht

theorem handle (h : Inv n) (ht : n.handle p = some n') : Inv n' := by
  unfold Net.handle at ht
  split at ht
  · rename_i c hc
    have hinv := h.channels p c hc
    split at ht
    · cases ht
    · rename_i m rest hmailbox
      obtain rfl := Option.some.inj ht
      have hjoined : c.joinedAt ≠ none := by
        intro hnone
        rw [(hinv.connecting hnone).2.1] at hmailbox
        cases hmailbox
      refine h.setChannel ⟨fun hnone => absurd hnone hjoined, hinv.bounds, ?_, ?_, ?_⟩
      · intro l hl
        refine ⟨(hinv.left l hl).1, fun hsub => ?_⟩
        have hmem := (hinv.left l hl).2 hsub
        rw [hmailbox] at hmem
        rcases List.mem_cons.mp hmem with he | hin
        · cases he
        · exact hin
      · intro hj hl
        refine ⟨(hinv.here hj hl).1, fun hin => (hinv.here hj hl).2 ?_⟩
        rw [hmailbox]
        exact List.mem_cons_of_mem _ hin
      · intro a ha
        have hold := hinv.owed a ha
        unfold Channel.waiting at hold
        rw [hmailbox] at hold
        show (c.pushed ++ [m]) ++ beforeLeave rest = share n.dispatched c a
        rw [← hold, List.append_assoc]
        rfl
    · rename_i rest hmailbox
      obtain rfl := Option.some.inj ht
      have hmem : Inbound.leave ∈ c.mailbox := by
        rw [hmailbox]
        exact List.mem_cons_self
      have hjoined : c.joinedAt ≠ none := by
        intro hnone
        rw [(hinv.connecting hnone).2.1] at hmailbox
        cases hmailbox
      refine h.setChannel ⟨fun hnone => absurd hnone hjoined, hinv.bounds, ?_, ?_, ?_⟩
      · exact fun l hl => ⟨(hinv.left l hl).1, fun hsub => nomatch hsub⟩
      · exact fun hj hl => absurd hmem (hinv.here hj hl).2
      · intro a ha
        have hold := hinv.owed a ha
        unfold Channel.waiting at hold
        rw [hmailbox] at hold
        exact hold
  · cases ht

theorem step {a : Act T C} (h : Inv n) (ht : step n a = some n') : Inv n' := by
  unfold ChannelNotifications.step at ht
  cases a with
  | spawn i sessionId handlerModule initialState proxyCtx =>
    dsimp only at ht
    split at ht
    · obtain rfl := Option.some.inj ht
      exact h.setCc i _
    · cases ht
  | event i env event =>
    dsimp only at ht
    split at ht
    · obtain rfl := Option.some.inj ht
      exact h.setCc i _
    · cases ht
  | dispatch i => exact h.dispatch ht
  | connect p sessionId =>
    dsimp only at ht
    split at ht
    · obtain rfl := Option.some.inj ht
      exact h.connect sessionId
    · cases ht
  | subscribe p => exact h.subscribe ht
  | disconnect p => exact h.disconnect ht
  | handle p => exact h.handle ht

theorem of_reaches
    (h : Reaches ChannelNotifications.step anyStep ChannelNotifications.start n) : Inv n :=
  h.invariant start fun _ _ _ hn _ hs => hn.step hs

theorem no_eq (h : Inv n) {i : Nat} (hi : n.dispatched[i]? = some m) : m.no = i := by
  have hno : (n.dispatched.map Notification.no)[i]? = some m.no := by
    rw [List.getElem?_map, hi]
    rfl
  have hlt : i < n.dispatched.length := (List.getElem?_eq_some_iff.mp hi).1
  rw [h.numbered, List.getElem?_range hlt] at hno
  exact (Option.some.inj hno).symm

theorem le_no_of_mem (h : Inv n) (hc : n.channels p = some c) {a : Nat}
    (ha : c.joinedAt = some a) (hm : m ∈ c.pushed) : a ≤ m.no := by
  have hmem : m ∈ share n.dispatched c a := by
    rw [← (h.channels p c hc).owed a ha]
    exact List.mem_append_left _ hm
  have hdrop : m ∈ n.dispatched.drop a := by
    have hin := (List.mem_filter.mp hmem).1
    cases hleft : c.leftAt with
    | none =>
      rw [hleft] at hin
      exact hin
    | some l =>
      rw [hleft] at hin
      exact ((List.take_sublist l n.dispatched).drop a).subset hin
  obtain ⟨j, hj⟩ := List.mem_iff_getElem?.mp hdrop
  rw [List.getElem?_drop] at hj
  have := h.no_eq hj
  omega

theorem mem_share (h : Inv n) {a : Nat} (hm : m ∈ n.dispatched) (htopic : m.topic = c.topic)
    (ha : a ≤ m.no) (hleft : ∀ l ∈ c.leftAt, m.no < l) : m ∈ share n.dispatched c a := by
  obtain ⟨i, hi⟩ := List.mem_iff_getElem?.mp hm
  obtain rfl := h.no_eq hi
  refine List.mem_filter.mpr ⟨?_, decide_eq_true htopic⟩
  apply List.mem_of_getElem? (i := m.no - a)
  rw [List.getElem?_drop, show a + (m.no - a) = m.no by omega]
  cases hl : c.leftAt with
  | none => exact hi
  | some l =>
    show (n.dispatched.take l)[m.no]? = some m
    rw [List.getElem?_take_of_lt (hleft l hl)]
    exact hi

theorem pairwise_share (h : Inv n) (c : Channel T) (a : Nat) :
    (share n.dispatched c a).Pairwise fun m m' => m.no < m'.no := by
  have hall : n.dispatched.Pairwise fun m m' => m.no < m'.no := by
    rw [← List.pairwise_map, h.numbered]
    exact List.pairwise_lt_range
  refine hall.sublist (List.filter_sublist.trans ((List.drop_sublist _ _).trans ?_))
  cases c.leftAt with
  | none => exact List.Sublist.refl _
  | some l => exact List.take_sublist l _

end Inv

/-! ## When a process has joined -/

/-- The process has joined, when this many notifications had been dispatched. -/
def JoinedAt (n : Net T C) (p : Pid) (a : Nat) : Prop :=
  ∃ c, n.channels p = some c ∧ c.joinedAt = some a

theorem JoinedAt.setChannel {q : Pid} {d e : Channel T} (h : JoinedAt n p a)
    (hd : n.channels q = some d) (he : d.joinedAt.isSome = true → e.joinedAt = d.joinedAt) :
    JoinedAt (n.setChannel q e) p a := by
  obtain ⟨c, hc, ha⟩ := h
  by_cases hq : p = q
  · subst hq
    obtain rfl := Option.some.inj (hc.symm.trans hd)
    refine ⟨e, Function.update_self _ _ _, ?_⟩
    rw [he (by rw [ha]; rfl)]
    exact ha
  · exact ⟨c, (Function.update_of_ne hq _ _).trans hc, ha⟩

theorem JoinedAt.broadcast (h : JoinedAt n p a) (topic : String)
    (envelope : List (String × Term T)) : JoinedAt (n.broadcast topic envelope) p a := by
  obtain ⟨c, hc, ha⟩ := h
  refine ⟨_, by show (n.channels p).map _ = _; rw [hc]; rfl, ?_⟩
  unfold Net.deliver
  split <;> exact ha

theorem JoinedAt.step {act : Act T C} (h : JoinedAt n p a) (ht : step n act = some n') :
    JoinedAt n' p a := by
  unfold ChannelNotifications.step at ht
  cases act with
  | spawn i sessionId handlerModule initialState proxyCtx =>
    dsimp only at ht
    split at ht
    · obtain rfl := Option.some.inj ht
      exact h
    · cases ht
  | event i env event =>
    dsimp only at ht
    split at ht
    · obtain rfl := Option.some.inj ht
      exact h
    · cases ht
  | dispatch i =>
    dsimp only [Net.dispatch] at ht
    split at ht
    · rename_i s m rest _
      obtain rfl := Option.some.inj ht
      cases m with
      | broadcast topic envelope =>
        exact JoinedAt.broadcast (n := n.setCc i (some (s, rest))) h topic envelope
      | send pid msg => exact h
    · cases ht
  | connect q sessionId =>
    dsimp only at ht
    split at ht
    · rename_i hq
      obtain rfl := Option.some.inj ht
      obtain ⟨c, hc, ha⟩ := h
      have hne : p ≠ q := by
        rintro rfl
        rw [hq] at hc
        cases hc
      exact ⟨c, (Function.update_of_ne hne _ _).trans hc, ha⟩
    · cases ht
  | subscribe q =>
    dsimp only [Net.subscribe] at ht
    split at ht
    · rename_i d hd
      split at ht
      · rename_i hnone
        obtain rfl := Option.some.inj ht
        refine JoinedAt.setChannel (n := { n with joins := n.joins ++ [d.sessionId] }) h hd ?_
        intro hsome
        rw [hnone] at hsome
        cases hsome
      · cases ht
    · cases ht
  | disconnect q =>
    dsimp only [Net.disconnect] at ht
    split at ht
    · rename_i d hd
      split at ht
      · obtain rfl := Option.some.inj ht
        exact h.setChannel hd fun _ => rfl
      · cases ht
    · cases ht
  | handle q =>
    dsimp only [Net.handle] at ht
    split at ht
    · rename_i d hd
      split at ht
      · cases ht
      · obtain rfl := Option.some.inj ht
        exact h.setChannel hd fun _ => rfl
      · obtain rfl := Option.some.inj ht
        exact h.setChannel hd fun _ => rfl
    · cases ht

theorem not_mayBePushed (h : Reaches step anyStep start n) (hp : JoinedAt n p a) (hm : m.no < a) :
    ¬MayBePushed n p m := by
  rintro ⟨n', c, ⟨later, hrun⟩, hc, hpushed⟩
  obtain ⟨earlier, hstart⟩ := h
  have hinv : Inv n' := .of_reaches ⟨_, hstart.append hrun⟩
  obtain ⟨d, hd, ha⟩ := @Run.invariant _ _ _ _ _ _ _ (fun u => JoinedAt u p a) hp
    (fun _ _ _ hu _ hs => hu.step hs) hrun
  obtain rfl := Option.some.inj (hc.symm.trans hd)
  have := hinv.le_no_of_mem hc ha hpushed
  omega

/-! ## Over all runs -/

/-- **No notification is lost around the join** if and only if none was dispatched before
the first join of its session. -/
theorem delivered_iff (n : Net T C) (h : Reaches step anyStep start n) :
    Delivered n ↔ NoneEarly n := by
  have hinv := Inv.of_reaches h
  constructor
  · intro hd p c a m hc hfirst ha hm htopic
    by_contra hlt
    exact not_mayBePushed h ⟨c, hc, ha⟩ (by omega)
      (hd.early p c a m hc hfirst ha hm htopic (by omega))
  · intro hnone
    refine ⟨?_, ?_, ?_⟩
    · intro p c a m hc hfirst ha hm htopic hlt
      have := hnone p c a m hc hfirst ha hm htopic
      omega
    · intro p c a m hc ha hm htopic hle hleft
      rw [(hinv.channels p c hc).owed a ha]
      exact hinv.mem_share hm htopic hle hleft
    · intro p c hc
      cases ha : c.joinedAt with
      | none =>
        obtain ⟨-, hmailbox, hpushed, -⟩ := (hinv.channels p c hc).connecting ha
        unfold Channel.waiting
        rw [hmailbox, hpushed]
        exact List.Pairwise.nil
      | some a =>
        rw [(hinv.channels p c hc).owed a ha]
        exact hinv.pairwise_share c a

/-! ## The message that creates the session -/

/-- The handler sends what it is given. -/
def echo : Env Unit Unit where
  handler := fun _ => .ok () [.sendInput (.bin "hello")]
  listByRole := fun _ _ => []
  workspaceNameForChat := fun _ _ => none
  now := "2026-05-10T00:00:00Z"

/-- A session is joined, before its first event or after it. -/
def joinFirst : List (Act Unit Unit) :=
  [.spawn 0 "s-1" "cc_adapter_runner" () none, .connect 1 "s-1", .subscribe 1,
    .event 0 echo (.text (.bin "hello")), .dispatch 0, .handle 1]

def joinLate : List (Act Unit Unit) :=
  [.spawn 0 "s-1" "cc_adapter_runner" () none, .event 0 echo (.text (.bin "hello")),
    .dispatch 0, .connect 1 "s-1", .subscribe 1]

theorem delivered_joinFirst : ∃ n : Net Unit Unit, n.dispatched.length = 1 ∧
    (Delivered n ↔ NoneEarly n) := by
  obtain ⟨n, hn, hlen⟩ : ∃ n, Run step anyStep start joinFirst n ∧ n.dispatched.length = 1 :=
    ⟨_, .of_exec rfl, rfl⟩
  exact ⟨n, hlen, delivered_iff n ⟨_, hn⟩⟩

/-- **The message that creates a session is lost**: it is dispatched before CC has joined. -/
theorem not_delivered_joinLate : ¬∀ n : Net Unit Unit, Reaches step anyStep start n → Delivered n := by
  intro h
  obtain ⟨n, hn, c, m, hc, hfirst, ha, hm, htopic, hno⟩ : ∃ n, Run step anyStep start joinLate n ∧
      ∃ c m, n.channels 1 = some c ∧ c.first = true ∧ c.joinedAt = some 1 ∧ m ∈ n.dispatched ∧
        m.topic = c.topic ∧ m.no = 0 :=
    ⟨_, .of_exec rfl, _, _, rfl, rfl, rfl, List.mem_cons_self, rfl, rfl⟩
  exact not_mayBePushed ⟨_, hn⟩ ⟨c, hc, ha⟩ (by omega)
    ((h n ⟨_, hn⟩).early 1 c 1 m hc hfirst ha hm htopic (by omega))

end ChannelNotifications
end Esr
