import Esr.Runs
import Esr.SlashGate
import Esr.SlashTotality

/-! # The replies of the slash handler

A dispatch whose command is started is noted in `pending` under its reference, with a
timer.  The task sends the result of the command, the timer a timeout, and the handler
answers with whichever it takes first and forgets the reference; results may come
twice, and a timeout may be in the mailbox already when its timer is cancelled.

`ExactlyOnce` says that a started dispatch has exactly the reply of the first of these
messages taken, and none before, and that the pending references are those started and
not answered.  It holds in every run in which no dispatch makes the handler raise
while commands are pending (`Careful`): the handler would take their replies with it.
-/
namespace Esr
namespace SlashReplies
open SlashHandler Yaml

/-- The reference of a dispatch. -/
abbrev Ref := Nat

/-- A reply target. -/
abbrev Target := Nat

variable {R : Type}

/-- A message of the handler. -/
inductive Msg (R : Type) where
  | cast (entry : Entry) (target : Target) (ref : Ref)
  | commandResult (ref : Ref) (result : R)
  | timeout (ref : Ref)
  | other

/-- What a reply target is sent. -/
inductive Reply (R : Type) where
  | result (r : R)
  | timedOut
  | answer (a : Answer)

/-- A reply sent. -/
structure Sent (R : Type) where
  ref : Ref
  target : Target
  reply : Reply R

/-- A message taken, with the command it started and the replies it sent. -/
structure Taken (R : Type) where
  msg : Msg R
  started : Option (Ref × Target)
  sent : List (Sent R)

/-- The handler and what is around it: its mailbox and the timers that are running. -/
structure Node (R : Type) where
  alive : Bool
  pending : Ets Ref Target
  timers : List Ref
  mailbox : List (Msg R)
  history : List (Taken R)

/-- A handler that has just started. -/
def start : Node R := ⟨true, .empty, [], [], []⟩

/-- The reference of a dispatch in the mailbox. -/
def Msg.castRef? : Msg R → Option Ref
  | .cast _ _ ref => some ref
  | _ => none

/-- A message only a timer sends. -/
def Msg.isTimeout : Msg R → Bool
  | .timeout _ => true
  | _ => false

/-- The references dispatched. -/
def castRefs (h : List (Taken R)) : List Ref := h.filterMap fun t => t.msg.castRef?

/-- The references of the dispatches in the mailbox. -/
def queuedRefs (box : List (Msg R)) : List Ref := box.filterMap Msg.castRef?

namespace Node

/-- `handle_cast/2`, with `execute_command_async/4` for a command that is started. -/
def handleCast (rt : Runtime) (table : Grants.Table) (entry : Entry) (target : Target)
    (ref : Ref) (n : Node R) : Node R :=
  match handle rt table entry with
  | .started _ =>
      { n with pending := n.pending.insert ref target
               timers := n.timers ++ [ref]
               history := n.history ++ [⟨.cast entry target ref, some (ref, target), []⟩] }
  | .answered a =>
      { n with history :=
          n.history ++ [⟨.cast entry target ref, none, [⟨ref, target, .answer a⟩]⟩] }
  | .raised =>
      { n with alive := false, history := n.history ++ [⟨.cast entry target ref, none, []⟩] }

/-- `handle_info({:command_result, ref, result}, state)`. -/
def handleResult (ref : Ref) (result : R) (n : Node R) : Node R :=
  match n.pending.lookup ref with
  | some target =>
      { n with pending := n.pending.delete ref
               timers := n.timers.erase ref
               history := n.history ++
                 [⟨.commandResult ref result, none, [⟨ref, target, .result result⟩]⟩] }
  | none => { n with history := n.history ++ [⟨.commandResult ref result, none, []⟩] }

/-- `handle_info({:slash_dispatch_timeout, ref}, state)`. -/
def handleTimeout (ref : Ref) (n : Node R) : Node R :=
  match n.pending.lookup ref with
  | some target =>
      { n with pending := n.pending.delete ref
               history := n.history ++ [⟨.timeout ref, none, [⟨ref, target, .timedOut⟩]⟩] }
  | none => { n with history := n.history ++ [⟨.timeout ref, none, []⟩] }

/-- One message. -/
def receive (rt : Runtime) (table : Grants.Table) (m : Msg R) (n : Node R) : Node R :=
  match m with
  | .cast entry target ref => n.handleCast rt table entry target ref
  | .commandResult ref result => n.handleResult ref result
  | .timeout ref => n.handleTimeout ref
  | .other => { n with history := n.history ++ [⟨.other, none, []⟩] }

/-- The handler takes the first message of its mailbox. -/
def take (rt : Runtime) (table : Grants.Table) (m : Msg R) (rest : List (Msg R)) (n : Node R) :
    Node R :=
  { n with mailbox := rest }.receive rt table m

end Node

/-- What can happen next.  The registry and the grants are those of the moment. -/
inductive Act (R : Type) where
  | arrive (m : Msg R)
  | fire (ref : Ref)
  | take (rt : Runtime) (table : Grants.Table)

/-- One step.  Two dispatches never have the same reference, and what is sent to a
handler that has raised is lost. -/
def step (n : Node R) : Act R → Option (Node R)
  | .arrive m =>
      if m.isTimeout then none
      else if n.alive = false then some n
      else if m.castRef?.any fun ref => decide (ref ∈ castRefs n.history ++ queuedRefs n.mailbox) then
        none
      else some { n with mailbox := n.mailbox ++ [m] }
  | .fire ref =>
      if ref ∈ n.timers then
        some { n with timers := n.timers.erase ref, mailbox := n.mailbox ++ [.timeout ref] }
      else none
  | .take rt table =>
      match n.alive, n.mailbox with
      | true, m :: rest => some (n.take rt table m rest)
      | _, _ => none

/-! ## The property -/

/-- The reply a message brings to a reference. -/
def Msg.conclusion? (ref : Ref) : Msg R → Option (Reply R)
  | .commandResult r result => if r = ref then some (.result result) else none
  | .timeout r => if r = ref then some .timedOut else none
  | _ => none

/-- The first reply the messages bring to a reference. -/
def firstConclusion (ref : Ref) (after : List (Taken R)) : Option (Reply R) :=
  after.findSome? fun t => t.msg.conclusion? ref

/-- The replies sent to a reference. -/
def sentIn (ref : Ref) (h : List (Taken R)) : List (Sent R) :=
  (h.flatMap Taken.sent).filter fun s => decide (s.ref = ref)

/-- The command of the reference was started with the message, and `after` has come
since. -/
def StartedBefore (n : Node R) (ref : Ref) (target : Target) (after : List (Taken R)) : Prop :=
  ∃ before t, n.history = before ++ t :: after ∧ t.started = some (ref, target)

/-- Every started dispatch is answered exactly once. -/
structure ExactlyOnce (n : Node R) : Prop where
  replied : ∀ ref target after, StartedBefore n ref target after →
    sentIn ref n.history =
      ((firstConclusion ref after).map fun reply => ⟨ref, target, reply⟩).toList
  once : ∀ ref, (sentIn ref n.history).length ≤ 1
  pending : ∀ ref target, n.pending.lookup ref = some target ↔
    ∃ after, StartedBefore n ref target after ∧ firstConclusion ref after = none
  waiting : ∀ ref target, n.pending.lookup ref = some target →
    n.alive = true ∧ (ref ∈ n.timers ∨ Msg.timeout ref ∈ n.mailbox)

/-- The input of a dispatch. -/
def Msg.entry? : Msg R → Option Entry
  | .cast entry _ _ => some entry
  | _ => none

/-- The dispatch the handler takes is one it takes without raising, unless no command
is pending. -/
def Careful (n : Node R) : Act R → Prop
  | .take rt table => ∀ entry ∈ n.mailbox.head?.bind Msg.entry?,
      takes rt table entry = true ∨ n.pending.keys = []
  | _ => True

/-! ## Histories -/

theorem sentIn_snoc (ref : Ref) (h : List (Taken R)) (u : Taken R) :
    sentIn ref (h ++ [u]) = sentIn ref h ++ u.sent.filter fun s => decide (s.ref = ref) := by
  unfold sentIn
  rw [List.flatMap_append, List.filter_append]
  simp

theorem firstConclusion_snoc (ref : Ref) (after : List (Taken R)) (u : Taken R) :
    firstConclusion ref (after ++ [u]) =
      (firstConclusion ref after).or (u.msg.conclusion? ref) := by
  unfold firstConclusion
  rw [List.findSome?_append]
  cases h : u.msg.conclusion? ref <;> simp [h]

theorem castRefs_snoc (h : List (Taken R)) (u : Taken R) :
    castRefs (h ++ [u]) = castRefs h ++ u.msg.castRef?.toList := by
  unfold castRefs
  rw [List.filterMap_append]
  cases hu : u.msg.castRef? <;> simp [hu]

theorem queuedRefs_cons (m : Msg R) (rest : List (Msg R)) :
    queuedRefs (m :: rest) = m.castRef?.toList ++ queuedRefs rest := by
  unfold queuedRefs
  cases hm : m.castRef? <;> simp [hm]

/-- How a reference stands: its command is pending with a reply to come, or it has been
answered with the first reply it was brought. -/
def Stage (n : Node R) (ref : Ref) (target : Target) (after : List (Taken R)) : Prop :=
  (firstConclusion ref after = none ∧ sentIn ref n.history = [] ∧
    n.pending.lookup ref = some target ∧ n.alive = true ∧
    (ref ∈ n.timers ∨ Msg.timeout ref ∈ n.mailbox)) ∨
  ∃ reply, firstConclusion ref after = some reply ∧
    sentIn ref n.history = [⟨ref, target, reply⟩] ∧ n.pending.lookup ref = none

section
variable {n n' : Node R} {m : Msg R} {rest : List (Msg R)} {u : Taken R}

variable {ref : Ref} {target : Target} {after : List (Taken R)}

theorem startedBefore_snoc (hhistory : n'.history = n.history ++ [u])
    (h : StartedBefore n' ref target after) :
    (after = [] ∧ u.started = some (ref, target)) ∨
      ∃ after', after = after' ++ [u] ∧ StartedBefore n ref target after' := by
  obtain ⟨before, t, he, ht⟩ := h
  rw [hhistory] at he
  rcases snoc_eq_split he with ⟨rfl, rfl, -⟩ | ⟨after', rfl, hold⟩
  · exact .inl ⟨rfl, ht⟩
  · exact .inr ⟨after', rfl, before, t, hold, ht⟩

theorem StartedBefore.snoc (hhistory : n'.history = n.history ++ [u])
    (h : StartedBefore n ref target after) :
    StartedBefore n' ref target (after ++ [u]) := by
  obtain ⟨before, t, he, ht⟩ := h
  exact ⟨before, t, by rw [hhistory, he]; simp, ht⟩

theorem Stage.keep (h : Stage n ref target after)
    (hsent : sentIn ref n'.history = sentIn ref n.history)
    (hlookup : n'.pending.lookup ref = n.pending.lookup ref)
    (hlive : n.pending.lookup ref = some target → (ref ∈ n.timers ∨ Msg.timeout ref ∈ n.mailbox) → n'.alive = true ∧ u.msg.conclusion? ref = none ∧ (ref ∈ n'.timers ∨ Msg.timeout ref ∈ n'.mailbox)) :
    Stage n' ref target (after ++ [u]) := by
  rcases h with ⟨hnone, hs, hp, -, hw⟩ | ⟨reply, hfirst, hs, hp⟩
  · obtain ⟨ha', hc, hw'⟩ := hlive hp hw
    refine .inl ⟨?_, hsent.trans hs, hlookup.trans hp, ha', hw'⟩
    rw [firstConclusion_snoc, hnone, hc]
    rfl
  · refine .inr ⟨reply, ?_, hsent.trans hs, hlookup.trans hp⟩
    rw [firstConclusion_snoc, hfirst]
    rfl

theorem waits_of_cons (hm : n.mailbox = m :: rest) (hbox : n'.mailbox = rest)
    (hc : m.conclusion? ref = none) (htimer : ref ∈ n.timers → ref ∈ n'.timers)
    (h : ref ∈ n.timers ∨ Msg.timeout ref ∈ n.mailbox) :
    ref ∈ n'.timers ∨ Msg.timeout ref ∈ n'.mailbox := by
  rcases h with ht | hd
  · exact .inl (htimer ht)
  · rw [hm] at hd
    rcases List.mem_cons.mp hd with rfl | hrest
    · rw [Msg.conclusion?, if_pos rfl] at hc
      cases hc
    · exact .inr (hbox ▸ hrest)

end

/-- The invariant. -/
structure ReplyInv (n : Node R) : Prop where
  distinct : (castRefs n.history ++ queuedRefs n.mailbox).Nodup
  started : ∀ t ∈ n.history, ∀ ref target, t.started = some (ref, target) →
    t.msg.castRef? = some ref
  silent : ∀ ref, ref ∉ castRefs n.history →
    sentIn ref n.history = [] ∧ n.pending.lookup ref = none
  noted : ∀ ref target, n.pending.lookup ref = some target →
    ∃ after, StartedBefore n ref target after
  stage : ∀ ref target after, StartedBefore n ref target after → Stage n ref target after
  once : ∀ ref, (sentIn ref n.history).length ≤ 1

namespace ReplyInv
variable {n : Node R}

theorem start : ReplyInv (start : Node R) := by
  refine ⟨List.nodup_nil, ?_, ?_, ?_, ?_, fun _ => Nat.zero_le _⟩
  · rintro t ⟨⟩
  · intro ref _
    exact ⟨rfl, Ets.lookup_empty ref⟩
  · intro ref target h
    rw [show (SlashReplies.start : Node R).pending = .empty from rfl, Ets.lookup_empty] at h
    cases h
  · rintro ref target after ⟨before, t, he, -⟩
    exact absurd he (by simp [SlashReplies.start])

theorem exactlyOnce (h : ReplyInv n) : ExactlyOnce n := by
  refine ⟨?_, h.once, ?_, ?_⟩
  · intro ref target after hstart
    rcases h.stage ref target after hstart with ⟨hnone, hsent, -⟩ | ⟨reply, hfirst, hsent, -⟩
    · rw [hnone, hsent]
      rfl
    · rw [hfirst, hsent]
      rfl
  · intro ref target
    constructor
    · intro hp
      obtain ⟨after, hstart⟩ := h.noted ref target hp
      rcases h.stage ref target after hstart with ⟨hnone, -⟩ | ⟨-, -, -, hgone⟩
      · exact ⟨after, hstart, hnone⟩
      · rw [hgone] at hp
        cases hp
    · rintro ⟨after, hstart, hnone⟩
      rcases h.stage ref target after hstart with ⟨-, -, hp, -⟩ | ⟨reply, hfirst, -⟩
      · exact hp
      · rw [hnone] at hfirst
        cases hfirst
  · intro ref target hp
    obtain ⟨after, hstart⟩ := h.noted ref target hp
    rcases h.stage ref target after hstart with ⟨-, -, -, hwait⟩ | ⟨-, -, -, hgone⟩
    · exact hwait
    · rw [hgone] at hp
      cases hp

theorem mem_castRefs (h : ReplyInv n) {ref : Ref} {target : Target} {after : List (Taken R)}
    (hstart : StartedBefore n ref target after) : ref ∈ castRefs n.history := by
  obtain ⟨before, t, he, ht⟩ := hstart
  have hmem : t ∈ n.history := by rw [he]; simp
  exact List.mem_filterMap.mpr ⟨t, hmem, h.started t hmem ref target ht⟩

/-- What the invariant says stays true when only mailbox and timers change, as long as
no timer is lost and no dispatch comes twice. -/
theorem same {n' : Node R} (h : ReplyInv n) (halive : n'.alive = n.alive)
    (hpending : n'.pending = n.pending) (hhistory : n'.history = n.history)
    (hdistinct : (castRefs n.history ++ queuedRefs n'.mailbox).Nodup)
    (hwait : ∀ ref, (ref ∈ n.timers ∨ Msg.timeout ref ∈ n.mailbox) →
      (ref ∈ n'.timers ∨ Msg.timeout ref ∈ n'.mailbox)) : ReplyInv n' := by
  refine ⟨?_, ?_, ?_, ?_, ?_, ?_⟩
  · rw [hhistory]
    exact hdistinct
  · rw [hhistory]
    exact h.started
  · rw [hhistory, hpending]
    exact h.silent
  · rw [hpending]
    unfold StartedBefore
    rw [hhistory]
    exact h.noted
  · intro ref target after hstart
    unfold StartedBefore at hstart
    rw [hhistory] at hstart
    unfold Stage
    rw [hhistory, hpending, halive]
    exact (h.stage ref target after hstart).imp
      (fun ⟨hnone, hsent, hp, ha, hw⟩ => ⟨hnone, hsent, hp, ha, hwait ref hw⟩) id
  · rw [hhistory]
    exact h.once

/-! ## Taking a message -/

section
variable {n' : Node R} {m : Msg R} {rest : List (Msg R)} {u : Taken R}

theorem record (h : ReplyInv n) (hm : n.mailbox = m :: rest) (hbox : n'.mailbox = rest)
    (hhistory : n'.history = n.history ++ [u]) (hu : u.msg = m) (r : Ref)
    (hsent : ∀ s ∈ u.sent, s.ref = r)
    (hlookup : ∀ ref, ref ≠ r → n'.pending.lookup ref = n.pending.lookup ref)
    (hconc : ∀ ref, ref ≠ r → m.conclusion? ref = none)
    (hstarted : ∀ ref target, u.started = some (ref, target) → ref = r ∧ m.castRef? = some r)
    (halive : ∀ ref, n.pending.lookup ref ≠ none → n'.alive = true)
    (htimers : ∀ ref, ref ≠ r → ref ∈ n.timers → ref ∈ n'.timers)
    (hstage : ∀ target after, StartedBefore n r target after → Stage n' r target (after ++ [u]))
    (hnew : ∀ target, u.started = some (r, target) → Stage n' r target [])
    (hsilent : r ∉ castRefs n'.history →
      sentIn r n'.history = [] ∧ n'.pending.lookup r = none)
    (hnoted : ∀ target, n'.pending.lookup r = some target →
      u.started = some (r, target) ∨ n.pending.lookup r = some target)
    (honce : (sentIn r n'.history).length ≤ 1) : ReplyInv n' := by
  have hsame : ∀ ref, ref ≠ r → sentIn ref n'.history = sentIn ref n.history := by
    intro ref hne
    have hnone : (u.sent.filter fun s => decide (s.ref = ref)) = [] := by
      rw [List.filter_eq_nil_iff]
      intro s hs hd
      exact hne ((of_decide_eq_true hd).symm.trans (hsent s hs))
    rw [hhistory, sentIn_snoc, hnone, List.append_nil]
  refine ⟨?_, ?_, ?_, ?_, ?_, ?_⟩
  · have hd := h.distinct
    rw [hm, queuedRefs_cons] at hd
    rw [hhistory, hbox, castRefs_snoc, hu, List.append_assoc]
    exact hd
  · intro t ht ref target hs
    rw [hhistory] at ht
    rcases List.mem_append.mp ht with hold | hlast
    · exact h.started t hold ref target hs
    · obtain rfl := List.mem_singleton.mp hlast
      obtain ⟨rfl, hcast⟩ := hstarted ref target hs
      rw [hu]
      exact hcast
  · intro ref hnot
    by_cases hr : ref = r
    · rw [hr] at hnot ⊢
      exact hsilent hnot
    · rw [hsame ref hr, hlookup ref hr]
      refine h.silent ref fun hmem => hnot ?_
      rw [hhistory, castRefs_snoc]
      exact List.mem_append_left _ hmem
  · intro ref target hp
    by_cases hr : ref = r
    · rw [hr] at hp ⊢
      rcases hnoted target hp with hs | hold
      · exact ⟨[], n.history, u, hhistory, hs⟩
      · obtain ⟨after, hstart⟩ := h.noted r target hold
        exact ⟨after ++ [u], hstart.snoc hhistory⟩
    · rw [hlookup ref hr] at hp
      obtain ⟨after, hstart⟩ := h.noted ref target hp
      exact ⟨after ++ [u], hstart.snoc hhistory⟩
  · intro ref target after hstart
    rcases startedBefore_snoc hhistory hstart with ⟨rfl, hs⟩ | ⟨after', rfl, hold⟩
    · obtain ⟨rfl, -⟩ := hstarted ref target hs
      exact hnew target hs
    · by_cases hr : ref = r
      · rw [hr] at hold ⊢
        exact hstage target after' hold
      · refine (h.stage ref target after' hold).keep (hsame ref hr) (hlookup ref hr) ?_
        intro hp hw
        refine ⟨halive ref (by rw [hp]; exact Option.some_ne_none _), ?_, ?_⟩
        · rw [hu]
          exact hconc ref hr
        · exact waits_of_cons hm hbox (hconc ref hr) (htimers ref hr) hw
  · intro ref
    by_cases hr : ref = r
    · rw [hr]
      exact honce
    · rw [hsame ref hr]
      exact h.once ref

theorem record_quiet (h : ReplyInv n) (hm : n.mailbox = m :: rest)
    (hbox : n'.mailbox = rest) (hhistory : n'.history = n.history ++ [⟨m, none, []⟩]) (r : Ref)
    (hpending : n'.pending = n.pending) (hconc : ∀ ref, ref ≠ r → m.conclusion? ref = none)
    (halive : ∀ ref, n.pending.lookup ref ≠ none → n'.alive = true)
    (htimers : ∀ ref, ref ∈ n.timers → ref ∈ n'.timers)
    (hr : n.pending.lookup r = none ∨ m.conclusion? r = none) : ReplyInv n' := by
  have hsent : sentIn r n'.history = sentIn r n.history := by
    rw [hhistory, sentIn_snoc]
    exact List.append_nil _
  refine h.record hm hbox hhistory rfl r ?_ ?_ hconc ?_ halive (fun ref _ => htimers ref)
    ?_ ?_ ?_ ?_ ?_
  · rintro s ⟨⟩
  · intro ref _
    rw [hpending]
  · rintro ref target ⟨⟩
  · intro target after hstart
    refine (h.stage r target after hstart).keep hsent (by rw [hpending]) fun hp hw => ?_
    have hc : m.conclusion? r = none := by
      rcases hr with hnone | hc
      · rw [hnone] at hp
        cases hp
      · exact hc
    exact ⟨halive r (by rw [hp]; exact Option.some_ne_none _), hc,
      waits_of_cons hm hbox hc (htimers r) hw⟩
  · rintro target ⟨⟩
  · intro hnot
    rw [hsent, hpending]
    refine h.silent r fun hmem => hnot ?_
    rw [hhistory, castRefs_snoc]
    exact List.mem_append_left _ hmem
  · intro target hp
    rw [hpending] at hp
    exact .inr hp
  · rw [hsent]
    exact h.once r

variable {target : Target}

theorem record_concludes (h : ReplyInv n) (hm : n.mailbox = m :: rest) {r : Ref} {reply : Reply R}
    (hp : n.pending.lookup r = some target) (hbox : n'.mailbox = rest)
    (hhistory : n'.history = n.history ++ [⟨m, none, [⟨r, target, reply⟩]⟩])
    (hpending : n'.pending = n.pending.delete r)
    (hconc : ∀ ref, m.conclusion? ref = if r = ref then some reply else none)
    (halive : n'.alive = n.alive) (htimers : ∀ ref, ref ≠ r → ref ∈ n.timers → ref ∈ n'.timers) :
    ReplyInv n' := by
  obtain ⟨after₀, hstart₀⟩ := h.noted r target hp
  have hcast := h.mem_castRefs hstart₀
  have hlive : n.alive = true ∧ sentIn r n.history = [] := by
    rcases h.stage r target after₀ hstart₀ with ⟨-, hs, -, ha, -⟩ | ⟨-, -, -, hgone⟩
    · exact ⟨ha, hs⟩
    · rw [hgone] at hp
      cases hp
  have hsent : sentIn r n'.history = [⟨r, target, reply⟩] := by
    rw [hhistory, sentIn_snoc, hlive.2]
    simp
  have hgone : n'.pending.lookup r = none := by
    rw [hpending, Ets.lookup_delete_self]
  refine h.record hm hbox hhistory rfl r ?_ ?_ ?_ ?_ ?_ htimers ?_ ?_ ?_ ?_ ?_
  · intro s hs
    rw [List.mem_singleton.mp hs]
  · intro ref hne
    rw [hpending, Ets.lookup_delete_of_ne _ hne]
  · intro ref hne
    rw [hconc, if_neg hne.symm]
  · rintro ref tgt ⟨⟩
  · intro _ _
    exact halive.trans hlive.1
  · intro tgt after hstart
    rcases h.stage r tgt after hstart with ⟨hnone, -, hp', -⟩ | ⟨-, -, -, hgone'⟩
    · obtain rfl := Option.some.inj (hp.symm.trans hp')
      refine .inr ⟨reply, ?_, hsent, hgone⟩
      rw [firstConclusion_snoc, hnone]
      exact (hconc r).trans (if_pos rfl)
    · rw [hgone'] at hp
      cases hp
  · rintro tgt ⟨⟩
  · intro hnot
    refine absurd ?_ hnot
    rw [hhistory, castRefs_snoc]
    exact List.mem_append_left _ hcast
  · intro tgt hp'
    rw [hgone] at hp'
    cases hp'
  · rw [hsent]
    exact Nat.le_refl 1

theorem cast_fresh (h : ReplyInv n) {entry : Entry} {ref : Ref}
    (hm : n.mailbox = .cast entry target ref :: rest) :
    sentIn ref n.history = [] ∧ n.pending.lookup ref = none ∧
      ∀ tgt after, ¬StartedBefore n ref tgt after := by
  have hd := h.distinct
  rw [hm, queuedRefs_cons] at hd
  have hnot : ref ∉ castRefs n.history := by
    intro hmem
    exact (List.nodup_append.mp hd).2.2 ref hmem ref (List.mem_append_left _ List.mem_cons_self) rfl
  obtain ⟨hs, hp⟩ := h.silent ref hnot
  exact ⟨hs, hp, fun tgt after hstart => hnot (h.mem_castRefs hstart)⟩

theorem take_cast (h : ReplyInv n) (ha : n.alive = true) {rt : Runtime} {table : Grants.Table}
    {entry : Entry} {ref : Ref} (hm : n.mailbox = .cast entry target ref :: rest)
    (hok : takes rt table entry = true ∨ n.pending.keys = []) :
    ReplyInv (({ n with mailbox := rest } : Node R).handleCast rt table entry target ref) := by
  obtain ⟨hsent, hp, hnever⟩ := h.cast_fresh hm
  unfold Node.handleCast
  cases ho : handle rt table entry with
  | started command =>
    dsimp only
    have hsent' : sentIn ref (n.history ++
        [(⟨.cast entry target ref, some (ref, target), []⟩ : Taken R)]) = [] := by
      rw [sentIn_snoc, hsent]
      rfl
    refine h.record (u := ⟨.cast entry target ref, some (ref, target), []⟩) hm rfl rfl rfl ref
      ?_ ?_ ?_ ?_ ?_ ?_ ?_ ?_ ?_ ?_ ?_
    · rintro s ⟨⟩
    · intro r hne
      exact Ets.lookup_insert_of_ne _ _ hne
    · intro r _
      rfl
    · rintro r tgt ⟨⟩
      exact ⟨rfl, rfl⟩
    · intro _ _
      exact ha
    · intro r _ hmem
      exact List.mem_append_left _ hmem
    · intro tgt after hstart
      exact absurd hstart (hnever tgt after)
    · rintro tgt ⟨⟩
      exact .inl ⟨rfl, hsent', Ets.lookup_insert_self _ _ _, ha,
        .inl (List.mem_append_right _ List.mem_cons_self)⟩
    · intro hnot
      refine absurd ?_ hnot
      show ref ∈ castRefs (n.history ++ [_])
      rw [castRefs_snoc]
      exact List.mem_append_right _ List.mem_cons_self
    · intro tgt hp'
      left
      have hins : (n.pending.insert ref target).lookup ref = some tgt := hp'
      rw [Ets.lookup_insert_self] at hins
      rw [Option.some.inj hins]
    · show (sentIn ref (n.history ++ [_])).length ≤ 1
      rw [hsent']
      exact Nat.zero_le 1
  | answered answer =>
    dsimp only
    refine h.record (u := ⟨.cast entry target ref, none, [⟨ref, target, .answer answer⟩]⟩)
      hm rfl rfl rfl ref ?_ ?_ ?_ ?_ ?_ ?_ ?_ ?_ ?_ ?_ ?_
    · intro s hs
      rw [List.mem_singleton.mp hs]
    · intro r _
      rfl
    · intro r _
      rfl
    · rintro r tgt ⟨⟩
    · intro _ _
      exact ha
    · intro r _ hmem
      exact hmem
    · intro tgt after hstart
      exact absurd hstart (hnever tgt after)
    · rintro tgt ⟨⟩
    · intro hnot
      refine absurd ?_ hnot
      show ref ∈ castRefs (n.history ++ [_])
      rw [castRefs_snoc]
      exact List.mem_append_right _ List.mem_cons_self
    · intro tgt hp'
      exact .inr hp'
    · show (sentIn ref (n.history ++ [_])).length ≤ 1
      rw [sentIn_snoc, hsent]
      simp
  | raised =>
    dsimp only
    have hempty : ∀ r, n.pending.lookup r = none := by
      rcases hok with ht | hkeys
      · exact absurd ho (handle_ne_raised ht)
      · intro r
        by_contra hsome
        obtain ⟨v, hv⟩ := Option.ne_none_iff_exists'.mp hsome
        have hmem := Ets.mem_keys.mpr ⟨v, hv⟩
        rw [hkeys] at hmem
        cases hmem
    refine h.record_quiet hm rfl rfl ref rfl (fun _ _ => rfl) ?_ (fun _ hmem => hmem) (.inl hp)
    intro r hsome
    exact absurd (hempty r) hsome

theorem take_result (h : ReplyInv n) (ha : n.alive = true) {r : Ref} {result : R}
    (hm : n.mailbox = .commandResult r result :: rest) :
    ReplyInv (({ n with mailbox := rest } : Node R).handleResult r result) := by
  have hconc : ∀ ref, (Msg.commandResult r result).conclusion? ref =
      if r = ref then some (.result result) else none := fun _ => rfl
  have hother : ∀ ref, ref ≠ r → (Msg.commandResult r result).conclusion? ref = none :=
    fun ref hne => (hconc ref).trans (if_neg hne.symm)
  unfold Node.handleResult
  dsimp only
  cases hp : n.pending.lookup r with
  | some target =>
    refine h.record_concludes hm hp rfl rfl rfl hconc rfl fun ref hne hmem => ?_
    exact (List.mem_erase_of_ne hne).mpr hmem
  | none =>
    exact h.record_quiet hm rfl rfl r rfl hother (fun _ _ => ha) (fun _ hmem => hmem) (.inl hp)

theorem take_timeout (h : ReplyInv n) (ha : n.alive = true) {r : Ref}
    (hm : n.mailbox = .timeout r :: rest) :
    ReplyInv (({ n with mailbox := rest } : Node R).handleTimeout r) := by
  have hconc : ∀ ref, (Msg.timeout r : Msg R).conclusion? ref =
      if r = ref then some .timedOut else none := fun _ => rfl
  have hother : ∀ ref, ref ≠ r → (Msg.timeout r : Msg R).conclusion? ref = none :=
    fun ref hne => (hconc ref).trans (if_neg hne.symm)
  unfold Node.handleTimeout
  dsimp only
  cases hp : n.pending.lookup r with
  | some target =>
    exact h.record_concludes hm hp rfl rfl rfl hconc rfl fun _ _ hmem => hmem
  | none =>
    exact h.record_quiet hm rfl rfl r rfl hother (fun _ _ => ha) (fun _ hmem => hmem) (.inl hp)

end

theorem arrive (h : ReplyInv n) {m : Msg R}
    (hfresh : ∀ ref, m.castRef? = some ref → ref ∉ castRefs n.history ++ queuedRefs n.mailbox) :
    ReplyInv { n with mailbox := n.mailbox ++ [m] } := by
  refine h.same rfl rfl rfl ?_ fun ref hw => hw.imp id fun hd => List.mem_append_left _ hd
  have hqueued : queuedRefs (n.mailbox ++ [m]) = queuedRefs n.mailbox ++ m.castRef?.toList := by
    unfold queuedRefs
    rw [List.filterMap_append]
    cases hc : m.castRef? <;> simp [hc]
  show (castRefs n.history ++ queuedRefs (n.mailbox ++ [m])).Nodup
  rw [hqueued, ← List.append_assoc]
  cases hc : m.castRef? with
  | none =>
    rw [Option.toList_none, List.append_nil]
    exact h.distinct
  | some ref =>
    exact h.distinct.append (List.nodup_singleton ref)
      (List.disjoint_singleton.mpr (hfresh ref hc))

theorem fire (h : ReplyInv n) (r : Ref) :
    ReplyInv { n with timers := n.timers.erase r, mailbox := n.mailbox ++ [.timeout r] } := by
  refine h.same rfl rfl rfl ?_ fun ref hw => ?_
  · have hqueued : queuedRefs (n.mailbox ++ [(.timeout r : Msg R)]) = queuedRefs n.mailbox := by
      unfold queuedRefs
      rw [List.filterMap_append]
      exact List.append_nil _
    show (castRefs n.history ++ queuedRefs (n.mailbox ++ [(.timeout r : Msg R)])).Nodup
    rw [hqueued]
    exact h.distinct
  · rcases hw with ht | hd
    · by_cases he : ref = r
      · right
        rw [he]
        exact List.mem_append_right _ List.mem_cons_self
      · exact .inl ((List.mem_erase_of_ne he).mpr ht)
    · exact .inr (List.mem_append_left _ hd)

theorem step {a : Act R} {n' : Node R} (h : ReplyInv n) (hok : Careful n a)
    (hs : SlashReplies.step n a = some n') : ReplyInv n' := by
  cases a with
  | arrive m =>
    unfold SlashReplies.step at hs
    dsimp only at hs
    split_ifs at hs with ht ha hc
    · obtain rfl := Option.some.inj hs
      exact h
    · obtain rfl := Option.some.inj hs
      refine h.arrive fun ref href hmem => hc ?_
      rw [href]
      exact decide_eq_true hmem
  | fire r =>
    unfold SlashReplies.step at hs
    dsimp only at hs
    split_ifs at hs
    obtain rfl := Option.some.inj hs
    exact h.fire r
  | take rt table =>
    cases ha : n.alive with
    | false =>
      simp only [SlashReplies.step, ha] at hs
      cases hs
    | true =>
      cases hm : n.mailbox with
      | nil =>
        simp only [SlashReplies.step, ha, hm] at hs
        cases hs
      | cons m rest =>
        simp only [SlashReplies.step, ha, hm] at hs
        rw [← Option.some.inj hs]
        unfold Careful at hok
        rw [hm] at hok
        cases m with
        | cast entry target ref => exact h.take_cast ha hm (hok entry rfl)
        | commandResult r result => exact h.take_result ha hm
        | timeout r => exact h.take_timeout ha hm
        | other =>
          exact h.record_quiet hm rfl rfl 0 rfl (fun _ _ => rfl) (fun _ _ => ha)
            (fun _ hmem => hmem) (.inr rfl)

end ReplyInv

/-! ## Runs -/

/-- **Every started dispatch is answered exactly once**, in every run in which no
dispatch makes the handler raise while commands are pending. -/
theorem exactlyOnce_of_careful {n : Node R} (h : Reaches step Careful start n) : ExactlyOnce n :=
  (h.invariant ReplyInv.start fun _ _ _ hinv hok hs => hinv.step hok hs).exactlyOnce

/-! ## A command that ends the handler -/

instance (n : Node R) : (a : Act R) → Decidable (Careful n a)
  | .take rt table => inferInstanceAs (Decidable (∀ entry ∈ n.mailbox.head?.bind Msg.entry?,
      takes rt table entry = true ∨ n.pending.keys = []))
  | .arrive _ | .fire _ => isTrue trivial

/-- The grants of an administrator. -/
def adminTable : Grants.Table := Ets.empty.insert "ou_admin" ["*"]

/-- A `cap_grant` command of a queue file. -/
def grantBy (submittedBy : Value) : Entry :=
  .queue [(.str "kind", .str "cap_grant"), (.str "submitted_by", submittedBy)]

/-- A command, its result, the same result again, and the timeout that was already in
the mailbox. -/
def resultTwice : List (Act Nat) :=
  [.arrive (.cast (grantBy (.str "ou_admin")) 1 0), .take capGrantRuntime adminTable, .fire 0,
    .arrive (.commandResult 0 42), .arrive (.commandResult 0 42),
    .take capGrantRuntime adminTable, .take capGrantRuntime adminTable,
    .take capGrantRuntime adminTable]

/-- A command that is started, and one whose submitter is a number. -/
def numberedSubmitter : List (Act Nat) :=
  [.arrive (.cast (grantBy (.str "ou_admin")) 1 0), .take capGrantRuntime adminTable,
    .arrive (.cast (grantBy (.int 12345)) 2 1), .take capGrantRuntime adminTable]

theorem exactlyOnce_resultTwice :
    ∃ n : Node Nat, (sentIn 0 n.history).map (fun s => (s.ref, s.target)) = [(0, 1)] ∧
      ExactlyOnce n := by
  have hrun : (exec step Careful (start : Node Nat) resultTwice).map
      (fun n => (sentIn 0 n.history).map fun s => (s.ref, s.target)) = some [(0, 1)] := by
    decide +kernel
  obtain ⟨n, hn, hsent⟩ := Option.map_eq_some_iff.mp hrun
  exact ⟨n, hsent, exactlyOnce_of_careful (.of_exec hn)⟩

/-- **The second command ends the handler**, with the first one pending. -/
theorem not_exactlyOnce_numberedSubmitter :
    ¬∀ (R : Type) (n : Node R), Reaches step anyStep start n → ExactlyOnce n := by
  intro h
  have hrun : (exec step anyStep (start : Node Nat) numberedSubmitter).map
      (fun n => (n.pending.lookup 0, n.alive)) = some (some 1, false) := by decide +kernel
  obtain ⟨n, hn, he⟩ := Option.map_eq_some_iff.mp hrun
  obtain ⟨hp, hdead⟩ := Prod.mk.inj he
  have halive := ((h Nat n (.of_exec hn)).waiting 0 1 hp).1
  rw [hdead] at halive
  cases halive

end SlashReplies
end Esr
