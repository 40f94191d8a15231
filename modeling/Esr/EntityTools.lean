import Esr.EntityTotality

/-! # The results of tool requests

A tool request the server accepts becomes a directive with a new id, noted in
`pending_directives` and `pending_tool_reqs`, with a timer for its deadline.  Its
acknowledgement or its deadline, whichever is taken first, sends the result and
takes the id out of both maps, so that the other, or a second acknowledgement, finds
nothing.

`Answered` says that every accepted request gets exactly one result when it is
concluded, that until then it is noted and its deadline is under way, and that no
other message sends it one.  It holds in every run in which the server does not raise
while a request is noted (`Careful`): an acknowledgement whose payload is no map
raises before the result is sent, and the server takes its notes with it.
-/
namespace Esr
namespace EntityServer
open Yaml

/-- An accepted request: the id of its directive, and whom to answer. -/
structure Accepted where
  id : String
  reqId : Value
  pid : Pid

/-- The result sent. -/
def Effect.result? : Effect → Option (Pid × Value × Entries)
  | .toolResult pid reqId result => some (pid, reqId, result)
  | _ => none

namespace Taken

/-- The request accepted with the message: its directive has been started. -/
def accepted (t : Taken) : Option Accepted :=
  match t.msg with
  | .toolInvoke reqId _ _ pid _ =>
      (t.effects.findSome? Effect.started?).map fun id => ⟨id, reqId, pid⟩
  | _ => none

/-- The message is an acknowledgement or the deadline of the directive. -/
def concludes (t : Taken) (id : String) : Bool :=
  match t.msg with
  | .directiveAck i _ | .directiveDeadline i => decide (i = id)
  | _ => false

/-- The results sent. -/
def results (t : Taken) : List (Pid × Value × Entries) := t.effects.filterMap Effect.result?

end Taken

/-- None of the messages concludes the directive. -/
def Unconcluded (after : List Taken) (id : String) : Prop :=
  ∀ u ∈ after, u.concludes id = false

/-- Some of the messages conclude the request, and between them they have sent one
result, to the channel of the request. -/
def ConcludedOnce (after : List Taken) (a : Accepted) : Prop :=
  (∃ u ∈ after, u.concludes a.id = true) ∧
    ∃ r, (after.filter fun u => u.concludes a.id).flatMap Taken.results = [(a.pid, a.reqId, r)]

/-- The request is noted, and its deadline will come. -/
def Waits (n : Node) (s : State) (a : Accepted) : Prop :=
  s.pendingToolReqs.lookup a.id = some (a.reqId, a.pid) ∧
    (a.id ∈ n.timers ∨ Msg.directiveDeadline a.id ∈ n.mailbox)

/-- Every accepted request is answered once. -/
structure Answered (n : Node) : Prop where
  covered : ∀ s, n.server = some s → ∀ id, (s.pendingToolReqs.lookup id).isSome = true →
    (s.pendingDirectives.lookup id).isSome = true
  concluded : ∀ before t after a, n.history = before ++ t :: after → t.accepted = some a →
    (∃ u ∈ after, u.concludes a.id = true) → ConcludedOnce after a
  waiting : ∀ before t after a, n.history = before ++ t :: after → t.accepted = some a →
    Unconcluded after a.id → ∃ s, n.server = some s ∧ Waits n s a
  only : ∀ before u after, n.history = before ++ u :: after → ∀ r ∈ u.results,
    (u.accepted = none ∧ ∃ tool args principal, u.msg = .toolInvoke r.2.1 tool args r.1 principal) ∨
      ∃ t ∈ before, ∃ a, t.accepted = some a ∧ u.concludes a.id = true ∧
        r.1 = a.pid ∧ r.2.1 = a.reqId

/-- The message the server takes is one it takes without raising, unless no request
is noted. -/
def Careful (rt : Runtime) (n : Node) : Act → Prop
  | .take ans => ∀ s ∈ n.server, ∀ m ∈ n.mailbox.head?,
      takes rt ans s m = true ∨ s.pendingToolReqs.keys = []
  | _ => True

/-! ## One message -/

/-- The requests noted are as before, and so are their directives. -/
structure Unmoved (s s' : State) : Prop where
  toolReqs : s'.pendingToolReqs = s.pendingToolReqs
  directives : s.directives ≤ s'.directives
  covered : ∀ id, (s.pendingToolReqs.lookup id).isSome = true →
    (s.pendingDirectives.lookup id).isSome = true → (s'.pendingDirectives.lookup id).isSome = true

namespace Unmoved
variable {s s' s'' : State}

theorem of_eq (hreqs : s'.pendingToolReqs = s.pendingToolReqs)
    (hcount : s'.directives = s.directives)
    (hdirs : s'.pendingDirectives = s.pendingDirectives) : Unmoved s s' :=
  ⟨hreqs, Nat.le_of_eq hcount.symm, fun id _ h => by rw [hdirs]; exact h⟩

theorem refl (s : State) : Unmoved s s := of_eq rfl rfl rfl

theorem trans (h : Unmoved s s') (h' : Unmoved s' s'') : Unmoved s s'' := by
  refine ⟨h'.toolReqs.trans h.toolReqs, h.directives.trans h'.directives, ?_⟩
  intro id hreq hdir
  refine h'.covered id ?_ (h.covered id hreq hdir)
  rw [h.toolReqs]
  exact hreq

end Unmoved

theorem Ets.isSome_insert {V : Type} (t : Ets String V) (k id : String) (v : V)
    (h : (t.lookup id).isSome = true) : ((t.insert k v).lookup id).isSome = true := by
  rw [Ets.lookup_insert]
  split_ifs
  · rfl
  · exact h

theorem track_unmoved (rt : Runtime) (adapter : String) (action : Entries) (s : State) :
    Unmoved s (track rt adapter action s).2.1 :=
  ⟨rfl, Nat.le_succ _, fun id _ h => Ets.isSome_insert _ _ id _ h⟩

theorem dispatchActions_unmoved (rt : Runtime) {s s' : State} {actions : List Value}
    (h : (dispatchActions rt s actions).next = some s') : Unmoved s s' := by
  induction actions generalizing s with
  | nil =>
    obtain rfl := Option.some.inj h
    exact .refl s
  | cons action rest ih =>
    unfold dispatchActions at h
    cases hd : dispatchAction rt s action with
    | none =>
      rw [hd] at h
      cases h
    | some r =>
      rw [hd] at h
      refine Unmoved.trans ?_ (ih h)
      rcases dispatchAction_cases hd with ⟨he, -⟩ | ⟨adapter, entries, ht⟩
      · rw [he]
        exact .refl s
      · rw [← congrArg Prod.fst ht]
        exact track_unmoved rt adapter entries s

theorem handleEvent_unmoved {rt : Runtime} {ans : Answers} {s s' : State} {envelope : Entries}
    (h : (handleEvent rt ans s envelope).next = some s') : Unmoved s s' := by
  rcases handleEvent_cases rt ans s envelope with he | ⟨es, -, he⟩ | ⟨key, -, -, he⟩
  · rw [he] at h
    cases h
  · rw [he] at h
    obtain rfl := Option.some.inj h
    exact .refl s
  · rw [he] at h
    rcases invokeHandler_cases rt ans s envelope key with ⟨newState, actions, hi⟩ |
      ⟨es, -, hi | hi⟩
    · rw [hi] at h
      have hstart : Unmoved s (recordDedup { s with state := newState } key) := by
        cases key <;> exact .of_eq rfl rfl rfl
      exact hstart.trans (dispatchActions_unmoved rt h)
    · rw [hi] at h
      cases h
    · rw [hi] at h
      obtain rfl := Option.some.inj h
      exact .refl s

/-- What a message does to the requests noted. -/
inductive ToolStep (rt : Runtime) (s : State) (t : Taken) : Option State → Prop
  | quiet {next : Option State} : t.accepted = none →
      (∀ r ∈ t.results, ∃ tool args principal, t.msg = .toolInvoke r.2.1 tool args r.1 principal) →
      (∀ s', next = some s' → Unmoved s s' ∧
        ∀ id, t.concludes id = true → s.pendingToolReqs.lookup id = none) →
      ToolStep rt s t next
  | accepts {reqId : Value} {pid : Pid} {action : Entries} {s' : State} :
      t.accepted = some ⟨rt.newId s.directives, reqId, pid⟩ → t.results = [] →
      (∀ id, t.concludes id = false) →
      s'.pendingToolReqs = s.pendingToolReqs.insert (rt.newId s.directives) (reqId, pid) →
      s'.pendingDirectives = s.pendingDirectives.insert (rt.newId s.directives) action →
      s'.directives = s.directives + 1 →
      t.effects.filterMap Effect.started? = [rt.newId s.directives] →
      ToolStep rt s t (some s')
  | concludes {id : String} {reqId : Value} {pid : Pid} (result : Entries) :
      t.accepted = none → (∀ i, t.concludes i = decide (id = i)) →
      s.pendingToolReqs.lookup id = some (reqId, pid) → t.results = [(pid, reqId, result)] →
      ToolStep rt s t (some (s.forget id))

section
variable {rt : Runtime} {ans : Answers} {s : State}

theorem filterMap_eq_nil_of_kind {β : Type} {es : List Effect} {kinds : List Kind}
    {f : Effect → Option β} (h : ∀ e ∈ es, e.kind ∈ kinds)
    (hf : ∀ e, e.kind ∈ kinds → f e = none) : es.filterMap f = [] :=
  List.filterMap_eq_nil_iff.mpr fun e he => hf e (h e he)

theorem Effect.result?_eq_none {e : Effect} (h : e.kind ≠ .result) : e.result? = none := by
  cases e with
  | toolResult pid reqId result => exact absurd rfl h
  | _ => rfl

theorem toolStep_of_sends {m : Msg} {kinds : List Kind}
    (haccepted : (takenIn rt ans s m).accepted = none)
    (hconcludes : ∀ id, (takenIn rt ans s m).concludes id = false)
    (hsends : (handle rt ans s m).Sends kinds) (hk : Kind.result ∉ kinds)
    (hnext : ∀ s', (handle rt ans s m).next = some s' → Unmoved s s') :
    ToolStep rt s (takenIn rt ans s m) (handle rt ans s m).next := by
  have hnone : (takenIn rt ans s m).results = [] :=
    filterMap_eq_nil_of_kind hsends fun e he =>
      Effect.result?_eq_none fun hr => hk (hr ▸ he)
  refine .quiet haccepted ?_ fun s' hs' => ⟨hnext s' hs', fun id hid => ?_⟩
  · rw [hnone]
    rintro r ⟨⟩
  · rw [hconcludes id] at hid
    cases hid

theorem toolStep_call (c : Call) :
    ToolStep rt s (takenIn rt ans s (.call c)) (handle rt ans s (.call c)).next := by
  refine toolStep_of_sends rfl (fun _ => rfl) ?_
    (show Kind.result ∉ [Kind.resent, Kind.other] by decide) ?_
  · exact handleCall_sends s c
  · intro s' hs'
    cases c <;> (obtain rfl := Option.some.inj hs'; exact .of_eq rfl rfl rfl)

theorem toolStep_event (envelope : Entries) :
    ToolStep rt s (takenIn rt ans s (.inboundEvent envelope))
      (handle rt ans s (.inboundEvent envelope)).next := by
  refine toolStep_of_sends rfl (fun _ => rfl) ?_
    (show Kind.result ∉ [Kind.handler, Kind.timer, Kind.other] by decide) ?_
  · unfold handle
    dsimp only
    split_ifs
    · exact holdEvent_sends s _ envelope
    · exact handleEvent_sends rt ans s envelope
  · intro s' hs'
    unfold handle at hs'
    dsimp only at hs'
    split_ifs at hs'
    · unfold holdEvent at hs'
      split_ifs at hs' <;> (obtain rfl := Option.some.inj hs'; exact .of_eq rfl rfl rfl)
    · exact handleEvent_unmoved hs'

theorem toolStep_of_own {reqId tool args : Value} {pid : Pid} {principal : Value}
    (hnext : ∀ s', (handle rt ans s (.toolInvoke reqId tool args pid principal)).next = some s' →
      s' = s)
    (hstarted : ∀ e ∈ (handle rt ans s (.toolInvoke reqId tool args pid principal)).effects,
      e.started? = none)
    (hown : ∀ e ∈ (handle rt ans s (.toolInvoke reqId tool args pid principal)).effects,
      ∀ r, e.result? = some r → r.1 = pid ∧ r.2.1 = reqId) :
    ToolStep rt s (takenIn rt ans s (.toolInvoke reqId tool args pid principal))
      (handle rt ans s (.toolInvoke reqId tool args pid principal)).next := by
  refine .quiet ?_ ?_ ?_
  · show ((handle rt ans s (.toolInvoke reqId tool args pid principal)).effects.findSome?
      Effect.started?).map _ = none
    rw [List.findSome?_eq_none_iff.mpr hstarted]
    rfl
  · intro r hr
    obtain ⟨e, he, hre⟩ := List.mem_filterMap.mp hr
    obtain ⟨hpid, hreq⟩ := hown e he r hre
    exact ⟨tool, args, principal, by rw [hpid, hreq]; rfl⟩
  · intro s' hs'
    refine ⟨?_, fun id hid => by cases hid⟩
    rw [hnext s' hs']
    exact .refl s

theorem toolStep_tool (reqId tool args : Value) (pid : Pid) (principal : Value) :
    ToolStep rt s (takenIn rt ans s (.toolInvoke reqId tool args pid principal))
      (handle rt ans s (.toolInvoke reqId tool args pid principal)).next := by
  have hown : ∀ o, handle rt ans s (.toolInvoke reqId tool args pid principal) = o →
      (∀ s', o.next = some s' → s' = s) → (∀ e ∈ o.effects, e.started? = none) →
      (∀ e ∈ o.effects, ∀ r, e.result? = some r → r.1 = pid ∧ r.2.1 = reqId) →
      ToolStep rt s (takenIn rt ans s (.toolInvoke reqId tool args pid principal))
        (handle rt ans s (.toolInvoke reqId tool args pid principal)).next := by
    rintro o rfl hnext hstarted hresult
    exact toolStep_of_own hnext hstarted hresult
  rcases handleToolInvoke_cases rt ans s reqId tool args pid principal with
    h | ⟨error, h⟩ | ⟨built, h⟩
  · refine hown _ h ?_ ?_ ?_
    · rintro s' ⟨⟩
    · rintro e ⟨⟩
    · rintro e ⟨⟩
  · refine hown _ h ?_ ?_ ?_
    · rintro s' ⟨⟩
      rfl
    · simp [Effect.started?]
    · simp [Effect.result?]
  · cases built with
    | directAck sessionId status details =>
      refine hown _ h ?_ ?_ ?_
      · rintro s' ⟨⟩
        rfl
      · simp [answerTool, Effect.started?]
      · simp [answerTool, Effect.result?]
    | error reason =>
      refine hown _ h ?_ ?_ ?_
      · rintro s' ⟨⟩
        rfl
      · simp [answerTool, Effect.started?]
      · simp [answerTool, Effect.result?]
    | emit action =>
      cases hadapter : get "adapter" action with
      | none =>
        have hraised : answerTool rt s reqId pid (.emit action) = .raised := by
          simp [answerTool, emitAndTrack, hadapter]
        refine hown _ (h.trans hraised) ?_ ?_ ?_
        · rintro s' ⟨⟩
        · rintro e ⟨⟩
        · rintro e ⟨⟩
      | some adapter =>
        cases adapter with
        | str adapter =>
          have htracked : handle rt ans s (.toolInvoke reqId tool args pid principal) =
              ⟨(track rt adapter action s).2.2, some { (track rt adapter action s).2.1 with
                pendingToolReqs := s.pendingToolReqs.insert (rt.newId s.directives)
                  (reqId, pid) }⟩ := by
            refine Eq.trans h ?_
            simp only [answerTool, emitAndTrack, hadapter]
            rfl
          have heffects : (takenIn rt ans s (.toolInvoke reqId tool args pid principal)).effects =
              (track rt adapter action s).2.2 := congrArg Outcome.effects htracked
          rw [htracked]
          refine .accepts ?_ ?_ (fun _ => rfl) rfl
            (show _ = s.pendingDirectives.insert (rt.newId s.directives) action from rfl) rfl ?_
          · show ((takenIn rt ans s (.toolInvoke reqId tool args pid principal)).effects.findSome?
              Effect.started?).map _ = _
            rw [heffects]
            rfl
          · rw [Taken.results, heffects]
            rfl
          · rw [heffects]
            rfl
        | _ =>
          have hraised : answerTool rt s reqId pid (.emit action) = .raised := by
            simp [answerTool, emitAndTrack, hadapter]
          refine hown _ (h.trans hraised) ?_ ?_ ?_
          · rintro s' ⟨⟩
          · rintro e ⟨⟩
          · rintro e ⟨⟩

theorem toolStep_of_concluded {m : Msg} {id : String} {o : Outcome} (ho : handle rt ans s m = o)
    (hm : ∀ i, (takenIn rt ans s m).concludes i = decide (id = i))
    (haccepted : (takenIn rt ans s m).accepted = none) (h : Concluded s id o) :
    ToolStep rt s (takenIn rt ans s m) o.next := by
  have heffects : (takenIn rt ans s m).effects = o.effects := congrArg Outcome.effects ho
  cases h with
  | answered result hreq =>
    refine .concludes result haccepted hm hreq ?_
    rw [Taken.results, heffects]
    rfl
  | forgotten hreq =>
    refine .quiet haccepted ?_ ?_
    · rw [Taken.results, heffects]
      rintro r ⟨⟩
    · rintro s' ⟨⟩
      refine ⟨⟨rfl, Nat.le_refl _, fun i hi hdir => ?_⟩, fun i hi => ?_⟩
      · have hne : i ≠ id := by
          rintro rfl
          rw [hreq] at hi
          cases hi
        rw [Ets.lookup_delete_of_ne _ hne]
        exact hdir
      · rw [hm i] at hi
        rw [← of_decide_eq_true hi]
        exact hreq
  | unknown hreq =>
    refine .quiet haccepted ?_ ?_
    · rw [Taken.results, heffects]
      rintro r ⟨⟩
    · rintro s' ⟨⟩
      refine ⟨.refl s, fun i hi => ?_⟩
      rw [hm i] at hi
      rw [← of_decide_eq_true hi]
      exact hreq

theorem handle_toolStep (m : Msg) :
    ToolStep rt s (takenIn rt ans s m) (handle rt ans s m).next := by
  cases m with
  | call c => exact toolStep_call c
  | inboundEvent envelope => exact toolStep_event envelope
  | toolInvoke reqId tool args pid principal => exact toolStep_tool reqId tool args pid principal
  | directiveAck id payload =>
    rcases handleDirectiveAck_cases s id payload with h | h
    · have hraised : handle rt ans s (.directiveAck id payload) = .raised := h
      refine .quiet rfl ?_ ?_
      · rw [Taken.results, show (takenIn rt ans s (.directiveAck id payload)).effects = [] from
          congrArg Outcome.effects hraised]
        rintro r ⟨⟩
      · rw [hraised]
        rintro s' ⟨⟩
    · exact toolStep_of_concluded rfl (fun _ => rfl) rfl h
  | directiveDeadline id =>
    exact toolStep_of_concluded rfl (fun _ => rfl) rfl (handleDirectiveDeadline_concluded s id)
  | exit =>
    exact toolStep_of_sends rfl (fun _ => rfl) (Outcome.sends_nil _) List.not_mem_nil
      (by rintro s' ⟨⟩; exact .refl s)
  | handlerReply envelope =>
    exact toolStep_of_sends rfl (fun _ => rfl) (Outcome.sends_nil _) List.not_mem_nil
      (by rintro s' ⟨⟩)

end

/-! ## Histories -/

theorem Unconcluded.snoc {after : List Taken} {u : Taken} {id : String} (h : Unconcluded after id)
    (hu : u.concludes id = false) : Unconcluded (after ++ [u]) id := by
  intro v hv
  rcases List.mem_append.mp hv with hold | hnew
  · exact h v hold
  · rw [List.mem_singleton.mp hnew]
    exact hu

theorem ConcludedOnce.snoc {after : List Taken} {a : Accepted} {u : Taken}
    (h : ConcludedOnce after a) (hu : u.concludes a.id = true → u.results = []) :
    ConcludedOnce (after ++ [u]) a := by
  obtain ⟨⟨v, hv, hc⟩, r, hr⟩ := h
  refine ⟨⟨v, List.mem_append_left _ hv, hc⟩, r, ?_⟩
  rw [List.filter_append, List.flatMap_append, hr]
  cases hcu : u.concludes a.id with
  | false => simp [hcu]
  | true => simp [hcu, hu hcu]

theorem ConcludedOnce.of_first {after : List Taken} {a : Accepted} {u : Taken} {r : Entries}
    (h : Unconcluded after a.id) (hu : u.concludes a.id = true)
    (hresult : u.results = [(a.pid, a.reqId, r)]) : ConcludedOnce (after ++ [u]) a := by
  refine ⟨⟨u, List.mem_append_right _ List.mem_cons_self, hu⟩, r, ?_⟩
  have hnone : after.filter (fun u => u.concludes a.id) = [] := by
    rw [List.filter_eq_nil_iff]
    intro v hv
    rw [h v hv]
    exact Bool.false_ne_true
  rw [List.filter_append, hnone, List.nil_append]
  simp [hu, hresult]

/-- The invariant: a server that is there has every accepted request noted until it is
concluded, under an id given out before; one that has raised has none. -/
structure ToolInv (rt : Runtime) (n : Node) : Prop where
  covered : ∀ s, n.server = some s → ∀ id, (s.pendingToolReqs.lookup id).isSome = true →
    (s.pendingDirectives.lookup id).isSome = true
  inHistory : ∀ s, n.server = some s → ∀ id reqId pid,
    s.pendingToolReqs.lookup id = some (reqId, pid) →
    ∃ t ∈ n.history, t.accepted = some ⟨id, reqId, pid⟩
  fresh : ∀ s, n.server = some s → ∀ t ∈ n.history, ∀ a, t.accepted = some a →
    ∃ k < s.directives, a.id = rt.newId k
  stage : ∀ before t after a, n.history = before ++ t :: after → t.accepted = some a →
    (Unconcluded after a.id ∧ ∃ s, n.server = some s ∧ Waits n s a) ∨
      (ConcludedOnce after a ∧ ∀ s, n.server = some s → s.pendingToolReqs.lookup a.id = none)
  only : ∀ before u after, n.history = before ++ u :: after → ∀ r ∈ u.results,
    (u.accepted = none ∧ ∃ tool args principal, u.msg = .toolInvoke r.2.1 tool args r.1 principal) ∨
      ∃ t ∈ before, ∃ a, t.accepted = some a ∧ u.concludes a.id = true ∧
        r.1 = a.pid ∧ r.2.1 = a.reqId

namespace ToolInv
variable {rt : Runtime} {n : Node}

theorem start {s : State} (hreqs : s.pendingToolReqs = .empty) : ToolInv rt (start s) := by
  refine ⟨?_, ?_, ?_, ?_, ?_⟩
  · rintro s' ⟨⟩ id h
    rw [hreqs, Ets.lookup_empty] at h
    cases h
  · rintro s' ⟨⟩ id reqId pid h
    rw [hreqs, Ets.lookup_empty] at h
    cases h
  · rintro s' - t ⟨⟩
  · intro before t after a he
    exact absurd he (by simp [EntityServer.start])
  · intro before u after he
    exact absurd he (by simp [EntityServer.start])

theorem same {n' : Node} (h : ToolInv rt n) (hserver : n'.server = n.server)
    (hhistory : n'.history = n.history)
    (hwaits : ∀ s a, Waits n s a → Waits n' s a) : ToolInv rt n' := by
  refine ⟨?_, ?_, ?_, ?_, ?_⟩
  · rw [hserver]
    exact h.covered
  · rw [hserver, hhistory]
    exact h.inHistory
  · rw [hserver, hhistory]
    exact h.fresh
  · rw [hserver, hhistory]
    intro before t after a he ht
    rcases h.stage before t after a he ht with ⟨hnone, s, hs, hw⟩ | hdone
    · exact .inl ⟨hnone, s, hs, hwaits s a hw⟩
    · exact .inr hdone
  · rw [hhistory]
    exact h.only

theorem answered (h : ToolInv rt n) : Answered n := by
  refine ⟨h.covered, ?_, ?_, h.only⟩
  · rintro before t after a he ht ⟨u, hu, hc⟩
    rcases h.stage before t after a he ht with ⟨hnone, -⟩ | ⟨hdone, -⟩
    · rw [hnone u hu] at hc
      cases hc
    · exact hdone
  · intro before t after a he ht hnone
    rcases h.stage before t after a he ht with ⟨-, hwaits⟩ | ⟨⟨⟨u, hu, hc⟩, -⟩, -⟩
    · exact hwaits
    · rw [hnone u hu] at hc
      cases hc

section
variable {ans : Answers} {s : State} {m : Msg} {rest : List Msg}

theorem waits_take {s' : State} {a : Accepted} (h : Waits n s a) (hm : n.mailbox = m :: rest)
    (hnot : (takenIn rt ans s m).concludes a.id = false)
    (hlookup : s'.pendingToolReqs.lookup a.id = s.pendingToolReqs.lookup a.id) :
    Waits (n.take rt ans s m rest) s' a := by
  obtain ⟨hreq, htimer⟩ := h
  refine ⟨hlookup.trans hreq, ?_⟩
  rcases htimer with ht | hd
  · exact .inl (List.mem_append_left _ ht)
  · rw [hm] at hd
    rcases List.mem_cons.mp hd with rfl | hrest
    · have hyes : (takenIn rt ans s (.directiveDeadline a.id)).concludes a.id = true :=
        decide_eq_true rfl
      rw [hyes] at hnot
      cases hnot
    · exact .inr hrest

theorem only_take (h : ToolInv rt n)
    (hu : ∀ r ∈ (takenIn rt ans s m).results, ((takenIn rt ans s m).accepted = none ∧
      ∃ tool args principal, (takenIn rt ans s m).msg = .toolInvoke r.2.1 tool args r.1 principal) ∨
      ∃ t ∈ n.history, ∃ a, t.accepted = some a ∧ (takenIn rt ans s m).concludes a.id = true ∧
        r.1 = a.pid ∧ r.2.1 = a.reqId) :
    ∀ before u after, (n.take rt ans s m rest).history = before ++ u :: after → ∀ r ∈ u.results,
      (u.accepted = none ∧
        ∃ tool args principal, u.msg = .toolInvoke r.2.1 tool args r.1 principal) ∨
      ∃ t ∈ before, ∃ a, t.accepted = some a ∧ u.concludes a.id = true ∧
        r.1 = a.pid ∧ r.2.1 = a.reqId := by
  intro before u after he
  rcases snoc_eq_split he with ⟨-, rfl, rfl⟩ | ⟨after', rfl, hold⟩
  · exact hu
  · exact h.only before u after' hold

theorem take_quiet (h : ToolInv rt n) (hs : n.server = some s) (hm : n.mailbox = m :: rest)
    (hok : takes rt ans s m = true ∨ s.pendingToolReqs.keys = [])
    (haccepted : (takenIn rt ans s m).accepted = none)
    (hown : ∀ r ∈ (takenIn rt ans s m).results, ∃ tool args principal,
      (takenIn rt ans s m).msg = .toolInvoke r.2.1 tool args r.1 principal)
    (hnext : ∀ s', (handle rt ans s m).next = some s' → Unmoved s s' ∧
      ∀ id, (takenIn rt ans s m).concludes id = true → s.pendingToolReqs.lookup id = none) :
    ToolInv rt (n.take rt ans s m rest) := by
  -- while a request is noted, the message is one the server takes
  have hup : ∀ id, s.pendingToolReqs.lookup id ≠ none →
      ∃ s', (handle rt ans s m).next = some s' := by
    intro id hid
    rcases hok with ht | hnone
    · rw [← handle_next_isSome] at ht
      exact Option.isSome_iff_exists.mp ht
    · obtain ⟨v, hv⟩ := Option.ne_none_iff_exists'.mp hid
      have hmem := Ets.mem_keys.mpr ⟨v, hv⟩
      rw [hnone] at hmem
      cases hmem
  have hsilent : ∀ id, (takenIn rt ans s m).concludes id = true →
      (takenIn rt ans s m).results = [] := by
    intro id hid
    refine List.eq_nil_iff_forall_not_mem.mpr fun r hr => ?_
    obtain ⟨tool, args, principal, hmsg⟩ := hown r hr
    unfold Taken.concludes at hid
    rw [hmsg] at hid
    cases hid
  refine ⟨?_, ?_, ?_, ?_, h.only_take fun r hr => .inl ⟨haccepted, hown r hr⟩⟩
  · intro s' hs' id hid
    obtain ⟨hunmoved, -⟩ := hnext s' hs'
    rw [hunmoved.toolReqs] at hid
    exact hunmoved.covered id hid (h.covered s hs id hid)
  · intro s' hs' id reqId pid hid
    rw [(hnext s' hs').1.toolReqs] at hid
    obtain ⟨t, ht, ha⟩ := h.inHistory s hs id reqId pid hid
    exact ⟨t, List.mem_append_left _ ht, ha⟩
  · intro s' hs' t ht a ha
    rcases List.mem_append.mp ht with hold | hnew
    · obtain ⟨k, hk, hid⟩ := h.fresh s hs t hold a ha
      exact ⟨k, lt_of_lt_of_le hk (hnext s' hs').1.directives, hid⟩
    · rw [List.mem_singleton.mp hnew, haccepted] at ha
      cases ha
  · intro before t after a he ha
    rcases snoc_eq_split he with ⟨-, rfl, -⟩ | ⟨after', rfl, hold⟩
    · rw [haccepted] at ha
      cases ha
    · rcases h.stage before t after' a hold ha with ⟨hnone, s₁, hs₁, hw⟩ | ⟨hdone, hgone⟩
      · obtain rfl := Option.some.inj (hs.symm.trans hs₁)
        have hsome : s.pendingToolReqs.lookup a.id ≠ none := by
          rw [hw.1]
          exact Option.some_ne_none _
        obtain ⟨s', hs'⟩ := hup a.id hsome
        have hnot : (takenIn rt ans s m).concludes a.id = false := by
          rw [Bool.eq_false_iff]
          exact fun hc => hsome ((hnext s' hs').2 a.id hc)
        refine .inl ⟨hnone.snoc hnot, s', hs', waits_take hw hm hnot ?_⟩
        rw [(hnext s' hs').1.toolReqs]
      · refine .inr ⟨hdone.snoc (hsilent a.id), fun s' hs' => ?_⟩
        rw [(hnext s' hs').1.toolReqs]
        exact hgone s hs

theorem take_accepts (h : ToolInv rt n) (hs : n.server = some s) (hm : n.mailbox = m :: rest)
    {s' : State} {reqId : Value} {pid : Pid} {action : Entries}
    (hnext : (handle rt ans s m).next = some s')
    (haccepted : (takenIn rt ans s m).accepted = some ⟨rt.newId s.directives, reqId, pid⟩)
    (hresults : (takenIn rt ans s m).results = [])
    (hnot : ∀ id, (takenIn rt ans s m).concludes id = false)
    (hreqs : s'.pendingToolReqs = s.pendingToolReqs.insert (rt.newId s.directives) (reqId, pid))
    (hdirs : s'.pendingDirectives = s.pendingDirectives.insert (rt.newId s.directives) action)
    (hcount : s'.directives = s.directives + 1)
    (hstarted : (takenIn rt ans s m).effects.filterMap Effect.started? =
      [rt.newId s.directives]) : ToolInv rt (n.take rt ans s m rest) := by
  have hserver : ∀ s'', (n.take rt ans s m rest).server = some s'' → s'' = s' :=
    fun s'' hs'' => Option.some.inj (hs''.symm.trans hnext)
  -- the ids of the requests accepted before are older
  have hold : ∀ t ∈ n.history, ∀ a, t.accepted = some a → a.id ≠ rt.newId s.directives := by
    intro t ht a ha he
    obtain ⟨k, hk, hid⟩ := h.fresh s hs t ht a ha
    have hsame := rt.newId_injective (hid.symm.trans he)
    omega
  refine ⟨?_, ?_, ?_, ?_, h.only_take fun r hr => ?_⟩
  · intro s'' hs'' id hid
    rw [hserver s'' hs''] at hid ⊢
    rw [hdirs, Ets.lookup_insert]
    rw [hreqs, Ets.lookup_insert] at hid
    split_ifs at hid ⊢
    · rfl
    · exact h.covered s hs id hid
  · intro s'' hs'' id req p hid
    rw [hserver s'' hs'', hreqs, Ets.lookup_insert] at hid
    split_ifs at hid with he
    · obtain ⟨rfl, rfl⟩ := Prod.mk.inj (Option.some.inj hid)
      rw [he]
      exact ⟨takenIn rt ans s m, List.mem_append_right _ List.mem_cons_self, haccepted⟩
    · obtain ⟨t, ht, ha⟩ := h.inHistory s hs id req p hid
      exact ⟨t, List.mem_append_left _ ht, ha⟩
  · intro s'' hs'' t ht a ha
    rw [hserver s'' hs'', hcount]
    rcases List.mem_append.mp ht with hbefore | hnew
    · obtain ⟨k, hk, hid⟩ := h.fresh s hs t hbefore a ha
      exact ⟨k, Nat.lt_succ_of_lt hk, hid⟩
    · rw [List.mem_singleton.mp hnew, haccepted] at ha
      obtain rfl := Option.some.inj ha
      exact ⟨s.directives, Nat.lt_succ_self _, rfl⟩
  · intro before t after a he ha
    rcases snoc_eq_split he with ⟨rfl, rfl, -⟩ | ⟨after', rfl, hbefore⟩
    · rw [haccepted] at ha
      obtain rfl := Option.some.inj ha
      refine .inl ⟨?_, s', hnext, ?_, .inl ?_⟩
      · rintro u ⟨⟩
      · rw [hreqs, Ets.lookup_insert_self]
      · refine List.mem_append_right _ ?_
        show rt.newId s.directives ∈ (takenIn rt ans s m).effects.filterMap Effect.started?
        rw [hstarted]
        exact List.mem_cons_self
    · have hne : a.id ≠ rt.newId s.directives :=
        hold t (by rw [hbefore]; simp) a ha
      rcases h.stage before t after' a hbefore ha with ⟨hnone, s₁, hs₁, hw⟩ | ⟨hdone, hgone⟩
      · obtain rfl := Option.some.inj (hs.symm.trans hs₁)
        refine .inl ⟨hnone.snoc (hnot a.id), s', hnext, waits_take hw hm (hnot a.id) ?_⟩
        rw [hreqs, Ets.lookup_insert_of_ne _ _ hne]
      · refine .inr ⟨hdone.snoc fun hc => ?_, fun s'' hs'' => ?_⟩
        · exact hresults
        · rw [hserver s'' hs'', hreqs, Ets.lookup_insert_of_ne _ _ hne]
          exact hgone s hs
  · rw [hresults] at hr
    cases hr

theorem take_concludes (h : ToolInv rt n) (hs : n.server = some s) (hm : n.mailbox = m :: rest)
    {id : String} {reqId : Value} {pid : Pid} {result : Entries}
    (hnext : (handle rt ans s m).next = some (s.forget id))
    (haccepted : (takenIn rt ans s m).accepted = none)
    (hconcludes : ∀ i, (takenIn rt ans s m).concludes i = decide (id = i))
    (hreq : s.pendingToolReqs.lookup id = some (reqId, pid))
    (hresults : (takenIn rt ans s m).results = [(pid, reqId, result)]) :
    ToolInv rt (n.take rt ans s m rest) := by
  have hserver : ∀ s', (n.take rt ans s m rest).server = some s' → s' = s.forget id :=
    fun s' hs' => Option.some.inj (hs'.symm.trans hnext)
  refine ⟨?_, ?_, ?_, ?_, h.only_take fun r hr => .inr ?_⟩
  · intro s' hs' i hi
    rw [hserver s' hs'] at hi ⊢
    show ((s.pendingDirectives.delete id).lookup i).isSome = true
    rw [State.forget, Ets.lookup_delete] at hi
    rw [Ets.lookup_delete]
    split_ifs at hi ⊢
    · cases hi
    · exact h.covered s hs i hi
  · intro s' hs' i req p hi
    rw [hserver s' hs', State.forget, Ets.lookup_delete] at hi
    split_ifs at hi
    obtain ⟨t, ht, ha⟩ := h.inHistory s hs i req p hi
    exact ⟨t, List.mem_append_left _ ht, ha⟩
  · intro s' hs' t ht a ha
    rw [hserver s' hs']
    rcases List.mem_append.mp ht with hold | hnew
    · exact h.fresh s hs t hold a ha
    · rw [List.mem_singleton.mp hnew, haccepted] at ha
      cases ha
  · intro before t after a he ha
    rcases snoc_eq_split he with ⟨-, rfl, -⟩ | ⟨after', rfl, hold⟩
    · rw [haccepted] at ha
      cases ha
    · rcases h.stage before t after' a hold ha with ⟨hnone, s₁, hs₁, hw⟩ | ⟨hdone, hgone⟩
      · obtain rfl := Option.some.inj (hs.symm.trans hs₁)
        by_cases hid : id = a.id
        · subst hid
          obtain ⟨rfl, rfl⟩ := Prod.mk.inj (Option.some.inj (hreq.symm.trans hw.1))
          refine .inr ⟨.of_first hnone ?_ hresults, fun s' hs' => ?_⟩
          · rw [hconcludes]
            exact decide_eq_true rfl
          · rw [hserver s' hs', State.forget, Ets.lookup_delete_self]
        · have hnot : (takenIn rt ans s m).concludes a.id = false := by
            rw [hconcludes]
            exact decide_eq_false hid
          refine .inl ⟨hnone.snoc hnot, s.forget id, hnext, waits_take hw hm hnot ?_⟩
          exact Ets.lookup_delete_of_ne _ (Ne.symm hid)
      · have hne : id ≠ a.id := by
          rintro rfl
          rw [hgone s hs] at hreq
          cases hreq
        refine .inr ⟨hdone.snoc fun hc => ?_, fun s' hs' => ?_⟩
        · rw [hconcludes] at hc
          exact absurd (of_decide_eq_true hc) hne
        · rw [hserver s' hs', State.forget, Ets.lookup_delete_of_ne _ hne.symm]
          exact hgone s hs
  · rw [hresults] at hr
    obtain rfl := List.mem_singleton.mp hr
    obtain ⟨t, ht, ha⟩ := h.inHistory s hs id reqId pid hreq
    refine ⟨t, ht, _, ha, ?_, rfl, rfl⟩
    rw [hconcludes]
    exact decide_eq_true rfl

end

theorem step {a : Act} {n' : Node} (h : ToolInv rt n) (hok : Careful rt n a)
    (hs : EntityServer.step rt n a = some n') : ToolInv rt n' := by
  rcases step_cases hs with ⟨m, s, -, -, -, rfl⟩ | ⟨m, -, -, rfl⟩ | ⟨id, -, hid, rfl⟩ |
    ⟨ans, s, m, rest, rfl, hserver, -, hm, rfl⟩ | ⟨envelope, rest, -, -, rfl⟩
  · refine h.same rfl rfl fun s a hw => ⟨hw.1, hw.2.imp id fun hd => List.mem_append_left _ hd⟩
  · exact h
  · refine h.same rfl rfl fun s a hw => ⟨hw.1, ?_⟩
    rcases hw.2 with ht | hd
    · by_cases he : a.id = id
      · right
        rw [he]
        exact List.mem_append_right _ List.mem_cons_self
      · exact .inl ((List.mem_erase_of_ne he).mpr ht)
    · exact .inr (List.mem_append_left _ hd)
  · have htakes := hok s hserver m (by rw [hm]; rfl)
    have hstep : ToolStep rt s (takenIn rt ans s m) (handle rt ans s m).next :=
      handle_toolStep m
    generalize hnext : (handle rt ans s m).next = next at hstep
    cases hstep with
    | quiet haccepted hown hquiet =>
      refine h.take_quiet hserver hm htakes haccepted hown ?_
      rw [hnext]
      exact hquiet
    | accepts haccepted hresults hnot hreqs hdirs hcount hstarted =>
      exact h.take_accepts hserver hm hnext haccepted hresults hnot hreqs hdirs hcount hstarted
    | concludes result haccepted hconcludes hreq hresults =>
      exact h.take_concludes hserver hm hnext haccepted hconcludes hreq hresults
  · exact h.same rfl rfl fun s a hw => ⟨hw.1, hw.2.imp id fun hd => List.mem_append_left _ hd⟩

end ToolInv

/-! ## Runs -/

variable {rt : Runtime} {n : Node}

/-- **Every accepted request is answered once**, in every run in which the server does
not raise while a request is noted. -/
theorem answered_of_careful (actorId actorType handlerModule : String) (state : Entries)
    (h : Reaches (step rt) (Careful rt) (start (.init actorId actorType handlerModule state)) n) :
    Answered n :=
  (h.invariant (ToolInv.start rfl) fun _ _ _ hinv hok hs => hinv.step hok hs).answered

/-! ## An acknowledgement that cannot be read -/

instance (n : Node) : (a : Act) → Decidable (Careful rt n a)
  | .take ans => inferInstanceAs (Decidable (∀ s ∈ n.server, ∀ m ∈ n.mailbox.head?,
      takes rt ans s m = true ∨ s.pendingToolReqs.keys = []))
  | .arrive _ | .fire _ | .resend => isTrue trivial

/-- A request to reply. -/
def replyRequest : Msg :=
  .toolInvoke (.str "r-1") (.str "reply")
    (.map [(.str "chat_id", .str "oc_1"), (.str "text", .str "hi")]) 7 (.str "ou_alice")

/-- The request, its acknowledgement, a second acknowledgement and the deadline. -/
def acknowledgedTwice : List Act :=
  [.arrive replyRequest, .take (answering emptyState .timeout),
    .arrive (.directiveAck "d-1" (some (.map [(.str "ok", .bool true)]))),
    .arrive (.directiveAck "d-1" (some (.map [(.str "ok", .bool false)]))), .fire "d-1",
    .take (answering emptyState .timeout), .take (answering emptyState .timeout),
    .take (answering emptyState .timeout)]

/-- The request, and an acknowledgement whose payload is a text. -/
def acknowledgedWithText : List Act :=
  [.arrive replyRequest, .take (answering emptyState .timeout),
    .arrive (.directiveAck "d-1" (some (.str "done"))), .take (answering emptyState .timeout)]

/-- The ids of the requests accepted, and whether a message has sent a result. -/
def requestLog (n : Node) : List (Option String × Nat) :=
  n.history.map fun t => (t.accepted.map Accepted.id, t.results.length)

theorem answered_acknowledgedTwice :
    ∃ n : Node, requestLog n = [(some "d-1", 0), (none, 1), (none, 0), (none, 0)] ∧
      Answered n := by
  have hrun : (exec (step counting) (Careful counting) (start threadServer)
      acknowledgedTwice).map requestLog =
      some [(some "d-1", 0), (none, 1), (none, 0), (none, 0)] := by decide +kernel
  obtain ⟨n, hn, hlog⟩ := Option.map_eq_some_iff.mp hrun
  exact ⟨n, hlog, answered_of_careful _ _ _ _ (.of_exec hn)⟩

/-- **The acknowledgement raises** before the result is sent. -/
theorem not_answered_acknowledgedWithText :
    ¬∀ (rt : Runtime) (actorId actorType handlerModule : String) (state : Entries) (n : Node),
      Reaches (step rt) anyStep (start (.init actorId actorType handlerModule state)) n →
      Answered n := by
  intro h
  have hrun : (exec (step counting) anyStep (start threadServer) acknowledgedWithText).map
      (fun n => n.history.map fun t =>
        (t.accepted.map Accepted.id, t.concludes "d-1", t.results.length)) =
      some [(some "d-1", false, 0), (none, true, 0)] := by decide +kernel
  obtain ⟨n, hn, hlog⟩ := Option.map_eq_some_iff.mp hrun
  obtain ⟨t, after, hhistory, ht, hafter⟩ := List.map_eq_cons_iff.mp hlog
  obtain ⟨u, hafter', hu⟩ := List.map_eq_singleton_iff.mp hafter
  subst hafter'
  obtain ⟨a, ha, hid⟩ := Option.map_eq_some_iff.mp (Prod.mk.inj ht).1
  obtain ⟨hconcludes, hlength⟩ := Prod.mk.inj (Prod.mk.inj hu).2
  rw [← hid] at hconcludes
  obtain ⟨-, r, hr⟩ := (h counting _ _ _ _ n (.of_exec hn)).concluded [] t [u] a hhistory ha
    ⟨u, List.mem_cons_self, hconcludes⟩
  have hnone : u.results = [] := List.eq_nil_of_length_eq_zero hlength
  simp [hconcludes, hnone] at hr

end EntityServer
end Esr
