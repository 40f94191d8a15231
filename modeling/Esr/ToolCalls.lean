import Esr.Dict
import Esr.EntityServer
import Esr.Runs

/-! # Tool calls over the bridge

`_dispatch_tool` waits twice: in `push` for the `phx_reply` to its own push, and then, at
most until the deadline, for the `tool_result` with its `req_id`.  The read loop resolves
the first, by the `ref` of the frame, and the receive loop the second.  On the other side
a channel process takes the pushes one after the other; `handle_in/3` says for each
whether there is a reply, and the peer's results come in through `handle_info/2`, at any
time and in any order.

The runs start when the channel has been joined and end with the bridge.
-/
namespace Esr
namespace ToolCalls
open Yaml
open EntityServer (orElse)

/-! ## The channel process -/

/-- `{:tool_invoke, req_id, tool, args, self(), principal_id}`. -/
structure Invoke where
  reqId : Value
  tool : Value
  args : Value
  principalId : Value

/-- What `handle_in/3` returns and what it has done: the reply, with `none` for
`:noreply`, the principal assigned, what it pushes and what it sends to the peer. -/
structure Handled where
  reply : Option (Bool × Entries)
  principalId : Value
  pushed : List Entries
  sent : List Invoke

/-- The `tool_result` when there is no peer. -/
def peerVanished (sessionId : String) (reqId : Value) : Entries :=
  [(.str "error", .map [(.str "message", .str ("no thread peer for session " ++ sessionId)),
      (.str "type", .str "peer_vanished")]),
    (.str "kind", .str "tool_result"), (.str "ok", .bool false), (.str "req_id", reqId)]

/-- `payload["kind"]` is this text. -/
def ofKind (kind : String) (payload : Entries) : Bool :=
  (get "kind" payload).any fun v => v.isStr kind

/-- `handle_in("envelope", payload, socket)`; `peer` tells whether the thread's peer is
registered, and `bootstrap` is `ESR_BOOTSTRAP_PRINCIPAL_ID`. -/
def handleIn (sessionId : String) (bootstrap : Value) (peer : Bool) (principalId : Value)
    (payload : Entries) : Handled :=
  if ofKind "session_register" payload then
    ⟨some (true, []), orElse bootstrap ((get "principal_id" payload).getD .null), [], []⟩
  else if ofKind "tool_invoke" payload then
    if peer then
      ⟨none, principalId, [], [{
        reqId := (get "req_id" payload).getD .null
        tool := (get "tool" payload).getD .null
        args := getOr "args" (.map []) payload
        principalId := orElse bootstrap principalId }]⟩
    else ⟨none, principalId, [peerVanished sessionId ((get "req_id" payload).getD .null)], []⟩
  else ⟨some (false, [(.str "reason", .str "unknown envelope kind")]), principalId, [], []⟩

/-- What `handle_info({:tool_result, req_id, result})` pushes. -/
def toolResult (reqId : Value) (result : Entries) : Entries :=
  put "req_id" reqId (put "kind" (.str "tool_result") result)

/-! ## The bridge -/

/-- A frame to the server. -/
inductive Sent where
  | envelope (ref : Nat) (payload : Entries)
  | heartbeat (ref : Nat)

/-- A frame to the bridge; `closed` is a `phx_close` or a `phx_error`. -/
inductive Frame where
  | reply (ref : Nat) (ok : Bool) (response : Entries)
  | envelope (payload : Entries)
  | closed

/-- Where a call is.  A content is what `json.dumps` is given. -/
inductive Phase where
  | awaitingReply (ref : Nat)
  | awaitingResult
  | returned (content : Value)

/-- What ends the time of a call, whichever comes first. -/
inductive Due where
  | result (envelope : Entries)
  | deadline

/-- A call with its future, and what has come for it. -/
structure Call where
  tool : String
  phase : Phase
  future : Option Entries
  due : Option Due

/-- The envelope of a call. -/
def toolInvoke (reqId tool : String) (args : Entries) : Entries :=
  [(.str "args", .map args), (.str "kind", .str "tool_invoke"), (.str "req_id", .str reqId),
    (.str "tool", .str tool)]

/-- `_tool_result_to_content`. -/
def toolResultToContent (envelope : Entries) : Value :=
  match get "ok" envelope with
  | some (.bool true) => (get "data" envelope).getD .null
  | some (.bool false) =>
      .map [(.str "error", (get "error" envelope).getD .null), (.str "ok", .bool false)]
  | _ => .map envelope

/-- `_err_content`. -/
def errContent (code : String) (detail : Value) : Value :=
  .map [(.str "error", .map [(.str "detail", detail), (.str "type", .str code)]),
    (.str "ok", .bool false)]

/-- The content after the deadline. -/
def timeoutContent (tool : String) : Value :=
  errContent "tool_result_timeout"
    (.map [(.str "timeout_secs", .float "30.0"), (.str "tool", .str tool)])

/-- The bridge, the channel process and the frames between them.

A future is `none` until it has its result.  `pendingToolCalls` has the keys only: the
future under a key is that of the call. -/
structure State where
  refCounter : Nat
  pending : Dict Nat (Option (Bool × Entries))
  pendingToolCalls : Dict String Unit
  calls : Dict String Call
  inbox : List Frame
  up : Bool
  toServer : List Sent
  toClient : List Frame
  principalId : Value
  invoked : List Invoke

/-- What can happen next.  `peerResult` is a `{:tool_result, req_id, result}` of the peer,
`serverPushes` a `{:push_envelope, envelope}` or a notification. -/
inductive Act where
  | call (reqId tool : String) (args : Entries)
  | beat
  | serve (peer : Bool)
  | peerResult (reqId : Value) (result : Entries)
  | serverPushes (payload : Entries)
  | serverCloses
  | receive
  | dispatch
  | resumePush (reqId : String)
  | deadline (reqId : String)
  | resumeResult (reqId : String)

namespace State

/-- The call goes on. -/
def setCall (s : State) (reqId : String) (c : Call) : State :=
  { s with calls := s.calls.set reqId c }

/-- The call is over, and its future is forgotten. -/
def finish (s : State) (reqId : String) (c : Call) (content : Value) : State :=
  { s with
    pendingToolCalls := s.pendingToolCalls.pop reqId
    calls := s.calls.set reqId { c with phase := .returned content } }

/-- `_dispatch_tool` up to its first await; the `req_id` is new. -/
def call (s : State) (reqId tool : String) (args : Entries) : Option State :=
  match s.calls.get reqId with
  | some _ => none
  | none => some { s with
      refCounter := s.refCounter + 1
      pending := s.pending.set (s.refCounter + 1) none
      pendingToolCalls := s.pendingToolCalls.set reqId ()
      calls := s.calls.set reqId ⟨tool, .awaitingReply (s.refCounter + 1), none, none⟩
      toServer := s.toServer ++ [.envelope (s.refCounter + 1) (toolInvoke reqId tool args)] }

/-- One round of `_heartbeat_loop`. -/
def beat (s : State) : State :=
  { s with
    refCounter := s.refCounter + 1
    toServer := s.toServer ++ [.heartbeat (s.refCounter + 1)] }

/-- The server takes the next frame. -/
def serve (s : State) (sessionId : String) (bootstrap : Value) (peer : Bool) : Option State :=
  match s.toServer with
  | [] => none
  | .heartbeat ref :: rest =>
      some { s with toServer := rest, toClient := s.toClient ++ [.reply ref true []] }
  | .envelope ref payload :: rest =>
      let h := handleIn sessionId bootstrap peer s.principalId payload
      some { s with
        toServer := rest
        toClient := s.toClient ++ h.pushed.map .envelope ++
          (h.reply.map fun r => .reply ref r.1 r.2).toList
        principalId := h.principalId
        invoked := s.invoked ++ h.sent }

/-- The server pushes a frame. -/
def push (s : State) (f : Frame) : State := { s with toClient := s.toClient ++ [f] }

/-- One round of `_recv_loop`. -/
def receive (s : State) : Option State :=
  match s.toClient with
  | [] => none
  | f :: rest =>
      let s := { s with toClient := rest }
      some (match f with
        | .reply ref ok response =>
            match s.pending.get ref with
            | some none => { s with pending := s.pending.set ref (some (ok, response)) }
            | some (some _) => s
            | none => { s with inbox := s.inbox ++ [f] }
        | _ => { s with inbox := s.inbox ++ [f] })

/-- This is what has come for a call, if it is the first and the call is not over. -/
def note (c : Call) (d : Due) : Call :=
  match c.phase with
  | .returned _ => c
  | _ => { c with due := c.due.or (some d) }

/-- `_resolve_pending_tool_call`. -/
def resolvePendingToolCall (s : State) (payload : Entries) : State :=
  match get "req_id" payload with
  | some (.str reqId) =>
      match s.calls.get reqId with
      | none => s
      | some c =>
          match s.pendingToolCalls.get reqId with
          | none => s.setCall reqId (note c (.result payload))
          | some () =>
              { s with pendingToolCalls := s.pendingToolCalls.pop reqId }.setCall reqId
                { note c (.result payload) with future := c.future.or (some payload) }
  | _ => s

/-- One round of `phx_receive_loop`, with `_dispatch_envelope`. -/
def dispatch (s : State) : Option State :=
  match s.inbox with
  | [] => none
  | f :: rest =>
      let s := { s with inbox := rest }
      some (match f with
        | .envelope payload =>
            if ofKind "tool_result" payload then s.resolvePendingToolCall payload
            else if ofKind "session_killed" payload then { s with up := false }
            else s
        | .closed => { s with up := false }
        | .reply _ _ _ => s)

/-- `_dispatch_tool` from the reply to its push on. -/
def resumePush (s : State) (reqId : String) : Option State :=
  match s.calls.get reqId with
  | some c =>
      match c.phase with
      | .awaitingReply ref =>
          match s.pending.get ref with
          | some (some (ok, response)) =>
              let s := { s with pending := s.pending.pop ref }
              some (if ok then s.setCall reqId { c with phase := .awaitingResult }
                else s.finish reqId c (errContent "phx_push_error" (.map response)))
          | _ => none
      | _ => none
  | none => none

/-- The deadline of a call: it ends the second wait, and only that. -/
def deadline (s : State) (reqId : String) : Option State :=
  match s.calls.get reqId with
  | some c =>
      match c.phase, c.future with
      | .awaitingResult, none =>
          some (s.finish reqId (note c .deadline) (timeoutContent c.tool))
      | _, _ => some (s.setCall reqId (note c .deadline))
  | none => none

/-- `_dispatch_tool` from its result on. -/
def resumeResult (s : State) (reqId : String) : Option State :=
  match s.calls.get reqId with
  | some c =>
      match c.phase, c.future with
      | .awaitingResult, some envelope => some (s.finish reqId c (toolResultToContent envelope))
      | _, _ => none
  | none => none

end State

/-- The steps of the bridge and the channel process of a session. -/
def step (sessionId : String) (bootstrap : Value) (s : State) (a : Act) : Option State :=
  if s.up then
    match a with
    | .call reqId tool args => s.call reqId tool args
    | .beat => some s.beat
    | .serve peer => s.serve sessionId bootstrap peer
    | .peerResult reqId result => some (s.push (.envelope (toolResult reqId result)))
    | .serverPushes payload => some (s.push (.envelope payload))
    | .serverCloses => some (s.push .closed)
    | .receive => s.receive
    | .dispatch => s.dispatch
    | .resumePush reqId => s.resumePush reqId
    | .deadline reqId => s.deadline reqId
    | .resumeResult reqId => s.resumeResult reqId
  else none

/-- The channel has been joined, with the first `ref`. -/
def start : State where
  refCounter := 1
  pending := .empty
  pendingToolCalls := .empty
  calls := .empty
  inbox := []
  up := true
  toServer := []
  toClient := []
  principalId := .null
  invoked := []

/-! ## What is claimed -/

/-- The call waits for a future that has no result. -/
def Waiting (s : State) (c : Call) : Prop :=
  match c.phase with
  | .awaitingReply ref => s.pending.get ref = some none
  | .awaitingResult => c.future = none
  | .returned _ => False

/-- Whose time has come waits no more; a call returns its own result or an error, and
leaves no future behind. -/
structure Completed (s : State) : Prop where
  answered : ∀ reqId c, s.calls.get reqId = some c → c.due.isSome = true → ¬Waiting s c
  returned : ∀ reqId c content, s.calls.get reqId = some c → c.phase = .returned content →
    match c.due with
    | some (.result envelope) => content = toolResultToContent envelope
    | _ => ∃ code detail, content = errContent code detail
  own : ∀ reqId c envelope, s.calls.get reqId = some c → c.future = some envelope →
    get "req_id" envelope = some (.str reqId)
  cleared : ∀ reqId c content, s.calls.get reqId = some c → c.phase = .returned content →
    s.pendingToolCalls.get reqId = none

/-- For no call has its result or its deadline come. -/
def NothingDue (s : State) : Prop :=
  ∀ reqId c, s.calls.get reqId = some c → c.due = none

/-! ## What every step keeps -/

/-- A reply to this `ref` is under way, or will be. -/
def ReplyComes (s : State) (ref : Nat) : Prop :=
  .heartbeat ref ∈ s.toServer ∨ ∃ ok response, .reply ref ok response ∈ s.toClient

/-- The replies on the wires are for no push of the bridge. -/
structure WireInv (s : State) : Prop where
  minted : ∀ ref, s.pending.get ref ≠ none → ref ≤ s.refCounter
  replies : ∀ ref, ReplyComes s ref → ref ≤ s.refCounter ∧ s.pending.get ref = none
  invokes : ∀ ref payload, .envelope ref payload ∈ s.toServer →
    ∃ reqId tool args, payload = toolInvoke reqId tool args

/-- What holds of a call. -/
structure CallInv (s : State) (reqId : String) (c : Call) : Prop where
  waiting : ∃ ref, c.phase = .awaitingReply ref ∧ s.pending.get ref = some none
  own : ∀ envelope, c.future = some envelope →
    get "req_id" envelope = some (.str reqId) ∧ c.due.isSome = true

/-- Every call waits for a reply that does not come. -/
structure Inv (s : State) : Prop extends WireInv s where
  calls : ∀ reqId c, s.calls.get reqId = some c → CallInv s reqId c

variable {sessionId : String} {bootstrap : Value} {s t : State} {reqId : String} {c : Call}

theorem reply_handleIn_toolInvoke (peer : Bool) (principalId : Value) (reqId tool : String)
    (args : Entries) :
    (handleIn sessionId bootstrap peer principalId (toolInvoke reqId tool args)).reply = none := by
  cases peer <;> rfl

theorem inv_start : Inv start where
  minted ref h := absurd rfl h
  replies ref h := by
    rcases h with h | ⟨ok, response, h⟩ <;> cases h
  invokes ref payload h := nomatch h
  calls reqId c h := nomatch h

theorem CallInv.of_pending (h : CallInv s reqId c) (hp : t.pending = s.pending) :
    CallInv t reqId c where
  waiting := hp ▸ h.waiting
  own := h.own

namespace Inv

theorem of_wires (h : Inv s) (hcounter : t.refCounter = s.refCounter)
    (hpending : t.pending = s.pending) (hcalls : t.calls = s.calls)
    (hreplies : ∀ ref, ReplyComes t ref → ReplyComes s ref)
    (hsent : ∀ m ∈ t.toServer, m ∈ s.toServer) : Inv t where
  minted := by
    rw [hpending, hcounter]
    exact h.minted
  replies ref hr := by
    rw [hpending, hcounter]
    exact h.replies ref (hreplies ref hr)
  invokes ref payload hm := h.invokes ref payload (hsent _ hm)
  calls reqId c hc := (h.calls reqId c (hcalls ▸ hc)).of_pending hpending

theorem setCall (h : Inv s) {c' : Call} (hc : s.calls.get reqId = some c)
    (hphase : c'.phase = c.phase) (hown : ∀ envelope, c'.future = some envelope →
      get "req_id" envelope = some (.str reqId) ∧ c'.due.isSome = true) :
    Inv (s.setCall reqId c') where
  minted := h.minted
  replies := h.replies
  invokes := h.invokes
  calls reqId' d hd := by
    have hget : (s.calls.set reqId c').get reqId' = some d := hd
    rw [Dict.get_set] at hget
    split at hget
    · rename_i he
      obtain rfl := Option.some.inj hget
      subst he
      obtain ⟨ref, hp, hwait⟩ := (h.calls reqId' c hc).waiting
      exact ⟨⟨ref, hphase.trans hp, hwait⟩, hown⟩
    · exact (h.calls reqId' d hget).of_pending rfl

theorem call {tool : String} {args : Entries} (h : Inv s) (ht : s.call reqId tool args = some t) :
    Inv t := by
  unfold State.call at ht
  cases hc : s.calls.get reqId with
  | some c =>
    rw [hc] at ht
    cases ht
  | none =>
    rw [hc] at ht
    obtain rfl := Option.some.inj ht
    have hold : ∀ ref, ref ≤ s.refCounter →
        (s.pending.set (s.refCounter + 1) none).get ref = s.pending.get ref := by
      intro ref hle
      exact Dict.get_set_of_ne _ _ (by omega)
    refine ⟨⟨?_, ?_, ?_⟩, ?_⟩
    · intro ref hne
      have hne' : (s.pending.set (s.refCounter + 1) none).get ref ≠ none := hne
      show ref ≤ s.refCounter + 1
      rw [Dict.get_set] at hne'
      split at hne'
      · omega
      · have := h.minted ref hne'
        omega
    · intro ref hr
      have hcomes : ReplyComes s ref := by
        rcases hr with hm | hm
        · rcases List.mem_append.mp hm with hin | hin
          · exact .inl hin
          · cases List.mem_singleton.mp hin
        · exact .inr hm
      obtain ⟨hle, hnone⟩ := h.replies ref hcomes
      exact ⟨Nat.le_succ_of_le hle, (hold ref hle).trans hnone⟩
    · intro ref payload hm
      rcases List.mem_append.mp hm with hin | hin
      · exact h.invokes ref payload hin
      · cases List.mem_singleton.mp hin
        exact ⟨reqId, tool, args, rfl⟩
    · intro reqId' d hd
      have hget : (s.calls.set reqId ⟨tool, .awaitingReply (s.refCounter + 1), none, none⟩).get
          reqId' = some d := hd
      rw [Dict.get_set] at hget
      split at hget
      · obtain rfl := Option.some.inj hget
        exact ⟨⟨_, rfl, Dict.get_set_self _ _ _⟩, fun envelope he => by cases he⟩
      · obtain ⟨ref, hp, hwait⟩ := (h.calls reqId' d hget).waiting
        have hle := h.minted ref (by rw [hwait]; exact Option.some_ne_none _)
        exact ⟨⟨ref, hp, (hold ref hle).trans hwait⟩, (h.calls reqId' d hget).own⟩

theorem beat (h : Inv s) : Inv s.beat where
  minted ref hne := Nat.le_succ_of_le (h.minted ref hne)
  replies ref hr := by
    have hcases : ref = s.refCounter + 1 ∨ ReplyComes s ref := by
      rcases hr with hm | hm
      · rcases List.mem_append.mp hm with hin | hin
        · exact .inr (.inl hin)
        · exact .inl (Sent.heartbeat.inj (List.mem_singleton.mp hin))
      · exact .inr (.inr hm)
    rcases hcases with rfl | hcomes
    · refine ⟨Nat.le_refl _, ?_⟩
      -- the counter has minted no such `ref` before
      by_contra hne
      have := h.minted _ hne
      omega
    · exact ⟨Nat.le_succ_of_le (h.replies ref hcomes).1, (h.replies ref hcomes).2⟩
  invokes ref payload hm := by
    rcases List.mem_append.mp hm with hin | hin
    · exact h.invokes ref payload hin
    · cases List.mem_singleton.mp hin
  calls reqId c hc := (h.calls reqId c hc).of_pending rfl

theorem serve {peer : Bool} (h : Inv s) (ht : s.serve sessionId bootstrap peer = some t) :
    Inv t := by
  unfold State.serve at ht
  cases hsent : s.toServer with
  | nil =>
    rw [hsent] at ht
    cases ht
  | cons m rest =>
    rw [hsent] at ht
    have hrest : ∀ x ∈ rest, x ∈ s.toServer := by
      intro x hx
      rw [hsent]
      exact List.mem_cons_of_mem m hx
    have hhead : m ∈ s.toServer := by
      rw [hsent]
      exact List.mem_cons_self
    cases m with
    | heartbeat ref =>
      obtain rfl := Option.some.inj ht
      refine h.of_wires rfl rfl rfl ?_ hrest
      rintro ref' (hm | ⟨ok, response, hm⟩)
      · exact .inl (hrest _ hm)
      · rcases List.mem_append.mp hm with hin | hin
        · exact .inr ⟨ok, response, hin⟩
        · cases List.mem_singleton.mp hin
          exact .inl hhead
    | envelope ref payload =>
      obtain rfl := Option.some.inj ht
      obtain ⟨reqId, tool, args, rfl⟩ := h.invokes ref payload hhead
      refine h.of_wires rfl rfl rfl ?_ hrest
      rintro ref' (hm | ⟨ok, response, hm⟩)
      · exact .inl (hrest _ hm)
      · have hmem : Frame.reply ref' ok response ∈ s.toClient ++
            (handleIn sessionId bootstrap peer s.principalId (toolInvoke reqId tool args)).pushed.map
              .envelope := by
          simpa [reply_handleIn_toolInvoke] using hm
        rcases List.mem_append.mp hmem with hin | hin
        · exact .inr ⟨ok, response, hin⟩
        · obtain ⟨payload, -, he⟩ := List.mem_map.mp hin
          cases he

theorem push {f : Frame} (h : Inv s) (hf : ∀ ref ok response, f ≠ .reply ref ok response) :
    Inv (s.push f) := by
  refine h.of_wires rfl rfl rfl ?_ fun m hm => hm
  rintro ref (hm | ⟨ok, response, hm⟩)
  · exact .inl hm
  · rcases List.mem_append.mp hm with hin | hin
    · exact .inr ⟨ok, response, hin⟩
    · exact absurd (List.mem_singleton.mp hin).symm (hf ref ok response)

theorem receive (h : Inv s) (ht : s.receive = some t) : Inv t := by
  unfold State.receive at ht
  cases hframes : s.toClient with
  | nil =>
    rw [hframes] at ht
    cases ht
  | cons f rest =>
    rw [hframes] at ht
    have hcomes : ∀ ref, (.heartbeat ref ∈ s.toServer ∨ ∃ ok response, .reply ref ok response ∈ rest) →
        ReplyComes s ref := by
      rintro ref (hm | ⟨ok, response, hm⟩)
      · exact .inl hm
      · refine .inr ⟨ok, response, ?_⟩
        rw [hframes]
        exact List.mem_cons_of_mem f hm
    cases f with
    | reply ref ok response =>
      have hnone : s.pending.get ref = none := by
        refine (h.replies ref (.inr ⟨ok, response, ?_⟩)).2
        rw [hframes]
        exact List.mem_cons_self
      simp only [hnone] at ht
      obtain rfl := Option.some.inj ht
      exact h.of_wires rfl rfl rfl hcomes fun m hm => hm
    | envelope payload =>
      obtain rfl := Option.some.inj ht
      exact h.of_wires rfl rfl rfl hcomes fun m hm => hm
    | closed =>
      obtain rfl := Option.some.inj ht
      exact h.of_wires rfl rfl rfl hcomes fun m hm => hm

theorem note_eq {ref : Nat} (hp : c.phase = .awaitingReply ref) (d : Due) :
    State.note c d = { c with due := c.due.or (some d) } := by
  unfold State.note
  rw [hp]

theorem resolve {payload : Entries} (h : Inv s) : Inv (s.resolvePendingToolCall payload) := by
  unfold State.resolvePendingToolCall
  split
  · rename_i reqId hreq
    cases hc : s.calls.get reqId with
    | none => exact h
    | some c =>
      obtain ⟨⟨ref, hp, -⟩, hown⟩ := h.calls reqId c hc
      have hsome : ∀ d, (c.due.or (some d)).isSome = true := by
        intro d
        cases c.due <;> rfl
      dsimp only
      rw [note_eq hp]
      cases s.pendingToolCalls.get reqId with
      | none =>
        refine h.setCall hc rfl ?_
        intro envelope he
        exact ⟨(hown envelope he).1, hsome _⟩
      | some u =>
        have hpop : Inv { s with pendingToolCalls := s.pendingToolCalls.pop reqId } :=
          h.of_wires rfl rfl rfl (fun _ hr => hr) fun _ hm => hm
        refine hpop.setCall hc rfl ?_
        intro envelope he
        refine ⟨?_, hsome _⟩
        cases hf : c.future with
        | some e =>
          have he' : (c.future.or (some payload)) = some envelope := he
          rw [hf] at he'
          obtain rfl := Option.some.inj he'
          exact (hown _ hf).1
        | none =>
          have he' : (c.future.or (some payload)) = some envelope := he
          rw [hf] at he'
          obtain rfl := Option.some.inj he'
          exact hreq
  · exact h

theorem dispatch (h : Inv s) (ht : s.dispatch = some t) : Inv t := by
  unfold State.dispatch at ht
  cases hinbox : s.inbox with
  | nil =>
    rw [hinbox] at ht
    cases ht
  | cons f rest =>
    rw [hinbox] at ht
    have hrest : Inv { s with inbox := rest } :=
      h.of_wires rfl rfl rfl (fun _ hr => hr) fun _ hm => hm
    have hdown : Inv { s with inbox := rest, up := false } :=
      h.of_wires rfl rfl rfl (fun _ hr => hr) fun _ hm => hm
    obtain rfl := Option.some.inj ht
    cases f with
    | reply ref ok response => exact hrest
    | closed => exact hdown
    | envelope payload =>
      dsimp only
      split
      · exact hrest.resolve
      · split
        · exact hdown
        · exact hrest

theorem deadline (h : Inv s) (ht : s.deadline reqId = some t) : Inv t := by
  unfold State.deadline at ht
  cases hc : s.calls.get reqId with
  | none =>
    rw [hc] at ht
    cases ht
  | some c =>
    obtain ⟨⟨ref, hp, -⟩, hown⟩ := h.calls reqId c hc
    simp only [hc, hp] at ht
    obtain rfl := Option.some.inj ht
    rw [note_eq hp]
    refine h.setCall hc rfl ?_
    intro envelope he
    refine ⟨(hown envelope he).1, ?_⟩
    show (c.due.or (some .deadline)).isSome = true
    cases c.due <;> rfl

theorem resumePush_eq_none (h : Inv s) (reqId : String) : s.resumePush reqId = none := by
  unfold State.resumePush
  cases hc : s.calls.get reqId with
  | none => rfl
  | some c =>
    obtain ⟨ref, hp, hwait⟩ := (h.calls reqId c hc).waiting
    simp only [hp, hwait]

theorem resumeResult_eq_none (h : Inv s) (reqId : String) : s.resumeResult reqId = none := by
  unfold State.resumeResult
  cases hc : s.calls.get reqId with
  | none => rfl
  | some c =>
    obtain ⟨ref, hp, -⟩ := (h.calls reqId c hc).waiting
    simp only [hp]

theorem step {a : Act} (h : Inv s) (ht : step sessionId bootstrap s a = some t) : Inv t := by
  unfold ToolCalls.step at ht
  split at ht
  · cases a with
    | call reqId tool args => exact h.call ht
    | beat =>
      obtain rfl := Option.some.inj ht
      exact h.beat
    | serve peer => exact h.serve ht
    | peerResult reqId result =>
      obtain rfl := Option.some.inj ht
      exact h.push fun _ _ _ => Frame.noConfusion
    | serverPushes payload =>
      obtain rfl := Option.some.inj ht
      exact h.push fun _ _ _ => Frame.noConfusion
    | serverCloses =>
      obtain rfl := Option.some.inj ht
      exact h.push fun _ _ _ => Frame.noConfusion
    | receive => exact h.receive ht
    | dispatch => exact h.dispatch ht
    | resumePush reqId =>
      have hnone : s.resumePush reqId = some t := ht
      rw [h.resumePush_eq_none] at hnone
      cases hnone
    | deadline reqId => exact h.deadline ht
    | resumeResult reqId =>
      have hnone : s.resumeResult reqId = some t := ht
      rw [h.resumeResult_eq_none] at hnone
      cases hnone
  · cases ht

theorem of_reaches (h : Reaches (ToolCalls.step sessionId bootstrap) anyStep ToolCalls.start s) :
    Inv s :=
  h.invariant inv_start fun _ _ _ hu _ hs => hu.step hs

theorem waiting (h : Inv s) (hc : s.calls.get reqId = some c) : Waiting s c := by
  obtain ⟨ref, hp, hwait⟩ := (h.calls reqId c hc).waiting
  unfold Waiting
  rw [hp]
  exact hwait

theorem not_returned (h : Inv s) (hc : s.calls.get reqId = some c) (content : Value) :
    c.phase ≠ .returned content := by
  intro he
  obtain ⟨ref, hp, -⟩ := (h.calls reqId c hc).waiting
  rw [hp] at he
  cases he

end Inv

/-! ## Over all runs -/

/-- **A tool call completes** only as long as it need not: in every state reached, the
calls are as they should be if and only if nothing has come for any of them yet. -/
theorem completed_iff (sessionId : String) (bootstrap : Value) (s : State)
    (h : Reaches (step sessionId bootstrap) anyStep start s) : Completed s ↔ NothingDue s := by
  have hinv := Inv.of_reaches h
  constructor
  · intro hdone reqId c hc
    cases hdue : c.due with
    | none => rfl
    | some d => exact absurd (hinv.waiting hc) (hdone.answered reqId c hc (by rw [hdue]; rfl))
  · intro hnothing
    refine ⟨?_, ?_, ?_, ?_⟩
    · intro reqId c hc hdue
      rw [hnothing reqId c hc] at hdue
      cases hdue
    · intro reqId c content hc he
      exact absurd he (hinv.not_returned hc content)
    · intro reqId c envelope hc he
      exact ((hinv.calls reqId c hc).own envelope he).1
    · intro reqId c content hc he
      exact absurd he (hinv.not_returned hc content)

/-- The call is pushed, and the server has forwarded it. -/
def forwarded : List Act :=
  [.call "5f1c" "reply" [(.str "text", .str "done")], .serve true]

/-- The peer has answered, and the envelope has been dispatched. -/
def answeredCall : List Act :=
  forwarded ++ [.peerResult (.str "5f1c") [(.str "ok", .bool true)], .receive, .dispatch]

theorem completed_forwarded : ∃ s, s.invoked.length = 1 ∧ (Completed s ↔ NothingDue s) := by
  obtain ⟨s, hs, hsent⟩ : ∃ s, Run (step "s-1" (.str "ou_admin")) anyStep start forwarded s ∧
      s.invoked.length = 1 := ⟨_, .of_exec rfl, rfl⟩
  exact ⟨s, hsent, completed_iff "s-1" (.str "ou_admin") s ⟨_, hs⟩⟩

/-- **A call hangs although its result is there**: its push is never replied to. -/
theorem not_completed_answeredCall : ¬∀ (sessionId : String) (bootstrap : Value) (s : State),
    Reaches (step sessionId bootstrap) anyStep start s → Completed s := by
  intro h
  obtain ⟨s, hs, c, hc, hdue⟩ : ∃ s, Run (step "s-1" (.str "ou_admin")) anyStep start
      answeredCall s ∧ ∃ c, s.calls.get "5f1c" = some c ∧ c.due.isSome = true :=
    ⟨_, .of_exec rfl, _, rfl, rfl⟩
  have hwaiting := (Inv.of_reaches ⟨_, hs⟩).waiting hc
  exact (h "s-1" (.str "ou_admin") s ⟨_, hs⟩).answered "5f1c" c hc hdue hwaiting

end ToolCalls
end Esr
