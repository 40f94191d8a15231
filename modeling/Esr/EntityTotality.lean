import Esr.EntityRuns

/-! # Which messages the actor server survives

A GenServer dies of a message its handler raises on, and `Esr.Entity.Server` has
no clause that catches what the others leave over.  `takes` lists, message by
message, what keeps the handler from raising: an envelope whose payload and
arguments are maps where they are read, a reply of the handler with a map for the
state and a list of well-formed actions, arguments of a tool request that are a
map, an acknowledgement whose payload can be read, or is at least there.  A reply
of a handler that comes after its call has timed out is never taken.

The lemmas follow the functions of the server: each says of one of them when it
returns.
-/
namespace Esr
namespace EntityServer
open Yaml Yaml.Writer

/-! ## The conditions -/

/-- The payload of an envelope. -/
def payloadOf (envelope : Entries) : Value := (get "payload" envelope).getD .null

/-- The workspace an envelope, or the arguments of a tool, name. -/
def workspaceOf (m : Entries) : Value := orElse (.str "*") ((get "workspace_name" m).getD .null)

/-- The payload and the workspace of the envelope can be read. -/
def eventReadable (envelope : Entries) : Bool :=
  readable (payloadOf envelope) && hasText (workspaceOf envelope)

/-- The arguments in the payload can be read. -/
def argsReadable (envelope : Entries) : Bool :=
  match payloadOf envelope with
  | .map payload => readable ((get "args" payload).getD .null)
  | _ => true

/-- The event is of a Feishu instance, which a refusal is sent to. -/
def fromFeishu (envelope : Entries) : Bool :=
  match (get "source" envelope).getD .null with
  | .str source => (feishuInstance source).isSome
  | _ => false

/-- The action can be dispatched. -/
def dispatchable : Value → Bool
  | .map action =>
      if ((get "type" action).getD .null).isStr "emit" then
        if ((get "adapter" action).getD .null).isStr "esr-channel" then
          match (get "args" action).getD (.map []) with
          | .map args => isText ((get "session_id" args).getD (.str ""))
          | _ => false
        else isText ((get "adapter" action).getD .null)
      else true
  | _ => true

/-- The reply names an error, names no new state, or has a map for the state and a
list of actions that can be dispatched. -/
def wellFormed (payload : Entries) : Bool :=
  match get "error" payload, get "new_state" payload with
  | some (.map _), _ => true
  | _, none => true
  | _, some newState =>
      match newState, (get "actions" payload).getD (.list []) with
      | .map _, .list actions => actions.all dispatchable
      | _, _ => false

/-- What the handler replied, if it is a map, is well formed. -/
def acceptable : Reply → Bool
  | .payload (some (.map payload)) => wellFormed payload
  | _ => true

/-- The reply that counts is acceptable: the second one after a timeout. -/
def replyAcceptable (ans : Answers) : Bool :=
  match ans.first with
  | .timeout => acceptable ans.second
  | reply => acceptable reply

/-- The event has been handled before. -/
def known (s : State) (envelope : Entries) : Bool :=
  match extractIdempotencyKey envelope with
  | some (some key) => decide (key ∈ s.dedupKeys)
  | _ => false

/-- The principal of the event has the permission it requires. -/
def eventGranted (ans : Answers) (envelope : Entries) : Bool :=
  match requiredForEvent envelope with
  | some required => granted ans ((get "principal_id" envelope).getD .null) required
  | none => false

/-- An event a server that is not paused takes. -/
def takesEvent (ans : Answers) (s : State) (envelope : Entries) : Bool :=
  eventReadable envelope &&
    if eventGranted ans envelope then
      argsReadable envelope && (known s envelope || replyAcceptable ans)
    else !fromFeishu envelope || argsReadable envelope

/-- The tool, on these arguments, makes no directive, or one whose adapter is a
text. -/
def toolTakes (ans : Answers) (s : State) (tool : Value) (args : Entries) : Bool :=
  match toolOf tool with
  | .reply =>
      !(isText ((get "chat_id" args).getD .null) && isText ((get "text" args).getD .null)) ||
        isText (sessionChannelAdapter s.state)
  | .sendFile =>
      match get "chat_id" args, get "file_path" args with
      | some _, some (.str path) =>
          !(ans.readFile path).isOk || isText (sessionChannelAdapter s.state)
      | _, _ => true
  | .signalCleanup =>
      isText ((get "session_id" args).getD .null) && isText ((get "status" args).getD .null)
  | _ => true

/-- The principal of the request may use the tool. -/
def toolGranted (ans : Answers) (tool : Value) (args : Entries) (principalId : Value) : Bool :=
  match (toStr tool).bind (requiredFor ((get "workspace_name" args).getD .null)) with
  | some required => granted ans principalId required
  | none => false

/-- A tool request the server takes. -/
def takesTool (rt : Runtime) (ans : Answers) (s : State) (reqId tool args : Value)
    (principalId : Value) : Bool :=
  match args with
  | .map args =>
      hasText tool && hasText (workspaceOf args) &&
        (!toolGranted ans tool args principalId ||
          (echoLogged rt reqId tool args && toolTakes ans s tool args))
  | _ => false

/-- An acknowledgement the server takes.  For a tool request the payload has to be a
map, or to count as none; for any other directive it has to be there. -/
def takesAck (s : State) (id : String) (payload : Option Value) : Bool :=
  if (s.pendingToolReqs.lookup id).isSome then
    readable (orElse (.map []) (payload.getD .null))
  else payload.isSome

/-- The messages the server takes. -/
def takes (rt : Runtime) (ans : Answers) (s : State) : Msg → Bool
  | .call _ | .directiveDeadline _ | .exit => true
  | .inboundEvent envelope => s.paused || takesEvent ans s envelope
  | .toolInvoke reqId tool args _ principalId => takesTool rt ans s reqId tool args principalId
  | .directiveAck id payload => takesAck s id payload
  | .handlerReply _ => false

/-! ## Reading -/

@[simp] theorem access_map (key : String) (m : Entries) :
    access key (.map m) = some ((get key m).getD .null) := rfl

theorem access_isSome (key : String) (v : Value) : (access key v).isSome = readable v := by
  cases v <;> rfl

theorem getIn_two (a b : String) (m : Entries) :
    getIn (.map m) [a, b] = access b ((get a m).getD .null) := by
  simp [getIn]

theorem getIn_three (a b c : String) (m : Entries) :
    getIn (.map m) [a, b, c] = (access b ((get a m).getD .null)).bind (access c) := by
  simp [getIn]

theorem getIn_three_isSome (a b c : String) (m : Entries) :
    (getIn (.map m) [a, b, c]).isSome =
      match (get a m).getD .null with
      | .map inner => readable ((get b inner).getD .null)
      | v => readable v := by
  rw [getIn_three]
  cases (get a m).getD .null with
  | map inner => exact access_isSome c _
  | _ => rfl

theorem payloadArgs_isSome {envelope : Entries} (key : String)
    (h : readable (payloadOf envelope) = true) :
    (getIn (.map envelope) ["payload", "args", key]).isSome = argsReadable envelope := by
  rw [getIn_three_isSome, argsReadable]
  unfold payloadOf at h ⊢
  cases hp : (get "payload" envelope).getD .null with
  | map inner => rfl
  | null => rfl
  | _ => rw [hp] at h; cases h

theorem requiredFor_isSome (workspace : Value) (perm : String) :
    (requiredFor workspace perm).isSome = hasText (orElse (.str "*") workspace) :=
  Option.isSome_map

theorem requiredForEvent_isSome (envelope : Entries) :
    (requiredForEvent envelope).isSome = eventReadable envelope := by
  have hread : (getIn (.map envelope) ["payload", "event_type"]).isSome =
      readable (payloadOf envelope) := by
    rw [getIn_two, access_isSome, payloadOf]
  rw [eventReadable, ← hread]
  unfold requiredForEvent
  cases getIn (.map envelope) ["payload", "event_type"] with
  | none => rfl
  | some eventType =>
    rw [Option.isSome_some, Bool.true_and]
    exact requiredFor_isSome _ _

theorem maybeDispatchDenyDm_isSome {envelope : Entries}
    (h : readable (payloadOf envelope) = true) :
    (maybeDispatchDenyDm envelope).isSome = (!fromFeishu envelope || argsReadable envelope) := by
  have hargs := payloadArgs_isSome "chat_id" h
  unfold maybeDispatchDenyDm fromFeishu
  cases get "source" envelope with
  | none => rfl
  | some source =>
    cases source with
    | str source =>
      cases hinst : feishuInstance source with
      | none => simp [hinst]
      | some inst => simp [hinst, hargs]
    | _ => rfl

/-! ## The handler's reply -/

theorem emitAndTrack_isSome (rt : Runtime) (action : Entries) (s : State) :
    (emitAndTrack rt action s).isSome = isText ((get "adapter" action).getD .null) := by
  unfold emitAndTrack
  cases get "adapter" action with
  | none => rfl
  | some adapter => cases adapter <;> rfl

theorem notifySession_isSome (action : Entries) (s : State) :
    (notifySession action s).isSome =
      match (get "args" action).getD (.map []) with
      | .map args => isText ((get "session_id" args).getD (.str ""))
      | _ => false := by
  unfold notifySession
  cases (get "args" action).getD (.map []) with
  | map args =>
    dsimp only
    cases (get "session_id" args).getD (.str "") <;> rfl
  | _ => rfl

theorem dispatchAction_isSome (rt : Runtime) (s : State) (action : Value) :
    (dispatchAction rt s action).isSome = dispatchable action := by
  cases action with
  | map action =>
    unfold dispatchAction dispatchable
    dsimp only
    split_ifs
    · exact notifySession_isSome action s
    · rw [Option.isSome_map, emitAndTrack_isSome]
    · rfl
  | _ => rfl

theorem dispatchActions_next_isSome (rt : Runtime) (s : State) (actions : List Value) :
    (dispatchActions rt s actions).next.isSome = actions.all dispatchable := by
  induction actions generalizing s with
  | nil => rfl
  | cons action rest ih =>
    have hfirst := dispatchAction_isSome rt s action
    rw [dispatchActions, List.all_cons, ← hfirst]
    cases dispatchAction rt s action with
    | none => rfl
    | some r => exact ih r.1

/-- What `invoke_handler/3` needs of what the call returned. -/
def Called.fits : Called → Bool
  | .ok (.map _) (.list actions) => actions.all dispatchable
  | .ok _ _ => false
  | _ => true

theorem invokeHandler_next_isSome (rt : Runtime) (ans : Answers) (s : State) (envelope : Entries)
    (key : Option String) :
    (invokeHandler rt ans s envelope key).next.isSome = (callWithRetry ans).2.fits := by
  unfold invokeHandler
  dsimp only
  cases (callWithRetry ans).2 with
  | ok newState actions =>
    cases newState with
    | map newState =>
      cases actions with
      | list actions => exact dispatchActions_next_isSome rt _ actions
      | _ => rfl
    | _ => rfl
  | _ => rfl

/-- What a call returned fits `invoke_handler/3` whichever way an error is told. -/
def Shaped.fits : Shaped → Bool
  | .ok newState actions => Called.fits (.ok newState actions)
  | .error _ => true

theorem shapeReply_fits (payload : Entries) :
    (shapeReply (.map payload)).fits = wellFormed payload := by
  unfold shapeReply wellFormed
  dsimp only
  cases get "error" payload with
  | none =>
    dsimp only
    cases get "new_state" payload with
    | none => rfl
    | some newState =>
      cases newState <;> cases (get "actions" payload).getD (.list []) <;> rfl
  | some err =>
    cases err with
    | map err => rfl
    | _ =>
      dsimp only
      cases get "new_state" payload with
      | none => rfl
      | some newState =>
        cases newState <;> cases (get "actions" payload).getD (.list []) <;> rfl

theorem routerCall_fits (reply : Reply) : (routerCall reply).fits = acceptable reply := by
  cases reply with
  | timeout => rfl
  | payload v =>
    cases v with
    | none => rfl
    | some v =>
      cases v with
      | map payload => exact shapeReply_fits payload
      | bool b => cases b <;> rfl
      | _ => rfl

theorem shapeReply_ne_timeout (v : Value) : shapeReply v ≠ .error .handlerTimeout := by
  intro h
  unfold shapeReply at h
  split at h
  · split at h
    · cases h
    · split at h <;> cases h
  · cases h

theorem callWithRetry_fits (ans : Answers) :
    (callWithRetry ans).2.fits = replyAcceptable ans := by
  have hsecond : (retryOnce ans.second).fits = acceptable ans.second := by
    rw [← routerCall_fits]
    unfold retryOnce
    cases routerCall ans.second <;> rfl
  unfold callWithRetry replyAcceptable
  cases hf : ans.first with
  | timeout => exact hsecond
  | payload v =>
    have hfirst := routerCall_fits (.payload v)
    have hne : routerCall (.payload v) ≠ .error .handlerTimeout := shapeReply_ne_timeout _
    dsimp only
    rw [← hfirst]
    cases hr : routerCall (.payload v) with
    | ok newState actions => rfl
    | error reason =>
      cases reason with
      | handlerTimeout => exact absurd hr hne
      | handlerError detail => rfl

/-! ## One message -/

theorem grantedEvent_next_isSome (rt : Runtime) (ans : Answers) (s : State) {envelope : Entries}
    (h : readable (payloadOf envelope) = true) :
    (grantedEvent rt ans s envelope).next.isSome =
      (argsReadable envelope && (known s envelope || replyAcceptable ans)) := by
  have hargs := payloadArgs_isSome "idempotency_key" h
  have hkey : (extractIdempotencyKey envelope).isSome = argsReadable envelope := by
    rw [← hargs]
    exact Option.isSome_map
  rw [← hkey, ← callWithRetry_fits]
  unfold grantedEvent known
  cases extractIdempotencyKey envelope with
  | none => rfl
  | some key =>
    cases key with
    | none => exact invokeHandler_next_isSome rt ans s envelope none
    | some key =>
      dsimp only
      by_cases hk : key ∈ s.dedupKeys
      · rw [if_pos hk, decide_eq_true hk]
        rfl
      · rw [if_neg hk, decide_eq_false hk, invokeHandler_next_isSome]
        rfl

theorem handleEvent_next_isSome (rt : Runtime) (ans : Answers) (s : State) (envelope : Entries) :
    (handleEvent rt ans s envelope).next.isSome = takesEvent ans s envelope := by
  have hrequired := requiredForEvent_isSome envelope
  unfold handleEvent takesEvent eventGranted
  cases hr : requiredForEvent envelope with
  | none =>
    rw [hr] at hrequired
    rw [← hrequired]
    rfl
  | some required =>
    rw [hr] at hrequired
    have hread : readable (payloadOf envelope) = true := by
      rw [Option.isSome_some, eventReadable] at hrequired
      exact (Bool.and_eq_true_iff.mp hrequired.symm).1
    rw [← hrequired, Option.isSome_some, Bool.true_and]
    dsimp only
    split_ifs
    · exact grantedEvent_next_isSome rt ans s hread
    · rw [← maybeDispatchDenyDm_isSome hread]
      cases maybeDispatchDenyDm envelope <;> rfl

/-- What the tool built goes through. -/
def Built.fits : Built → Bool
  | .emit action => isText ((get "adapter" action).getD .null)
  | _ => true

theorem answerTool_next_isSome (rt : Runtime) (s : State) (reqId : Value) (replyPid : Pid)
    (built : Built) : (answerTool rt s reqId replyPid built).next.isSome = built.fits := by
  cases built with
  | emit action =>
    rw [Built.fits, ← emitAndTrack_isSome rt action s]
    unfold answerTool
    dsimp only
    cases emitAndTrack rt action s <;> rfl
  | _ => rfl

theorem buildReply_fits (adapter : Value) (args : Entries) :
    (buildReply adapter args).fits =
      (!(isText ((get "chat_id" args).getD .null) && isText ((get "text" args).getD .null)) ||
        isText adapter) := by
  unfold buildReply
  cases get "chat_id" args with
  | none => rfl
  | some chatId =>
    cases chatId with
    | str chatId =>
      cases get "text" args with
      | none => rfl
      | some text =>
        cases text with
        | str text =>
          dsimp only
          cases get "reply_to_message_id" args with
          | none => rfl
          | some mid => cases mid <;> rfl
        | _ => rfl
    | _ => rfl

theorem buildSendFile_fits (rt : Runtime) (ans : Answers) (adapter : Value) (args : Entries) :
    (buildSendFile rt ans adapter args).fits =
      match get "chat_id" args, get "file_path" args with
      | some _, some (.str path) => !(ans.readFile path).isOk || isText adapter
      | _, _ => true := by
  unfold buildSendFile
  cases get "chat_id" args with
  | none => rfl
  | some chatId =>
    cases get "file_path" args with
    | none => rfl
    | some filePath =>
      cases filePath with
      | str path =>
        dsimp only
        cases ans.readFile path <;> rfl
      | _ => rfl

theorem buildEmitForTool_fits (rt : Runtime) (ans : Answers) (tool : Value) (toolText : String)
    (args : Entries) (s : State) :
    ((buildEmitForTool rt ans tool toolText args s).any Built.fits) =
      toolTakes ans s tool args := by
  unfold buildEmitForTool toolTakes
  cases toolOf tool with
  | reply => exact buildReply_fits _ args
  | sendFile => exact buildSendFile_fits rt ans _ args
  | echo =>
    unfold buildEcho
    dsimp only [Option.any_some]
    split_ifs
    · rfl
    · rw [buildReply_fits]
      exact Bool.or_true _
  | signalCleanup =>
    unfold buildSignalCleanup
    cases get "session_id" args with
    | none => rfl
    | some sessionId =>
      cases sessionId with
      | str sessionId =>
        cases get "status" args with
        | none => rfl
        | some status => cases status <;> rfl
      | _ => rfl
  | unknown => rfl

theorem grantedTool_next_isSome (rt : Runtime) (ans : Answers) (s : State) (reqId tool : Value)
    (toolText : String) (args : Entries) (replyPid : Pid) :
    (grantedTool rt ans s reqId tool toolText args replyPid).next.isSome =
      (echoLogged rt reqId tool args && toolTakes ans s tool args) := by
  rw [← buildEmitForTool_fits rt ans tool toolText args s]
  unfold grantedTool
  cases echoLogged rt reqId tool args with
  | false => rfl
  | true =>
    rw [if_pos rfl, Bool.true_and]
    cases buildEmitForTool rt ans tool toolText args s with
    | none => rfl
    | some built => exact answerTool_next_isSome rt s reqId replyPid built

theorem handleToolInvoke_next_isSome (rt : Runtime) (ans : Answers) (s : State)
    (reqId tool args : Value) (replyPid : Pid) (principalId : Value) :
    (handleToolInvoke rt ans s reqId tool args replyPid principalId).next.isSome =
      takesTool rt ans s reqId tool args principalId := by
  cases args with
  | map args =>
    unfold handleToolInvoke takesTool toolGranted hasText
    dsimp only
    cases toStr tool with
    | none => rfl
    | some toolText =>
      have hrequired := requiredFor_isSome ((get "workspace_name" args).getD .null) toolText
      rw [hasText] at hrequired
      rw [workspaceOf, ← hrequired, Option.bind_some]
      dsimp only
      cases requiredFor ((get "workspace_name" args).getD .null) toolText with
      | none => rfl
      | some required =>
        dsimp only
        cases granted ans principalId required with
        | true => exact grantedTool_next_isSome rt ans s reqId tool toolText args replyPid
        | false => rfl
  | _ => rfl

theorem ackResult_isSome (payload : Option Value) :
    (ackResult payload).isSome = readable (orElse (.map []) (payload.getD .null)) := by
  have hne : orElse (.map []) (payload.getD .null) ≠ .null := by
    intro h
    unfold orElse at h
    split at h
    · cases h
    · cases h
    · rename_i hn _
      exact hn h
  unfold ackResult
  cases hp : orElse (.map []) (payload.getD .null) with
  | null => exact absurd hp hne
  | _ => rfl

theorem handleDirectiveAck_next_isSome (s : State) (id : String) (payload : Option Value) :
    (handleDirectiveAck s id payload).next.isSome = takesAck s id payload := by
  unfold handleDirectiveAck takesAck
  cases s.pendingToolReqs.lookup id with
  | some req =>
    rw [Option.isSome_some, if_pos rfl, ← ackResult_isSome]
    dsimp only
    cases ackResult payload <;> rfl
  | none =>
    rw [Option.isSome_none, if_neg Bool.false_ne_true]
    dsimp only [handleAck]
    cases payload with
    | none => rfl
    | some payload =>
      dsimp only
      split_ifs <;> rfl

theorem handleDirectiveDeadline_next_isSome (s : State) (id : String) :
    (handleDirectiveDeadline s id).next.isSome = true := by
  unfold handleDirectiveDeadline
  cases s.pendingToolReqs.lookup id with
  | some req => rfl
  | none =>
    dsimp only
    split_ifs <;> rfl

theorem handle_next_isSome (rt : Runtime) (ans : Answers) (s : State) (m : Msg) :
    (handle rt ans s m).next.isSome = takes rt ans s m := by
  cases m with
  | call c => cases c <;> rfl
  | inboundEvent envelope =>
    unfold handle takes
    dsimp only
    cases s.paused with
    | true =>
      rw [if_pos rfl, holdEvent]
      split_ifs <;> rfl
    | false => exact handleEvent_next_isSome rt ans s envelope
  | toolInvoke reqId tool args replyPid principalId =>
    exact handleToolInvoke_next_isSome rt ans s reqId tool args replyPid principalId
  | directiveAck id payload => exact handleDirectiveAck_next_isSome s id payload
  | directiveDeadline id => exact handleDirectiveDeadline_next_isSome s id
  | exit => rfl
  | handlerReply envelope => rfl

/-! ## Runs -/

variable {rt : Runtime} {s₀ : State} {n : Node}

/-- **What keeps the server alive.**  At the end of any run it is there exactly if
every message it has taken is one it takes in the state it was in. -/
theorem survives_iff_takes (h : Reaches (step rt) anyStep (start s₀) n) :
    n.server.isSome = true ↔
      ∀ t ∈ n.history, takes rt t.answers t.state t.msg = true := by
  let Inv : Node → Prop := fun n =>
    n.server.isSome = true ↔ ∀ t ∈ n.history, takes rt t.answers t.state t.msg = true
  have h0 : Inv (start s₀) := by simp [Inv, start]
  refine h.invariant h0 ?_
  intro n a n' ih _ hstep
  rcases step_cases hstep with ⟨m, s, -, -, -, rfl⟩ | ⟨m, -, -, rfl⟩ | ⟨id, -, -, rfl⟩ |
    ⟨ans, s, m, rest, -, hs, -, -, rfl⟩ | ⟨envelope, rest, -, -, rfl⟩
  · exact ih
  · exact ih
  · exact ih
  · have hbefore := ih.mp (by rw [hs]; rfl)
    show (handle rt ans s m).next.isSome = true ↔ _
    rw [handle_next_isSome]
    constructor
    · intro ht t hmem
      rcases List.mem_append.mp hmem with hold | hnew
      · exact hbefore t hold
      · obtain rfl := List.mem_singleton.mp hnew
        exact ht
    · intro hall
      exact hall (takenIn rt ans s m) (List.mem_append_right _ List.mem_cons_self)
  · exact ih

/-! ## A reply that comes too late -/

/-- The handler does not answer in time, and its reply is in the mailbox after. -/
def lateReply : List Act :=
  [.arrive (.inboundEvent textEvent), .take (answering .timeout .timeout),
    .arrive (.handlerReply [(.str "id", .str "hc-1")]), .take (answering .timeout .timeout)]

/-- The event is handled and the server goes on: every message so far is one it
takes. -/
theorem survives_lateReply :
    ∃ n : Node, n.history.length = 1 ∧ (n.server.isSome = true ↔
      ∀ t ∈ n.history, takes counting t.answers t.state t.msg = true) := by
  have hrun : (exec (step counting) anyStep (start threadServer) (lateReply.take 2)).map
      (fun n => n.history.length) = some 1 := by decide +kernel
  obtain ⟨n, hn, hlength⟩ := Option.map_eq_some_iff.mp hrun
  exact ⟨n, hlength, survives_iff_takes (.of_exec hn)⟩

/-- **The late reply ends the server**: no clause takes it. -/
theorem not_survives_lateReply :
    ¬∀ (rt : Runtime) (s₀ : State) (n : Node) (s : State) (ans : Answers) (m : Msg),
      Reaches (step rt) anyStep (start s₀) n → n.server = some s →
      n.mailbox.head? = some m → (handle rt ans s m).next.isSome = true := by
  intro h
  have hrun : ((exec (step counting) anyStep (start threadServer) (lateReply.take 3)).bind
      fun n => n.server.map fun _ => n.mailbox.map fun
        | .handlerReply _ => true
        | _ => false) = some [true] := by decide +kernel
  obtain ⟨n, hn, hserver⟩ := Option.bind_eq_some_iff.mp hrun
  obtain ⟨s, hs, hbox⟩ := Option.map_eq_some_iff.mp hserver
  obtain ⟨m, hm, hreply⟩ := List.map_eq_singleton_iff.mp hbox
  have hhead : n.mailbox.head? = some m := by rw [hm]; rfl
  have hnext := h counting threadServer n s (answering .timeout .timeout) m (.of_exec hn) hs hhead
  cases m with
  | handlerReply envelope => cases hnext
  | _ => cases hreply

end EntityServer
end Esr
