import Mathlib.Data.Finset.Card
import Esr.Ets
import Esr.Yaml

/-! # The actor server

`Esr.Entity.Server` is the process of one live actor.  It takes one message at a
time: an event from an adapter, which goes to the actor's handler through
`HandlerRouter.call/3` and whose new state is committed before its actions are
dispatched; a tool request, which becomes a directive to an adapter; the
acknowledgement or the deadline of a directive; and the calls of its API.

`handle` is one such message.  What the handler answered, what a file held and
whom the capability check let through come as `Answers`; what the server sends
comes out as effects, in order.  `Outcome.next` is `none` where the code raises,
which ends the process: the effects up to that point have happened all the same.
-/
namespace Esr
namespace EntityServer
open Yaml Yaml.Writer

/-- The process a tool result goes to. -/
abbrev Pid := Nat

/-! ## Reading terms -/

/-- `term[key]`, with `none` where it raises. -/
def access (key : String) : Value → Option Value
  | .map m => some ((get key m).getD .null)
  | .null => some .null
  | _ => none

/-- `get_in/2`. -/
def getIn (v : Value) (keys : List String) : Option Value :=
  keys.foldlM (fun v key => access key v) v

/-- `v || default`. -/
def orElse (default : Value) : Value → Value
  | .null | .bool false => default
  | v => v

/-! ## What the server is given, and what it sends -/

/-- What does not change while the server lives: `uniqueInteger n` is what its
`n`-th call of `System.unique_integer/1` gives, `basename` is `Path.basename/1`,
and `logsInfo` tells whether the log level lets `Logger.info` build its message. -/
structure Runtime where
  uniqueInteger : Nat → Nat
  uniqueInteger_injective : Function.Injective uniqueInteger
  basename : String → String
  logsInfo : Bool

/-- The id of the `n`-th directive. -/
def Runtime.newId (rt : Runtime) (n : Nat) : String := "d-" ++ (rt.uniqueInteger n).repr

theorem Runtime.newId_injective (rt : Runtime) : Function.Injective rt.newId := by
  intro a b h
  have hrepr : (rt.uniqueInteger a).repr = (rt.uniqueInteger b).repr := by
    have hlist := congrArg String.toList h
    rw [newId, newId, String.toList_append, String.toList_append] at hlist
    exact String.toList_injective (List.append_cancel_left hlist)
  exact rt.uniqueInteger_injective (decimal_injective hrepr)

/-- What one attempt of `HandlerRouter.call/3` waits for: the payload of the
reply, if the frame has one, or nothing until the timeout. -/
inductive Reply where
  | timeout
  | payload (v : Option Value)

/-- The bytes of a file, as a directive carries them. -/
structure FileData where
  contentB64 : String
  sha256 : String

/-- What the rest of the runtime answers while one message is handled. -/
structure Answers where
  has : String → String → Bool
  readFile : String → Except String FileData
  first : Reply
  second : Reply

/-- The error of a handler call. -/
inductive HandlerError where
  | handlerTimeout
  | handlerError (detail : Value)

/-- The requests of the API. -/
inductive Call where
  | getState
  | describe
  | pause
  | resume
  | pendingCount

/-- A message of the server's mailbox.  An acknowledgement is published with a
text id; `payload` is `none` where the frame has no such key. -/
inductive Msg where
  | call (c : Call)
  | inboundEvent (envelope : Entries)
  | toolInvoke (reqId tool args : Value) (replyPid : Pid) (principalId : Value)
  | directiveAck (id : String) (payload : Option Value)
  | directiveDeadline (id : String)
  | exit
  | handlerReply (envelope : Entries)

/-- What the server sends while it handles a message. -/
inductive Effect where
  | reply (v : Value)
  | sendSelf (envelope : Entries)
  | handlerCall (payload : Entries)
  | persist (state : Entries)
  | subscribe (id : String)
  | unsubscribe (id : String)
  | sendAfter (id : String)
  | broadcast (topic : String) (id : String) (action : Entries)
  | notifySession (sessionId : String) (envelope : Entries)
  | signalCleanup (sessionId status : String) (details : Value)
  | toolResult (pid : Pid) (reqId : Value) (result : Entries)
  | denyDm (instanceId principalId chatId : String)
  | deadLetter (envelope : Entries) (reason : HandlerError)

/-- `@pause_queue_limit`. -/
def pauseQueueLimit : Nat := 1000

/-- `@dedup_limit`. -/
def dedupLimit : Nat := 1000

/-- The state of the server.  `pendingEvents` has the newest event first,
`dedupOrder` the oldest key first; `directives` counts the directive ids given
out so far. -/
structure State where
  actorId : String
  actorType : String
  handlerModule : String
  state : Entries
  paused : Bool
  pendingEvents : List Entries
  dedupKeys : Finset String
  dedupOrder : List String
  pendingDirectives : Ets String Entries
  pendingToolReqs : Ets String (Value × Pid)
  directives : Nat

/-- `init/1`, where `state` is what the store has for the actor, or else the
`initial_state` option. -/
def State.init (actorId actorType handlerModule : String) (state : Entries) : State :=
  ⟨actorId, actorType, handlerModule, state, false, [], ∅, [], .empty, .empty, 0⟩

/-- What a message comes to. -/
structure Outcome where
  effects : List Effect
  next : Option State

/-- The code raises before it has sent anything. -/
def Outcome.raised : Outcome := ⟨[], none⟩

/-- `{:noreply, state}` with nothing sent. -/
def Outcome.stay (s : State) : Outcome := ⟨[], some s⟩

/-- What comes after the effects already there. -/
def Outcome.after (es : List Effect) (o : Outcome) : Outcome := ⟨es ++ o.effects, o.next⟩

/-! ## The gate of an event -/

/-- `permission_for_event/1`. -/
def permissionForEvent : Value → String
  | .str s => if s = "msg_received" then "msg.send" else s
  | _ => "unknown"

/-- The permission text of a workspace and a permission: a workspace that does not
count as true is `*`, and one that `to_string/1` has no text for raises. -/
def requiredFor (workspace : Value) (perm : String) : Option String :=
  (toStr (orElse (.str "*") workspace)).map fun ws => "workspace:" ++ ws ++ "/" ++ perm

/-- `granted?/2` of the guard, and `capability_granted?/2`: a principal that is no
text has no grant. -/
def granted (ans : Answers) (principalId : Value) (required : String) : Bool :=
  match principalId with
  | .str principal => ans.has principal required
  | _ => false

/-- The instance `@feishu_source_re` finds in the source of an event. -/
def feishuInstance (source : String) : Option String :=
  match (stripPrefix "esr://" source).map fun rest => splitParts2 '/' rest with
  | some [host, path] =>
      match stripPrefix "adapters/feishu/" path with
      | some inst =>
          if host ≠ "" ∧ inst ≠ "" ∧ '/' ∉ inst.toList then some inst else none
      | none => none
  | _ => none

/-- `maybe_dispatch_deny_dm/1`, up to the guard's own rate limit. -/
def maybeDispatchDenyDm (envelope : Entries) : Option (List Effect) :=
  match (get "source" envelope).bind fun
      | .str source => feishuInstance source
      | _ => none with
  | none => some []
  | some inst =>
      (getIn (.map envelope) ["payload", "args", "chat_id"]).map fun chatId =>
        match chatId, get "principal_id" envelope with
        | .str chat, some (.str principal) =>
            if chat ≠ "" ∧ principal ≠ "" then [.denyDm inst principal chat] else []
        | _, _ => []

/-- `extract_idempotency_key/1`. -/
def extractIdempotencyKey (envelope : Entries) : Option (Option String) :=
  (getIn (.map envelope) ["payload", "args", "idempotency_key"]).map fun
    | .str key => some key
    | _ => none

/-! ## Calling the handler -/

/-- What `HandlerRouter.call/3` returns. -/
inductive Shaped where
  | ok (newState actions : Value)
  | error (reason : HandlerError)

/-- `{:handler_error, %{"type" => "InvalidReply", …}}`. -/
def invalidReply (other : Value) : HandlerError :=
  .handlerError (.map [(.str "payload", other), (.str "type", .str "InvalidReply")])

/-- `shape_reply/1`. -/
def shapeReply : Value → Shaped
  | .map m =>
      match get "error" m with
      | some (.map err) => .error (.handlerError (.map err))
      | _ =>
          match get "new_state" m with
          | some newState => .ok newState ((get "actions" m).getD (.list []))
          | none => .error (invalidReply (.map m))
  | other => .error (invalidReply other)

/-- `HandlerRouter.call/3`: the payload is read with `|| %{}`. -/
def routerCall : Reply → Shaped
  | .timeout => .error .handlerTimeout
  | .payload v => shapeReply (orElse (.map []) (v.getD .null))

/-- What `call_with_retry/2` returns. -/
inductive Called where
  | ok (newState actions : Value)
  | retryExhausted (reason : HandlerError)
  | error (reason : HandlerError)

/-- `retry_once/2`. -/
def retryOnce (second : Reply) : Called :=
  match routerCall second with
  | .ok newState actions => .ok newState actions
  | .error reason => .retryExhausted reason

/-- `call_with_retry/2`, with the number of calls made: only a timeout is
retried. -/
def callWithRetry (ans : Answers) : Nat × Called :=
  match routerCall ans.first with
  | .ok newState actions => (1, .ok newState actions)
  | .error .handlerTimeout => (2, retryOnce ans.second)
  | .error reason => (1, .error reason)

/-- The payload of the handler call. -/
def handlerPayload (s : State) (envelope : Entries) : Entries :=
  [(.str "event", (get "payload" envelope).getD (.map [])),
    (.str "handler", .str (s.actorType ++ ".on_msg")), (.str "state", .map s.state)]

/-! ## Committing -/

/-- `evict_if_full/2`.  The queue is never empty there, as it has just been added
to. -/
def evictIfFull (keys : Finset String) (order : List String) : Finset String × List String :=
  if keys.card > dedupLimit then
    match order with
    | oldest :: trimmed => (keys.erase oldest, trimmed)
    | [] => (keys, [])
  else (keys, order)

/-- `record_dedup/2`. -/
def recordDedup (s : State) : Option String → State
  | none => s
  | some key =>
      let final := evictIfFull (insert key s.dedupKeys) (s.dedupOrder ++ [key])
      { s with dedupKeys := final.1, dedupOrder := final.2 }

/-! ## Directives -/

/-- What `emit_and_track/2` and the `emit` clause of `dispatch_action/2` do with an
action whose adapter is a text: subscribe, start the timer, broadcast, and note
the directive under a new id. -/
def track (rt : Runtime) (adapter : String) (action : Entries) (s : State) :
    String × State × List Effect :=
  let id := rt.newId s.directives
  (id, { s with directives := s.directives + 1
                pendingDirectives := s.pendingDirectives.insert id action },
    [.subscribe id, .sendAfter id,
      .broadcast ("adapter:" ++ adapter ++ "/" ++ s.actorId) id action])

/-- `emit_and_track/2`: an adapter that is no text raises. -/
def emitAndTrack (rt : Runtime) (action : Entries) (s : State) :
    Option (String × State × List Effect) :=
  match get "adapter" action with
  | some (.str adapter) => some (track rt adapter action s)
  | _ => none

/-- The notification `dispatch_action/2` makes of the arguments of an action for
`esr-channel`. -/
def notification (args : Entries) : Entries :=
  let field (key : String) : Value × Value := (.str key, (get key args).getD (.str ""))
  [field "chat_id", field "content", (.str "kind", .str "notification"), field "message_id",
    field "source", field "user"]

/-- The first clause of `dispatch_action/2`: the synthetic channel.  Arguments that
are no map raise, and so does a session id that is no text. -/
def notifySession (action : Entries) (s : State) : Option (State × List Effect) :=
  match (get "args" action).getD (.map []) with
  | .map args =>
      match (get "session_id" args).getD (.str "") with
      | .str sessionId => some (s, [.notifySession sessionId (notification args)])
      | _ => none
  | _ => none

/-- `dispatch_action/2`. -/
def dispatchAction (rt : Runtime) (s : State) : Value → Option (State × List Effect)
  | .map action =>
      if ((get "type" action).getD .null).isStr "emit" then
        if ((get "adapter" action).getD .null).isStr "esr-channel" then notifySession action s
        else (emitAndTrack rt action s).map Prod.snd
      else some (s, [])
  | _ => some (s, [])

/-- `dispatch_actions/2`. -/
def dispatchActions (rt : Runtime) : State → List Value → Outcome
  | s, [] => .stay s
  | s, action :: rest =>
      match dispatchAction rt s action with
      | some (s', es) => .after es (dispatchActions rt s' rest)
      | none => .raised

/-! ## The handlers of the messages -/

/-- `invoke_handler/3`. -/
def invokeHandler (rt : Runtime) (ans : Answers) (s : State) (envelope : Entries)
    (key : Option String) : Outcome :=
  let called := callWithRetry ans
  let calls := List.replicate called.1 (Effect.handlerCall (handlerPayload s envelope))
  match called.2 with
  | .ok (.map newState) (.list actions) =>
      .after (calls ++ [.persist newState])
        (dispatchActions rt (recordDedup { s with state := newState } key) actions)
  | .ok _ _ => ⟨calls, none⟩
  | .retryExhausted reason => ⟨calls ++ [.deadLetter envelope reason], some s⟩
  | .error _ => ⟨calls, some s⟩

/-- `handle_info({:inbound_event, envelope}, state)` while the server is paused. -/
def holdEvent (s : State) (envelope : Entries) : Outcome :=
  if s.pendingEvents.length ≥ pauseQueueLimit then .stay s
  else .stay { s with pendingEvents := envelope :: s.pendingEvents }

/-- The permission an event requires. -/
def requiredForEvent (envelope : Entries) : Option String := do
  let eventType ← getIn (.map envelope) ["payload", "event_type"]
  requiredFor ((get "workspace_name" envelope).getD .null) (permissionForEvent eventType)

/-- An event the guard lets through: it goes to the handler unless its key is
known. -/
def grantedEvent (rt : Runtime) (ans : Answers) (s : State) (envelope : Entries) : Outcome :=
  match extractIdempotencyKey envelope with
  | none => .raised
  | some none => invokeHandler rt ans s envelope none
  | some (some key) =>
      if key ∈ s.dedupKeys then .stay s else invokeHandler rt ans s envelope (some key)

/-- `handle_info({:inbound_event, envelope}, state)` while the server is not
paused. -/
def handleEvent (rt : Runtime) (ans : Answers) (s : State) (envelope : Entries) : Outcome :=
  match requiredForEvent envelope with
  | none => .raised
  | some required =>
      if granted ans ((get "principal_id" envelope).getD .null) required then
        grantedEvent rt ans s envelope
      else
        match maybeDispatchDenyDm envelope with
        | some es => ⟨es, some s⟩
        | none => .raised

/-! ### Tool requests -/

/-- `session_channel_adapter/1` on the state of the actor. -/
def sessionChannelAdapter (threadState : Entries) : Value :=
  (get "channel_adapter" threadState).getD (.str "feishu")

/-- The emit action a tool makes. -/
def emit (adapter : Value) (action : String) (args : Entries) : Entries :=
  [(.str "action", .str action), (.str "adapter", adapter), (.str "args", .map args),
    (.str "type", .str "emit")]

/-- What `build_emit_for_tool/3` returns. -/
inductive Built where
  | emit (action : Entries)
  | directAck (sessionId status : String) (details : Value)
  | error (reason : String)

/-- `build_emit_for_tool("reply", args, state)`, with the adapter of the state. -/
def buildReply (adapter : Value) (args : Entries) : Built :=
  match get "chat_id" args, get "text" args with
  | some (.str chatId), some (.str text) =>
      let base : Entries := [(.str "chat_id", .str chatId), (.str "content", .str text)]
      match get "reply_to_message_id" args with
      | some (.str mid) =>
          .emit (emit adapter "send_message"
            (if mid ≠ "" then put "reply_to_message_id" (.str mid) base else base))
      | _ => .emit (emit adapter "send_message" base)
  | _, _ => .error "reply requires chat_id + text"

/-- `build_emit_for_tool("send_file", args, state)`. -/
def buildSendFile (rt : Runtime) (ans : Answers) (adapter : Value) (args : Entries) : Built :=
  match get "chat_id" args, get "file_path" args with
  | some chatId, some (.str path) =>
      match ans.readFile path with
      | .ok file =>
          .emit (emit adapter "send_file"
            [(.str "chat_id", chatId), (.str "content_b64", .str file.contentB64),
              (.str "file_name", .str (rt.basename path)), (.str "sha256", .str file.sha256)])
      | .error reason => .error ("send_file cannot read " ++ path ++ ": " ++ reason)
  | _, _ => .error "send_file requires chat_id + file_path"

/-- `build_emit_for_tool("_echo", args, state)`: the reply is built without a
state, so its adapter is the fallback. -/
def buildEcho (threadState args : Entries) : Built :=
  let nonce := (get "nonce" args).getD (.str "")
  let chatId := (get "chat_id" threadState).getD (.str "")
  if chatId.isStr "" then .error "_echo requires thread state.chat_id"
  else buildReply (.str "feishu") [(.str "chat_id", chatId), (.str "text", nonce)]

/-- `build_emit_for_tool("session.signal_cleanup", args, state)`: a session id or a
status that is no text raises. -/
def buildSignalCleanup (args : Entries) : Option Built :=
  match get "session_id" args, get "status" args with
  | some (.str sessionId), some (.str status) =>
      some (.directAck sessionId status (getOr "details" (.map []) args))
  | _, _ => none

/-- The built-in tools of `permissions/0`, and any other. -/
inductive Tool where
  | reply
  | sendFile
  | echo
  | signalCleanup
  | unknown

/-- The tool a request names. -/
def toolOf (tool : Value) : Tool :=
  if tool.isStr "reply" then .reply
  else if tool.isStr "send_file" then .sendFile
  else if tool.isStr "_echo" then .echo
  else if tool.isStr "session.signal_cleanup" then .signalCleanup
  else .unknown

/-- `build_emit_for_tool/3`, where `toolText` is the tool in a text. -/
def buildEmitForTool (rt : Runtime) (ans : Answers) (tool : Value) (toolText : String)
    (args : Entries) (s : State) : Option Built :=
  match toolOf tool with
  | .reply => some (buildReply (sessionChannelAdapter s.state) args)
  | .sendFile => some (buildSendFile rt ans (sessionChannelAdapter s.state) args)
  | .echo => some (buildEcho s.state args)
  | .signalCleanup => buildSignalCleanup args
  | .unknown => some (.error ("unknown tool: " ++ toolText))

/-- The log line of `_echo`, which raises where the request id or the nonce has no
text. -/
def echoLogged (rt : Runtime) (reqId tool : Value) (args : Entries) : Bool :=
  !(rt.logsInfo && tool.isStr "_echo") ||
    ((toStr reqId).isSome && (toStr ((get "nonce" args).getD (.str ""))).isSome)

/-- `%{"ok" => false, "error" => error}`. -/
def failure (error : Entries) : Entries := [(.str "error", .map error), (.str "ok", .bool false)]

/-- An error with a type and one more field, whose key comes before `type`. -/
def errorOf (type field text : String) : Entries :=
  [(.str field, .str text), (.str "type", .str type)]

/-- The result of `session.signal_cleanup`. -/
def acknowledged : Entries := [(.str "acknowledged", .bool true), (.str "ok", .bool true)]

/-- What is done with what the tool built. -/
def answerTool (rt : Runtime) (s : State) (reqId : Value) (replyPid : Pid) : Built → Outcome
  | .emit action =>
      match emitAndTrack rt action s with
      | some (id, s', es) =>
          ⟨es, some { s' with pendingToolReqs := s'.pendingToolReqs.insert id (reqId, replyPid) }⟩
      | none => .raised
  | .directAck sessionId status details =>
      ⟨[.signalCleanup sessionId status details, .toolResult replyPid reqId acknowledged], some s⟩
  | .error reason =>
      ⟨[.toolResult replyPid reqId (failure (errorOf "invalid_args" "message" reason))], some s⟩

/-- A request its principal may make. -/
def grantedTool (rt : Runtime) (ans : Answers) (s : State) (reqId tool : Value)
    (toolText : String) (args : Entries) (replyPid : Pid) : Outcome :=
  if echoLogged rt reqId tool args then
    match buildEmitForTool rt ans tool toolText args s with
    | some built => answerTool rt s reqId replyPid built
    | none => .raised
  else .raised

/-- `handle_info({:tool_invoke, …}, state)`.  Arguments that are no map raise. -/
def handleToolInvoke (rt : Runtime) (ans : Answers) (s : State) (reqId tool args : Value)
    (replyPid : Pid) (principalId : Value) : Outcome :=
  match args with
  | .map args =>
      match toStr tool with
      | none => .raised
      | some toolText =>
          match requiredFor ((get "workspace_name" args).getD .null) toolText with
          | none => .raised
          | some required =>
              if granted ans principalId required then
                grantedTool rt ans s reqId tool toolText args replyPid
              else
                ⟨[.toolResult replyPid reqId
                  (failure (errorOf "unauthorized" "required_perm" required))], some s⟩
  | _ => .raised

/-! ### Acknowledgements and deadlines -/

/-- The directive is over: it leaves both maps. -/
def State.forget (s : State) (id : String) : State :=
  { s with pendingToolReqs := s.pendingToolReqs.delete id
           pendingDirectives := s.pendingDirectives.delete id }

/-- The result an acknowledgement carries; reading a payload that is neither a map
nor `nil` raises. -/
def ackResult (payload : Option Value) : Option Entries :=
  match orElse (.map []) (payload.getD .null) with
  | .map m =>
      some [(.str "data", (get "result" m).getD .null), (.str "error", (get "error" m).getD .null),
        (.str "ok", .bool (match get "ok" m with
          | some (.bool b) => b
          | _ => false))]
  | _ => none

/-- `handle_info({:directive_ack, …}, state)` for a directive that is no tool
request.  The clause asks for the key `payload`. -/
def handleAck (s : State) (id : String) (payload : Option Value) : Outcome :=
  match payload with
  | none => .raised
  | some _ =>
      if (s.pendingDirectives.lookup id).isSome then
        ⟨[.unsubscribe id], some { s with pendingDirectives := s.pendingDirectives.delete id }⟩
      else .stay s

/-- `handle_info({:directive_ack, …}, state)`. -/
def handleDirectiveAck (s : State) (id : String) (payload : Option Value) : Outcome :=
  match s.pendingToolReqs.lookup id with
  | some (reqId, replyPid) =>
      match ackResult payload with
      | some result => ⟨[.toolResult replyPid reqId result, .unsubscribe id], some (s.forget id)⟩
      | none => .raised
  | none => handleAck s id payload

/-- `handle_info({:directive_deadline, id}, state)`. -/
def handleDirectiveDeadline (s : State) (id : String) : Outcome :=
  match s.pendingToolReqs.lookup id with
  | some (reqId, replyPid) =>
      ⟨[.toolResult replyPid reqId (failure (errorOf "timeout" "message" "directive ack timeout")),
        .unsubscribe id], some (s.forget id)⟩
  | none =>
      if (s.pendingDirectives.lookup id).isSome then
        ⟨[.unsubscribe id], some { s with pendingDirectives := s.pendingDirectives.delete id }⟩
      else .stay s

/-! ### The API -/

/-- The snapshot of `describe/1`. -/
def snapshot (s : State) : Value :=
  .map [(.str "actor_id", .str s.actorId), (.str "actor_type", .str s.actorType),
    (.str "handler_module", .str s.handlerModule), (.str "paused", .bool s.paused),
    (.str "state", .map s.state)]

/-- `handle_call/3`.  `pending_events` has its newest event first; a resume sends
them in arrival order. -/
def handleCall (s : State) : Call → Outcome
  | .getState => ⟨[.reply (.map s.state)], some s⟩
  | .describe => ⟨[.reply (snapshot s)], some s⟩
  | .pause => ⟨[.reply (.str "ok")], some { s with paused := true }⟩
  | .resume =>
      ⟨s.pendingEvents.reverse.map .sendSelf ++ [.reply (.str "ok")],
        some { s with paused := false, pendingEvents := [] }⟩
  | .pendingCount => ⟨[.reply (.int s.pendingEvents.length)], some s⟩

/-- One message.  There is no clause for a reply of a handler that comes when no
call waits for it. -/
def handle (rt : Runtime) (ans : Answers) (s : State) : Msg → Outcome
  | .call c => handleCall s c
  | .inboundEvent envelope =>
      if s.paused then holdEvent s envelope else handleEvent rt ans s envelope
  | .toolInvoke reqId tool args replyPid principalId =>
      handleToolInvoke rt ans s reqId tool args replyPid principalId
  | .directiveAck id payload => handleDirectiveAck s id payload
  | .directiveDeadline id => handleDirectiveDeadline s id
  | .exit => .stay s
  | .handlerReply _ => .raised

end EntityServer
end Esr
