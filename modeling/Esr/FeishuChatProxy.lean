import Esr.EntityServer
import Esr.Runs

/-! # The chat proxy

`Esr.Plugins.Feishu.FeishuChatProxy` is the process of one session that stands between
its Feishu chat and its CC process.  What arrives from the chat goes to CC: a text at
once, a medium after the adapter has downloaded it and has acknowledged that.  What CC
says goes out through the adapter: as a reply, or as a call of the `reply` tool, which
may name another chat and another app.

`handle` is one message.  Its effects are what is sent, in order; `next` is `none` where
the code raises, which ends the process.
-/
namespace Esr
namespace FeishuChatProxy
open Yaml
open EntityServer (Pid access getIn orElse)

/-- The ids of directives are random bytes, taken to be new each time. -/
structure Ids where
  newId : Nat → String
  newId_injective : Function.Injective newId

/-- Ids that count in strokes. -/
def strokes : Ids where
  newId n := "d-" ++ String.ofList (List.replicate n 'I')
  newId_injective m n h := by
    have hlen := congrArg (fun s => s.toList.length) h
    simpa using hlen

inductive Role where
  | feishuAppProxy
  | ccProcess
deriving DecidableEq

/-- What the proxy finds around it while it handles one message; `inspect` is
`Kernel.inspect/1` of a text. -/
structure Env where
  listByRole : String → Role → List Pid
  lookup : String → Option Pid
  supportsInbound : String → Bool
  workspaceNameForChat : String → String → Option String
  hasCapability : String → String → Bool
  inspect : String → String
  now : String

/-- The meta of a message for CC. -/
abbrev Meta := List (String × Value)

/-- An entry of `pending_media`. -/
structure Pending where
  msgType : String
  msgMeta : Meta
  envelope : Value

/-- The state of the proxy; `drawn` counts the ids of directives so far. -/
structure State where
  sessionId : String
  chatId : String
  threadId : String
  appId : String
  principalId : String
  pendingMedia : Ets String Pending
  drawn : Nat

/-- What the proxy sends. -/
inductive Effect where
  | outbound (pid : Pid) (envelope : Entries)
  | text (pid : Pid) (content : Value) (msgMeta : Meta)
  | pushEnvelope (pid : Pid) (payload : Entries)
  | mediaUnsupportedDm (envelope : Value) (kind : String)
  | subscribe (id : String)
  | unsubscribe (id : String)
  | sendAfter (id : String)

/-- A message for the proxy. -/
inductive Msg where
  | feishuInbound (envelope : Value)
  | reply (text : Value) (replyToMessageId : Value)
  | replyTool (reqId args : Value) (channelPid : Pid)
  | directiveAck (envelope : Value)
  | pendingMediaTimeout (id : String)

/-- What a message comes to. -/
structure Outcome where
  effects : List Effect
  next : Option State

/-- The code raises before it has sent anything. -/
def Outcome.raised : Outcome := ⟨[], none⟩

/-! ## To the adapter -/

/-- The adapter of the session's own app. -/
def ownAdapter (env : Env) (s : State) : Option Pid :=
  match env.listByRole s.sessionId .feishuAppProxy with
  | pid :: _ => some pid
  | [] => env.lookup ("feishu_app_adapter_" ++ s.appId)

/-- `emit_to_feishu_app_proxy/2`: what is sent, and whether it was. -/
def emitToFeishuAppProxy (env : Env) (s : State) (envelope : Entries) : List Effect × Bool :=
  match ownAdapter env s with
  | some pid => ([.outbound pid envelope], true)
  | none => ([], false)

/-- A reply for an adapter. -/
def replyEnvelope (args : Entries) : Entries :=
  [(.str "args", .map args), (.str "kind", .str "reply")]

/-- `forward_reply/3`, which both of its callers leave with the state as it was. -/
def forwardReply (env : Env) (s : State) (text replyToMessageId : Value) : List Effect :=
  let args : Entries := [(.str "chat_id", .str s.chatId), (.str "text", text)]
  let args := match replyToMessageId with
    | .str mid => if mid ≠ "" then put "reply_to_message_id" (.str mid) args else args
    | _ => args
  (emitToFeishuAppProxy env s (replyEnvelope args)).1

/-! ## The reply tool -/

/-- `reply_tool_result/5`. -/
def replyToolResult (channelPid : Pid) (reqId : Value) (ok : Bool) (data error : Value) : Effect :=
  .pushEnvelope channelPid
    [(.str "data", data), (.str "error", error), (.str "kind", .str "tool_result"),
      (.str "ok", .bool ok), (.str "req_id", reqId)]

/-- `dispatch_to_target_app/5`. -/
def dispatchToTargetApp (env : Env) (chatId appId : String) (text reqId : Value)
    (channelPid : Pid) : List Effect :=
  match env.lookup ("feishu_app_adapter_" ++ appId) with
  | some targetPid =>
      [.outbound targetPid (replyEnvelope [(.str "chat_id", .str chatId), (.str "text", text)]),
        replyToolResult channelPid reqId true
          (.map [(.str "cross_app", .bool true), (.str "dispatched", .bool true)]) .null]
  | none =>
      [replyToolResult channelPid reqId false .null (.map
        [(.str "app_id", .str appId),
          (.str "message", .str ("no FeishuAppAdapter registered for app_id=" ++ env.inspect appId)),
          (.str "type", .str "unknown_app")])]

/-- The capability a reply in a workspace takes. -/
def msgSend (workspace : String) : String := "workspace:" ++ workspace ++ "/msg.send"

/-- `dispatch_cross_app_reply/6`. -/
def dispatchCrossAppReply (env : Env) (s : State) (chatId appId : String) (text reqId : Value)
    (channelPid : Pid) : List Effect :=
  match env.workspaceNameForChat chatId appId with
  | some targetWs =>
      if env.hasCapability s.principalId (msgSend targetWs) then
        dispatchToTargetApp env chatId appId text reqId channelPid
      else
        [replyToolResult channelPid reqId false .null (.map
          [(.str "app_id", .str appId), (.str "chat_id", .str chatId),
            (.str "message", .str ("principal " ++ s.principalId ++ " lacks " ++ msgSend targetWs)),
            (.str "type", .str "forbidden"), (.str "workspace", .str targetWs)])]
  | none =>
      [replyToolResult channelPid reqId false .null (.map
        [(.str "app_id", .str appId), (.str "chat_id", .str chatId),
          (.str "message",
            .str ("no workspace mapping for (chat_id=" ++ chatId ++ ", app_id=" ++ appId ++ ")")),
          (.str "type", .str "unknown_chat_in_app")])]

/-- `Map.get(args, key) || default`. -/
def argOr (key : String) (default : Value) (args : Entries) : Value :=
  orElse default ((get key args).getD .null)

/-- `dispatch_tool_invoke("reply", ...)`.  `Map.get/2` raises on what is not a map, and
the lookups of another app have no clause for an id that is not a text. -/
def dispatchReply (env : Env) (s : State) (reqId args : Value) (channelPid : Pid) : Outcome :=
  match args with
  | .map args =>
      let text := argOr "text" (.str "") args
      let chatId := argOr "chat_id" (.str s.chatId) args
      let appId := argOr "app_id" (.str s.appId) args
      if appId.isStr s.appId then
        ⟨forwardReply env s text ((get "reply_to_message_id" args).getD .null) ++
          [replyToolResult channelPid reqId true (.map [(.str "delivered", .bool true)]) .null], some s⟩
      else
        match chatId, appId with
        | .str chatId, .str appId =>
            ⟨dispatchCrossAppReply env s chatId appId text reqId channelPid, some s⟩
        | _, _ => .raised
  | _ => .raised

/-! ## From the chat -/

/-- `forward_text_and_react/4`. -/
def forwardTextAndReact (env : Env) (s : State) (text : Value) (msgMeta : Meta) : List Effect :=
  match env.listByRole s.sessionId .ccProcess with
  | pid :: _ => [.text pid text (("current_session_id", .str s.sessionId) :: msgMeta)]
  | [] => []

/-- `forward_media_to_cc/3`. -/
def forwardMediaToCc (env : Env) (sessionId : String) (p : Pending) (uri : Value) : List Effect :=
  match env.listByRole sessionId .ccProcess with
  | pid :: _ =>
      [.text pid uri (("current_session_id", .str sessionId) :: ("media_uri", uri) ::
        ("msg_type", .str p.msgType) :: p.msgMeta)]
  | [] => []

/-- `do_handle_non_text_inbound/5`, with `Esr.Resource.Media.Inbound.handle/2` in it. -/
def doHandleNonTextInbound (ids : Ids) (env : Env) (s : State) (envelope : Value)
    (kind : String) (arg : String → Value) (sender : Value) : Outcome :=
  let chatId := orElse (.str s.chatId) (arg "chat_id")
  let msgMeta : Meta :=
    [("chat_id", chatId), ("sender_id", orElse (orElse (.str "") (arg "sender_id")) sender),
      ("source_plugin", .str "feishu"), ("target_plugin", .str "claude_code")]
  if env.supportsInbound kind then
    let id := ids.newId s.drawn
    let adapterMsg : Entries :=
      [(.str "chat_id", chatId), (.str "file_key", orElse (.str "") (arg "file_key")),
        (.str "file_name", orElse (.str "") (arg "file_name")),
        (.str "msg_id", orElse (orElse (.str "") (arg "message_id")) (arg "msg_id")),
        (.str "msg_type", .str kind)]
    let directive : Entries :=
      [(.str "id", .str id), (.str "kind", .str "directive"),
        (.str "payload", .map [(.str "action", .str "download_file"), (.str "adapter", .str "feishu"),
          (.str "args", .map adapterMsg)]),
        (.str "ts", .str env.now), (.str "type", .str "directive")]
    let (sent, emitted) := emitToFeishuAppProxy env s directive
    if emitted then
      ⟨.subscribe id :: sent ++ [.sendAfter id],
        some { s with
          pendingMedia := s.pendingMedia.insert id ⟨kind, msgMeta, envelope⟩
          drawn := s.drawn + 1 }⟩
    else ⟨[.subscribe id, .unsubscribe id], some { s with drawn := s.drawn + 1 }⟩
  else ⟨[.mediaUnsupportedDm envelope kind], some s⟩

/-- `args["key"]` on the arguments of an envelope. -/
def argument (args : Value) (key : String) : Value := (access key args).getD .null

/-- `handle_upstream({:feishu_inbound, envelope}, state)`. -/
def handleUpstream (ids : Ids) (env : Env) (s : State) (envelope : Value) : Outcome :=
  match getIn envelope ["payload", "args"] with
  | none => .raised
  | some args =>
      let args := orElse (.map []) args
      match access "msg_type" args with
      | none => .raised
      | some msgType =>
          let arg := argument args
          let sender := argument envelope "principal_id"
          match orElse (.str "text") msgType with
          | .str kind =>
              if kind = "text" then
                let msgMeta : Meta :=
                  [("message_id", orElse (.str "") (arg "message_id")),
                    ("sender_id", orElse (.str "") (arg "sender_id")),
                    ("thread_id", orElse (.str "") (arg "thread_id")),
                    ("chat_id", orElse (.str "") (arg "chat_id")),
                    ("app_id", orElse (.str "") (arg "app_id")),
                    ("source", argument envelope "source"),
                    ("principal_id", orElse (arg "principal_id") sender)]
                ⟨forwardTextAndReact env s (orElse (.str "") (arg "content")) msgMeta, some s⟩
              else if kind ∈ ["image", "file", "audio"] then
                doHandleNonTextInbound ids env s envelope kind arg sender
              else ⟨[], some s⟩
          | _ => ⟨[], some s⟩

/-! ## Acknowledgements -/

/-- The uri of an ok acknowledgement: `%{"ok" => true, "result" => %{"uri" => uri}}`. -/
def uriOf (payload : Value) : Option Value :=
  match payload with
  | .map entries =>
      match get "ok" entries, get "result" entries with
      | some (.bool true), some (.map result) => get "uri" result
      | _, _ => none
  | _ => none

/-- `Map.pop(pending_media, id)`, whose keys are texts. -/
def pending (s : State) : Value → Option (String × Pending)
  | .str id => (s.pendingMedia.lookup id).map fun p => (id, p)
  | _ => none

/-- The entry is settled: it goes, and so does the subscription. -/
def settle (s : State) (id : String) : State := { s with pendingMedia := s.pendingMedia.delete id }

/-- `handle_info({:directive_ack, ...})`, which asks for an id and a payload. -/
def handleDirectiveAck (env : Env) (s : State) (envelope : Value) : Outcome :=
  match envelope with
  | .map entries =>
      match get "id" entries, get "payload" entries with
      | some id, some payload =>
          match pending s id with
          | none => ⟨[], some s⟩
          | some (id, p) =>
              ⟨.unsubscribe id :: (match uriOf payload with
                | some uri => forwardMediaToCc env s.sessionId p uri
                | none => []), some (settle s id)⟩
      | _, _ => .raised
  | _ => .raised

/-- `handle_info({:pending_media_timeout, id})`. -/
def handlePendingMediaTimeout (s : State) (id : String) : Outcome :=
  match s.pendingMedia.lookup id with
  | none => ⟨[], some s⟩
  | some _ => ⟨[.unsubscribe id], some (settle s id)⟩

/-- `handle_info/2`. -/
def handle (ids : Ids) (env : Env) (s : State) : Msg → Outcome
  | .feishuInbound envelope => handleUpstream ids env s envelope
  | .reply text replyToMessageId => ⟨forwardReply env s text replyToMessageId, some s⟩
  | .replyTool reqId args channelPid => dispatchReply env s reqId args channelPid
  | .directiveAck envelope => handleDirectiveAck env s envelope
  | .pendingMediaTimeout id => handlePendingMediaTimeout s id

/-- `init/1`. -/
def init (sessionId chatId threadId appId principalId : String) : State :=
  ⟨sessionId, chatId, threadId, appId, principalId, .empty, 0⟩

end FeishuChatProxy
end Esr
