import Esr.EntityServer
import Esr.Ets
import Esr.SlashIdentity

/-! # The app adapter

`Esr.Entity.FeishuAppAdapter` is the process of one Feishu instance through which all of
its messages pass.  An inbound event is marked as received by a react on the message,
then it is taken by a pending action, sent to the slash handler, answered by a guide, or
routed to the chat proxy of the chat's session.  What a session says goes out as a
directive for the Python adapter; the answer of the slash handler comes back under the
reference it was asked with.

`handle` is one message.  Its effects are what is sent, in order; `next` is `none` where
the code raises, which ends the process.
-/
namespace Esr
namespace FeishuAppAdapter
open Yaml Yaml.Writer
open EntityServer (Pid access getIn orElse)

/-- What a guard says of an inbound event. -/
inductive Guarded where
  | emit (text : String)
  | rateLimited
  | passthrough

/-- What the adapter finds around it while it handles one message.  `intercept` is
`EsrWeb.PendingActionsGuard`, which may not be running; the guards are what `check/3`
does with texts that are not empty. -/
structure Env where
  intercept : Option (String → String → String → Bool)
  unboundUser : String → String → String → Guarded
  unboundChat : String → String → String → Guarded
  currentSession : Value → Value → Option String
  fcpForSession : String → Option Pid
  alive : Pid → Bool
  lookup : String → Option Pid
  randomId : String
  now : String

/-- The reference of a call of the slash handler. -/
abbrev Ref := Nat

/-- The state of the adapter; `refs` counts the references made so far. -/
structure State where
  instanceId : String
  slashPendingChat : Ets Ref (Value × Value)
  pendingReacts : Ets String String
  refs : Ref

/-- `init/1`. -/
def init (instanceId : String) : State := ⟨instanceId, .empty, .empty, 0⟩

/-- What the adapter sends. -/
inductive Effect where
  | toSelf (envelope : Entries)
  | outbound (pid : Pid) (envelope : Entries)
  | dispatch (envelope : Value) (ref : Ref)
  | feishuInbound (pid : Pid) (envelope : Value)
  | detachSession (chatId appId sid : String)
  | newChatThread (appId chatId threadId envelope : Value)
  | broadcast (topic : String) (directive : Entries)

/-- A message for the adapter. -/
inductive Msg where
  | inboundEvent (envelope : Value)
  | outbound (envelope : Entries)
  | reply (text : String) (ref : Ref)

/-- What became of a message.  An inbound event that is dropped says so; `consumed` and
`routed` are both `{:forward, [], state}`. -/
inductive Exit where
  | consumed
  | slashDispatched
  | unboundUserGuideSent
  | unboundUserGuideRateLimited
  | routed
  | sessionDead
  | sessionIncomplete
  | unboundChatGuideSent
  | unboundChatGuideRateLimited
  | newChatThreadPending
  | forwarded
  | slashReplied
  | unknownRef
  | raised
deriving DecidableEq

/-- What a message comes to. -/
structure Outcome where
  effects : List Effect
  next : Option State
  exit : Exit

/-- The code raises before it has sent anything. -/
def Outcome.raised : Outcome := ⟨[], none, .raised⟩

/-- These effects come first. -/
def Outcome.after (es : List Effect) (o : Outcome) : Outcome := ⟨es ++ o.effects, o.next, o.exit⟩

/-! ## Reacts -/

/-- `@typing_emoji`. -/
def typingEmoji : String := "Typing"

/-- The envelope of a react, or of taking one back. -/
def reactEnvelope (kind messageId emoji : String) : Entries :=
  [(.str "args", .map [(.str "emoji_type", .str emoji), (.str "msg_id", .str messageId)]),
    (.str "kind", .str kind)]

/-- A reply for a chat. -/
def replyEnvelope (chatId : Value) (text : String) : Entries :=
  [(.str "args", .map [(.str "chat_id", chatId), (.str "text", .str text)]),
    (.str "kind", .str "reply")]

/-- The message a react can be put on. -/
def messageOf : Value → Option String
  | .str mid => if mid = "" then none else some mid
  | _ => none

/-- `maybe_emit_react/2`. -/
def maybeEmitReact (messageId : Value) (s : State) : List Effect × State :=
  match messageOf messageId with
  | some mid =>
      ([.toSelf (reactEnvelope "react" mid typingEmoji)],
        { s with pendingReacts := s.pendingReacts.insert mid typingEmoji })
  | none => ([], s)

/-- `maybe_emit_un_react/2`. -/
def maybeEmitUnReact (messageId : Value) (s : State) : List Effect × State :=
  match messageOf messageId with
  | some mid =>
      match s.pendingReacts.lookup mid with
      | some emoji =>
          ([.toSelf (reactEnvelope "un_react" mid emoji)],
            { s with pendingReacts := s.pendingReacts.delete mid })
      | none => ([], s)
  | none => ([], s)

/-! ## Inbound events -/

/-- What `handle_upstream/2` reads from an envelope at first. -/
structure Inbound where
  args : Value
  chatId : Value
  threadId : Value
  messageId : Value
  eventType : Value

def readInbound (envelope : Value) : Option Inbound := do
  let args := orElse (.map []) (← getIn envelope ["payload", "args"])
  let chatId := orElse (.str "") (← access "chat_id" args)
  let threadId := orElse (.str "") (← access "thread_id" args)
  let messageId := orElse (.str "") (← access "message_id" args)
  let eventType := orElse (.str "") (← getIn envelope ["payload", "event_type"])
  return ⟨args, chatId, threadId, messageId, eventType⟩

/-- The text of the message. -/
def contentText (args : Value) : Option String := do
  let text := orElse (← access "text" args) (← access "content" args)
  toStr (orElse (.str "") text)

/-- Whether a pending action takes the message; `none` where `intercept?/3` has no
clause. -/
def consumes (env : Env) (principalId chatId : Value) (text : String) : Option Bool :=
  match env.intercept, principalId, chatId with
  | none, _, _ => some false
  | some intercept, .str principal, .str chat => some (intercept principal chat text)
  | some _, _, _ => none

/-- `UnboundUserGuard.check/3`. -/
def checkUser (env : Env) (userId : String) (chatId appId : Value) : Guarded :=
  match messageOf chatId, messageOf appId with
  | some chat, some app => if userId = "" then .passthrough else env.unboundUser userId chat app
  | _, _ => .passthrough

/-- `UnboundChatGuard.check/3`. -/
def checkChat (env : Env) (chatId appId : Value) (instanceId : String) : Guarded :=
  match messageOf chatId, messageOf appId with
  | some chat, some app => env.unboundChat chat app instanceId
  | _, _ => .passthrough

/-- `put_in(envelope, ["payload", "text"], text)`. -/
def putText (envelope : Value) (text : String) : Option Value :=
  match envelope with
  | .map e =>
      match get "payload" e with
      | some (.map p) => some (.map (put "payload" (.map (put "text" (.str text) p)) e))
      | _ => none
  | _ => none

/-- `dispatch_slash/5`. -/
def dispatchSlash (envelope : Value) (text : String) (chatId messageId : Value) (s : State) :
    Outcome :=
  match putText envelope text with
  | some envelopeWithText =>
      ⟨[.dispatch envelopeWithText s.refs],
        some { s with slashPendingChat := s.slashPendingChat.insert s.refs (chatId, messageId),
                      refs := s.refs + 1 }, .slashDispatched⟩
  | none => .raised

/-- The text of `reply_chat_error/4`. -/
def chatErrorText : Exit → String
  | .sessionDead => "[session_dead] session 死了；运行 /session:new 重建"
  | .sessionIncomplete =>
      "[session_incomplete] session 启动不完整；运行 /session:end 后 /session:new 重试"
  | _ => ""

/-- `cleanup_and_reply/4` for a session that cannot take the message. -/
def cleanupAndReply (env : Env) (chatId appId : Value) (sid : String) (reason : Exit)
    (s : State) : Outcome :=
  match chatId, appId with
  | .str chat, .str app =>
      let error := match env.lookup ("feishu_app_adapter_" ++ app) with
        | some pid => [Effect.outbound pid (replyEnvelope chatId (chatErrorText reason))]
        | none => []
      ⟨.detachSession chat app sid :: error, some s, reason⟩
  | _, _ => .raised

/-- `do_handle_upstream_inbound/5`. -/
def doHandleUpstreamInbound (env : Env) (envelope appId : Value) (i : Inbound) (s : State) :
    Outcome :=
  match env.currentSession i.chatId appId with
  | some sid =>
      match env.fcpForSession sid with
      | some fcpPid =>
          if env.alive fcpPid then ⟨[.feishuInbound fcpPid envelope], some s, .routed⟩
          else cleanupAndReply env i.chatId appId sid .sessionDead s
      | none => cleanupAndReply env i.chatId appId sid .sessionIncomplete s
  | none =>
      match checkChat env i.chatId appId s.instanceId with
      | .emit text =>
          ⟨[.toSelf (replyEnvelope i.chatId text)], some s, .unboundChatGuideSent⟩
      | .rateLimited => ⟨[], some s, .unboundChatGuideRateLimited⟩
      | .passthrough =>
          ⟨[.newChatThread appId i.chatId i.threadId envelope], some s, .newChatThreadPending⟩

/-- A message that is neither a confirmation nor a slash command. -/
def handleFreeText (env : Env) (envelope : Value) (i : Inbound) (s : State) : Outcome :=
  match access "app_id" i.args, access "user_id" envelope, access "user_id" i.args with
  | some app, some user, some argUser =>
      let appId := orElse (.str s.instanceId) app
      match toStr (orElse (.str "") (orElse argUser user)) with
      | some userId =>
          match checkUser env userId i.chatId appId with
          | .emit text =>
              let (es, s) := maybeEmitUnReact i.messageId s
              ⟨.toSelf (replyEnvelope i.chatId text) :: es, some s, .unboundUserGuideSent⟩
          | .rateLimited =>
              let (es, s) := maybeEmitUnReact i.messageId s
              ⟨es, some s, .unboundUserGuideRateLimited⟩
          | .passthrough => doHandleUpstreamInbound env envelope appId i s
      | none => .raised
  | _, _, _ => .raised

/-- `handle_upstream/2` after the react. -/
def classify (env : Env) (envelope : Value) (i : Inbound) (s : State) : Outcome :=
  match access "principal_id" envelope, contentText i.args with
  | some principal, some text =>
      match consumes env (orElse (.str "") principal) i.chatId text with
      | some true =>
          let (es, s) := maybeEmitUnReact i.messageId s
          ⟨es, some s, .consumed⟩
      | some false =>
          if SlashIdentity.isSlashText text then dispatchSlash envelope text i.chatId i.messageId s
          else handleFreeText env envelope i s
      | none => .raised
  | _, _ => .raised

/-- `handle_upstream/2`. -/
def handleUpstream (env : Env) (s : State) (envelope : Value) : Outcome :=
  match readInbound envelope with
  | some i =>
      if i.eventType.isStr "msg_received" then
        let (es, s) := maybeEmitReact i.messageId s
        (classify env envelope i s).after es
      else classify env envelope i s
  | none => .raised

/-! ## Outbound envelopes -/

/-- The message a reply says it answers. -/
def repliesTo (envelope : Entries) : Value :=
  match get "kind" envelope, get "args" envelope with
  | some (.str "reply"), some (.map args) => (get "reply_to_message_id" args).getD .null
  | _, _ => .null

/-- `"esr://localhost/admin/feishu_app_adapter_#{state.instance_id}"`. -/
def source (s : State) : Value := .str ("esr://localhost/admin/feishu_app_adapter_" ++ s.instanceId)

/-- `build_directive/3`. -/
def buildDirective (env : Env) (s : State) (action : String) (args : Value) : Entries :=
  [(.str "id", .str ("d-" ++ env.randomId)), (.str "kind", .str "directive"),
    (.str "payload", .map [(.str "action", .str action), (.str "adapter", .str "feishu"),
      (.str "args", args)]),
    (.str "source", source s), (.str "ts", .str env.now), (.str "type", .str "directive")]

/-- `Map.put_new(envelope, "source", …)`. -/
def putNewSource (s : State) (envelope : Entries) : Entries :=
  match get "source" envelope with
  | some _ => envelope
  | none => put "source" (source s) envelope

/-- The kinds whose arguments the Python adapter takes as they are. -/
def passedOn (kind : String) : Bool := kind = "react" || kind = "un_react" || kind = "send_file"

/-- `wrap_as_directive/2`, with `none` where it raises. -/
def wrapAsDirective (env : Env) (s : State) (envelope : Entries) : Option Entries :=
  match get "kind" envelope, get "args" envelope with
  | none, _ => none
  | some (.str "reply"), some args =>
      match access "chat_id" args, access "text" args with
      | some chat, some text =>
          some (buildDirective env s "send_message"
            (.map [(.str "chat_id", chat), (.str "content", orElse (.str "") text)]))
      | _, _ => none
  | some (.str kind), some args =>
      if passedOn kind then some (buildDirective env s kind (orElse (.map []) args))
      else if kind = "directive" then some envelope
      else some (putNewSource s envelope)
  | some (.str "directive"), none => some envelope
  | some _, _ => some (putNewSource s envelope)

/-- `handle_downstream/2`. -/
def handleDownstream (env : Env) (s : State) (envelope : Entries) : Outcome :=
  let (es, s) := maybeEmitUnReact (repliesTo envelope) s
  match wrapAsDirective env s envelope with
  | some directive =>
      ⟨es ++ [.broadcast ("adapter:feishu/" ++ s.instanceId) directive], some s, .forwarded⟩
  | none => ⟨es, none, .raised⟩

/-! ## Answers of the slash handler -/

/-- `handle_info({:reply, text, ref}, state)`. -/
def handleReply (s : State) (text : String) (ref : Ref) : Outcome :=
  match s.slashPendingChat.lookup ref with
  | some (chatId, messageId) =>
      match messageOf chatId with
      | some _ =>
          let (es, s) := maybeEmitUnReact messageId s
          ⟨es ++ [.toSelf (replyEnvelope chatId text)],
            some { s with slashPendingChat := s.slashPendingChat.delete ref }, .slashReplied⟩
      | none => .raised
  | none => ⟨[], some s, .unknownRef⟩

/-- One message. -/
def handle (env : Env) (s : State) : Msg → Outcome
  | .inboundEvent envelope => handleUpstream env s envelope
  | .outbound envelope => handleDownstream env s envelope
  | .reply text ref => handleReply s text ref

end FeishuAppAdapter
end Esr
