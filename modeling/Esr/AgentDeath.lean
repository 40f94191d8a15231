import Esr.BootBridge
import Esr.MediaInbound

/-! # The end of the terminal's process

When the process behind the terminal of a session ends, it broadcasts `:pty_closed` on its
topic, and the chat proxy tells the chat.  The proxy hears the topic it has resolved when
it was started, until it handles the `cc_mcp_ready` of the session, where it leaves the
topic with the bridge of the boot.

Here is the proxy with all its messages and the broadcasts of the process.  A broadcast
that reaches the mailbox becomes one notice, whatever stands before it (`Inv.each`); what
a broadcast and the messages need for that in a whole run is `Meets`.
-/
namespace Esr
namespace AgentDeath
open Yaml
open EntityServer (Pid access getIn orElse)
open FeishuChatProxy (Ids Env State Outcome replyToolResult emitToFeishuAppProxy forwardReply argOr)

/-! ## The other tools -/

/-- What comes of the file of a `send_file`: the arguments of the directive, or the error of
the result, or nothing where it raises. -/
abbrev SendFile := Value → Value → Option (Except Entries Entries)

/-- `dispatch_tool_invoke/5`; the command of a `submit_slash` runs in a task. -/
def dispatchToolInvoke (env : Env) (sendFile : SendFile) (s : State) (tool reqId args : Value)
    (channelPid : Pid) : Outcome :=
  match tool, args with
  | .str "reply", args => FeishuChatProxy.dispatchReply env s reqId args channelPid
  | .str "react", .map args =>
      let react : Entries :=
        [(.str "args", .map
          [(.str "emoji_type", argOr "emoji_type" (.str "EYES") args),
            (.str "msg_id", orElse (argOr "message_id" (.str "") args) ((get "msg_id" args).getD .null))]),
          (.str "kind", .str "react")]
      ⟨(emitToFeishuAppProxy env s react).1 ++
        [replyToolResult channelPid reqId true (.map [(.str "reacted", .bool true)]) .null], some s⟩
  | .str "send_file", .map args =>
      match sendFile (argOr "file_path" (.str "") args) (argOr "chat_id" (.str s.chatId) args) with
      | some (.ok fileArgs) =>
          ⟨(emitToFeishuAppProxy env s
              [(.str "args", .map fileArgs), (.str "kind", .str "send_file")]).1 ++
            [replyToolResult channelPid reqId true (.map [(.str "dispatched", .bool true)]) .null],
            some s⟩
      | some (.error error) => ⟨[replyToolResult channelPid reqId false .null (.map error)], some s⟩
      | none => .raised
  | .str "react", _ => .raised
  | .str "send_file", _ => .raised
  | .str "submit_slash", args =>
      match args with
      | .map entries =>
          match get "command" entries with
          | some (.str _) => ⟨[], some s⟩
          | _ => ⟨[invalidArgs reqId channelPid], some s⟩
      | _ => ⟨[invalidArgs reqId channelPid], some s⟩
  | tool, _ =>
      match Writer.toStr tool with
      | some name =>
          ⟨[replyToolResult channelPid reqId false .null (.map
            [(.str "message", .str ("FCP has no handler for " ++ name)),
              (.str "type", .str "unknown_tool")])], some s⟩
      | none => .raised
where
  invalidArgs (reqId : Value) (channelPid : Pid) : FeishuChatProxy.Effect :=
    replyToolResult channelPid reqId false .null (.map
      [(.str "message", .str "submit_slash requires args.command :: string"),
        (.str "type", .str "invalid_args")])

/-! ## The proxy -/

inductive Msg where
  | chat (m : FeishuChatProxy.Msg)
  | toolInvoke (tool reqId args : Value) (channelPid : Pid)
  | boot (m : BootBridge.Msg)
  | ptyClosed

def Msg.isClosed : Msg → Bool
  | .ptyClosed => true
  | _ => false

structure Proxy where
  chat : State
  boot : BootBridge.Proxy

/-- What a handler sends, and the state after it, if it does not raise. -/
structure Handled where
  effects : List (FeishuChatProxy.Effect ⊕ BootBridge.Effect)
  next : Option Proxy

/-- The message of the notice. -/
def downstreamDied : String := "agent 进程退出;supervisor 会重启(如有可能)。如重复,运行 /session:end + /session:new 重建"

/-- What is around the proxy when it handles a message. -/
structure Around where
  env : Env
  sendFile : SendFile
  ref : BootBridge.Ref

/-- `handle_info/2`. -/
def handleInfo (ids : Ids) (a : Around) (p : Proxy) : Msg → Handled
  | .chat m => ofChat (FeishuChatProxy.handle ids a.env p.chat m)
  | .toolInvoke tool reqId args channelPid =>
      ofChat (dispatchToolInvoke a.env a.sendFile p.chat tool reqId args channelPid)
  | .boot m =>
      let r := BootBridge.handleInfo a.ref p.boot m
      ⟨r.2.map .inr, some { p with boot := r.1 }⟩
  | .ptyClosed => ⟨(forwardReply a.env p.chat (.str downstreamDied) .null).map .inl, some p⟩
where
  ofChat (o : Outcome) : Handled :=
    ⟨o.effects.map .inl, o.next.map fun s => { p with chat := s }⟩

/-- `resolve_pty_actor_id/1`, from the primary agent of the session and the terminal of an
agent. -/
def resolvePtyActorId (primaryAgentUuid : String → Option String)
    (ptyOfAgent : String → Option String) (sessionId : String) : String :=
  ((primaryAgentUuid sessionId).bind ptyOfAgent).getD sessionId

/-! ## The proxy and the process of the terminal -/

/-- The process of the terminal: `state.actor_id || sid` is its topic. -/
structure Pty where
  actorId : Option String
  sessionId : String

def Pty.topicId (t : Pty) : String := t.actorId.getD t.sessionId

/-- What the handling of a `:pty_closed` has sent. -/
structure Notice where
  env : Env
  effects : List (FeishuChatProxy.Effect ⊕ BootBridge.Effect)

structure World where
  proxy : Option Proxy
  /-- The proxy has a subscription of its topic. -/
  subscribed : Bool
  mailbox : List Msg
  /-- How often the process has ended. -/
  exits : Nat
  notices : List Notice

inductive Action where
  | arrive (m : Msg)
  /-- `on_terminate/1`: the process ends; the supervisor may start it again. -/
  | exit
  | handle (a : Around)

/-- The proxy leaves its topic. -/
def leaves (p : Proxy) (es : List (FeishuChatProxy.Effect ⊕ BootBridge.Effect)) : Bool :=
  es.any fun
    | .inr (.unsubscribe topic) => topic = "pty:" ++ p.boot.ptyActorId
    | _ => false

def World.step (ids : Ids) (t : Pty) (w : World) : Action → Option World
  | .arrive m => if m.isClosed then none else some { w with mailbox := w.mailbox ++ [m] }
  | .exit =>
      let heard := w.subscribed && w.proxy.any fun p => p.boot.ptyActorId = t.topicId
      some { w with
        mailbox := if heard then w.mailbox ++ [.ptyClosed] else w.mailbox
        exits := w.exits + 1 }
  | .handle a =>
      match w.proxy, w.mailbox with
      | some p, m :: rest =>
          let o := handleInfo ids a p m
          some { w with
            proxy := o.next
            subscribed := w.subscribed && !leaves p o.effects
            mailbox := rest
            notices := if m.isClosed then w.notices ++ [⟨a.env, o.effects⟩] else w.notices }
      | _, _ => none

/-- After `init/1`. -/
def World.start (chat : State) (ptyActorId : String) : World where
  proxy := some ⟨chat, (BootBridge.World.start chat.sessionId ptyActorId).proxy⟩
  subscribed := true
  mailbox := []
  exits := 0
  notices := []

/-- One reply to the chat of the session, or nothing where there is no adapter of its app. -/
def Told (s : State) (n : Notice) : Prop :=
  n.effects = match FeishuChatProxy.ownAdapter n.env s with
    | some pid => [.inl (.outbound pid (FeishuChatProxy.replyEnvelope
        [(.str "chat_id", .str s.chatId), (.str "text", .str downstreamDied)]))]
    | none => []

/-- The proxy lives, and each end of the process has become a notice or is waiting. -/
structure Reported (s : State) (w : World) : Prop where
  alive : w.proxy.isSome = true
  each : w.exits = w.notices.length + w.mailbox.countP Msg.isClosed
  told : ∀ n ∈ w.notices, Told s n

/-- The handler has a clause for the message, and reads it without raising. -/
def Readable (a : Around) (p : Proxy) : Msg → Prop
  | .chat (.feishuInbound envelope) => ∃ args, getIn envelope ["payload", "args"] = some args ∧
      access "msg_type" (orElse (.map []) args) ≠ none
  | .chat (.replyTool _ args _) | .toolInvoke (.str "reply") _ args _ =>
      ∃ entries, args = .map entries ∧
        ((ReplyTool.requestedApp p.chat entries).isStr p.chat.appId = true ∨
          ∃ chat app, ReplyTool.requestedChat p.chat entries = .str chat ∧
            ReplyTool.requestedApp p.chat entries = .str app)
  | .chat (.directiveAck envelope) => (MediaInbound.ackOf (.directiveAck envelope)).isSome = true
  | .toolInvoke (.str "react") _ args _ => ∃ entries, args = .map entries
  | .toolInvoke (.str "send_file") _ args _ => ∃ entries, args = .map entries ∧
      a.sendFile (argOr "file_path" (.str "") entries)
        (argOr "chat_id" (.str p.chat.chatId) entries) ≠ none
  | .toolInvoke tool _ _ _ => Writer.toStr tool ≠ none
  | _ => True

/-- What is asked of a step: the process ends before the hand-off, on the topic that was
resolved; and the message at the head of the mailbox can be read. -/
def World.Meets (t : Pty) (w : World) : Action → Prop
  | .exit => ∀ p, w.proxy = some p → p.boot.bootMode = true ∧ p.boot.ptyActorId = t.topicId
  | .handle a => ∀ p m rest, w.proxy = some p → w.mailbox = m :: rest → Readable a p m
  | _ => True

/-! ## The chat of the proxy stays -/

/-- The two states are of the same session, chat and app. -/
structure Same (s s' : State) : Prop where
  session : s'.sessionId = s.sessionId
  chat : s'.chatId = s.chatId
  app : s'.appId = s.appId

section
variable {ids : Ids} {env : Env} {s s' : State} {t : Pty} {a : Around} {p p' : Proxy}

theorem Same.refl (s : State) : Same s s := ⟨rfl, rfl, rfl⟩

theorem Same.trans {s'' : State} (h : Same s s') (h' : Same s' s'') : Same s s'' where
  session := h'.session.trans h.session
  chat := h'.chat.trans h.chat
  app := h'.app.trans h.app

theorem Same.ownAdapter (h : Same s s') (env : Env) :
    FeishuChatProxy.ownAdapter env s' = FeishuChatProxy.ownAdapter env s := by
  rw [FeishuChatProxy.ownAdapter, FeishuChatProxy.ownAdapter, h.session, h.app]

theorem same_inbound {o : Outcome} (h : MediaInbound.InboundCases ids s o) (hs : o.next = some s') :
    Same s s' := by
  cases h with
  | stays hnext _ =>
    rw [hnext s' hs]
    exact .refl s
  | notEmitted h =>
    rw [h] at hs
    obtain rfl := Option.some.inj hs
    exact ⟨rfl, rfl, rfl⟩
  | emitted pid directive pending hid h =>
    rw [h] at hs
    obtain rfl := Option.some.inj hs
    exact ⟨rfl, rfl, rfl⟩

theorem same_ack {envelope : Value} (hs : (FeishuChatProxy.handleDirectiveAck env s envelope).next = some s') :
    Same s s' := by
  unfold FeishuChatProxy.handleDirectiveAck at hs
  split at hs
  · split at hs
    · split at hs
      · obtain rfl := Option.some.inj hs
        exact .refl s
      · obtain rfl := Option.some.inj hs
        exact ⟨rfl, rfl, rfl⟩
    · cases hs
  · cases hs

theorem same_timeout {id : String} (hs : (FeishuChatProxy.handlePendingMediaTimeout s id).next = some s') :
    Same s s' := by
  unfold FeishuChatProxy.handlePendingMediaTimeout at hs
  split at hs
  · obtain rfl := Option.some.inj hs
    exact .refl s
  · obtain rfl := Option.some.inj hs
    exact ⟨rfl, rfl, rfl⟩

theorem same_handle {m : FeishuChatProxy.Msg}
    (hs : (FeishuChatProxy.handle ids env s m).next = some s') : Same s s' := by
  cases m with
  | feishuInbound envelope => exact same_inbound (MediaInbound.handleUpstream_cases envelope) hs
  | reply text replyTo =>
    obtain rfl := Option.some.inj hs
    exact .refl s
  | replyTool reqId args channelPid =>
    rw [MediaInbound.next_dispatchReply reqId args channelPid hs]
    exact .refl s
  | directiveAck envelope => exact same_ack hs
  | pendingMediaTimeout id => exact same_timeout hs

/-! ## A message that can be read -/

theorem next_reply {reqId args : Value} {channelPid : Pid}
    (h : ∃ entries, args = .map entries ∧
      ((ReplyTool.requestedApp s entries).isStr s.appId = true ∨
        ∃ chat app, ReplyTool.requestedChat s entries = .str chat ∧
          ReplyTool.requestedApp s entries = .str app)) :
    (FeishuChatProxy.dispatchReply env s reqId args channelPid).next = some s := by
  obtain ⟨entries, rfl, h⟩ := h
  unfold FeishuChatProxy.dispatchReply
  dsimp only
  by_cases hown : (argOr "app_id" (.str s.appId) entries).isStr s.appId = true
  · rw [if_pos hown]
  · rw [if_neg hown]
    rcases h with h | ⟨chat, app, hchat, happ⟩
    · exact absurd h hown
    · rw [show argOr "chat_id" (.str s.chatId) entries = .str chat from hchat,
        show argOr "app_id" (.str s.appId) entries = .str app from happ]

theorem isSome_inbound {envelope args : Value} (hargs : getIn envelope ["payload", "args"] = some args)
    (htype : access "msg_type" (orElse (.map []) args) ≠ none) :
    ∃ s', (FeishuChatProxy.handleUpstream ids env s envelope).next = some s' := by
  obtain ⟨msgType, htype⟩ := Option.ne_none_iff_exists'.mp htype
  unfold FeishuChatProxy.handleUpstream
  simp only [hargs, htype]
  split
  · split
    · exact ⟨_, rfl⟩
    · split
      · unfold FeishuChatProxy.doHandleNonTextInbound
        dsimp only
        split
        · split
          · exact ⟨_, rfl⟩
          · exact ⟨_, rfl⟩
        · exact ⟨_, rfl⟩
      · exact ⟨_, rfl⟩
  · exact ⟨_, rfl⟩

theorem isSome_ack {envelope : Value}
    (h : (MediaInbound.ackOf (.directiveAck envelope)).isSome = true) :
    ∃ s', (FeishuChatProxy.handleDirectiveAck env s envelope).next = some s' := by
  cases envelope with
  | map entries =>
    unfold MediaInbound.ackOf at h
    dsimp only at h
    unfold FeishuChatProxy.handleDirectiveAck
    dsimp only
    cases hid : get "id" entries with
    | none =>
      rw [hid] at h
      cases h
    | some id =>
      cases hpayload : get "payload" entries with
      | none =>
        rw [hid, hpayload] at h
        cases h
      | some payload =>
        dsimp only
        cases FeishuChatProxy.pending s id with
        | none => exact ⟨_, rfl⟩
        | some found => exact ⟨_, rfl⟩
  | _ => cases h

theorem isSome_chat (ids : Ids) {m : FeishuChatProxy.Msg} (h : Readable a p (.chat m)) :
    ∃ s', (FeishuChatProxy.handle ids a.env p.chat m).next = some s' := by
  cases m with
  | feishuInbound envelope =>
    obtain ⟨args, hargs, htype⟩ := h
    exact isSome_inbound hargs htype
  | reply text replyTo => exact ⟨_, rfl⟩
  | replyTool reqId args channelPid => exact ⟨_, next_reply h⟩
  | directiveAck envelope => exact isSome_ack h
  | pendingMediaTimeout id =>
    show ∃ s', (FeishuChatProxy.handlePendingMediaTimeout p.chat id).next = some s'
    unfold FeishuChatProxy.handlePendingMediaTimeout
    split
    · exact ⟨_, rfl⟩
    · exact ⟨_, rfl⟩

theorem next_tool {tool reqId args : Value} {channelPid : Pid}
    (h : Readable a p (.toolInvoke tool reqId args channelPid)) :
    (dispatchToolInvoke a.env a.sendFile p.chat tool reqId args channelPid).next = some p.chat := by
  unfold dispatchToolInvoke
  split
  · exact next_reply h
  · rfl
  · obtain ⟨entries, heq, hfile⟩ := h
    obtain rfl := Value.map.inj heq
    split
    · rfl
    · rfl
    · rename_i hraises
      exact absurd hraises hfile
  · rename_i hno
    obtain ⟨entries, rfl⟩ := h
    exact absurd rfl (hno entries)
  · rename_i hno
    obtain ⟨entries, rfl, -⟩ := h
    exact absurd rfl (hno entries)
  · split
    · split
      · rfl
      · rfl
    · rfl
  · split
    · rfl
    · rename_i hname
      -- A tool that is a text has a name.
      cases tool with
      | str name => cases hname
      | _ => exact absurd hname h

/-! ## One message -/

/-- What the handling of a message keeps: the chat, and the topic; the proxy leaves its topic
only with the bridge, which does not come back. -/
structure Goes (p p' : Proxy) (es : List (FeishuChatProxy.Effect ⊕ BootBridge.Effect)) : Prop where
  same : Same p.chat p'.chat
  topic : p'.boot.ptyActorId = p.boot.ptyActorId
  stays : p'.boot.bootMode = true → p.boot.bootMode = true ∧ leaves p es = false

theorem leaves_chat (es : List FeishuChatProxy.Effect) : leaves p (es.map .inl) = false := by
  induction es with
  | nil => rfl
  | cons e rest ih => exact ih

theorem goes_chat (h : Same p.chat s') (es : List FeishuChatProxy.Effect) :
    Goes p { p with chat := s' } (es.map .inl) where
  same := h
  topic := rfl
  stays hboot := ⟨hboot, leaves_chat es⟩

theorem confirm_keeps (b : BootBridge.Proxy) :
    (BootBridge.maybeConfirmDevChannels b).1.ptyActorId = b.ptyActorId ∧
      (BootBridge.maybeConfirmDevChannels b).1.bootMode = b.bootMode ∧
      ∀ topic, .unsubscribe topic ∉ (BootBridge.maybeConfirmDevChannels b).2 := by
  unfold BootBridge.maybeConfirmDevChannels
  split
  · exact ⟨rfl, rfl, fun topic => List.not_mem_nil⟩
  · split
    · refine ⟨rfl, rfl, fun topic hmem => ?_⟩
      cases List.mem_singleton.mp hmem
    · exact ⟨rfl, rfl, fun topic => List.not_mem_nil⟩

theorem bridge_keeps (ref : BootBridge.Ref) (b : BootBridge.Proxy) (m : BootBridge.Msg) :
    (BootBridge.handleInfo ref b m).1.ptyActorId = b.ptyActorId ∧
      ((BootBridge.handleInfo ref b m).1.bootMode = true → b.bootMode = true ∧
        ∀ topic, .unsubscribe topic ∉ (BootBridge.handleInfo ref b m).2) := by
  cases m with
  | ptyStdout data =>
    by_cases hon : b.bootMode = true
    · simp only [BootBridge.handleInfo, if_pos hon]
      obtain ⟨htopic, hboot, hno⟩ := confirm_keeps
        { b with ptyBuffer := b.ptyBuffer ++ data, ptyFlushTimer := some (b.ptyFlushTimer.getD ref) }
      refine ⟨htopic, fun _ => ⟨hon, fun topic hmem => ?_⟩⟩
      rcases List.mem_append.mp hmem with hmem | hmem
      · split at hmem
        · cases List.mem_singleton.mp hmem
        · cases hmem
      · exact hno topic hmem
    · simp only [BootBridge.handleInfo, if_neg hon]
      exact ⟨trivial, fun h => absurd h hon⟩
  | flushPtyBuffer =>
    refine ⟨rfl, fun hon => ⟨hon, fun topic hmem => ?_⟩⟩
    simp only [BootBridge.handleInfo] at hmem
    split at hmem
    · cases hmem
    · cases List.mem_singleton.mp hmem
  | ccMcpReady sid =>
    by_cases hsid : sid = b.sessionId
    · -- The hand-off, after which the bridge is off.
      simp only [BootBridge.handleInfo, if_pos hsid]
      exact ⟨trivial, fun h => absurd h Bool.false_ne_true⟩
    · simp only [BootBridge.handleInfo, if_neg hsid]
      exact ⟨trivial, fun hon => ⟨hon, fun topic => List.not_mem_nil⟩⟩
  | sendDefaultWinsize =>
    refine ⟨rfl, fun hon => ⟨hon, fun topic hmem => ?_⟩⟩
    simp only [BootBridge.handleInfo] at hmem
    split at hmem
    · cases List.mem_singleton.mp hmem
    · cases hmem
  | ptyAttach sid =>
    by_cases hsid : sid = b.sessionId
    · simp only [BootBridge.handleInfo, if_pos hsid]
      split
      · exact ⟨rfl, fun hon => ⟨hon, fun topic => List.not_mem_nil⟩⟩
      · refine ⟨rfl, fun hon => ⟨hon, fun topic hmem => ?_⟩⟩
        cases List.mem_singleton.mp hmem
    · simp only [BootBridge.handleInfo, if_neg hsid]
      exact ⟨trivial, fun hon => ⟨hon, fun topic => List.not_mem_nil⟩⟩

theorem goes_boot (m : BootBridge.Msg) :
    Goes p { p with boot := (BootBridge.handleInfo a.ref p.boot m).1 }
      ((BootBridge.handleInfo a.ref p.boot m).2.map .inr) := by
  obtain ⟨htopic, hboot⟩ := bridge_keeps a.ref p.boot m
  refine ⟨.refl p.chat, htopic, fun hon => ?_⟩
  obtain ⟨hbefore, hno⟩ := hboot hon
  refine ⟨hbefore, ?_⟩
  unfold leaves
  rw [List.any_eq_false]
  intro e he
  obtain ⟨e', he', rfl⟩ := List.mem_map.mp he
  cases e' with
  | unsubscribe topic => exact absurd he' (hno topic)
  | _ => exact Bool.false_ne_true

theorem handleInfo_goes (ids : Ids) {m : Msg} (h : Readable a p m) :
    ∃ p', (handleInfo ids a p m).next = some p' ∧ Goes p p' (handleInfo ids a p m).effects := by
  cases m with
  | chat m =>
    obtain ⟨s', hs'⟩ := isSome_chat ids h
    refine ⟨{ p with chat := s' }, ?_, goes_chat (same_handle hs') _⟩
    exact congrArg (Option.map fun s => { p with chat := s }) hs'
  | toolInvoke tool reqId args channelPid =>
    refine ⟨{ p with chat := p.chat }, ?_, goes_chat (.refl p.chat) _⟩
    exact congrArg (Option.map fun s => { p with chat := s }) (next_tool h)
  | boot m => exact ⟨_, rfl, goes_boot m⟩
  | ptyClosed => exact ⟨p, rfl, goes_chat (.refl p.chat) _⟩

theorem told_closed (h : Same s p.chat) :
    Told s ⟨a.env, (handleInfo ids a p .ptyClosed).effects⟩ := by
  show List.map Sum.inl (FeishuChatProxy.forwardReply a.env p.chat (.str downstreamDied) .null) = _
  unfold FeishuChatProxy.forwardReply FeishuChatProxy.emitToFeishuAppProxy
  rw [h.ownAdapter, h.chat]
  cases FeishuChatProxy.ownAdapter a.env s with
  | none => rfl
  | some pid => rfl

/-! ## A run -/

/-- The proxy lives and is of the chat; it is subscribed as long as the bridge is there. -/
structure Inv (s : State) (w : World) : Prop where
  alive : ∃ p, w.proxy = some p ∧ Same s p.chat ∧ (p.boot.bootMode = true → w.subscribed = true)
  each : w.exits = w.notices.length + w.mailbox.countP Msg.isClosed
  told : ∀ n ∈ w.notices, Told s n

theorem inv_start (s : State) (ptyActorId : String) : Inv s (World.start s ptyActorId) where
  alive := ⟨_, rfl, .refl s, fun _ => rfl⟩
  each := rfl
  told _ hn := absurd hn List.not_mem_nil

variable {w w' : World}

theorem Inv.arrive {m : Msg} (h : Inv s w) (hm : m.isClosed = false) :
    Inv s { w with mailbox := w.mailbox ++ [m] } where
  alive := h.alive
  each := by
    rw [List.countP_append, List.countP_singleton, hm]
    exact h.each
  told := h.told

theorem Inv.exit (h : Inv s w) : Inv s { w with
    mailbox := w.mailbox ++ [.ptyClosed]
    exits := w.exits + 1 } where
  alive := h.alive
  each := by
    rw [List.countP_append, List.countP_singleton, h.each]
    rfl
  told := h.told

theorem Inv.handle {m : Msg} {rest : List Msg} (h : Inv s w) (hp : w.proxy = some p)
    (hbox : w.mailbox = m :: rest) (hread : Readable a p m) : Inv s { w with
      proxy := (handleInfo ids a p m).next
      subscribed := w.subscribed && !leaves p (handleInfo ids a p m).effects
      mailbox := rest
      notices := if m.isClosed then w.notices ++ [⟨a.env, (handleInfo ids a p m).effects⟩]
        else w.notices } := by
  obtain ⟨p₀, hp₀, hsame, hsub⟩ := h.alive
  obtain rfl := Option.some.inj (hp.symm.trans hp₀)
  obtain ⟨p', hnext, hgoes⟩ := handleInfo_goes ids hread
  have heach := h.each
  rw [hbox, List.countP_cons] at heach
  refine ⟨⟨p', hnext, hsame.trans hgoes.same, fun hon => ?_⟩, ?_, ?_⟩
  · obtain ⟨hbefore, hstays⟩ := hgoes.stays hon
    dsimp only
    rw [hsub hbefore, hstays]
    rfl
  · by_cases hclosed : m.isClosed = true
    · simp only [hclosed, if_true, List.length_append, List.length_singleton] at heach ⊢
      omega
    · simp only [hclosed, if_false, Bool.false_eq_true] at heach ⊢
      omega
  · intro n hn
    cases m with
    | ptyClosed =>
      rcases List.mem_append.mp hn with hn | hn
      · exact h.told n hn
      · rw [List.mem_singleton.mp hn]
        exact told_closed hsame
    | _ => exact h.told n hn

theorem Inv.step {act : Action} (h : Inv s w) (hok : w.Meets t act)
    (hs : World.step ids t w act = some w') : Inv s w' := by
  cases act with
  | arrive m =>
    simp only [World.step] at hs
    split at hs
    · cases hs
    · rename_i hm
      obtain rfl := Option.some.inj hs
      exact h.arrive (Bool.eq_false_iff.mpr hm)
  | exit =>
    obtain ⟨p, hp, -, hsub⟩ := h.alive
    obtain ⟨hon, htopic⟩ := hok p hp
    have hheard : (w.subscribed && w.proxy.any fun p => p.boot.ptyActorId = t.topicId) = true := by
      rw [hp, hsub hon]
      simpa using htopic
    simp only [World.step, hheard, if_true] at hs
    obtain rfl := Option.some.inj hs
    exact h.exit
  | handle a =>
    simp only [World.step] at hs
    split at hs
    · rename_i p m rest hp hbox
      obtain rfl := Option.some.inj hs
      exact h.handle hp hbox (hok p m rest hp hbox)
    · cases hs

end

/-- **The end of the terminal's process is reported**: as long as every message can be read,
and the process ends on the topic that the proxy has resolved and before the hand-off, each
end becomes one notice in the chat, or is still waiting. -/
theorem reported_of_meets (ids : Ids) (t : Pty) (primaryAgentUuid : String → Option String)
    (ptyOfAgent : String → Option String) (s : State) (w : World)
    (hr : Reaches (World.step ids t) (World.Meets t)
      (World.start s (resolvePtyActorId primaryAgentUuid ptyOfAgent s.sessionId)) w) :
    Reported s w := by
  have hinv : Inv s w := hr.invariant (inv_start s _) fun w a w' h hok hs => h.step hok hs
  obtain ⟨p, hp, -⟩ := hinv.alive
  exact ⟨by rw [hp]; rfl, hinv.each, hinv.told⟩

/-! ### Before the hand-off and behind it -/

/-- Every app has an adapter. -/
def adapters : Around where
  env := { ReplyTool.noAdapter with lookup := fun _ => some 7 }
  sendFile := fun _ _ => none
  ref := 1

/-- A session whose topics are its own id. -/
def devChat : State := FeishuChatProxy.init "s1" "oc_dev" "" "cli_a" "ou_alice"

/-- The CC process comes up, and ends after that: the chat is never told. -/
theorem not_reported_ready : ¬∀ (ids : Ids) (t : Pty) (primaryAgentUuid : String → Option String)
    (ptyOfAgent : String → Option String) (s : State) (w : World),
    Reaches (World.step ids t) anyStep
      (World.start s (resolvePtyActorId primaryAgentUuid ptyOfAgent s.sessionId)) w →
    Reported s w := by
  intro hall
  have hrun : ∃ w, exec (World.step FeishuChatProxy.strokes ⟨none, "s1"⟩) anyStep
      (World.start devChat (resolvePtyActorId (fun _ => none) (fun _ => none) "s1"))
      [.arrive (.boot (.ccMcpReady "s1")), .handle adapters, .exit] = some w ∧
      w.exits = 1 ∧ w.notices = [] ∧ w.mailbox = [] := ⟨_, rfl, rfl, rfl, rfl⟩
  obtain ⟨w, hexec, hexits, hnotices, hbox⟩ := hrun
  have heach := (hall FeishuChatProxy.strokes ⟨none, "s1"⟩ (fun _ => none) (fun _ => none) devChat w
    (.of_exec hexec)).each
  rw [hexits, hnotices, hbox] at heach
  cases heach

/-- The process ends twice during the boot, and the chat is told of it twice. -/
theorem reported_booting : ∃ w, exec (World.step FeishuChatProxy.strokes ⟨none, "s1"⟩) anyStep
    (World.start devChat (resolvePtyActorId (fun _ => none) (fun _ => none) "s1"))
    [.exit, .exit, .handle adapters, .handle adapters] = some w ∧
    w.notices.length = 2 ∧ Reported devChat w := by
  have hread : ∀ (w : World) (n : Nat), w.mailbox = List.replicate n .ptyClosed →
      w.Meets ⟨none, "s1"⟩ (.handle adapters) := by
    intro w n hbox p m rest _ hcons
    have hmem : m ∈ List.replicate n Msg.ptyClosed := by
      rw [← hbox, hcons]
      exact List.mem_cons_self
    rw [List.eq_of_mem_replicate hmem]
    trivial
  have hexit : ∀ w : World, w.proxy = (World.start devChat "s1").proxy →
      w.Meets ⟨none, "s1"⟩ .exit := by
    intro w hproxy p hp
    obtain rfl := Option.some.inj (hproxy.symm.trans hp)
    exact ⟨rfl, rfl⟩
  refine ⟨_, rfl, rfl, reported_of_meets FeishuChatProxy.strokes ⟨none, "s1"⟩ (fun _ => none)
    (fun _ => none) devChat _ ⟨[.exit, .exit, .handle adapters, .handle adapters], ?_⟩⟩
  exact .cons (hexit _ rfl) rfl (.cons (hexit _ rfl) rfl
    (.cons (hread _ 2 rfl) rfl (.cons (hread _ 1 rfl) rfl .nil)))

end AgentDeath
end Esr
