import Esr.CapabilitiesChecker

/-! # A message from Feishu, in three ways

A message reaches the adapter as an event of the WebSocket, as an item of the list that
is polled for the messages a bot has sent itself, or as a frame of the mock server.  The
three are shaped differently, and each path reads its own and puts the arguments of the
envelope together.  Only the mock path puts the key and the name of a file into them.

`symmetric_iff` says for which messages the three envelopes are the same.
-/
namespace Esr
namespace FeishuInbound
open Yaml
open CapabilitiesChecker (truthy orDefault hashable)

/-- What `json.loads` raises: a `JSONDecodeError`, another `ValueError` (for an integer
of too many digits), a `RecursionError`, and a `TypeError` where it is given no text. -/
inductive LoadsError where
  | decode
  | value
  | recursion
  | type
  deriving DecidableEq

/-- `json.loads` of a text and `str` of an object. -/
structure Py where
  loads : String → Except LoadsError Value
  str : Value → String

/-- What an adapter knows; `workspaceOf` is `_workspace_of`, by chat and app. -/
structure Adapter where
  actorId : String
  appId : String
  workspaceOf : String → String → Option String

/-- A `msg_received` envelope. -/
structure Envelope where
  eventType : String
  args : Entries
  principalId : Value
  workspaceName : Option String

/-- `json.loads` of an object. -/
def loads (py : Py) : Value → Except LoadsError Value
  | .str s => py.loads s
  | _ => .error .type

/-- `_extract_text`, with `none` where it raises. -/
def extractText (py : Py) (raw msgType : Value) : Option Value :=
  if !truthy raw then some (.str "")
  else if msgType.isStr "text" then
    match loads py raw with
    | .error .recursion => none
    | .error _ => some raw
    | .ok (.map parsed) =>
        match get "text" parsed with
        | some (.str text) => some (.str text)
        | _ => some raw
    | .ok _ => some raw
  else some raw

/-- `_build_msg_received_envelope`, with `none` where the chat id cannot be a key. -/
def buildMsgReceivedEnvelope (a : Adapter) (args : Entries) (senderOpenId : Value) :
    Option Envelope :=
  let chatId := orDefault ((get "chat_id" args).getD .null) (.str "")
  if hashable chatId then
    some {
      eventType := "msg_received"
      args := args
      principalId := orDefault senderOpenId .null
      workspaceName :=
        match chatId with
        | .str c => a.workspaceOf c a.appId
        | _ => none }
  else none

/-- The arguments that all paths give, each from what it has read. -/
structure Fields where
  chatId : Value
  messageId : Value
  content : Value
  rawContent : Value
  msgType : Value
  senderId : Value
  senderType : Value
  threadId : Value
  rootId : Value

def Fields.args (a : Adapter) (f : Fields) : Entries :=
  [(.str "chat_id", f.chatId), (.str "app_id", .str a.actorId),
    (.str "message_id", f.messageId), (.str "content", f.content),
    (.str "raw_content", f.rawContent), (.str "msg_type", f.msgType),
    (.str "sender_id", f.senderId), (.str "sender_type", f.senderType),
    (.str "thread_id", f.threadId), (.str "root_id", f.rootId)]

/-! ## The WebSocket -/

structure EventSender where
  /-- `sender_id.open_id`, if there is a `sender_id`. -/
  openId : Option (Option String)
  senderType : Option String

structure EventMessage where
  content : Option String
  messageType : Option String
  chatId : Option String
  messageId : Option String
  threadId : Option String
  rootId : Option String

/-- The event of a message.  An attribute that the wire does not have is `None`. -/
structure Event where
  message : EventMessage
  sender : Option EventSender

/-- `getattr(obj, name, "") or ""`. -/
def attrOr (attr : Option String) : Value := .str (attr.getD "")

/-- `_handle_receive`: what is put into the queue.  An exception is caught and logged. -/
def handleReceive (py : Py) (a : Adapter) (event : Event) : Option Envelope := do
  let rawContent := attrOr event.message.content
  let msgType := attrOr event.message.messageType
  let extracted ← extractText py rawContent msgType
  let senderOpenId := attrOr ((event.sender.bind EventSender.openId).getD none)
  buildMsgReceivedEnvelope a
    (Fields.args a {
      chatId := attrOr event.message.chatId
      messageId := attrOr event.message.messageId
      content := extracted
      rawContent := rawContent
      msgType := msgType
      senderId := senderOpenId
      senderType := attrOr (event.sender.bind EventSender.senderType)
      threadId := attrOr event.message.threadId
      rootId := attrOr event.message.rootId })
    senderOpenId

/-! ## The list that is polled -/

/-- What is at `sender.id`. -/
inductive PolledId where
  | missing
  | text (id : String)
  | object (openId : Option String)

/-- `getattr(sender.id, "open_id", "")`. -/
def PolledId.openId : PolledId → Option String
  | .object openId => openId
  | _ => some ""

structure PolledSender where
  id : PolledId
  senderType : Option String

/-- An item of the list; `body` is its content, if it has a body. -/
structure Polled where
  messageId : Option String
  msgType : Option String
  body : Option (Option String)
  sender : Option PolledSender
  threadId : Option String
  rootId : Option String

/-- `getattr(obj, name, "")`. -/
def attr (a : Option String) : Value := a.elim .null .str

/-- `_message_to_envelope`, with `none` where it raises. -/
def messageToEnvelope (py : Py) (a : Adapter) (m : Polled) (chatId : String) :
    Option Envelope := do
  let rawContent := m.body.elim (.str "") attr
  let msgType := attrOr m.msgType
  let extracted ← extractText py rawContent msgType
  let senderOpenId := attrOr (m.sender.bind fun s => s.id.openId)
  buildMsgReceivedEnvelope a
    (Fields.args a {
      chatId := .str chatId
      messageId := attrOr m.messageId
      content := extracted
      rawContent := rawContent
      msgType := msgType
      senderId := senderOpenId
      senderType := m.sender.elim (.str "") fun s => attr s.senderType
      threadId := attrOr m.threadId
      rootId := attrOr m.rootId })
    senderOpenId

/-- What the poller keeps: the ids it has seen, and whether no list has been gone
through yet. -/
structure Poller where
  seen : List String
  bootstrap : Bool

/-- The loop over the items: the ids that are seen after it, and the fresh items. -/
def collect (bootstrap : Bool) : List String → List Polled → List String × List Polled
  | seen, [] => (seen, [])
  | seen, m :: rest =>
      match m.messageId with
      | none | some "" => collect bootstrap seen rest
      | some mid =>
          if mid ∈ seen then collect bootstrap seen rest
          else
            let r := collect bootstrap (mid :: seen) rest
            (r.1, if bootstrap then r.2 else m :: r.2)

/-- The loop over the fresh items, the oldest first: what is put into the queue, and
whether it comes to its end. -/
def enqueue (py : Py) (a : Adapter) (chatId : String) : List Polled → List Envelope × Bool
  | [] => ([], true)
  | m :: rest =>
      match messageToEnvelope py a m chatId with
      | none => ([], false)
      | some envelope =>
          let r := enqueue py a chatId rest
          (envelope :: r.1, r.2)

/-- One pass of `_poll_chat_messages`.  There are no items where the request fails or
says so; an exception is caught, and the next pass follows. -/
def pollOnce (py : Py) (a : Adapter) (chatId : String) (p : Poller) (items : List Polled) :
    Poller × List Envelope :=
  match items with
  | [] => (p, [])
  | items =>
      let (seen, fresh) := collect p.bootstrap p.seen items
      let (queued, done) := enqueue py a chatId fresh.reverse
      (⟨seen, p.bootstrap && !done⟩, queued)

/-! ## The mock server -/

/-- `d.get(key, default)`, with `none` where `d` is no `dict`. -/
def dictGet (key : String) (default : Value) : Value → Option Value
  | .map m => some ((get key m).getD default)
  | _ => none

/-- The types that have a file. -/
def isDownloadable (msgType : Value) : Bool :=
  ["image", "file", "audio", "media"].any fun t => msgType.isStr t

/-- `file_key` and `file_name` from a content, with `none` where it is no `dict`. -/
def fileArgs (py : Py) (msgType content : Value) : Option Entries := do
  let fileKey := orDefault (← dictGet "image_key" .null content)
    (orDefault (← dictGet "file_key" .null content) (.str ""))
  let given ← dictGet "file_name" .null content
  let fileName :=
    if truthy given then given
    else if msgType.isStr "image" then
      if truthy fileKey then .str (py.str fileKey ++ ".png") else .str "unknown.png"
    else orDefault fileKey (.str "unknown")
  return [(.str "file_key", fileKey), (.str "file_name", fileName)]

/-- What `_emit_events_mock` adds for these types. -/
def mockFileArgs (py : Py) (msgType rawContent : Value) : Option Entries :=
  match loads py rawContent with
  | .ok content => fileArgs py msgType content
  | .error .decode | .error .type => fileArgs py msgType (.map [])
  | .error .value | .error .recursion => none

/-- The envelope that is made of a frame, with `none` where it raises. -/
def frameToEnvelope (py : Py) (a : Adapter) (frame : Value) : Option Envelope := do
  let event := orDefault (← dictGet "event" .null frame) (.map [])
  let message := orDefault (← dictGet "message" .null event) (.map [])
  let sender := orDefault (← dictGet "sender" .null event) (.map [])
  let senderId := orDefault (← dictGet "sender_id" .null sender) (.map [])
  let rawContent ← dictGet "content" (.str "") message
  let msgType ← dictGet "message_type" (.str "") message
  let senderOpenId := orDefault (← dictGet "open_id" (.str "") senderId) (.str "")
  let chatId := orDefault (← dictGet "chat_id" (.str "") message) (.str "")
  let messageId ← dictGet "message_id" (.str "") message
  let extracted ← extractText py rawContent msgType
  let senderType ← dictGet "sender_type" (.str "") sender
  let threadId ← dictGet "thread_id" (.str "") message
  let rootId ← dictGet "root_id" (.str "") message
  let mockArgs := Fields.args a {
    chatId := chatId
    messageId := messageId
    content := extracted
    rawContent := rawContent
    msgType := msgType
    senderId := senderOpenId
    senderType := senderType
    threadId := threadId
    rootId := rootId }
  let files ←
    if !hashable msgType then none
    else if isDownloadable msgType then mockFileArgs py msgType rawContent
    else some []
  buildMsgReceivedEnvelope a (mockArgs ++ files) senderOpenId

/-- What comes of a text frame. -/
inductive Relayed where
  | ignored
  | raised
  | yielded (envelope : Envelope)

/-- The body of the loop of `_emit_events_mock`, from what `json.loads` makes of the
frame.  Only the errors of the connection are caught around it. -/
def relay (py : Py) (a : Adapter) : Except LoadsError Value → Relayed
  | .error .recursion => .raised
  | .error _ => .ignored
  | .ok frame =>
      match frameToEnvelope py a frame with
      | some envelope => .yielded envelope
      | none => .raised

/-! ## The parser -/

/-- The content that `parsers._parse_msg_received` reads, with `none` where that raises. -/
def parsedContent (py : Py) (contentStr : Value) : Option Value :=
  if truthy contentStr then
    match loads py contentStr with
    | .ok content => some content
    | .error .recursion => none
    | .error _ => some (.map [])
  else some (.map [])

/-- The `file_key` and `file_name` that it adds. -/
def parsedFileArgs (py : Py) (msgType contentStr : Value) : Option Entries :=
  (parsedContent py contentStr).bind fun content =>
    if isDownloadable msgType then fileArgs py msgType content else some []

/-! ## One message, seen three ways -/

/-- The sender of a message. -/
structure Sender where
  openId : Option String
  senderType : Option String

/-- A message as Feishu has it. -/
structure Message where
  messageId : String
  chatId : String
  msgType : String
  content : String
  threadId : Option String
  rootId : Option String
  sender : Option Sender

/-- The event of the message. -/
def Message.event (m : Message) : Event where
  message := {
    content := some m.content
    messageType := some m.msgType
    chatId := some m.chatId
    messageId := some m.messageId
    threadId := m.threadId
    rootId := m.rootId }
  sender := m.sender.map fun s => ⟨some s.openId, s.senderType⟩

/-- The item of the list.  How the client presents the id of a sender is `ids`. -/
def Message.polled (ids : Sender → PolledId) (m : Message) : Polled where
  messageId := some m.messageId
  msgType := some m.msgType
  body := some (some m.content)
  sender := m.sender.map fun s => ⟨ids s, s.senderType⟩
  threadId := m.threadId
  rootId := m.rootId

/-- A field that the wire may not have. -/
def optional (key : String) (v : Option String) : Entries :=
  v.toList.map fun s => (.str key, .str s)

/-- The sender in a frame. -/
def Sender.frame (s : Sender) : Value :=
  .map ((.str "sender_id", .map (optional "open_id" s.openId)) ::
    optional "sender_type" s.senderType)

/-- The frame of the message. -/
def Message.frame (m : Message) : Value :=
  .map [(.str "event", .map (
    (.str "message", .map (
      [(.str "message_id", .str m.messageId), (.str "chat_id", .str m.chatId),
        (.str "message_type", .str m.msgType), (.str "content", .str m.content)] ++
      optional "thread_id" m.threadId ++ optional "root_id" m.rootId)) ::
    m.sender.toList.map fun s => (.str "sender", s.frame)))]

/-- The envelopes are equal as dictionaries. -/
structure Envelope.Same (e e' : Envelope) : Prop where
  eventType : e.eventType = e'.eventType
  args : ∀ key, get key e.args = get key e'.args
  principalId : e.principalId = e'.principalId
  workspaceName : e.workspaceName = e'.workspaceName

/-- All three paths emit an envelope, the three are equal, and where the message has a
file they have the key and the name that the parser gives it. -/
def Symmetric (py : Py) (a : Adapter) (ids : Sender → PolledId) (m : Message) : Prop :=
  ∃ live polled mock,
    handleReceive py a m.event = some live ∧
    messageToEnvelope py a (m.polled ids) m.chatId = some polled ∧
    relay py a (.ok m.frame) = .yielded mock ∧ live.Same polled ∧ live.Same mock ∧
    (isDownloadable (.str m.msgType) = true →
      ∃ files, parsedFileArgs py (.str m.msgType) (.str m.content) = some files ∧
        ∀ file ∈ files, ∀ key, file.1.isStr key → get key live.args = some file.2)

/-- The message has no file, its text can be decoded or is no JSON, and the list has the
sender as the event has it: the open id where `_message_to_envelope` looks for it, and
the type. -/
structure Plain (py : Py) (ids : Sender → PolledId) (m : Message) : Prop where
  noFile : isDownloadable (.str m.msgType) = false
  content : m.msgType = "text" → m.content ≠ "" → py.loads m.content ≠ .error .recursion
  openId : ∀ s, m.sender = some s → ((ids s).openId).getD "" = s.openId.getD ""
  senderType : ∀ s, m.sender = some s → s.senderType ≠ none

/-! ## What each path makes of it -/

section
variable {py : Py} {a : Adapter} {ids : Sender → PolledId} {m : Message}

theorem extractText_eq_none : extractText py (.str m.content) (.str m.msgType) = none ↔
    m.msgType = "text" ∧ m.content ≠ "" ∧ py.loads m.content = .error .recursion := by
  by_cases hempty : m.content = ""
  · simp [extractText, truthy, hempty]
  · by_cases htext : m.msgType = "text"
    · have hstep : extractText py (.str m.content) (.str m.msgType) =
          match py.loads m.content with
          | .error .recursion => none
          | .error _ => some (.str m.content)
          | .ok (.map parsed) =>
              match get "text" parsed with
              | some (.str text) => some (.str text)
              | _ => some (.str m.content)
          | .ok _ => some (.str m.content) := by
        simp [extractText, truthy, loads, hempty, htext]
      rw [hstep]
      simp only [htext, hempty, ne_eq, not_false_eq_true, true_and]
      split
      · simp_all
      · simp_all
      · split <;> simp_all
      · simp_all
    · simp [extractText, truthy, hempty, htext]

/-- What a path emits: they differ in the sender they find and the files they add. -/
def Message.envelope (a : Adapter) (m : Message) (content senderType : Value)
    (senderOpenId : String) (files : Entries) : Envelope where
  eventType := "msg_received"
  args := Fields.args a {
      chatId := .str m.chatId
      messageId := .str m.messageId
      content := content
      rawContent := .str m.content
      msgType := .str m.msgType
      senderId := .str senderOpenId
      senderType := senderType
      threadId := attrOr m.threadId
      rootId := attrOr m.rootId } ++ files
  principalId := orDefault (.str senderOpenId) .null
  workspaceName := a.workspaceOf m.chatId a.appId

/-- The open id of the sender, as the event has it. -/
def Message.senderOpenId (m : Message) : String := (m.sender.bind Sender.openId).getD ""

def Message.senderType (m : Message) : String := (m.sender.bind Sender.senderType).getD ""

theorem orDefault_empty (s : String) : orDefault (.str s) (.str "") = .str s := by
  unfold orDefault
  by_cases h : s = "" <;> simp [truthy, h]

theorem buildMsgReceivedEnvelope_args (f : Fields) (files : Entries) (v : Value) {c : String}
    (h : f.chatId = .str c) :
    buildMsgReceivedEnvelope a (f.args a ++ files) v =
      some ⟨"msg_received", f.args a ++ files, orDefault v .null, a.workspaceOf c a.appId⟩ := by
  have hget : get "chat_id" (f.args a ++ files) = some (.str c) := by rw [← h]; rfl
  unfold buildMsgReceivedEnvelope
  simp only [hget, Option.getD_some, orDefault_empty]
  rfl

theorem handleReceive_event : handleReceive py a m.event =
    (extractText py (.str m.content) (.str m.msgType)).map fun content =>
      m.envelope a content (.str m.senderType) m.senderOpenId [] := by
  have hid : attrOr ((m.event.sender.bind EventSender.openId).getD none) =
      .str m.senderOpenId := by
    unfold Message.event Message.senderOpenId
    cases m.sender <;> rfl
  have htype : attrOr (m.event.sender.bind EventSender.senderType) = .str m.senderType := by
    unfold Message.event Message.senderType
    cases m.sender <;> rfl
  unfold handleReceive
  rw [hid, htype]
  change (extractText py (.str m.content) (.str m.msgType)).bind _ = _
  rw [Option.map_eq_bind]
  congr 1
  funext content
  dsimp only
  rw [← List.append_nil (Fields.args _ _)]
  exact buildMsgReceivedEnvelope_args _ [] _ rfl

/-- The open id of the sender, as the list has it. -/
def Message.polledOpenId (ids : Sender → PolledId) (m : Message) : String :=
  (m.sender.bind fun s => (ids s).openId).getD ""

def Message.polledType (m : Message) : Value := m.sender.elim (.str "") fun s => attr s.senderType

theorem messageToEnvelope_polled : messageToEnvelope py a (m.polled ids) m.chatId =
    (extractText py (.str m.content) (.str m.msgType)).map fun content =>
      m.envelope a content m.polledType (m.polledOpenId ids) [] := by
  have hid : attrOr ((m.polled ids).sender.bind fun s => s.id.openId) =
      .str (m.polledOpenId ids) := by
    unfold Message.polled Message.polledOpenId
    cases m.sender <;> rfl
  have htype : ((m.polled ids).sender.elim (.str "") fun s => attr s.senderType) =
      m.polledType := by
    unfold Message.polled Message.polledType
    cases m.sender <;> rfl
  unfold messageToEnvelope
  rw [hid, htype]
  change (extractText py (.str m.content) (.str m.msgType)).bind _ = _
  rw [Option.map_eq_bind]
  congr 1
  funext content
  dsimp only
  rw [← List.append_nil (Fields.args _ _)]
  exact buildMsgReceivedEnvelope_args _ [] _ rfl

/-- The message in a frame. -/
def Message.inFrame (m : Message) : Value :=
  .map ([(.str "message_id", .str m.messageId), (.str "chat_id", .str m.chatId),
    (.str "message_type", .str m.msgType), (.str "content", .str m.content)] ++
    optional "thread_id" m.threadId ++ optional "root_id" m.rootId)

/-- The sender in a frame, or an empty one. -/
def Message.senderInFrame (m : Message) : Value := m.sender.elim (.map []) Sender.frame

theorem sender_inFrame :
    ∃ v, dictGet "sender" .null (.map ((.str "message", m.inFrame) ::
        m.sender.toList.map fun s => (.str "sender", s.frame))) = some v ∧
      orDefault v (.map []) = m.senderInFrame := by
  unfold Message.senderInFrame
  cases m.sender with
  | none => exact ⟨.null, rfl, rfl⟩
  | some s => exact ⟨s.frame, rfl, rfl⟩

theorem senderId_inFrame :
    ∃ v, dictGet "sender_id" .null m.senderInFrame = some v ∧
      dictGet "open_id" (.str "") (orDefault v (.map [])) = some (.str m.senderOpenId) := by
  unfold Message.senderInFrame Message.senderOpenId
  cases m.sender with
  | none => exact ⟨.null, rfl, rfl⟩
  | some s =>
    refine ⟨.map (optional "open_id" s.openId), rfl, ?_⟩
    obtain ⟨openId, senderType⟩ := s
    cases openId <;> rfl

theorem senderType_inFrame :
    dictGet "sender_type" (.str "") m.senderInFrame = some (.str m.senderType) := by
  unfold Message.senderInFrame Message.senderType
  cases m.sender with
  | none => rfl
  | some s =>
    obtain ⟨openId, senderType⟩ := s
    cases senderType <;> rfl

theorem frameToEnvelope_frame : frameToEnvelope py a m.frame =
    (extractText py (.str m.content) (.str m.msgType)).bind fun content =>
      (if isDownloadable (.str m.msgType) then mockFileArgs py (.str m.msgType) (.str m.content)
        else some []).map fun files =>
          m.envelope a content (.str m.senderType) m.senderOpenId files := by
  obtain ⟨sender, hsender, hsender'⟩ := @sender_inFrame m
  obtain ⟨senderId, hid, hopenId⟩ := @senderId_inFrame m
  have hevent : dictGet "event" .null m.frame = some (.map ((.str "message", m.inFrame) ::
      m.sender.toList.map fun s => (.str "sender", s.frame))) := rfl
  have hmessage : dictGet "message" .null (.map ((.str "message", m.inFrame) ::
      m.sender.toList.map fun s => (.str "sender", s.frame))) = some m.inFrame := rfl
  have hthread : dictGet "thread_id" (.str "") m.inFrame = some (attrOr m.threadId) := by
    unfold Message.inFrame
    cases m.threadId <;> cases m.rootId <;> rfl
  have hroot : dictGet "root_id" (.str "") m.inFrame = some (attrOr m.rootId) := by
    unfold Message.inFrame
    cases m.threadId <;> cases m.rootId <;> rfl
  have hcontent : dictGet "content" (.str "") m.inFrame = some (.str m.content) := rfl
  have htype : dictGet "message_type" (.str "") m.inFrame = some (.str m.msgType) := rfl
  have hchat : dictGet "chat_id" (.str "") m.inFrame = some (.str m.chatId) := rfl
  have hmid : dictGet "message_id" (.str "") m.inFrame = some (.str m.messageId) := rfl
  have htruthy (e : Value × Value) (rest : Entries) :
      orDefault (.map (e :: rest)) (.map []) = .map (e :: rest) := rfl
  have hinner : orDefault m.inFrame (.map []) = m.inFrame := rfl
  unfold frameToEnvelope
  simp only [hevent, hmessage, hthread, hroot, hcontent, htype, hchat, hmid, htruthy, hinner,
    hsender, hsender', hid, hopenId, senderType_inFrame, orDefault_empty, bind, Option.bind]
  cases extractText py (.str m.content) (.str m.msgType) with
  | none => rfl
  | some content =>
    have hhash : (!hashable (.str m.msgType)) = false := rfl
    simp only [hhash, Bool.false_eq_true, if_false]
    by_cases hfile : isDownloadable (.str m.msgType) = true
    · rw [if_pos hfile, if_pos hfile]
      cases mockFileArgs py (.str m.msgType) (.str m.content) with
      | none => rfl
      | some files => exact buildMsgReceivedEnvelope_args _ files _ rfl
    · rw [if_neg hfile, if_neg hfile]
      exact buildMsgReceivedEnvelope_args _ [] _ rfl

theorem mem_parsedFileArgs {msgType content : Value} {files : Entries}
    (hfile : isDownloadable msgType = true)
    (h : parsedFileArgs py msgType content = some files) :
    ∃ fileKey, (.str "file_key", fileKey) ∈ files := by
  unfold parsedFileArgs at h
  obtain ⟨v, -, h⟩ := Option.bind_eq_some_iff.mp h
  rw [if_pos hfile] at h
  unfold fileArgs at h
  obtain ⟨imageKey, -, h⟩ := Option.bind_eq_some_iff.mp h
  obtain ⟨fileKey, -, h⟩ := Option.bind_eq_some_iff.mp h
  obtain ⟨given, -, h⟩ := Option.bind_eq_some_iff.mp h
  obtain rfl := Option.some.inj h
  exact ⟨_, List.mem_cons_self⟩

theorem Envelope.Same.refl (e : Envelope) : e.Same e := ⟨rfl, fun _ => rfl, rfl, rfl⟩

theorem get_fileKey_live {live : Envelope} (h : handleReceive py a m.event = some live) :
    get "file_key" live.args = none := by
  rw [handleReceive_event] at h
  obtain ⟨content, -, rfl⟩ := Option.map_eq_some_iff.mp h
  rfl

theorem Symmetric.noFile (h : Symmetric py a ids m) : isDownloadable (.str m.msgType) = false := by
  obtain ⟨live, polled, mock, hlive, -, -, -, -, hfile⟩ := h
  by_contra hno
  rw [Bool.not_eq_false] at hno
  obtain ⟨files, hparsed, hall⟩ := hfile hno
  obtain ⟨fileKey, hmem⟩ := mem_parsedFileArgs hno hparsed
  have hkey := hall _ hmem "file_key" rfl
  rw [get_fileKey_live hlive] at hkey
  cases hkey

/-- **The messages whose envelopes are the same on all paths.** -/
theorem symmetric_iff : Symmetric py a ids m ↔ Plain py ids m := by
  constructor
  · intro h
    obtain ⟨live, polled, mock, hlive, hpolled, -, hsame, -, -⟩ := id h
    rw [handleReceive_event] at hlive
    rw [messageToEnvelope_polled] at hpolled
    obtain ⟨content, hcontent, rfl⟩ := Option.map_eq_some_iff.mp hlive
    obtain ⟨content', hcontent', rfl⟩ := Option.map_eq_some_iff.mp hpolled
    have hid : some (Value.str m.senderOpenId) = some (.str (m.polledOpenId ids)) :=
      hsame.args "sender_id"
    have htype : some (Value.str m.senderType) = some m.polledType := hsame.args "sender_type"
    refine ⟨?_, ?_, ?_, ?_⟩
    · exact h.noFile
    · intro htext hne hloads
      rw [extractText_eq_none.mpr ⟨htext, hne, hloads⟩] at hcontent
      cases hcontent
    · intro s hs
      simpa [Message.senderOpenId, Message.polledOpenId, hs] using hid.symm
    · intro s hs hnone
      simp [Message.senderType, Message.polledType, hs, hnone, attr] at htype
  · intro h
    have hid : m.polledOpenId ids = m.senderOpenId := by
      unfold Message.polledOpenId Message.senderOpenId
      cases hs : m.sender with
      | none => rfl
      | some s => exact h.openId s hs
    have htype : m.polledType = .str m.senderType := by
      unfold Message.polledType Message.senderType
      cases hs : m.sender with
      | none => rfl
      | some s =>
        have hthere := h.senderType s hs
        cases htype : s.senderType with
        | none => exact absurd htype hthere
        | some t => simp [attr, htype]
    cases hcontent : extractText py (.str m.content) (.str m.msgType) with
    | none =>
      obtain ⟨htext, hne, hloads⟩ := extractText_eq_none.mp hcontent
      exact absurd hloads (h.content htext hne)
    | some content =>
      refine ⟨m.envelope a content (.str m.senderType) m.senderOpenId [], _, _, ?_, ?_, ?_,
        Envelope.Same.refl _, Envelope.Same.refl _, ?_⟩
      · rw [handleReceive_event, hcontent]
        rfl
      · rw [messageToEnvelope_polled, hcontent, hid, htype]
        rfl
      · simp [relay, frameToEnvelope_frame, hcontent, h.noFile]
      · rw [h.noFile]
        exact fun hno => absurd hno (by simp)

end

/-! ## The poller from pass to pass -/

section
variable {py : Py} {a : Adapter} {chatId : String} {p : Poller} {items : List Polled}

theorem mem_collect_seen {bootstrap : Bool} {seen : List String} {mid : String} :
    mid ∈ (collect bootstrap seen items).1 ↔
      mid ∈ seen ∨ mid ≠ "" ∧ ∃ m ∈ items, m.messageId = some mid := by
  induction items generalizing seen with
  | nil => simp [collect]
  | cons m items ih =>
    unfold collect
    split
    · rename_i hmid
      simp [ih, hmid]
    · rename_i hmid
      rw [ih]
      have hne : mid ≠ "" → some "" ≠ some mid := fun h heq => h (Option.some.inj heq).symm
      by_cases hempty : mid = "" <;> simp [hmid, hempty, hne]
    · rename_i mid' hne hmid
      split
      · rename_i hmem
        rw [ih]
        by_cases heq : mid = mid' <;> simp_all [eq_comm]
      · rw [ih]
        by_cases heq : mid = mid' <;> simp_all [eq_comm]

theorem fresh_bootstrap {seen : List String} : (collect true seen items).2 = [] := by
  induction items generalizing seen with
  | nil => rfl
  | cons m items ih =>
    unfold collect
    split
    · exact ih
    · exact ih
    · split
      · exact ih
      · exact ih

theorem exists_sent (fresh : List Polled) : ∃ sent, sent <+: fresh ∧
    List.Forall₂ (fun m e => messageToEnvelope py a m chatId = some e) sent
      (enqueue py a chatId fresh).1 := by
  induction fresh with
  | nil => exact ⟨[], List.prefix_refl _, .nil⟩
  | cons m fresh ih =>
    unfold enqueue
    cases h : messageToEnvelope py a m chatId with
    | none => exact ⟨[], List.nil_prefix, .nil⟩
    | some envelope =>
      obtain ⟨sent, hsent, hall⟩ := ih
      exact ⟨m :: sent, List.cons_prefix_cons.mpr ⟨rfl, hsent⟩, .cons h hall⟩

/-- The id of the message an envelope is of. -/
def Envelope.messageId (e : Envelope) : Option Value := get "message_id" e.args

theorem messageId_of_messageToEnvelope {m : Polled} {e : Envelope}
    (h : messageToEnvelope py a m chatId = some e) :
    e.messageId = some (attrOr m.messageId) := by
  obtain ⟨content, -, h⟩ := Option.bind_eq_some_iff.mp h
  dsimp only at h
  rw [← List.append_nil (Fields.args _ _), buildMsgReceivedEnvelope_args _ [] _ rfl] at h
  obtain rfl := Option.some.inj h
  rfl

theorem ids_of_forall₂ {sent : List Polled} {queued : List Envelope}
    (h : List.Forall₂ (fun m e => messageToEnvelope py a m chatId = some e) sent queued) :
    queued.map Envelope.messageId = sent.map fun m => some (attrOr m.messageId) := by
  induction h with
  | nil => rfl
  | cons hone _ ih => rw [List.map_cons, List.map_cons, messageId_of_messageToEnvelope hone, ih]

/-- The passes one after the other, and all that is queued. -/
def pollAll (py : Py) (a : Adapter) (chatId : String) (p : Poller) :
    List (List Polled) → Poller × List Envelope
  | [] => (p, [])
  | items :: rest =>
      let r := pollOnce py a chatId p items
      let r' := pollAll py a chatId r.1 rest
      (r'.1, r.2 ++ r'.2)

end

/-! ### A picture -/

/-- `json.loads` of the content of the picture, and of nothing else. -/
def pictureJson : Py where
  loads s :=
    if s = "\x7b\"image_key\":\"img_v3_1\"\x7d" then
      .ok (.map [(.str "image_key", .str "img_v3_1")])
    else .error .decode
  str
    | .str s => s
    | _ => ""

def instance1 : Adapter := ⟨"feishu_main", "cli_1", fun _ _ => none⟩

def picture : Message where
  messageId := "om_1"
  chatId := "oc_1"
  msgType := "image"
  content := "\x7b\"image_key\":\"img_v3_1\"\x7d"
  threadId := none
  rootId := none
  sender := some ⟨some "ou_1", some "user"⟩

/-- The picture has its key on the mock path only. -/
theorem not_symmetric_picture :
    ¬Symmetric pictureJson instance1 (fun s => .object s.openId) picture ∧
      ∃ live mock, handleReceive pictureJson instance1 picture.event = some live ∧
        relay pictureJson instance1 (.ok picture.frame) = .yielded mock ∧
        get "file_key" live.args = none ∧
        get "file_key" mock.args = some (.str "img_v3_1") ∧
        get "file_name" mock.args = some (.str "img_v3_1.png") := by
  constructor
  · intro h
    exact absurd h.noFile (by decide)
  · exact ⟨_, _, rfl, rfl, rfl, rfl, rfl⟩

end FeishuInbound
end Esr
