import Esr.SessionPlaces
import Esr.SlashHandler

/-! # What submit_slash reports

The `submit_slash` tool hands a command text to the slash handler and waits for its
answer in a task, which sends one `tool_result`.  The handler answers with what a command
module returns, `{:ok, map}` or `{:error, reason}`, or with a notice, `{:text, message}`:
of a text that is no command, of a refusal, of its timeout.  `RawCollector` passes an
error on as an error, and everything else as a success.

What becomes of the command is a parameter, and when: `inTime` is before the timer of the
handler fires, and `reaches` tells whether the answer comes before the task gives up.
-/
namespace Esr
namespace SubmitSlash
open Yaml
open SessionPlaces (ChatEntry)

/-- An Elixir term.  A binary that is no text is `bytes`, and `other` is a pid, a
reference, a function or a struct. -/
inductive Term where
  | atom (name : String)
  | int (n : Int)
  | float (text : String)
  | str (s : String)
  | bytes (b : List Nat)
  | tuple (elems : List Term)
  | list (elems : List Term)
  | map (entries : List (Term × Term))
  | other

/-- A key that JSON can have. -/
def Term.isKey : Term → Bool
  | .atom _ | .int _ | .float _ | .str _ => true
  | _ => false

mutual

/-- The term can be written as JSON. -/
def encodable : Term → Bool
  | .bytes _ | .tuple _ | .other => false
  | .list elems => encodableEach elems
  | .map entries => encodableEntries entries
  | _ => true

/-- The elements of a list can be written. -/
def encodableEach : List Term → Bool
  | [] => true
  | t :: rest => encodable t && encodableEach rest

/-- The entries of a map can be written. -/
def encodableEntries : List (Term × Term) → Bool
  | [] => true
  | (k, v) :: rest => k.isKey && encodable v && encodableEntries rest

end

/-- A map with texts as its keys. -/
def Term.ofFields (fields : List (String × Term)) : Term :=
  .map (fields.map fun f => (.str f.1, f.2))

/-- `term["key"]` of a map. -/
def Term.field (key : String) : Term → Option Term
  | .map entries => (entries.find? fun e => match e.1 with
      | .str k => k == key
      | _ => false).map Prod.snd
  | _ => none

/-- `{:ok, result}`. -/
def okTuple (result : Term) : Term := .tuple [.atom "ok", result]

/-- `{:error, reason}`. -/
def errorTuple (reason : Term) : Term := .tuple [.atom "error", reason]

/-- `{:text, message}`. -/
def textTuple (message : String) : Term := .tuple [.atom "text", .str message]

/-- What becomes of a command: `lost` is any other end than a result or an exception, or
none. -/
inductive Fate where
  | returned (result : Term)
  | crashed (message : String)
  | lost

/-- What a call finds around it.  `inspect` is `Kernel.inspect/1`, and `helpText` the text
of `Esr.Commands.ResourceHelp`. -/
structure World where
  session : Option SessionPlaces.Struct
  principalId : String
  envelopeId : String
  now : String
  handlerUp : Bool
  rt : SlashHandler.Runtime
  id : String
  helpText : Option String → String
  moduleFor : String → Bool
  fate : Entries → Fate
  inTime : Bool
  reaches : Bool
  inspect : Term → String

variable (w : World)

/-! ## The slash handler -/

/-- `command["kind"]`. -/
def kindOf (command : Entries) : String :=
  match get "kind" command with
  | some (.str kind) => kind
  | _ => ""

/-- `run_command/2`, with `none` where there is no result. -/
def runCommand (command : Entries) : Option Term :=
  if w.moduleFor (kindOf command) then
    match w.fate command with
    | .returned result => some result
    | .crashed message => some (errorTuple (.ofFields [("kind", .str (kindOf command)),
        ("message", .str message), ("type", .str "command_crashed")]))
    | .lost => none
  else
    some (errorTuple (.ofFields [("kind", .str (kindOf command)), ("type", .str "unknown_kind")]))

/-- An answer that needs no command. -/
def answerTerm : SlashHandler.Answer → Term
  | .text message => textTuple message
  | .resourceHelp resource => textTuple (w.helpText resource)
  | .error type _ => errorTuple (.ofFields [("type", .str type)])

/-- What the handler answers to a started command: its result, or that it timed out. -/
def commandReply (command : Entries) : Term :=
  match runCommand w command with
  | some result => if w.inTime then result else textTuple "command timed out (>5s)"
  | none => textTuple "command timed out (>5s)"

/-- What the handler answers. -/
def handlerReply (envelope : Value) : Option Term :=
  match SlashHandler.dispatch w.rt envelope w.id with
  | .raised => none
  | .answered a => some (answerTerm w a)
  | .started command => some (commandReply w command)

/-- `SlashHandler.dispatch/2`: the first thing the task is sent, if anything. -/
def received (envelope : Value) : Option Term :=
  if w.handlerUp then
    if w.reaches then handlerReply w envelope else none
  else some (textTuple "slash routing unavailable (boot incomplete)")

/-- `RawCollector.respond/3`. -/
def rawCollector : Term → Except Term Term
  | .tuple [.atom "ok", result] => .ok result
  | .tuple [.atom "error", reason] => .error reason
  | result => .ok result

/-! ## The tool -/

/-- `build_submit_slash_envelope/3`. -/
def buildSubmitSlashEnvelope (cmd : String) (chat : ChatEntry) : Value :=
  .map [(.str "id", .str w.envelopeId), (.str "kind", .str "event"),
    (.str "payload", .map [
      (.str "args", .map [(.str "app_id", chat.appId), (.str "chat_id", chat.chatId),
        (.str "content", .str cmd), (.str "msg_type", .str "text"),
        (.str "submitted_by", .str w.principalId)]),
      (.str "event_type", .str "msg_received")]),
    (.str "principal_id", .str w.principalId), (.str "source", .str "esr://localhost/submit_slash"),
    (.str "ts", .str w.now), (.str "type", .str "event")]

/-- `normalize_kind/1`. -/
def normalizeKind (reason : Term) : Term :=
  match reason with
  | .atom name => .str name
  | .str s => .str s
  | .bytes b => .bytes b
  | t =>
      match t.field "type" with
      | some (.str type) => .str type
      | some (.bytes b) => .bytes b
      | _ => .str (w.inspect t)

/-- `%{"kind" => kind}`. -/
def kindMap (kind : Term) : Term := .ofFields [("kind", kind)]

/-- `run_submit_slash/3`. -/
def runSubmitSlash (cmd : String) : Except Term Term :=
  match w.session with
  | none => .error (kindMap (.str "session_not_found"))
  | some session =>
      match session.attachedChats with
      | [] => .error (kindMap (.str "no_attached_chat"))
      | chat :: _ =>
          match (received w (buildSubmitSlashEnvelope w cmd chat)).map rawCollector with
          | some (.ok result) => .ok result
          | some (.error reason) => .error (kindMap (normalizeKind w reason))
          | none => .error (kindMap (.str "slash_timeout"))

/-- `reply_tool_result/5`. -/
def replyToolResult (reqId : String) (ok : Bool) (data error : Term) : Term :=
  .ofFields [("data", data), ("error", error), ("kind", .str "tool_result"),
    ("ok", .atom (if ok then "true" else "false")), ("req_id", .str reqId)]

/-- The task of a call, with what it sends. -/
def submitSlash (reqId cmd : String) : List Term :=
  match runSubmitSlash w cmd with
  | .ok result => [replyToolResult reqId true result (.atom "nil")]
  | .error err => [replyToolResult reqId false (.atom "nil") err]

/-- `dispatch_tool_invoke("submit_slash", …)`, with what is sent. -/
def dispatchToolInvoke (reqId : String) (args : Entries) : List Term :=
  match get "command" args with
  | some (.str cmd) => submitSlash w reqId cmd
  | _ => [replyToolResult reqId false (.atom "nil") (.ofFields
      [("message", .str "submit_slash requires args.command :: string"),
        ("type", .str "invalid_args")])]

/-! ## What is claimed -/

/-- The command that is started, if any. -/
def started (cmd : String) : Option Entries :=
  match w.session.bind fun session => session.attachedChats.head? with
  | some chat =>
      if w.handlerUp then
        (SlashHandler.dispatch w.rt (buildSubmitSlashEnvelope w cmd chat) w.id).command
      else none
  | none => none

/-- The command has a module, which returns `{:ok, map}`. -/
def Succeeds (command : Entries) : Prop :=
  w.moduleFor (kindOf command) = true ∧ ∃ m, w.fate command = .returned (okTuple (.map m))

/-- One result that can be sent, and that is ok if and only if the command succeeds. -/
def Truthful (cmd : String) (results : List Term) : Prop :=
  ∃ payload, results = [payload] ∧ encodable payload = true ∧
    (payload.field "ok" = some (.atom "true") ↔ ∃ command, started w cmd = some command ∧
      Succeeds w command)

/-! ## When it is so -/

/-- A result that is passed on as it is meant. -/
def Clear (result : Term) : Prop :=
  (∃ m, result = okTuple (.map m) ∧ encodable (.map m) = true) ∨
    ∃ reason, result = errorTuple reason ∧ encodable (normalizeKind w reason) = true

/-- The command ends in time, and with a clear result. -/
def EndsClearly (command : Entries) : Prop :=
  w.inTime = true ∧ (w.moduleFor (kindOf command) = true →
    match w.fate command with
    | .returned result => Clear w result
    | .crashed _ => True
    | .lost => False)

/-- There is no session or no chat, or the handler is there and starts a command that
ends clearly.  Where its answer does not come, the command has not succeeded. -/
def Reliable (cmd : String) : Prop :=
  match w.session.bind fun session => session.attachedChats.head? with
  | none => True
  | some chat =>
      w.handlerUp = true ∧
        match SlashHandler.dispatch w.rt (buildSubmitSlashEnvelope w cmd chat) w.id with
        | .raised => True
        | .answered _ => w.reaches = false
        | .started command =>
            if w.reaches then EndsClearly w command else ¬Succeeds w command

/-! ## One result -/

variable {w} {cmd reqId : String}

theorem encodable_replyToolResult (ok : Bool) (data error : Term) :
    encodable (replyToolResult reqId ok data error) = (encodable data && encodable error) := by
  simp [replyToolResult, Term.ofFields, encodable, encodableEntries, Term.isKey]

theorem encodable_kindMap (kind : Term) : encodable (kindMap kind) = encodable kind := by
  simp [kindMap, Term.ofFields, encodable, encodableEntries, Term.isKey]

/-- Some command of the text succeeds. -/
def Done (w : World) (cmd : String) : Prop :=
  ∃ command, started w cmd = some command ∧ Succeeds w command

theorem truthful_ok (result : Term) :
    Truthful w cmd [replyToolResult reqId true result (.atom "nil")] ↔
      encodable result = true ∧ Done w cmd := by
  have hnil : encodable (.atom "nil") = true := rfl
  constructor
  · rintro ⟨payload, hp, henc, hok⟩
    obtain rfl := (List.cons.inj hp).1
    rw [encodable_replyToolResult, hnil, Bool.and_true] at henc
    exact ⟨henc, hok.mp rfl⟩
  · rintro ⟨henc, hdone⟩
    refine ⟨_, rfl, ?_, iff_of_true rfl hdone⟩
    rw [encodable_replyToolResult, hnil, Bool.and_true]
    exact henc

theorem truthful_error (kind : Term) :
    Truthful w cmd [replyToolResult reqId false (.atom "nil") (kindMap kind)] ↔
      encodable kind = true ∧ ¬Done w cmd := by
  have hnil : encodable (.atom "nil") = true := rfl
  have hfalse : (replyToolResult reqId false (.atom "nil") (kindMap kind)).field "ok" ≠
      some (.atom "true") := by
    intro he
    exact absurd (Term.atom.inj (Option.some.inj he)) (by decide)
  constructor
  · rintro ⟨payload, hp, henc, hok⟩
    obtain rfl := (List.cons.inj hp).1
    rw [encodable_replyToolResult, hnil, Bool.true_and, encodable_kindMap] at henc
    exact ⟨henc, fun hdone => hfalse (hok.mpr hdone)⟩
  · rintro ⟨henc, hdone⟩
    refine ⟨_, rfl, ?_, iff_of_false hfalse hdone⟩
    rw [encodable_replyToolResult, hnil, Bool.true_and, encodable_kindMap]
    exact henc

theorem rawCollector_cases (t : Term) :
    (∃ result, t = okTuple result ∧ rawCollector t = .ok result) ∨
      (∃ reason, t = errorTuple reason ∧ rawCollector t = .error reason) ∨
        ((∀ result, t ≠ okTuple result) ∧ (∀ reason, t ≠ errorTuple reason) ∧
          rawCollector t = .ok t) := by
  unfold rawCollector
  split
  · exact .inl ⟨_, rfl, rfl⟩
  · exact .inr (.inl ⟨_, rfl, rfl⟩)
  · rename_i hok herror
    exact .inr (.inr ⟨fun result he => hok result he, fun reason he => herror reason he, rfl⟩)

/-- What the task sends, given what it has been sent. -/
def reportOf (w : World) (reqId : String) : Option Term → List Term
  | none => [replyToolResult reqId false (.atom "nil") (kindMap (.str "slash_timeout"))]
  | some t =>
      match rawCollector t with
      | .ok result => [replyToolResult reqId true result (.atom "nil")]
      | .error reason =>
          [replyToolResult reqId false (.atom "nil") (kindMap (normalizeKind w reason))]

theorem reportOf_ok {t result : Term} (h : rawCollector t = .ok result) :
    reportOf w reqId (some t) = [replyToolResult reqId true result (.atom "nil")] := by
  show (match rawCollector t with
    | .ok result => [replyToolResult reqId true result (.atom "nil")]
    | .error reason =>
        [replyToolResult reqId false (.atom "nil") (kindMap (normalizeKind w reason))]) = _
  rw [h]

theorem reportOf_error {t reason : Term} (h : rawCollector t = .error reason) :
    reportOf w reqId (some t) =
      [replyToolResult reqId false (.atom "nil") (kindMap (normalizeKind w reason))] := by
  show (match rawCollector t with
    | .ok result => [replyToolResult reqId true result (.atom "nil")]
    | .error reason =>
        [replyToolResult reqId false (.atom "nil") (kindMap (normalizeKind w reason))]) = _
  rw [h]

theorem truthful_none : Truthful w cmd (reportOf w reqId none) ↔ ¬Done w cmd :=
  (truthful_error _).trans (and_iff_right rfl)

theorem not_truthful_text (message : String) :
    ¬Truthful w cmd (reportOf w reqId (some (textTuple message))) := by
  intro h
  have henc := ((truthful_ok (textTuple message)).mp h).1
  cases henc

/-- A result is reported truthfully when it is clear, if it is a success just when the
command has succeeded. -/
theorem truthful_result {t : Term} (h : Done w cmd ↔ ∃ m, t = okTuple (.map m)) :
    Truthful w cmd (reportOf w reqId (some t)) ↔ Clear w t := by
  rcases rawCollector_cases t with ⟨result, rfl, hraw⟩ | ⟨reason, rfl, hraw⟩ | ⟨hok, herror, hraw⟩
  · rw [reportOf_ok hraw, truthful_ok, h]
    constructor
    · rintro ⟨henc, m, he⟩
      obtain rfl : result = .map m := by
        simpa [okTuple] using he
      exact .inl ⟨m, rfl, henc⟩
    · rintro (⟨m, he, henc⟩ | ⟨reason, he, -⟩)
      · obtain rfl : result = .map m := by
          simpa [okTuple] using he
        exact ⟨henc, m, rfl⟩
      · simp [okTuple, errorTuple] at he
  · have hnot : ¬Done w cmd := by
      rw [h]
      rintro ⟨m, he⟩
      simp [okTuple, errorTuple] at he
    rw [reportOf_error hraw, truthful_error]
    constructor
    · rintro ⟨henc, -⟩
      exact .inr ⟨reason, rfl, henc⟩
    · rintro (⟨m, he, -⟩ | ⟨reason', he, henc⟩)
      · simp [okTuple, errorTuple] at he
      · obtain rfl : reason = reason' := by
          simpa [errorTuple] using he
        exact ⟨henc, hnot⟩
  · rw [reportOf_ok hraw, truthful_ok, h]
    constructor
    · rintro ⟨-, m, he⟩
      exact absurd he (hok _)
    · rintro (⟨m, he, -⟩ | ⟨reason, he, -⟩)
      · exact absurd he (hok _)
      · exact absurd he (herror _)

/-! ## The slash handler's part -/

theorem submitSlash_of_chat {session : SessionPlaces.Struct} {chat : ChatEntry}
    {rest : List ChatEntry} (hs : w.session = some session)
    (hc : session.attachedChats = chat :: rest) :
    submitSlash w reqId cmd = reportOf w reqId (received w (buildSubmitSlashEnvelope w cmd chat)) := by
  unfold submitSlash runSubmitSlash
  rw [hs]
  dsimp only
  rw [hc]
  dsimp only
  cases hr : received w (buildSubmitSlashEnvelope w cmd chat) with
  | none => rfl
  | some t =>
    rw [Option.map_some]
    cases hraw : rawCollector t with
    | ok result => rw [reportOf_ok hraw]
    | error reason => rw [reportOf_error hraw]

theorem answerTerm_text {envelope : Value} {a : SlashHandler.Answer}
    (h : SlashHandler.dispatch w.rt envelope w.id = .answered a) :
    ∃ message, answerTerm w a = textTuple message := by
  cases a with
  | text message => exact ⟨message, rfl⟩
  | resourceHelp resource => exact ⟨_, rfl⟩
  | error type fields =>
    -- the other entry of the handler answers so
    unfold SlashHandler.dispatch at h
    split at h
    · split at h
      · have ha := SlashHandler.Outcome.answered.inj h
        unfold SlashHandler.answerNotFound at ha
        dsimp only at ha
        split at ha
        · cases ha
        · split at ha
          · cases ha
          · split at ha <;> cases ha
      · split at h <;> cases h
    · cases h

theorem received_of_not_reaches {envelope : Value} (hup : w.handlerUp = true)
    (h : ¬w.reaches = true) : received w envelope = none := by
  unfold received
  rw [if_pos hup, if_neg h]

theorem not_truthful_of_answered {envelope : Value} {a : SlashHandler.Answer}
    (hup : w.handlerUp = true) (hreaches : w.reaches = true)
    (hd : SlashHandler.dispatch w.rt envelope w.id = .answered a) :
    ¬Truthful w cmd (reportOf w reqId (received w envelope)) := by
  obtain ⟨message, hmessage⟩ := answerTerm_text hd
  have hreceived : received w envelope = some (textTuple message) := by
    unfold received handlerReply
    rw [if_pos hup, if_pos hreaches, hd, ← hmessage]
  rw [hreceived]
  exact not_truthful_text message

theorem truthful_failed {command : Entries} {reason : Term}
    (hdone : Done w cmd ↔ Succeeds w command) (hnot : ¬Succeeds w command)
    (henc : encodable (normalizeKind w reason) = true) :
    Truthful w cmd (reportOf w reqId (some (errorTuple reason))) := by
  have hiff : Done w cmd ↔ ∃ m, errorTuple reason = okTuple (.map m) := by
    rw [hdone]
    refine iff_of_false hnot ?_
    rintro ⟨m, he⟩
    simp [okTuple, errorTuple] at he
  exact (truthful_result hiff).mpr (.inr ⟨reason, rfl, henc⟩)

theorem truthful_started {command : Entries} (hdone : Done w cmd ↔ Succeeds w command) :
    Truthful w cmd (reportOf w reqId (some (commandReply w command))) ↔
      EndsClearly w command := by
  by_cases hin : w.inTime = true
  · have hreply : ∀ result, runCommand w command = some result → commandReply w command = result := by
      intro result hr
      unfold commandReply
      rw [hr]
      exact if_pos hin
    by_cases hmod : w.moduleFor (kindOf command) = true
    · cases hfate : w.fate command with
      | returned result =>
        have hrun : runCommand w command = some result := by
          unfold runCommand
          rw [if_pos hmod, hfate]
        have hiff : Done w cmd ↔ ∃ m, result = okTuple (.map m) := by
          rw [hdone]
          unfold Succeeds
          rw [hfate]
          constructor
          · rintro ⟨-, m, he⟩
            exact ⟨m, Fate.returned.inj he⟩
          · rintro ⟨m, rfl⟩
            exact ⟨hmod, m, rfl⟩
        rw [hreply result hrun, truthful_result hiff]
        unfold EndsClearly
        rw [hfate]
        exact ⟨fun h => ⟨hin, fun _ => h⟩, fun h => h.2 hmod⟩
      | crashed message =>
        have hrun : runCommand w command = some (errorTuple (.ofFields
            [("kind", .str (kindOf command)), ("message", .str message),
              ("type", .str "command_crashed")])) := by
          unfold runCommand
          rw [if_pos hmod, hfate]
        have hnot : ¬Succeeds w command := by
          rintro ⟨-, m, he⟩
          rw [hfate] at he
          cases he
        rw [hreply _ hrun]
        refine iff_of_true (truthful_failed hdone hnot rfl) ⟨hin, fun _ => ?_⟩
        rw [hfate]
        trivial
      | lost =>
        have hrun : runCommand w command = none := by
          unfold runCommand
          rw [if_pos hmod, hfate]
        have htext : commandReply w command = textTuple "command timed out (>5s)" := by
          unfold commandReply
          rw [hrun]
        rw [htext]
        refine iff_of_false (not_truthful_text _) fun h => ?_
        have hend := h.2 hmod
        rw [hfate] at hend
        exact hend
    · have hrun : runCommand w command = some (errorTuple (.ofFields
          [("kind", .str (kindOf command)), ("type", .str "unknown_kind")])) := by
        unfold runCommand
        rw [if_neg hmod]
      rw [hreply _ hrun]
      exact iff_of_true (truthful_failed hdone (fun h => hmod h.1) rfl)
        ⟨hin, fun h => absurd h hmod⟩
  · have htext : commandReply w command = textTuple "command timed out (>5s)" := by
      unfold commandReply
      split
      · exact if_neg hin
      · rfl
    rw [htext]
    exact iff_of_false (not_truthful_text _) fun h => hin h.1

/-! ## The tool's result -/

theorem not_done_of_none (h : started w cmd = none) : ¬Done w cmd := by
  rintro ⟨command, hc, -⟩
  rw [h] at hc
  cases hc

theorem truthful_refused (h : started w cmd = none) (kind : String) :
    Truthful w cmd [replyToolResult reqId false (.atom "nil") (kindMap (.str kind))] := by
  rw [truthful_error]
  exact ⟨rfl, not_done_of_none h⟩

section
variable {envelope : Value} (hup : w.handlerUp = true)
include hup

theorem truthful_of_raised (hd : SlashHandler.dispatch w.rt envelope w.id = .raised)
    (hnone : started w cmd = none) : Truthful w cmd (reportOf w reqId (received w envelope)) := by
  have hreceived : received w envelope = none := by
    unfold received handlerReply
    rw [if_pos hup, hd]
    exact ite_self _
  rw [hreceived]
  exact truthful_none.mpr (not_done_of_none hnone)

theorem truthful_of_answered {a : SlashHandler.Answer}
    (hd : SlashHandler.dispatch w.rt envelope w.id = .answered a) (hnone : started w cmd = none) :
    Truthful w cmd (reportOf w reqId (received w envelope)) ↔ w.reaches = false := by
  by_cases hreaches : w.reaches = true
  · refine iff_of_false (not_truthful_of_answered hup hreaches hd) ?_
    exact fun h => Bool.eq_false_iff.mp h hreaches
  · rw [received_of_not_reaches hup hreaches]
    exact iff_of_true (truthful_none.mpr (not_done_of_none hnone)) (Bool.eq_false_iff.mpr hreaches)

theorem truthful_of_started {command : Entries}
    (hd : SlashHandler.dispatch w.rt envelope w.id = .started command)
    (hstarted : started w cmd = some command) :
    Truthful w cmd (reportOf w reqId (received w envelope)) ↔
      if w.reaches then EndsClearly w command else ¬Succeeds w command := by
  have hdone : Done w cmd ↔ Succeeds w command := by
    constructor
    · rintro ⟨command', hc, hsucc⟩
      rw [hstarted] at hc
      obtain rfl := Option.some.inj hc
      exact hsucc
    · intro hsucc
      exact ⟨command, hstarted, hsucc⟩
  by_cases hreaches : w.reaches = true
  · have hreceived : received w envelope = some (commandReply w command) := by
      unfold received handlerReply
      rw [if_pos hup, if_pos hreaches, hd]
    rw [hreceived, if_pos hreaches]
    exact truthful_started hdone
  · rw [received_of_not_reaches hup hreaches, if_neg hreaches, truthful_none, hdone]

end

/-- **submit_slash reports the truth** if and only if a command is started that ends in
time and with a clear result, or none could be asked for; no notice is reported so. -/
theorem truthful_iff (w : World) (reqId cmd : String) :
    Truthful w cmd (submitSlash w reqId cmd) ↔ Reliable w cmd := by
  unfold Reliable
  cases hs : w.session with
  | none =>
    have hsubmit : submitSlash w reqId cmd =
        [replyToolResult reqId false (.atom "nil") (kindMap (.str "session_not_found"))] := by
      unfold submitSlash runSubmitSlash
      rw [hs]
    have hstarted : started w cmd = none := by
      unfold started
      rw [hs]
      rfl
    rw [hsubmit]
    exact iff_of_true (truthful_refused hstarted _) trivial
  | some session =>
    cases hchats : session.attachedChats with
    | nil =>
      have hsubmit : submitSlash w reqId cmd =
          [replyToolResult reqId false (.atom "nil") (kindMap (.str "no_attached_chat"))] := by
        unfold submitSlash runSubmitSlash
        rw [hs]
        dsimp only
        rw [hchats]
      have hhead : (some session).bind (fun session => session.attachedChats.head?) = none := by
        rw [Option.bind_some, hchats]
        rfl
      have hstarted : started w cmd = none := by
        unfold started
        rw [hs, hhead]
      rw [hsubmit, hhead]
      exact iff_of_true (truthful_refused hstarted _) trivial
    | cons chat rest =>
      have hhead : (some session).bind (fun session => session.attachedChats.head?) = some chat := by
        rw [Option.bind_some, hchats]
        rfl
      have hstarted : started w cmd = if w.handlerUp then
          (SlashHandler.dispatch w.rt (buildSubmitSlashEnvelope w cmd chat) w.id).command
            else none := by
        unfold started
        rw [hs, hhead]
      rw [submitSlash_of_chat hs hchats, hhead]
      dsimp only
      by_cases hup : w.handlerUp = true
      · rw [if_pos hup] at hstarted
        rw [and_iff_right hup]
        cases hd : SlashHandler.dispatch w.rt (buildSubmitSlashEnvelope w cmd chat) w.id with
        | raised =>
          rw [hd] at hstarted
          exact iff_of_true (truthful_of_raised hup hd hstarted) trivial
        | answered a =>
          rw [hd] at hstarted
          exact truthful_of_answered hup hd hstarted
        | started command =>
          rw [hd] at hstarted
          exact truthful_of_started hup hd hstarted
      · have hreceived : received w (buildSubmitSlashEnvelope w cmd chat) =
            some (textTuple "slash routing unavailable (boot incomplete)") := if_neg hup
        rw [hreceived]
        exact iff_of_false (not_truthful_text _) fun h => hup h.1

/-! ## A command that does not exist -/

/-- A session with a chat, and no command at all. -/
def noCommands : World where
  session := some { SessionPlaces.Struct.blank "s-1" with
    attachedChats := [⟨.str "oc_ops", .str "cli_a1", .str "ou_admin", .null⟩] }
  principalId := "ou_admin"
  envelopeId := "submit-1"
  now := "2026-05-11T00:00:00Z"
  handlerUp := true
  rt := ⟨⟨.empty, .empty⟩, fun _ _ => none, fun _ => none, fun _ => none, "/".intercalate⟩
  id := "c-1"
  helpText := fun _ => ""
  moduleFor := fun _ => false
  fate := fun _ => .lost
  inTime := true
  reaches := true
  inspect := fun _ => ""

/-- **An unknown command is reported as a success**, with a payload that is no JSON. -/
theorem not_truthful_unknown : ¬∀ (w : World) (reqId cmd : String),
    Truthful w cmd (submitSlash w reqId cmd) := by
  intro h
  have htruthful := h noCommands "5f1c" "/nope"
  rw [submitSlash_of_chat (w := noCommands) rfl rfl] at htruthful
  exact not_truthful_of_answered rfl rfl rfl htruthful

end SubmitSlash
end Esr
