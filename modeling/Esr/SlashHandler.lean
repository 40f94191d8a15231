import Esr.Grants
import Esr.SlashRoutes

/-! # The slash handler

`Esr.Entity.SlashHandler` has two entries: `dispatch`, for the text of a chat
message, and `dispatch_command`, for a command map an admin wrote to the queue.
The first resolves the text to a route, parses the arguments, checks that the
chat and the user are bound where the route asks for it, and builds the command;
the second is given the command and checks the permission its kind requires.
Both then start the command in a task.

Envelopes and commands are terms from outside.  Where the code raises on one of
an unexpected shape, the handler stops with `raised` and starts nothing.
-/
namespace Esr
namespace SlashHandler
open Yaml

/-- What the handler asks of the rest of the runtime: `resolve` is the user an
open id is bound to, and `pathJoin` is `Path.join/1`. -/
structure Runtime where
  registry : SlashRegistry
  workspaceNameForChat : String → String → Option String
  usernameForFeishuId : String → Option String
  resolve : String → Option String
  pathJoin : List String → String

/-- Why a dispatch goes no further. -/
inductive Stop where
  | raised
  | refused (message : String)

/-! ## Reading terms -/

/-- The term counts as true. -/
def truthy : Value → Bool
  | .null | .bool false => false
  | _ => true

/-- `term[key]`. -/
def access (key : String) : Value → Except Stop Value
  | .map m => .ok ((get key m).getD .null)
  | .null => .ok .null
  | _ => .error .raised

/-- `get_in/2`. -/
def getIn (v : Value) (keys : List String) : Except Stop Value :=
  keys.foldlM (fun v key => access key v) v

/-- `a || b`, where `b` is only read if `a` does not count as true. -/
def orElse (a b : Except Stop Value) : Except Stop Value := do
  let v ← a
  if truthy v then return v else b

/-- `to_string/1`. -/
def toStr (v : Value) : Except Stop String :=
  match Writer.toStr v with
  | some s => .ok s
  | none => .error .raised

/-- `Map.put_new/3`. -/
def putNew (key : String) (v : Value) (m : Entries) : Entries :=
  if (get key m).isSome then m else put key v m

/-- `maybe_put/3`, which is also `force_put/3`. -/
def maybePut (key : String) (v : Value) (m : Entries) : Entries :=
  match v with
  | .null => m
  | _ => put key v m

/-- `value in [nil, ""]`. -/
def isBlank : Option Value → Bool
  | none | some .null => true
  | some (.str s) => s == ""
  | _ => false

/-! ## The envelope -/

/-- `extract_text/1`. -/
def extractText (envelope : Value) : Except Stop String := do
  let v ← orElse (getIn envelope ["payload", "text"])
    (orElse (getIn envelope ["payload", "args", "content"]) (.ok (.str "")))
  toStr v

/-- `envelope_chat_id/1`. -/
def envelopeChatId (envelope : Value) : Except Stop Value :=
  orElse (getIn envelope ["payload", "chat_id"]) (getIn envelope ["payload", "args", "chat_id"])

/-- `envelope_thread_id/1`. -/
def envelopeThreadId (envelope : Value) : Except Stop Value :=
  orElse (getIn envelope ["payload", "thread_id"])
    (getIn envelope ["payload", "args", "thread_id"])

/-- The application the message came through. -/
def envelopeAppId (envelope : Value) : Except Stop Value :=
  getIn envelope ["payload", "args", "app_id"]

variable (rt : Runtime)

/-- `resolve_workspace/2`, with `null` when there is no binding. -/
def resolveWorkspace (chatId appId : Value) : Value :=
  match chatId, appId with
  | .str chat, .str app =>
      if chat ≠ "" ∧ app ≠ "" then
        match rt.workspaceNameForChat chat app with
        | some ws => .str ws
        | none => .null
      else .null
  | _, _ => .null

/-- `resolve_username/1`. -/
def resolveUsername (envelope : Value) : Except Stop Value := do
  let openId ← orElse (access "user_id" envelope) (orElse (access "principal_id" envelope)
    (orElse (getIn envelope ["payload", "user_id"])
      (getIn envelope ["payload", "args", "sender_id"])))
  match openId with
  | .str id =>
      if id = "" then return .null
      else
        match rt.usernameForFeishuId id with
        | some name => return .str name
        | none => return .null
  | _ => return .null

/-! ## From the text to arguments -/

/-- `strip_slash_prefix/2`. -/
def stripSlashPrefix (text slash : String) : String :=
  match stripPrefix slash (trim text) with
  | some rest => trim rest
  | none => trim text

/-- `peel_positional/1`: a first token without `=` is a positional value. -/
def peelPositional : List String → Option String × List String
  | [] => (none, [])
  | first :: rest => if '=' ∈ first.toList then (none, first :: rest) else (some first, rest)

/-- `parse_kv_pairs/1`. -/
def parseKvPairs (toks : List String) : Entries :=
  toks.foldl (fun acc tok =>
    match splitParts2 '=' tok with
    | [k, v] => if k ≠ "" then put k (.str v) acc else acc
    | _ => acc) []

/-- `apply_defaults/2`. -/
def applyDefaults (args : Entries) (specs : List ArgSpec) : Entries :=
  specs.foldl (fun acc spec =>
    match spec.default with
    | .null => acc
    | default => putNew spec.name default acc) args

/-- `validate_required/3`. -/
def validateRequired (args : Entries) (specs : List ArgSpec) (slash : String) :
    Except Stop Unit :=
  match (specs.filter fun spec => spec.required && isBlank (get spec.name args)).map
      ArgSpec.name with
  | [] => .ok ()
  | [name] => .error (.refused (slash ++ ": missing required arg `" ++ name ++ "=<…>`"))
  | names => .error (.refused (slash ++ ": missing required args: " ++ ", ".intercalate names))

/-- `parse_route_args/2`. -/
def parseRouteArgs (text : String) (route : SlashRoute) : Except Stop Entries :=
  match route.args with
  | [] => .ok []
  | firstSpec :: rest => do
      let (positional, kvs) := peelPositional (words (trim (stripSlashPrefix text route.slash)))
      let given :=
        match positional with
        | some value => putNew firstSpec.name (.str value) (parseKvPairs kvs)
        | none => parseKvPairs kvs
      let args := applyDefaults given (firstSpec :: rest)
      validateRequired args (firstSpec :: rest) route.slash
      return args

/-! ## The preconditions of a route -/

/-- `check_workspace_binding/2`. -/
def checkWorkspaceBinding (route : SlashRoute) (envelope : Value) : Except Stop Unit :=
  if route.requiresWorkspaceBinding then do
    let chatId ← envelopeChatId envelope
    let appId ← envelopeAppId envelope
    if isBlank (some (resolveWorkspace rt chatId appId)) then
      .error (.refused ("this command requires the chat to be bound to a workspace; " ++
        "run `/workspace:new <name>` first"))
    else .ok ()
  else .ok ()

/-- `check_user_binding/2`. -/
def checkUserBinding (route : SlashRoute) (envelope : Value) : Except Stop Unit :=
  if route.requiresUserBinding then do
    let username ← resolveUsername rt envelope
    if isBlank (some username) then
      let principal ← orElse (access "principal_id" envelope)
        (orElse (access "user_id" envelope) (.ok (.str "(unknown open_id)")))
      let shown ← toStr principal
      .error (.refused ("this command requires your Feishu identity to be bound to an esr user; " ++
        "run `./esr.sh feishu bind <esr_user> " ++ shown ++ "` first (or /doctor for guidance)"))
    else .ok ()
  else .ok ()

/-! ## The arguments a command gets -/

/-- `inject_envelope_args/2`. -/
def injectEnvelopeArgs (args : Entries) (envelope : Value) : Except Stop Entries := do
  let chatId ← envelopeChatId envelope
  let threadId ← envelopeThreadId envelope
  let appId ← envelopeAppId envelope
  let caller ← orElse (access "principal_id" envelope) (access "user_id" envelope)
  return maybePut "caller_principal_id" caller (maybePut "app_id" appId
    (maybePut "thread_id" threadId (maybePut "chat_id" chatId args)))

/-- The workspace of the chat, unless the arguments name one. -/
def defaultWorkspace (chatId appId : Value) (args : Entries) : Entries :=
  if isBlank (get "workspace" args) then
    maybePut "workspace" (resolveWorkspace rt chatId appId) args
  else args

/-- `merge_chat_context/3`. -/
def mergeChatContext (args : Entries) (kind : String) (envelope : Value) :
    Except Stop Entries :=
  match kind with
  | "session_new" => do
      let chatId ← envelopeChatId envelope
      let threadId ← envelopeThreadId envelope
      let username ← resolveUsername rt envelope
      return maybePut "username" username
        (maybePut "thread_id" threadId (maybePut "chat_id" chatId args))
  | "session_end" => do
      let chatId ← envelopeChatId envelope
      let threadId ← envelopeThreadId envelope
      let appId ← envelopeAppId envelope
      let username ← resolveUsername rt envelope
      return defaultWorkspace rt chatId appId (maybePut "username" username
        (maybePut "thread_id" threadId (maybePut "chat_id" chatId args)))
  | "session_list" | "workspace_info" => do
      let chatId ← envelopeChatId envelope
      let appId ← envelopeAppId envelope
      let username ← resolveUsername rt envelope
      return defaultWorkspace rt chatId appId
        (maybePut "username" username (maybePut "chat_id" chatId args))
  | "workspace_new" => do
      let chatId ← envelopeChatId envelope
      let appId ← envelopeAppId envelope
      let username ← resolveUsername rt envelope
      return maybePut "username" username
        (maybePut "app_id" appId (maybePut "chat_id" chatId args))
  | "pty_key" => do
      let v ← orElse (getIn envelope ["payload", "text"]) (.ok (.str ""))
      let text ← toStr v
      return maybePut "keys" (.str (trim (stripSlashPrefix text "/pty:key"))) args
  | _ => .ok args

/-- `maybe_derive_session_new_cwd/2`. -/
def maybeDeriveSessionNewCwd (args : Entries) (kind : String) : Entries :=
  if kind = "session_new" then
    match get "root" args, get "worktree" args, (get "cwd" args).getD .null with
    | some (.str root), some (.str branch), .null =>
        if root ≠ "" ∧ branch ≠ "" then
          put "cwd" (.str (rt.pathJoin [root, ".worktrees", branch])) args
        else args
    | _, _, _ => args
  else args

/-- The `with` chain of `dispatch`: the arguments of the command, once all the
route's preconditions are met. -/
def prepareArgs (text : String) (route : SlashRoute) (envelope : Value) :
    Except Stop Entries := do
  let parsed ← parseRouteArgs text route
  checkWorkspaceBinding rt route envelope
  checkUserBinding rt route envelope
  let injected ← injectEnvelopeArgs parsed envelope
  let merged ← mergeChatContext rt injected route.kind envelope
  return maybeDeriveSessionNewCwd rt merged route.kind

/-! ## The two entries -/

/-- What goes to the reply target before any command is started. -/
inductive Answer where
  | text (message : String)
  | resourceHelp (resource : Option String)
  | error (type : String) (fields : Entries)

/-- What a dispatch comes to.  `started` is the command the task runs. -/
inductive Outcome where
  | started (command : Entries)
  | answered (answer : Answer)
  | raised

/-- The command started, if any. -/
def Outcome.command : Outcome → Option Entries
  | .started command => some command
  | _ => none

/-- `@deprecated_slashes`. -/
def deprecatedSlashes : List (String × Option String) :=
  [("/new-session", some "/session:new"),
    ("/end-session", some "/session:end"),
    ("/sessions", some "/session:list"),
    ("/list-sessions", some "/session:list"),
    ("/attach", some "/pty:attach"),
    ("/session:attach", some "/session:bind-chat"),
    ("/session:detach", some "/session:unbind-chat"),
    ("/whoami", some "/user:whoami"),
    ("/key", some "/pty:key"),
    ("/new-workspace", some "/workspace:new"),
    ("/list-agents", some "/agent:list"),
    ("/session:add-agent", some "/agent:add"),
    ("/session:remove-agent", some "/agent:remove"),
    ("/session:set-primary", some "/agent:set-primary"),
    ("/actors", some "/actor:list"),
    ("/list-actors", some "/actor:list"),
    ("/workspace list", some "/workspace:list"),
    ("/workspace edit", some "/workspace:edit"),
    ("/workspace add-folder", some "/workspace:add-folder"),
    ("/workspace remove-folder", some "/workspace:remove-folder"),
    ("/workspace bind-chat", some "/workspace:bind-chat"),
    ("/workspace unbind-chat", some "/workspace:unbind-chat"),
    ("/workspace remove", some "/workspace:remove"),
    ("/workspace rename", some "/workspace:rename"),
    ("/workspace use", some "/workspace:use"),
    ("/workspace import-repo", some "/workspace:import-repo"),
    ("/workspace forget-repo", some "/workspace:forget-repo"),
    ("/workspace info", some "/workspace:info"),
    ("/workspace describe", some "/workspace:describe"),
    ("/workspace sessions", none),
    ("/plugin list", some "/plugin:list"),
    ("/plugin info", some "/plugin:info"),
    ("/plugin install", some "/plugin:install"),
    ("/plugin enable", some "/plugin:enable"),
    ("/plugin disable", some "/plugin:disable")]

/-- `Map.get(@deprecated_slashes, head)`. -/
def renamedTo (head : String) : Option String :=
  (deprecatedSlashes.find? fun e => decide (e.1 = head)).bind Prod.snd

/-- The answer to a text that is no route. -/
def answerNotFound (reg : SlashRegistry) (text : String) : Answer :=
  let toks := words (trim text)
  let head1 := toks.head?.getD ""
  let head2 := " ".intercalate (toks.take 2)
  match (renamedTo head2).or (renamedTo head1) with
  | some newName =>
      .text ("slash command renamed; use " ++ newName ++ " instead of " ++ head1)
  | none =>
      if head2 = "/workspace sessions" ∨ head1 = "/workspace sessions" then
        .text "/workspace sessions has been removed; use /session:list to list sessions"
      else
        match reg.lookupPrefix text with
        | .resourceHelp resource => .resourceHelp resource
        | .unknownMethod resource method =>
            .text ("/" ++ resource ++ ":" ++ method ++ " 不存在；可用方法：用 /" ++ resource ++
              " 看清单")
        | .unknownResource name =>
            .text ("未知 resource: " ++ name ++
              "。用 / 看 top-level resources，/help 看完整清单。")
        | .noMatch => .text ("unknown command: " ++ head1)

/-- The command `dispatch` builds. -/
def buildCommand (id kind : String) (principalId : Value) (args : Entries) : Entries :=
  [(.str "args", .map args), (.str "id", .str id), (.str "kind", .str kind),
    (.str "submitted_by", principalId)]

/-- `handle_cast({:dispatch, …})`; `id` is the generated one. -/
def dispatch (envelope : Value) (id : String) : Outcome :=
  match extractText envelope,
    orElse (access "principal_id" envelope) (.ok (.str "ou_unknown")) with
  | .ok text, .ok principalId =>
      match rt.registry.lookup text with
      | none => .answered (answerNotFound rt.registry text)
      | some route =>
          match prepareArgs rt text route envelope with
          | .ok args => .started (buildCommand id route.kind principalId args)
          | .error (.refused message) => .answered (.text message)
          | .error .raised => .raised
  | _, _ => .raised

/-- `@bootstrap_sentinel`. -/
def bootstrapSentinel : String := "system:bootstrap"

/-- `@bootstrap_allowed_kinds`. -/
def bootstrapAllowedKinds : List String := ["user_add"]

/-- `bootstrap_bypass?/2`. -/
def bootstrapBypass (table : Grants.Table) (submittedBy : Value) (kind : String) : Bool :=
  submittedBy.isStr bootstrapSentinel && bootstrapAllowedKinds.contains kind &&
    !Grants.anyAdmin table

/-- `Capability.has?/2` on two terms, with `none` where its guard fails and it
raises. -/
def capabilityHas (table : Grants.Table) (submittedBy permission : Value) : Option Bool :=
  match submittedBy, permission with
  | .str principal, .str perm => some (Capability.has rt.resolve table principal perm)
  | _, _ => none

/-- `command["submitted_by"] || "ou_unknown"`. -/
def submitterOf (command : Entries) : Value := getOr "submitted_by" (.str "ou_unknown") command

/-- `handle_cast({:dispatch_command, …})`. -/
def dispatchCommand (table : Grants.Table) (command : Entries) : Outcome :=
  match get "kind" command with
  | some (.str kind) =>
      match rt.registry.permissionFor kind with
      | none => .answered (.error "unknown_kind" [(.str "kind", .str kind)])
      | some .null => .started command
      | some required =>
          if bootstrapBypass table (submitterOf command) kind then .started command
          else
            match capabilityHas rt table (submitterOf command) required with
            | some true => .started command
            | some false =>
                .answered (.error "unauthorized"
                  [(.str "kind", .str kind), (.str "required", required)])
            | none => .raised
  | _ => .answered (.error "invalid_kind" [])

/-- What the handler is given: an envelope, with the identifier the command will
have, or a command. -/
inductive Entry where
  | text (envelope : Value) (id : String)
  | queue (command : Entries)

/-- `handle_cast/2`. -/
def handle (table : Grants.Table) : Entry → Outcome
  | .text envelope id => dispatch rt envelope id
  | .queue command => dispatchCommand rt table command

end SlashHandler
end Esr
