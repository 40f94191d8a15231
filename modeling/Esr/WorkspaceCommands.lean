import Esr.WorkspaceStruct
import Esr.PathExpand
import Esr.IntegerTexts
import Esr.Inspect

/-! # The commands that change a workspace

`workspace_new`, `workspace_edit`, `workspace_add_folder`, `workspace_remove_folder`,
`workspace_bind_chat`, `workspace_unbind_chat` and `workspace_rename`.  Each looks a
workspace up under its name, changes one field of the struct and gives the struct to
`workspace_put/1`; what it checks before is its own.

A command is a function of its arguments and of the store, and gives its reply and the
store it leaves.  A store is changed by `put` alone.
-/
namespace Esr
namespace WorkspaceCommands
open Yaml UriStore WorkspaceUris WorkspaceStruct

/-- What a command sees of the rest of the runtime.  `resolveWorkspace` is the chain
that finds a name where none was given; the last three say what the file system
answers where a command raises unless it says ok. -/
structure Env where
  dispatchToPlugin : String → Option String
  disk : JsonWriter.Disk
  dirs : Path.Dirs
  ownerExists : String → Bool
  isDir : String → Bool
  exists? : String → Bool
  workspaceDir : String → String
  resolveWorkspace : Entries → Option String
  mkdirP : String → Bool
  register : String → Bool
  renameDir : String → String → Bool

/-- What a command replies.  `nameExists` has the name beside its message, `putFailed`
carries the error of `workspace_put/1`, and `raised` is an exception in the command's
task. -/
inductive Reply where
  | ok (result : Entries)
  | error (type message : String)
  | nameExists (name message : String)
  | putFailed (reason : String)
  | raised

variable (env : Env)

/-! ## What the commands share -/

/-- `is_binary(v) and v != ""`: the text. -/
def nonEmptyText : Option Value → Option String
  | some (.str s) => if s = "" then none else some s
  | _ => none

/-- `IO.chardata_to_string/1`, with `none` where it raises. -/
def chardata : Value → Option String
  | .str s => some s
  | .list l => Writer.charsToString l
  | _ => none

/-- The regular expression `^[A-Za-z0-9][A-Za-z0-9_\-]*$`. -/
def namePattern (s : String) : Bool :=
  match chompNewline s.toList with
  | [] => false
  | c :: cs => c.isAlphanum && cs.all fun c => c.isAlphanum || c = '_' || c = '-'

/-- `lookup_struct_by_name/1`. -/
def lookupStructByName (t : WorkspaceStore Struct) (name : String) : Option Struct :=
  ((uuidForWorkspaceName env.dispatchToPlugin t name).bind
    (workspaceByUuid env.dispatchToPlugin t)).map Workspace.rest

/-- `workspace_put/1`, and the reply if the put is ok. -/
def put (t : WorkspaceStore Struct) (s : Struct) (reply : Reply) : Reply × WorkspaceStore Struct :=
  match WorkspaceStruct.workspacePut env.dispatchToPlugin env.disk t s with
  | (.ok (), t) => (reply, t)
  | (.error reason, t) => (.putFailed reason, t)

/-- The error of a name that is no workspace's. -/
def unknownWorkspace (name : String) : Reply :=
  .error "unknown_workspace" ("workspace " ++ name ++ " not found")

/-- The names and paths of folders, as replies show them. -/
def serialiseFolders (folders : List Folder) : Value :=
  .list (folders.map fun f => .map [(.str "name", f.name), (.str "path", f.path)])

/-- The chats, as replies show them. -/
def serialiseChats (chats : List ChatEntry) : Value :=
  .list (chats.map fun c => .map [(.str "app_id", c.appId), (.str "chat_id", c.chatId),
    (.str "kind", c.kind.getD (.str "dm"))])

/-- `c.chat_id == chat_id and c.app_id == app_id`. -/
def isChat (chatId appId : String) (c : ChatEntry) : Bool :=
  c.chatId.isStr chatId && c.appId.isStr appId

/-! ## workspace_new -/

namespace New

/-- `parse_bool/1`. -/
def parseBool (v : Option Value) : Bool :=
  match v with
  | some (.str "true") | some (.bool true) => true
  | _ => false

/-- `build_single_chat/2`. -/
def buildSingleChat (args : Entries) : Option (String × String) := do
  let chatId ← nonEmptyText (get "chat_id" args)
  let appId ← nonEmptyText (get "app_id" args)
  return (chatId, appId)

/-- A chat as the command binds it. -/
def chatOf (key : String × String) : ChatEntry := ⟨.str key.1, .str key.2, some (.str "dm")⟩

/-- `format_location/1`. -/
def formatLocation : Location → String
  | .esrBound dir => "esr:" ++ dir
  | .repoBound repo => "repo:" ++ repo

/-- The struct that `create_new/6` puts.  The folder is a path as it was given, with the
text it stands for. -/
def newStruct (uuid name : String) (owner : Value) (folder : Option (Value × String))
    (transient : Bool) (chat : Option (String × String)) : Struct :=
  let dir := env.workspaceDir name
  { id := uuid
    name := name
    owner := owner
    folders :=
      match folder with
      | some (path, text) => [⟨path, .str (Path.basename text)⟩]
      | none => [⟨.str dir, .str (Path.basename dir)⟩]
    agent := .str "cc"
    settings := .map []
    env := .map []
    chats := (chat.map chatOf).toList
    transient := .bool (transient && folder.isNone)
    location := some (match folder with
      | some (_, text) => .repoBound text
      | none => .esrBound dir) }

/-- `create_new/6`.  `workspace_json_repo/1` has a clause for texts only, so a folder
given as a list of characters raises when the store has the workspace. -/
def createNew (uuid name : String) (owner : Value) (folder : Option (Value × String))
    (transient : Bool) (chat : Option (String × String)) (t : WorkspaceStore Struct) :
    Reply × WorkspaceStore Struct :=
  let s := newStruct env uuid name owner folder transient chat
  if env.mkdirP ((folder.map Prod.snd).getD (env.workspaceDir name)) then
    let reply : Reply :=
      if (folder.map fun f => env.register f.2).getD true then
        .ok [(.str "action", .str "created"), (.str "chats", serialiseChats s.chats),
          (.str "folders", serialiseFolders s.folders), (.str "id", .str uuid),
          (.str "location", .str ((s.location.map formatLocation).getD "")),
          (.str "name", .str name), (.str "owner", owner)]
      else .raised
    let result := put env t s reply
    if (folder.map fun f => isText f.1).getD true then result else (.raised, result.2)
  else (.raised, t)

/-- `handle_existing/4`. -/
def handleExisting (name : String) (existing : Struct) (chat : Option (String × String))
    (t : WorkspaceStore Struct) : Reply × WorkspaceStore Struct :=
  match chat with
  | none =>
      (.nameExists name ("workspace " ++ Inspect.inspect name ++
        " already exists; pick another name or delete the old one (`esr workspace remove " ++
        name ++ "`)"), t)
  | some key =>
      if existing.chats.any (isChat key.1 key.2) then
        (.ok [(.str "action", .str "already_bound"), (.str "chats", serialiseChats existing.chats),
          (.str "id", .str existing.id), (.str "name", .str name)], t)
      else
        let updated := { existing with chats := existing.chats ++ [chatOf key] }
        put env t updated (.ok [(.str "action", .str "added_chat"),
          (.str "chats", serialiseChats updated.chats), (.str "id", .str existing.id),
          (.str "name", .str name)])

/-- `do_create_or_bind/6`. -/
def doCreateOrBind (uuid name : String) (owner : Value) (folder : Option (Value × String))
    (transient : Bool) (chat : Option (String × String)) (t : WorkspaceStore Struct) :
    Reply × WorkspaceStore Struct :=
  match lookupStructByName env t name with
  | some existing => handleExisting env name existing chat t
  | none => createNew env uuid name owner folder transient chat t

/-- The checks of a folder that was given. -/
def checkFolder (folder : String) (transient : Bool) : Option Reply :=
  if env.isDir folder = false then
    some (.error "folder_not_dir" ("folder " ++ folder ++ " is not a directory"))
  else if env.exists? (folder ++ "/.git") = false then
    some (.error "folder_not_git_repo" ("folder " ++ folder ++ " is not a git repo"))
  else if transient then
    some (.error "transient_repo_bound_forbidden"
      "transient: true is not valid for repo-bound workspaces")
  else none

/-- `execute/1`, with the uuid it draws. -/
def execute (uuid : String) (args : Entries) (t : WorkspaceStore Struct) :
    Reply × WorkspaceStore Struct :=
  match nonEmptyText (get "name" args) with
  | none =>
      (.error "invalid_args" "workspace_new requires args.name (non-empty string)", t)
  | some name =>
      let owner := getOr "owner" (getOr "username" (.str "") args) args
      let transient := parseBool (get "transient" args)
      let chat := buildSingleChat args
      if namePattern name = false then
        (.error "invalid_name" ("workspace name must be ASCII alnum + - + _ " ++
          "(matches ^[A-Za-z0-9][A-Za-z0-9_\\-]*$)"), t)
      else
        match owner with
        | .str ownerName =>
            if ownerName = "" then
              (.error "invalid_args" "workspace_new requires args.name (non-empty string)", t)
            else if env.ownerExists ownerName = false then
              (.error "unknown_owner" ("owner " ++ ownerName ++
                " not registered in users.yaml; run `esr exec user_add --name=" ++ ownerName ++
                "` first"), t)
            else
              match (get "folder" args).getD .null with
              | .null => doCreateOrBind env uuid name owner none transient chat t
              | folder =>
                  match chardata folder with
                  | none => (.raised, t)
                  | some text =>
                      match checkFolder env text transient with
                      | some reply => (reply, t)
                      | none =>
                          doCreateOrBind env uuid name owner (some (folder, text)) transient chat t
        | _ => (.raised, t)

end New

/-! ## workspace_edit -/

namespace Edit

/-- `parse_set_string/1`. -/
def parseSetString (set : String) : Option (String × String) :=
  match splitParts2 '=' set with
  | [key, value] => some (key, value)
  | _ => none

/-- `check_locked_or_known/2`: the field and the rest of the key, or the error. -/
def checkLockedOrKnown (top : String) (rest : Option String) :
    Except Reply (String × Option String) :=
  if top ∈ ["id", "name", "chats", "folders", "location"] then
    .error (.error "field_locked" (top ++ " is locked; use the dedicated command to change it"))
  else if top = "agent" then
    match rest with
    | none => .ok ("agent", none)
    | some _ =>
        .error (.error "invalid_field" "invalid field agent: agent does not accept dotted suffix")
  else if top = "env" then
    match rest with
    | none => .error (.error "invalid_env_key" "env requires env.<NAME>=<value>")
    | some name =>
        if '.' ∈ name.toList then
          .error (.error "invalid_env_key" "env keys cannot contain dots")
        else .ok ("env", some name)
  else if top = "settings" then
    match rest with
    | none =>
        .error (.error "invalid_field"
          "invalid field settings: settings requires settings.<key>=<value>")
    | some key => .ok ("settings", some key)
  else if top = "transient" then
    match rest with
    | none => .ok ("transient", none)
    | some _ =>
        .error (.error "invalid_field"
          "invalid field transient: transient does not accept dotted suffix")
  else .error (.error "unknown_field" ("unknown field " ++ top))

/-- `parse_key/1`. -/
def parseKey (key : String) : Except Reply (String × Option String) :=
  match splitParts2 '.' key with
  | [top, rest] => checkLockedOrKnown top (some rest)
  | _ => checkLockedOrKnown key none

/-- The regular expression `^-?\d+$`. -/
def integerPattern (raw : String) : Bool :=
  let text := String.ofList (chompNewline raw.toList)
  signedDigits text && text.toList.head? ≠ some '+'

/-- `parse_value/1`, with `none` where `String.to_integer/1` raises: on digits with a
newline behind them. -/
def parseValue (raw : String) : Option Value :=
  if raw = "true" then some (.bool true)
  else if raw = "false" then some (.bool false)
  else if integerPattern raw then
    if signedDigits raw then some (.int (intValue raw)) else none
  else if ',' ∈ raw.toList ∧ '=' ∉ raw.toList then
    some (.list ((split ',' raw).map fun part => .str (trim part)))
  else some (.str raw)

/-- `validate_field_value/2`: the error, if there is one. -/
def validateFieldValue (top : String) (value : Value) : Option Reply :=
  if top = "transient" then
    match value with
    | .bool _ => none
    | _ =>
        some (.error "invalid_value"
          "invalid value for transient: transient must be true or false")
  else if top = "agent" then
    match nonEmptyText (some value) with
    | some _ => none
    | none =>
        some (.error "invalid_value" "invalid value for agent: agent must be a non-empty string")
  else none

/-- `check_transient_repo_bound/3`: the error, if there is one. -/
def checkTransientRepoBound (top : String) (value : Value) (s : Struct) : Option Reply :=
  match value, s.location with
  | .bool true, some (.repoBound _) =>
      if top = "transient" then
        some (.error "transient_repo_bound_forbidden"
          "transient: true is not valid for repo-bound workspaces")
      else none
  | _, _ => none

/-- `Map.put/3` on a field, with `none` where it is not a map. -/
def putKey (field : Value) (key : String) (value : Value) : Option Value :=
  match field with
  | .map m => some (.map (Yaml.put key value m))
  | _ => none

/-- `apply_mutation/4`, with `none` where it raises. -/
def applyMutation (s : Struct) (top : String) (sub : Option String) (value : Value) :
    Option Struct :=
  match sub with
  | none =>
      if top = "agent" then some { s with agent := value } else some { s with transient := value }
  | some key =>
      if top = "env" then (putKey s.env key value).map fun env => { s with env := env }
      else (putKey s.settings key value).map fun settings => { s with settings := settings }

/-- `field_label/2`. -/
def fieldLabel (top : String) : Option String → String
  | none => top
  | some key => top ++ "." ++ key

/-- The steps of `execute/1` behind the parsing of `set`. -/
def mutate (name top : String) (sub : Option String) (value : Value) (t : WorkspaceStore Struct) :
    Reply × WorkspaceStore Struct :=
  match validateFieldValue top value with
  | some reply => (reply, t)
  | none =>
      match lookupStructByName env t name with
      | none => (unknownWorkspace name, t)
      | some s =>
          match checkTransientRepoBound top value s with
          | some reply => (reply, t)
          | none =>
              match applyMutation s top sub value with
              | none => (.raised, t)
              | some updated =>
                  put env t updated (.ok [(.str "field", .str (fieldLabel top sub)),
                    (.str "id", .str updated.id), (.str "name", .str name), (.str "value", value)])

/-- `execute/1`. -/
def execute (args : Entries) (t : WorkspaceStore Struct) : Reply × WorkspaceStore Struct :=
  match nonEmptyText (get "name" args), nonEmptyText (get "set" args) with
  | some name, some set =>
      match parseSetString set with
      | none => (.error "invalid_set" "set must be key=value", t)
      | some (key, raw) =>
          match parseKey key with
          | .error reply => (reply, t)
          | .ok (top, sub) =>
              match parseValue raw with
              | none => (.raised, t)
              | some value => mutate env name top sub value t
  | _, _ =>
      (.error "invalid_args"
        "workspace_edit requires args.name (string) and args.set (key=value string)", t)

end Edit

/-! ## workspace_add_folder and workspace_remove_folder -/

/-- `Path.expand(folder.path)`, with `none` where it raises. -/
def expandFolder (f : Folder) : Option String := (chardata f.path).map (Path.expand env.dirs)

/-- `Enum.any?` over the expanded folders, which raises at a path that is none; the
folders in front of the one that is looked for are enough. -/
def anyFolder (folders : List Folder) (expanded : String) : Option Bool :=
  match folders with
  | [] => some false
  | f :: rest =>
      (expandFolder env f).bind fun path =>
        if path = expanded then some true else anyFolder rest expanded

namespace AddFolder

/-- The second clause of `execute/1`. -/
def add (name path : String) (folderName : Value) (t : WorkspaceStore Struct) :
    Reply × WorkspaceStore Struct :=
  let expanded := Path.expand env.dirs path
  if Path.isAbsolute path = false then
    (.error "invalid_args" "workspace_add_folder requires args.name and args.path", t)
  else if env.isDir expanded = false then
    (.error "folder_not_dir" ("path " ++ expanded ++ " is not a directory"), t)
  else if env.exists? (expanded ++ "/.git") = false then
    (.error "folder_not_git_repo" ("path " ++ expanded ++ " is not a git repo"), t)
  else
    match lookupStructByName env t name with
    | none => (unknownWorkspace name, t)
    | some s =>
        match anyFolder env s.folders expanded with
        | none => (.raised, t)
        | some true =>
            (.error "folder_already_added"
              ("path " ++ expanded ++ " is already in this workspace's folders"), t)
        | some false =>
            let updated := { s with folders := s.folders ++ [⟨.str expanded, folderName⟩] }
            put env t updated (.ok [(.str "folders", serialiseFolders updated.folders),
              (.str "id", .str s.id), (.str "name", .str s.name)])

/-- `execute/1`. -/
def execute (args : Entries) (t : WorkspaceStore Struct) : Reply × WorkspaceStore Struct :=
  match nonEmptyText (get "path" args) with
  | none => (.error "invalid_args" "workspace_add_folder requires args.name and args.path", t)
  | some path =>
      let folderName :=
        getOr "folder_name" (.str (Path.basename (Path.expand env.dirs path))) args
      match get "name" args with
      | none =>
          match env.resolveWorkspace args with
          | none =>
              (.error "no_workspace_target" ("name= omitted but no chat-default and no " ++
                "user-default for submitter; pass name=<workspace> explicitly or run " ++
                "`/user:use workspace=<n>` first"), t)
          | some name =>
              if name = "" then
                (.error "invalid_args" "workspace_add_folder requires args.name and args.path", t)
              else add env name path folderName t
      | some v =>
          match nonEmptyText (some v) with
          | none =>
              (.error "invalid_args" "workspace_add_folder requires args.name and args.path", t)
          | some name => add env name path folderName t

end AddFolder

namespace RemoveFolder

/-- `validate_not_root_folder/2`: the error, if there is one.  The path of the first
folder was expanded before. -/
def validateNotRootFolder (s : Struct) (expanded : String) : Option Reply :=
  match s.location, s.folders with
  | some (.repoBound _), first :: _ =>
      if expandFolder env first = some expanded then
        some (.error "cannot_remove_root_folder" ("cannot remove the root folder of a " ++
          "repo-bound workspace; use /workspace forget-repo instead"))
      else none
  | _, _ => none

/-- `Enum.reject(folders, &folder_matches?(&1, expanded))`, with `none` where a path
cannot be expanded. -/
def reject (folders : List Folder) (expanded : String) : Option (List Folder) :=
  if folders.all fun f => (expandFolder env f).isSome then
    some (folders.filter fun f => expandFolder env f ≠ some expanded)
  else none

/-- `execute/1`. -/
def execute (args : Entries) (t : WorkspaceStore Struct) : Reply × WorkspaceStore Struct :=
  match nonEmptyText (get "name" args), nonEmptyText (get "path" args) with
  | some name, some path =>
      let expanded := Path.expand env.dirs path
      match lookupStructByName env t name with
      | none => (unknownWorkspace name, t)
      | some s =>
          match anyFolder env s.folders expanded with
          | none => (.raised, t)
          | some false =>
              (.error "folder_not_in_workspace"
                ("path " ++ expanded ++ " is not in this workspace's folders"), t)
          | some true =>
              if s.folders.length = 1 then
                (.error "cannot_remove_last_folder" ("workspace " ++ s.name ++
                  " 只剩 1 个 folder；用 /workspace:remove 删整个 workspace"), t)
              else
                match validateNotRootFolder env s expanded with
                | some reply => (reply, t)
                | none =>
                    match reject env s.folders expanded with
                    | none => (.raised, t)
                    | some remaining =>
                        put env t { s with folders := remaining }
                          (.ok [(.str "folders", serialiseFolders remaining), (.str "id", .str s.id),
                            (.str "name", .str s.name), (.str "removed", .str expanded)])
  | _, _ =>
      (.error "invalid_args" "workspace_remove_folder requires args.name and args.path", t)

end RemoveFolder

/-! ## workspace_bind_chat and workspace_unbind_chat -/

namespace BindChat

/-- `execute/1`. -/
def execute (args : Entries) (t : WorkspaceStore Struct) : Reply × WorkspaceStore Struct :=
  match nonEmptyText (get "name" args), nonEmptyText (get "chat_id" args) with
  | some name, some chatId =>
      match nonEmptyText (get "app_id" args) with
      | none =>
          (.error "missing_app_id"
            "bind-chat requires app_id (passed as arg or auto-injected by chat envelope)", t)
      | some appId =>
          match lookupStructByName env t name with
          | none => (unknownWorkspace name, t)
          | some s =>
              if s.chats.any (isChat chatId appId) then
                (.ok [(.str "action", .str "already_bound"), (.str "chats", serialiseChats s.chats),
                  (.str "id", .str s.id), (.str "name", .str name)], t)
              else
                let chat : ChatEntry :=
                  ⟨.str chatId, .str appId, some (getOr "kind" (.str "dm") args)⟩
                let updated := { s with chats := s.chats ++ [chat] }
                put env t updated (.ok [(.str "action", .str "added"),
                  (.str "chats", serialiseChats updated.chats), (.str "id", .str s.id),
                  (.str "name", .str name)])
  | _, _ => (.error "invalid_args" "workspace_bind_chat requires args.name and args.chat_id", t)

end BindChat

namespace UnbindChat

/-- `filter_chats/3`: the chats that stay. -/
def filterChats (chats : List ChatEntry) (chatId : String) (appId : Option String) :
    List ChatEntry :=
  match appId with
  | some appId => chats.filter fun c => !isChat chatId appId c
  | none => chats.filter fun c => !c.chatId.isStr chatId

/-- `execute/1`. -/
def execute (args : Entries) (t : WorkspaceStore Struct) : Reply × WorkspaceStore Struct :=
  match nonEmptyText (get "name" args), nonEmptyText (get "chat_id" args) with
  | some name, some chatId =>
      match lookupStructByName env t name with
      | none => (unknownWorkspace name, t)
      | some s =>
          let remaining := filterChats s.chats chatId (nonEmptyText (get "app_id" args))
          let removed := s.chats.length - remaining.length
          if removed = 0 then
            (.error "chat_not_bound" "chat is not bound to this workspace", t)
          else
            put env t { s with chats := remaining }
              (.ok [(.str "action", .str "removed"), (.str "chats", serialiseChats remaining),
                (.str "id", .str s.id), (.str "name", .str name),
                (.str "removed_count", .int removed)])
  | _, _ => (.error "invalid_args" "workspace_unbind_chat requires args.name and args.chat_id", t)

end UnbindChat

/-! ## workspace_rename -/

namespace Rename

/-- `Compat.workspace_rename/2`.  A failed move of the directory raises, and so does a
name that leads to no workspace, for which `do_rename/2` has no clause. -/
def workspaceRename (oldName newName : String) (reply : Reply) (t : WorkspaceStore Struct) :
    Reply × WorkspaceStore Struct :=
  match lookupStructByName env t oldName with
  | none => (.raised, t)
  | some s =>
      match uuidForWorkspaceName env.dispatchToPlugin t newName with
      | some _ => (.error "rename_failed" "rename failed: :name_exists", t)
      | none =>
          match s.location with
          | some (.esrBound oldDir) =>
              let newDir := Path.join (Path.dirname oldDir) newName
              if env.renameDir oldDir newDir then
                put env t { s with name := newName, location := some (.esrBound newDir) } reply
              else (.raised, t)
          | _ => put env t { s with name := newName } reply

/-- `execute/1`. -/
def execute (args : Entries) (t : WorkspaceStore Struct) : Reply × WorkspaceStore Struct :=
  match nonEmptyText (get "name" args), nonEmptyText (get "new_name" args) with
  | some oldName, some newName =>
      if oldName = newName then (.error "same_name" "new name must differ from old name", t)
      else if namePattern newName = false then
        (.error "invalid_name" "name must be alphanumeric, with - or _, starting alnum", t)
      else
        match uuidForWorkspaceName env.dispatchToPlugin t oldName with
        | none => (unknownWorkspace oldName, t)
        | some id =>
            workspaceRename env oldName newName (.ok [(.str "id", .str id),
              (.str "new_name", .str newName), (.str "old_name", .str oldName)]) t
  | _, _ => (.error "invalid_args" "workspace_rename requires args.name and args.new_name", t)

end Rename

/-- The commands, each with its arguments; `new` draws a uuid as well. -/
inductive Command where
  | new (uuid : String) (args : Entries)
  | edit (args : Entries)
  | addFolder (args : Entries)
  | removeFolder (args : Entries)
  | bindChat (args : Entries)
  | unbindChat (args : Entries)
  | rename (args : Entries)

/-- A command, run on the store. -/
def run : Command → WorkspaceStore Struct → Reply × WorkspaceStore Struct
  | .new uuid args => New.execute env uuid args
  | .edit args => Edit.execute env args
  | .addFolder args => AddFolder.execute env args
  | .removeFolder args => RemoveFolder.execute env args
  | .bindChat args => BindChat.execute env args
  | .unbindChat args => UnbindChat.execute env args
  | .rename args => Rename.execute env args

end WorkspaceCommands
end Esr
