import Esr.UserLoad

/-! # Adding a user

`user_add` writes `users.yaml` and a `user.json`, loads the users, makes the directory of
a default workspace, puts the workspace and sets it as the user's default.  A step that
returns an error is followed by `rollback_partial_add/6`, which writes `users.yaml` as it
was read, removes the two directories, loads the users and deletes the workspace.

`Faults` is how the file system answers in one run of the command.
-/
namespace Esr
namespace UserAdd
open Yaml UriStore BootFiles UserUris
open WorkspaceUris (WorkspaceStore)
open WorkspaceStruct (JsonWriter.Disk)

/-- The directories below the workspaces' directory, each with its files. -/
abbrev Dirs := Ets String (Ets String String)

structure World where
  disk : UserLoad.Disk
  users : UserStore
  workspaces : WorkspaceStore WorkspaceStruct.Struct
  dirs : Dirs

/-- What the command takes from the runtime, with the two ids it draws. -/
structure Runtime where
  readers : Readers
  order : UserLoad.MapOrder
  dispatchToPlugin : String → Option String
  encodeJson : Entries → ByteArray
  workspacesDir : String
  utcNow : String
  uuid : String
  wsUuid : String

/-- How `Writer.write/2` fails; `half` is what a write that breaks off leaves. -/
inductive YamlFault where
  | mkdir (reason : String)
  | openFile (reason : String)
  | write (half : ByteArray) (reason : String)

/-- How `write_user_json/3` fails: before the user's directory is made, or after. -/
inductive JsonFault where
  | mkdir (reason : String)
  | file (reason : String)

/-- The answers of the file system.  `position` is where the listing of `users/` has the
new directory. -/
structure Faults where
  usersYaml : Option YamlFault
  userJson : Option JsonFault
  position : Nat
  workspaceDir : Option String
  workspaceJson : JsonWriter.Disk
  revertYaml : Option YamlFault
  removeUserDir : Option String
  removeWorkspaceDir : Option String

inductive StepReply where
  | ok
  | error (reason : String)
  | raised

inductive Reply where
  | invalidArgs
  | alreadyExists
  | writeFailed (reason : String)
  | raised
  | ok (id defaultWorkspace defaultWorkspaceId : String)

/-- A part of the command that changes the state. -/
abbrev Step := World → StepReply × World

/-- `@username_regex`. -/
def usernameRegex (name : String) : Bool :=
  match chompNewline name.toList with
  | c :: cs => c.isAlphanum && cs.all fun c => c.isAlphanum || c = '_' || c = '-'
  | [] => false

/-- `"#{name}-default"`. -/
def wsName (name : String) : String := name ++ "-default"

section Run
variable (rt : Runtime)

/-- `read_or_empty/1`. -/
def readOrEmpty (disk : UserLoad.Disk) : Entries :=
  match disk.usersYaml with
  | none => [(.str "users", .map [])]
  | some file =>
      match file.bind rt.readers.yaml with
      | .ok (.map m) => m
      | _ => [(.str "users", .map [])]

/-- `updated_doc`. -/
def updatedDoc (name : String) (users doc : Entries) : Entries :=
  put "users" (.map (put name (.map [(.str "feishu_ids", .list [])]) users)) doc

/-- `Esr.Yaml.Writer.write/2` on `users.yaml`. -/
def writeYaml (fault : Option YamlFault) (doc : Entries) : Step := fun w =>
  match fault with
  | some (.mkdir reason) => (.error reason, w)
  | fault =>
      match Writer.encode (.map doc) with
      | .error .raised => (.raised, w)
      | .error (.unsupportedType _) => (.error "unsupported_type", w)
      | .ok text =>
          match fault with
          | some (.write half reason) =>
              (.error reason, { w with disk := { w.disk with usersYaml := some (.ok half) } })
          | some (.openFile reason) | some (.mkdir reason) => (.error reason, w)
          | none => (.ok, { w with disk := { w.disk with usersYaml := some (.ok text.toUTF8) } })

/-- The listing of `users/` once the user's directory is made. -/
def makeUserDir (position : Nat) : Dir → Dir
  | .missing => .listing [rt.uuid]
  | .listing entries =>
      if rt.uuid ∈ entries then .listing entries
      else .listing (entries.take position ++ rt.uuid :: entries.drop position)
  | .notListable => .notListable

/-- The listing of `users/` once the user's directory is removed. -/
def removeUserDir : Dir → Dir
  | .missing => .missing
  | .listing entries => .listing (entries.filter fun entry => entry ≠ rt.uuid)
  | .notListable => .notListable

/-- The document of `write_user_json/3`. -/
def userJson (name : String) : Entries :=
  [(.str "created_at", .str rt.utcNow), (.str "default_workspace_id", .str rt.wsUuid),
   (.str "display_name", .str ""), (.str "feishu_ids", .list []), (.str "id", .str rt.uuid),
   (.str "schema_version", .int 1), (.str "username", .str name)]

/-- The disk with the user's directory and what its `user.json` is read as. -/
def withUserDir (position : Nat) (file : Except ReadError ByteArray) (disk : UserLoad.Disk) :
    UserLoad.Disk :=
  { disk with
    users := makeUserDir rt position disk.users
    userJson := fun entry => if entry = rt.uuid then file else disk.userJson entry }

/-- `write_user_json/3`. -/
def writeUserJson (faults : Faults) (name : String) : Step := fun w =>
  match faults.userJson with
  | some (.mkdir reason) => (.error reason, w)
  | some (.file reason) =>
      (.error reason, { w with disk := withUserDir rt faults.position (.error .enoent) w.disk })
  | none =>
      let file := rt.encodeJson (userJson rt name)
      (.ok, { w with disk := withUserDir rt faults.position (.ok file) w.disk })

/-- `sync_reload_user_registry/1`, which rescues. -/
def syncReloadUserRegistry : Step := fun w =>
  let loaded := UserLoad.load rt.readers rt.order w.disk w.users
  let reply : StepReply :=
    match loaded.1 with
    | .ok => .ok
    | .error _ => .error "load failed"
    | .raised => .error "load raised"
  (reply, { w with users := loaded.2 })

/-- The struct of `create_user_default_workspace/3`. -/
def defaultWorkspace (name : String) : WorkspaceStruct.Struct :=
  let dir := rt.workspacesDir ++ "/" ++ wsName name
  { id := rt.wsUuid
    name := wsName name
    owner := .str name
    folders := [⟨.str dir, .str (Path.basename dir)⟩]
    agent := .str "cc"
    settings := .map []
    env := .map []
    chats := []
    transient := .bool false
    location := some (.esrBound dir) }

/-- The files of a directory after `JsonWriter.write/2`. -/
def afterWrite (answers : JsonWriter.Disk) (path : String) (s : WorkspaceStruct.Struct)
    (files : Ets String String) : Ets String String :=
  match answers.mkdirP path, (WorkspaceStruct.JsonWriter.document s).bind answers.encode with
  | .ok (), .ok json =>
      match answers.write (path ++ ".tmp") json with
      | .error _ => files
      | .ok () =>
          match answers.rename (path ++ ".tmp") path with
          | .error _ => files.insert "workspace.json.tmp" json
          | .ok () => (files.delete "workspace.json.tmp").insert "workspace.json" json
  | _, _ => files

/-- `create_user_default_workspace/3`. -/
def createUserDefaultWorkspace (faults : Faults) (name : String) : Step := fun w =>
  match faults.workspaceDir with
  | some reason => (.error reason, w)
  | none =>
      let s := defaultWorkspace rt name
      let files := (w.dirs.lookup (wsName name)).getD Ets.empty
      let path := rt.workspacesDir ++ "/" ++ wsName name ++ "/workspace.json"
      let written :=
        WorkspaceStruct.workspacePut rt.dispatchToPlugin faults.workspaceJson w.workspaces s
      let reply : StepReply :=
        match written.1 with
        | .ok () => .ok
        | .error reason => .error reason
      (reply, { w with
        workspaces := written.2
        dirs := w.dirs.insert (wsName name) (afterWrite faults.workspaceJson path s files) })

/-- `set_default_fn`, as `execute/1` has it. -/
def setDefault (name : String) : Step := fun w =>
  match setDefaultWorkspaceForUserName rt.dispatchToPlugin w.users name rt.wsUuid with
  | some users => (.ok, { w with users := users })
  | none => (.error "not_found", w)

/-- The `with`: the steps up to the first that does not return `:ok`. -/
def runSteps : List Step → Step
  | [], w => (.ok, w)
  | step :: rest, w =>
      match step w with
      | (.ok, w') => runSteps rest w'
      | failed => failed

/-- The steps of `execute/2`. -/
def steps (faults : Faults) (name : String) (users doc : Entries) : List Step :=
  [writeYaml faults.usersYaml (updatedDoc name users doc),
   writeUserJson rt faults name,
   syncReloadUserRegistry rt,
   createUserDefaultWorkspace rt faults name,
   setDefault rt name]

/-- `rollback_partial_add/6`.  What a step returns or raises is logged. -/
def rollbackPartialAdd (faults : Faults) (name : String) (doc : Entries) (w : World) : World :=
  let w := (writeYaml faults.revertYaml doc w).2
  let w :=
    match faults.removeUserDir with
    | some _ => w
    | none => { w with disk := { w.disk with users := removeUserDir rt w.disk.users } }
  let w := (syncReloadUserRegistry rt w).2
  let w :=
    match faults.removeWorkspaceDir with
    | some _ => w
    | none => { w with dirs := w.dirs.delete (wsName name) }
  { w with workspaces := WorkspaceUris.workspaceDeleteById w.workspaces rt.wsUuid }

/-- `execute/1`, without the grant to the first user. -/
def execute (faults : Faults) (name : String) (w : World) : Reply × World :=
  if ¬usernameRegex name then (.invalidArgs, w)
  else
    let doc := readOrEmpty rt w.disk
    match getOr "users" (.map []) doc with
    | .map users =>
        if users.any fun e => e.1.isStr name then (.alreadyExists, w)
        else
          match runSteps (steps rt faults name users doc) w with
          | (.ok, w') => (.ok rt.uuid (wsName name) rt.wsUuid, w')
          | (.error reason, w') => (.writeFailed reason, rollbackPartialAdd rt faults name doc w')
          | (.raised, w') => (.raised, w')
    -- `Map.has_key?/2` on what is no map
    | _ => (.raised, w)

/-! ## What is claimed -/

/-- The users in `users.yaml`, if it can be read. -/
def usersIn (disk : UserLoad.Disk) : Option Entries :=
  match disk.usersYaml with
  | none => some []
  | some file =>
      match file.bind rt.readers.yaml with
      | .ok (.map m) =>
          match getOr "users" (.map []) m with
          | .map users => some users
          | _ => none
      | _ => none

/-- What the command must leave as it was. -/
structure Unchanged (w w' : World) : Prop where
  usersYaml : usersIn rt w'.disk = usersIn rt w.disk
  usersDir : UserLoad.entriesOf w'.disk.users = UserLoad.entriesOf w.disk.users
  userJson : ∀ entry ∈ UserLoad.entriesOf w.disk.users,
    w'.disk.userJson entry = w.disk.userJson entry
  users : SameRows w'.users w.users
  workspaces : SameRows w'.workspaces w.workspaces
  dirs : ∀ dir, w'.dirs.lookup dir = w.dirs.lookup dir

/-- The URIs of the new user. -/
def userUris (name : String) : List String := [canonicalUri rt.uuid, byNameUri name]

/-- The URIs of the new user's workspace. -/
def workspaceUris (name : String) : List String :=
  [WorkspaceUris.canonicalUri rt.wsUuid, WorkspaceUris.byNameUri (wsName name)]

/-- The user is there with the workspace, and every other one is as it was. -/
structure Added (name : String) (w w' : World) : Prop where
  usersYaml : ∀ other, other ≠ name →
    (usersIn rt w'.disk).map (get other) = (usersIn rt w.disk).map (get other)
  userJson : ∀ entry ∈ UserLoad.entriesOf w.disk.users,
    entry ∈ UserLoad.entriesOf w'.disk.users ∧
      w'.disk.userJson entry = w.disk.userJson entry
  users : ∀ uri ∉ userUris rt name, w'.users.lookup uri = w.users.lookup uri
  workspaces : ∀ uri ∉ workspaceUris rt name,
    w'.workspaces.lookup uri = w.workspaces.lookup uri
  dirs : ∀ dir, dir ≠ wsName name → w'.dirs.lookup dir = w.dirs.lookup dir
  byName : uuidForUserName rt.dispatchToPlugin w'.users name = some rt.uuid
  default : (userByName rt.dispatchToPlugin w'.users name).map User.defaultWorkspaceId =
    some (.str rt.wsUuid)
  workspace : WorkspaceUris.uuidForWorkspaceName rt.dispatchToPlugin w'.workspaces
    (wsName name) = some rt.wsUuid

/-- The rollback's own writes go through. -/
structure Faults.Undoable (faults : Faults) : Prop where
  revertYaml : faults.revertYaml = none
  removeUserDir : faults.removeUserDir = none
  removeWorkspaceDir : faults.removeWorkspaceDir = none

/-- The command is all or nothing from this state, whatever fails. -/
def AllOrNothing (name : String) (w : World) : Prop :=
  ∀ faults : Faults, faults.Undoable →
    match execute rt faults name w with
    | (.ok id defaultWorkspace defaultWorkspaceId, w') =>
        id = rt.uuid ∧ defaultWorkspace = wsName name ∧ defaultWorkspaceId = rt.wsUuid ∧
          Added rt name w w'
    | (_, w') => Unchanged rt w w'

/-! ## When it is so -/

/-- The command gets as far as its first step; `users` are the users it has read. -/
structure Starts (name : String) (w : World) (users : Entries) : Prop where
  valid : usernameRegex name = true
  isMap : getOr "users" (.map []) (readOrEmpty rt w.disk) = .map users
  new : ∀ e ∈ users, e.1.isStr name = false

/-- The document is read as it was written. -/
def ReadBack (doc : Entries) : Prop :=
  ∃ text, Writer.encode (.map doc) = .ok text ∧ rt.readers.yaml text.toUTF8 = .ok (.map doc)

/-- What a load makes of these users and the files below `users/`. -/
def contentOf (disk : UserLoad.Disk) (users : Entries) : Option UserLoad.Content :=
  (UserLoad.snapshotOf Dict.empty users).map fun snapshot =>
    ⟨snapshot, UserLoad.readUuidsFromDir rt.readers disk,
      UserLoad.readDefaultWorkspacesFromDir rt.readers disk⟩

/-- The files can be read back and loaded, and no row has the name. -/
structure Ready (name : String) (w : World) (users : Entries) : Prop where
  readBack : ReadBack rt (readOrEmpty rt w.disk)
  readBackNew : ReadBack rt (updatedDoc name users (readOrEmpty rt w.disk))
  names : ∀ e ∈ users, isText e.1 = true
  listable : w.disk.users ≠ .notListable
  ids : ∀ c, contentOf rt w.disk users = some c →
    ∀ uuid user, c.HasId uuid user → UserLoad.idsWellFormed user = true
  apart : ∀ c, contentOf rt w.disk users = some c → Apart (c.registrations rt.order)
  nameFree : w.users.lookup (byNameUri name) = none

/-- The two ids that are drawn are in no use. -/
structure Fresh (w : World) : Prop where
  userDir : rt.uuid ∉ UserLoad.entriesOf w.disk.users
  userId : ∀ n, (UserLoad.readUuidsFromDir rt.readers w.disk).get n ≠ some rt.uuid
  slash : '/' ∉ rt.uuid.toList
  userRow : w.users.lookup (canonicalUri rt.uuid) = none
  userAlias : ∀ uri, w.users.lookup uri ≠ some (.aliasTo (canonicalUri rt.uuid))
  wsClean : WorkspaceUris.CleanId rt.wsUuid
  workspaceRow : w.workspaces.lookup (WorkspaceUris.canonicalUri rt.wsUuid) = none
  workspaceAlias : ∀ uri,
    w.workspaces.lookup uri ≠ some (.aliasTo (WorkspaceUris.canonicalUri rt.wsUuid))

/-- `users.yaml` can be read, if it is there. -/
def Legible (w : World) : Prop := usersIn rt w.disk ≠ none

/-- The users' rows are those that a load of the files leaves, with `users.yaml` as the
command has read it. -/
def Synced (w : World) : Prop :=
  ∀ text, Writer.encode (.map (readOrEmpty rt w.disk)) = .ok text →
    SameRows (UserLoad.load rt.readers rt.order
      { w.disk with usersYaml := some (.ok text.toUTF8) } w.users).2 w.users

/-- No `user.json` gives the name an id, and no directory and no workspace has the default
workspace's name. -/
structure Vacant (name : String) (w : World) : Prop where
  userJson : (UserLoad.readUuidsFromDir rt.readers w.disk).get name = none
  dir : w.dirs.lookup (wsName name) = none
  workspace : w.workspaces.lookup (WorkspaceUris.byNameUri (wsName name)) = none

end Run

end UserAdd
end Esr
