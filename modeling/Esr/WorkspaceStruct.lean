import Esr.Yaml
import Esr.WorkspaceUris

/-! # The workspace struct and its file

`Esr.Resource.Workspace.Struct` with all its fields, and `JsonWriter`, which
writes it as `workspace.json`.  Nothing checks the type of most fields, so they
are terms here; `Struct.row` is what the URI facade sees of a struct, with the
struct itself beside it.
-/
namespace Esr
namespace WorkspaceStruct
open Yaml WorkspaceUris

/-- An entry of `folders`; `name` is `nil` where there is none. -/
structure Folder where
  path : Value
  name : Value

/-- An entry of `chats`; `kind` may be missing. -/
structure ChatEntry where
  chatId : Value
  appId : Value
  kind : Option Value

/-- `Esr.Resource.Workspace.Struct`. -/
structure Struct where
  id : String
  name : String
  owner : Value
  folders : List Folder
  agent : Value
  settings : Value
  env : Value
  chats : List ChatEntry
  transient : Value
  location : Option Location

/-- The text, where the term is one. -/
def text? : Value → Option String
  | .str s => some s
  | _ => none

/-- A chat as the facade looks at it. -/
def ChatEntry.row (c : ChatEntry) : Chat := ⟨text? c.chatId, text? c.appId⟩

/-- The row of a struct in the URI store. -/
def Struct.row (s : Struct) : Workspace Struct where
  id := s.id
  name := s.name
  folders := s.folders.map fun f => (text? f.path).getD ""
  chats := s.chats.map ChatEntry.row
  location := s.location
  rest := s

namespace JsonWriter

/-- What the file system and the JSON encoder answer to the steps of `write/2`. -/
structure Disk where
  mkdirP : String → Except String Unit
  encode : Entries → Except String String
  write : String → String → Except String Unit
  rename : String → String → Except String Unit

/-- `serialise_folder/1`. -/
def serialiseFolder (f : Folder) : Value :=
  match f.name with
  | .str name => .map [(.str "name", .str name), (.str "path", f.path)]
  | _ => .map [(.str "path", f.path)]

/-- `serialise_chat/1`, which has a clause for a chat with a kind only. -/
def serialiseChat (c : ChatEntry) : Except String Value :=
  match c.kind with
  | some kind =>
      .ok (.map [(.str "app_id", c.appId), (.str "chat_id", c.chatId), (.str "kind", kind)])
  | none => .error "FunctionClauseError"

/-- The document that is encoded, its keys in the runtime's order. -/
def document (s : Struct) : Except String Entries := do
  let chats ← s.chats.mapM serialiseChat
  return [(.str "agent", s.agent), (.str "chats", .list chats), (.str "env", s.env),
    (.str "folders", .list (s.folders.map serialiseFolder)), (.str "id", .str s.id),
    (.str "name", .str s.name), (.str "owner", s.owner), (.str "schema_version", .int 1),
    (.str "settings", s.settings), (.str "transient", s.transient)]

/-- `write/2` behind its check of the folders.  An exception is an error whose text
names it. -/
def write (disk : Disk) (path : String) (ws : Workspace Struct) : Except String Unit := do
  disk.mkdirP path
  let json ← (document ws.rest).bind disk.encode
  disk.write (path ++ ".tmp") json
  disk.rename (path ++ ".tmp") path

end JsonWriter

/-- `workspace_put/1`, with the file it writes. -/
def workspacePut (dispatchToPlugin : String → Option String) (disk : JsonWriter.Disk)
    (t : WorkspaceStore Struct) (s : Struct) : Except String Unit × WorkspaceStore Struct :=
  WorkspaceUris.workspacePut dispatchToPlugin (JsonWriter.write disk) t s.row

end WorkspaceStruct
end Esr
