import Esr.IntegerTexts
import Esr.Queries
import Esr.UriTexts

/-! # `esr://` URIs in Elixir

`Esr.Uri`: the parser of `esr://[org@]host[:port]/<segment>(/<segment>)*[?params]`, the
three builders, and the reader of resource URIs.  A builder's result is `ok` with the
text where the function returns, and an error where it raises or no clause matches.

An atom stands here as its name.  The map of parameters has the bytes that
`URI.decode_query/1` leaves in it, which need not be a text.
-/
namespace Esr
namespace Uri

/-- `@legacy_types`. -/
def legacyTypes : List String := ["actor", "adapter", "handler", "command", "interface"]

/-- `@path_style_types`. -/
def pathStyleTypes : List String :=
  ["adapters", "workspaces", "chats", "users", "sessions", "resources", "ptys"]

/-- `@valid_types`. -/
def validTypes : List String := legacyTypes ++ pathStyleTypes

/-- `@allowed_exts`. -/
def allowedExts : List (String × List String) :=
  [("image", ["png", "jpg", "jpeg", "gif", "webp", "heic"]),
    ("file", ["bin", "pdf", "doc", "docx", "xls", "xlsx", "zip", "txt", "md", "csv"]),
    ("audio", ["opus", "mp3", "wav", "m4a", "aac"])]

/-- `%Esr.Uri{}`. -/
structure Parsed where
  org : Option String
  host : String
  port : Option Int
  type : String
  id : String
  segments : List String
  params : Ets (List UInt8) (List UInt8)

/-- The reasons of `parse/1`. -/
inductive Error where
  | badScheme
  | emptyHost
  | badPort
  | badPath
  | unknownType
  | noPath
deriving DecidableEq

/-! ## Parsing -/

def splitAuthority (rest : String) : Except Error (String × String) :=
  match splitParts2 '/' rest with
  | [authority, pathAndQuery] => .ok (authority, "/" ++ pathAndQuery)
  | _ => .error .noPath

def parseAuthority (authority : String) : Except Error (Option String × String × Option Int) :=
  if authority = "" then .error .emptyHost
  else
    let (org, hostPort) := cutOrg authority
    match splitParts2 ':' hostPort with
    | [host, portStr] =>
        match integerParse portStr with
        | some (port, rest) => if rest = "" then .ok (org, host, some port) else .error .badPort
        | none => .error .badPort
    | _ => if hostPort = "" then .error .emptyHost else .ok (org, hostPort, none)

def splitQuery (path : String) : String × Ets (List UInt8) (List UInt8) :=
  match splitParts2 '?' path with
  | [p, q] => (p, decodeQuery q.toList)
  | _ => (path, Ets.empty)

def parsePathAndQuery (pathAndQuery : String) :
    Except Error (String × String × List String × Ets (List UInt8) (List UInt8)) :=
  let (path, params) := splitQuery pathAndQuery
  match parts path with
  | [] => .error .badPath
  | [_] => .error .badPath
  | type :: next :: more =>
      if more = [] ∧ type ∈ legacyTypes then .ok (type, next, [type, next], params)
      else if type ∈ validTypes then
        .ok (type, (next :: more).getLast (List.cons_ne_nil _ _), type :: next :: more, params)
      else .error .unknownType

def parse (s : String) : Except Error Parsed :=
  match stripPrefix "esr://" s with
  | none => .error .badScheme
  | some rest => do
      let (authority, pathAndQuery) ← splitAuthority rest
      let (org, host, port) ← parseAuthority authority
      let (type, id, segments, params) ← parsePathAndQuery pathAndQuery
      return { org, host, port, type, id, segments, params }

/-! ## Building -/

/-- What a builder raises. -/
inductive BuildError where
  | functionClause
  | notPathStyle (first : String)
  | badSha256 (sha256 : String)
  | extNotAllowed (ext mediaType : String)
deriving DecidableEq

/-- The options `:org` and `:env`, of which the second is an alias. -/
structure Opts where
  org : Option String := none
  env : Option String := none

def authority (host : String) (opts : Opts) : String :=
  match opts.org.or opts.env with
  | none => host
  | some o => if o = "" then host else o ++ "@" ++ host

def build (type id host : String) (opts : Opts) : Except BuildError String :=
  if type ∈ validTypes then .ok ("esr://" ++ authority host opts ++ "/" ++ type ++ "/" ++ id)
  else .error .functionClause

def buildPath (segments : List String) (host : String) (opts : Opts) : Except BuildError String :=
  match segments with
  | first :: _ :: _ =>
      if first ∈ pathStyleTypes then
        .ok ("esr://" ++ authority host opts ++ "/" ++ "/".intercalate segments)
      else .error (.notPathStyle first)
  | _ => .error .functionClause

/-! ## Resources -/

/-- `String.downcase/1`.  Beyond ASCII only the Kelvin sign has a lower case in ASCII,
and no allowed extension has its letter. -/
def downcase (s : String) : String := lowerAscii s

def validateSha256 (s : String) : Bool := (bytesOf s.toList).length = 64 && sha256Pattern s

def validateExt (mediaType ext : String) : Bool :=
  match allowedExts.lookup mediaType with
  | none => false
  | some list => list.contains (downcase ext)

/-- What `parse_resource/1` returns. -/
structure Resource where
  mediaType : String
  sha256 : String
  ext : String
  env : Option String
  host : String
deriving DecidableEq

/-- The reasons of `parse_resource/1`. -/
inductive ResourceError where
  | uri (e : Error)
  | invalidUri
deriving DecidableEq

/-- `parse_resource/1`, of a text.  A media type that is no atom yet raises in
`to_existing_atom` and is rescued, so it ends like one without extensions. -/
def parseResource (uri : String) : Except ResourceError Resource :=
  match parse uri with
  | .error e => .error (.uri e)
  | .ok parsed =>
      if parsed.type = "resources" then
        match parsed.segments with
        | [_, mediaType, lastSeg] =>
            match splitParts2 '.' lastSeg with
            | [sha, ext] =>
                if !validateSha256 sha then .error .invalidUri
                else if !validateExt mediaType (downcase ext) then .error .invalidUri
                else .ok { mediaType, sha256 := sha, ext := downcase ext, env := parsed.org,
                           host := parsed.host }
            | _ => .error .invalidUri
        | _ => .error .invalidUri
      else .error .invalidUri

/-- The options of `build_resource/3`. -/
structure ResourceOpts where
  ext : String := "bin"
  env : Option String := none
  host : String := "localhost"

def buildResource (mediaType sha256 : String) (opts : ResourceOpts) : Except BuildError String :=
  let ext := downcase opts.ext
  if !validateSha256 sha256 then .error (.badSha256 sha256)
  else if !validateExt mediaType ext then .error (.extNotAllowed ext mediaType)
  else buildPath ["resources", mediaType, sha256 ++ "." ++ ext] opts.host { env := opts.env }

end Uri
end Esr
