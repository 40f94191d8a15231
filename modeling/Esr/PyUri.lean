import Esr.IntegerTexts
import Esr.Queries
import Esr.UriTexts

/-! # `esr://` URIs in Python

`esr.uri`, the counterpart of `Esr.Uri` on the other side of the wire: its parser, its
builders, and its reader of resource URIs.  Every function raises `ValueError` only;
the error here says which of its `raise` statements was reached.

A `str` is a text without lone surrogates.
-/
namespace Esr
namespace PyUri

/-- `_LEGACY_TYPES`. -/
def legacyTypes : List String := ["adapter", "actor", "command"]

/-- `_PATH_STYLE_TYPES`. -/
def pathStyleTypes : List String :=
  ["adapters", "workspaces", "chats", "users", "sessions", "resources"]

/-- `_VALID_TYPES`. -/
def validTypes : List String := legacyTypes ++ pathStyleTypes

/-- `_ALLOWED_EXTS`. -/
def allowedExts : List (String × List String) :=
  [("image", ["png", "jpg", "jpeg", "gif", "webp", "heic"]),
    ("file", ["bin", "pdf", "doc", "docx", "xls", "xlsx", "zip", "txt", "md", "csv"]),
    ("audio", ["opus", "mp3", "wav", "m4a", "aac"])]

/-- `_MEDIA_TYPES`. -/
def mediaTypes : List String := allowedExts.map Prod.fst

/-- `EsrURI`. -/
structure EsrURI where
  org : Option String
  host : String
  port : Option Int
  type : String
  id : String
  segments : List String
  params : Ets String String

/-- The `ValueError`s of the module, one for each text. -/
inductive ValueError where
  | scheme
  | missingPath
  | emptyOrg
  | emptyHost
  | invalidPort (portStr : String)
  | badPath
  | unknownType (type : String)
  | missingId
  | notTwoSegments (type : String)
  | emptyId
  | tooFewSegments (segments : List String)
  | notPathStyle (first : String)
  | emptySegment (i : Nat)
  | intTooLong
  | notResources
  | badSegmentCount
  | unknownMediaType (mediaType : String)
  | missingExt
  | badSha256 (sha256 : String)
  | extNotAllowed (ext mediaType : String)
deriving DecidableEq

/-! ## Parsing -/

/-- `s.partition(sep)`, less the separator. -/
def partition (sep : Char) (s : String) : String × String :=
  ((cutFirst sep s).1, (cutFirst sep s).2.getD "")

/-- The organisation in front of the first `@`, and what is left. -/
def parseOrg (authority : String) : Except ValueError (Option String × String) :=
  if '@' ∈ authority.toList then
    let (org, rest) := partition '@' authority
    if org = "" then .error .emptyOrg else .ok (some org, rest)
  else .ok (none, authority)

def parsePort (portStr : String) : Except ValueError (Option Int) :=
  if portStr = "" then .ok none
  else
    match pyInt portStr with
    | some port => .ok (some port)
    | none => .error (.invalidPort portStr)

/-- The type, the id and the segments of a path. -/
def parsePath (rawPath : String) : Except ValueError (String × String × List String) :=
  let rawSegments := split '/' rawPath
  let hasTrailingEmpty := rawSegments.getLast? = some "" ∧ 1 < rawSegments.length
  let parts := rawSegments.filter fun p => p ≠ ""
  if parts.length < 2 ∧ ¬hasTrailingEmpty then .error .badPath
  else
    match parts with
    | [] => .error .badPath
    | type :: more =>
        if type ∉ validTypes then .error (.unknownType type)
        else if type ∈ legacyTypes then
          match more with
          | [] => if hasTrailingEmpty then .error .missingId else .error (.notTwoSegments type)
          | [id] => if id = "" then .error .missingId else .ok (type, id, parts)
          | _ => .error (.notTwoSegments type)
        else
          match more.getLast? with
          | none => .error .missingId
          | some id => if id = "" then .error .missingId else .ok (type, id, parts)

def parse (s : String) : Except ValueError EsrURI :=
  match stripPrefix "esr://" s with
  | none => .error .scheme
  | some rest => do
      let (pathAndQuery, query) := partition '?' rest
      let (authority, rawPath) := partition '/' pathAndQuery
      if rawPath = "" ∧ '/' ∉ pathAndQuery.toList then
        .error .missingPath
      else
        let (org, hostPort) ← parseOrg authority
        let (host, portStr) := partition ':' hostPort
        if host = "" then
          .error .emptyHost
        else
          let port ← parsePort portStr
          let (type, id, segments) ← parsePath rawPath
          return { org, host, port, type, id, segments, params := dictOf (parseQsl query.toList) }

/-! ## Building -/

/-- The value of a parameter: what `str` makes of it, or bytes, which are quoted as
they are. -/
inductive ParamValue where
  | text (s : String)
  | bytes (b : List UInt8)
deriving DecidableEq

/-- The bytes that are quoted. -/
def ParamValue.toBytes : ParamValue → List UInt8
  | .text s => bytesOf s.toList
  | .bytes b => b

/-- A dict of parameters, with the proof that no name occurs twice. -/
structure Params where
  items : List (String × ParamValue)
  nodup : (items.map Prod.fst).Nodup

/-- `None`, or the empty dict. -/
def Params.empty : Params := ⟨[], List.nodup_nil⟩

/-- The names and the values as `urlencode` quotes them. -/
def Params.rows (ps : Params) : List (List UInt8 × List UInt8) :=
  ps.items.map fun p => (bytesOf p.1.toList, p.2.toBytes)

/-- `f"{port}"`. -/
def portText (port : Int) : Except ValueError String :=
  if digitCount port.repr ≤ maxStrDigits then .ok port.repr else .error .intTooLong

/-- `f"{org}@{authority}"`, `if org`. -/
def withOrg (org : Option String) (authority : String) : String :=
  match org with
  | none => authority
  | some o => if o = "" then authority else o ++ "@" ++ authority

/-- The authority that both builders write. -/
def authorityText (host : String) (port : Option Int) (org : Option String) :
    Except ValueError String :=
  match port with
  | none => .ok (withOrg org host)
  | some p =>
      match portText p with
      | .error e => .error e
      | .ok text => .ok (withOrg org (host ++ ":" ++ text))

/-- `?` and the encoded parameters, if there are any. -/
def queryText (params : Params) : String :=
  if params.items = [] then "" else "?" ++ String.ofList (urlencode params.rows)

def build (type id host : String) (port : Option Int) (org : Option String) (params : Params) :
    Except ValueError String :=
  if type ∉ validTypes then .error (.unknownType type)
  else if host = "" then .error .emptyHost
  else if id = "" then .error .emptyId
  else do
    let authority ← authorityText host port org
    return "esr://" ++ authority ++ "/" ++ type ++ "/" ++ id ++ queryText params

/-- `env or org`. -/
def orgArg (org env : Option String) : Option String :=
  match env with
  | none => org
  | some e => if e = "" then org else some e

def buildPath (segments : List String) (host : String) (port : Option Int)
    (org env : Option String) (params : Params) : Except ValueError String :=
  match segments with
  | first :: _ :: _ =>
      if first ∉ pathStyleTypes then .error (.notPathStyle first)
      else if host = "" then .error .emptyHost
      else
        match segments.findIdx? fun seg => seg = "" with
        | some i => .error (.emptySegment i)
        | none => do
            let authority ← authorityText host port (orgArg org env)
            return "esr://" ++ authority ++ "/" ++ "/".intercalate segments ++ queryText params
  | _ => .error (.tooFewSegments segments)

/-! ## Resources -/

/-- `s.lower()`.  Beyond ASCII only the Kelvin sign has a lower case in ASCII, and no
allowed extension has its letter. -/
def lower (s : String) : String := lowerAscii s

/-- `_SHA256_RE.match(s)`. -/
def shaMatches (s : String) : Bool := sha256Pattern s

/-- `ParsedResource`. -/
structure ParsedResource where
  mediaType : String
  sha256 : String
  ext : String
  env : Option String
  host : String
deriving DecidableEq

/-- `s.rsplit(sep, 1)`, of a text with the separator. -/
def rsplit1 (sep : Char) (s : String) : String × String :=
  match cutAt sep s.toList.reverse with
  | none => ("", s)
  | some (ext, sha) => (String.ofList sha.reverse, String.ofList ext.reverse)

def parseResource (uri : String) : Except ValueError ParsedResource := do
  let parsed ← parse uri
  if parsed.type ≠ "resources" then
    .error .notResources
  else
    match parsed.segments with
    | [_, mediaType, lastSeg] =>
        if mediaType ∉ mediaTypes then .error (.unknownMediaType mediaType)
        else if '.' ∉ lastSeg.toList then .error .missingExt
        else
          let (sha, rawExt) := rsplit1 '.' lastSeg
          let ext := lower rawExt
          if !shaMatches sha then .error (.badSha256 sha)
          else if ext ∉ (allowedExts.lookup mediaType).getD [] then
            .error (.extNotAllowed ext mediaType)
          else .ok { mediaType, sha256 := sha, ext, env := parsed.org, host := parsed.host }
    | _ => .error .badSegmentCount

def buildResource (mediaType sha256 ext : String) (env : Option String) (host : String) :
    Except ValueError String :=
  let ext := lower ext
  if !shaMatches sha256 then .error (.badSha256 sha256)
  else
    match allowedExts.lookup mediaType with
    | none => .error (.unknownMediaType mediaType)
    | some list =>
        if ext ∉ list then .error (.extNotAllowed ext mediaType)
        else buildPath ["resources", mediaType, sha256 ++ "." ++ ext] host none none env
          Params.empty

end PyUri
end Esr
