import Esr.PathExpand
import Esr.UriRoundTrip

/-! # The media stores of the two sides

The adapter stores a medium with Python's `media.store`, the runtime with
`Media.store/3`, and each resolves what the other has stored.  Both take the extension
of the source file, check it, hash the content and name the file after it.

They cut the path of the source at different places: `pathlib` drops a slash or `/.` at
the end, which the runtime passes to the system, and there it makes a file be none.
`accepted_iff` says that this is all.
-/
namespace Esr
namespace MediaStore

abbrev Bytes := List UInt8

/-! ## Paths -/

/-- A path, cut at its slashes. -/
structure FilePath where
  root : Bool
  parts : List String
  deriving DecidableEq

/-- `Path.join/1`, where only the first part may begin with a slash. -/
def join : List String → FilePath
  | [] => ⟨false, []⟩
  | first :: rest => ⟨Path.isAbsolute first, (first :: rest).flatMap parts⟩

/-- The file that a path is of: a `.` is the directory it stands in. -/
def FilePath.file (p : FilePath) : FilePath := ⟨p.root, p.parts.filter fun seg => seg ≠ "."⟩

/-- `pathlib.Path(*segments)`, which drops every `.`. -/
def purePath (segments : List String) : FilePath := (join segments).file

/-- What is behind the last slash. -/
def lastSegment (text : String) : String := (split '/' text).getLastD ""

/-- The system takes the path for one of a directory, or refuses it if it is empty. -/
def namesDir (text : String) : Bool := lastSegment text = "" || lastSegment text = "."

/-! ## What the stores find -/

inductive Node where
  | dir
  | file (content : Bytes)

/-- The source files and the hash, which has no collision among them. -/
structure World where
  look : FilePath → Option Node
  sha256 : Bytes → String
  hexLength : ∀ b, (sha256 b).toList.length = 64
  hexChars : ∀ b, ∀ c ∈ (sha256 b).toList, hexLower c = true
  collisionFree : ∀ p q b c, look p = some (.file b) → look q = some (.file c) →
    sha256 b = sha256 c → b = c

/-- What is there for the system.  A slash at the end of a file makes it `enotdir`. -/
def World.stat (w : World) (text : String) : Option Node :=
  if text = "" then none
  else
    match w.look (purePath [text]) with
    | some (.file content) => if namesDir text then none else some (.file content)
    | node => node

abbrev Port := Fin 65536

/-- A host or `host:port`. -/
structure Address where
  host : String
  port : Option Port
  hostNe : host ≠ ""
  hostChars : ∀ c ∈ host.toList, c ≠ '/' ∧ c ≠ '?' ∧ c ≠ ':' ∧ c ≠ '@'

def Address.portInt (a : Address) : Option Int := a.port.map fun n => (n.val : Int)

def Address.text (a : Address) : String := a.host ++ portSuffix a.portInt

/-- On this host. -/
def localhost (port : Port) : Address where
  host := "localhost"
  port := some port
  hostNe := by decide
  hostChars c hc := by
    have hall : "localhost".toList.all
        (fun c => c ≠ '/' ∧ c ≠ '?' ∧ c ≠ ':' ∧ c ≠ '@') = true := by decide
    exact of_decide_eq_true (List.all_eq_true.mp hall c hc)

/-- What both sides are started with: the home directory, `ESR_INSTANCE`,
`ESRD_HOST_PORT`, which only Python reads, and the port of the endpoint, which only the
runtime knows.  The name of an instance has no separators; letters, digits, dots, dashes
and underscores are none. -/
structure Setting where
  home : String
  esrInstance : Option String
  hostPort : Option Address
  httpPort : Option Port
  instanceName : ∀ i, esrInstance = some i →
    i ≠ "" ∧ ∀ c ∈ i.toList, c ≠ '/' ∧ c ≠ '?' ∧ c ≠ '@'

/-- `_env()` and `LocalAddress.env/0`. -/
def Setting.env (s : Setting) : String := s.esrInstance.getD "default"

/-- `_host_port()`. -/
def Setting.pyAddress (s : Setting) : Address := s.hostPort.getD (localhost 4001)

/-- `LocalAddress.host_port/0`. -/
def Setting.exAddress (s : Setting) : Address := localhost (s.httpPort.getD 4001)

/-! ## Extensions -/

/-- `s.lstrip(".")` and `String.trim_leading(s, ".")`. -/
def trimDots (s : String) : String := String.ofList (s.toList.dropWhile fun c => c = '.')

/-- `pathlib`'s `suffix`, of a name. -/
def suffix (name : String) : String :=
  match cutAt '.' name.toList.reverse with
  | some (ext, stem) => if stem ≠ [] ∧ ext ≠ [] then "." ++ String.ofList ext.reverse else ""
  | none => ""

/-- `src.suffix.lstrip(".").lower() or "bin"`. -/
def pyExtension (text : String) : String :=
  let ext := PyUri.lower (trimDots (suffix ((purePath [text]).parts.getLastD "")))
  if ext = "" then "bin" else ext

/-- `Path.extname/1`: from the last dot behind the last slash, unless it is the first
character there. -/
def extname (text : String) : String :=
  match cutAt '.' (lastSegment text).toList.reverse with
  | some (ext, stem) => if stem ≠ [] then "." ++ String.ofList ext.reverse else ""
  | none => ""

/-- `extension_of/1`. -/
def exExtension (text : String) : String :=
  let ext := trimDots (Uri.downcase (extname text))
  if ext = "" then "bin" else ext

/-- `_ALLOWED_EXTS` of the Python store. -/
def allowedExts : List (String × List String) :=
  [("image", ["png", "jpg", "jpeg", "gif", "webp", "heic"]),
    ("file", ["bin", "pdf", "doc", "docx", "xls", "xlsx", "zip", "txt", "md", "csv"]),
    ("audio", ["opus", "mp3", "wav", "m4a", "aac"])]

/-- `_validate_media_type_and_ext`. -/
def pyAllows (mediaType ext : String) : Bool :=
  match allowedExts.lookup mediaType with
  | none => false
  | some exts => exts.contains ext

/-- `String.duplicate("0", 64)`. -/
def zeros : String := String.ofList (List.replicate 64 '0')

/-- `validate_media_type_and_ext/2`. -/
def exAllows (mediaType ext : String) : Bool :=
  match Uri.buildResource mediaType zeros { ext := ext } with
  | .ok _ => true
  | .error _ => false

/-! ## Before anything is written -/

inductive StoreError where
  | sourceNotFound
  | unsupportedExt
  | readFailed

/-- What is to be stored. -/
structure Medium where
  mediaType : String
  sha256 : String
  ext : String
  content : Bytes
  deriving DecidableEq

/-- `media.store`, up to the hash. -/
def pyCheck (w : World) (mediaType text : String) : Except StoreError Medium :=
  match w.look (purePath [text]) with
  | none => .error .sourceNotFound
  | some node =>
      let ext := pyExtension text
      if !pyAllows mediaType ext then .error .unsupportedExt
      else
        match node with
        | .dir => .error .readFailed
        | .file content => .ok ⟨mediaType, w.sha256 content, ext, content⟩

/-- `Media.store/3`, up to the hash. -/
def exCheck (w : World) (mediaType text : String) : Except StoreError Medium :=
  let ext := exExtension text
  if !exAllows mediaType ext then .error .unsupportedExt
  else
    match w.stat text with
    | none => .error .sourceNotFound
    | some .dir => .error .readFailed
    | some (.file content) => .ok ⟨mediaType, w.sha256 content, ext, content⟩

/-! ## Where it is written -/

/-- `<sha>.<ext>`. -/
def Medium.fileName (m : Medium) : String := m.sha256 ++ "." ++ m.ext

/-- `_resource_dir(media_type)` and `build_local_dir/1`. -/
def resourceDir (s : Setting) (mediaType : String) : List String :=
  [s.home, s.env, "resources", mediaType]

/-- `target_dir / f"{sha}.{ext}"`. -/
def pyDest (s : Setting) (m : Medium) : FilePath := purePath (resourceDir s m.mediaType ++ [m.fileName])

/-- `build_local_path/3`. -/
def exDest (s : Setting) (m : Medium) : FilePath := join (resourceDir s m.mediaType ++ [m.fileName])

/-- The URI that `media.store` returns. -/
def pyUri (s : Setting) (m : Medium) : Except PyUri.ValueError String :=
  PyUri.buildResource m.mediaType m.sha256 m.ext (some s.env) s.pyAddress.text

/-- The URI that `Media.store/3` returns. -/
def exUri (s : Setting) (m : Medium) : Except Uri.BuildError String :=
  Uri.buildResource m.mediaType m.sha256
    { ext := m.ext, env := some s.env, host := s.exAddress.text }

/-! ## Resolving -/

inductive ResolveError where
  | invalidUri
  | wrongEnv
  | notFound
  deriving DecidableEq

/-- `media.resolve`, among the files that are there. -/
def pyResolve (s : Setting) (files : Ets FilePath Bytes) (uri : String) :
    Except ResolveError FilePath :=
  match PyUri.parseResource uri with
  | .error _ => .error .invalidUri
  | .ok r =>
      if r.env ≠ none ∧ r.env ≠ some s.env then .error .wrongEnv
      else
        let p := purePath (resourceDir s r.mediaType ++ [r.sha256 ++ "." ++ r.ext])
        if (files.lookup p).isNone then .error .notFound else .ok p

/-- `Media.resolve/1`. -/
def exResolve (s : Setting) (files : Ets FilePath Bytes) (uri : String) :
    Except ResolveError FilePath :=
  match Uri.parseResource uri with
  | .error _ => .error .invalidUri
  | .ok r =>
      if r.env ≠ none ∧ r.env ≠ some s.env then .error .wrongEnv
      else
        let p := join (resourceDir s r.mediaType ++ [r.sha256 ++ "." ++ r.ext])
        if (files.lookup p.file).isNone then .error .notFound else .ok p

/-! ## The extension -/

theorem trimDots_dot {cs : List Char} (h : '.' ∉ cs) :
    trimDots ("." ++ String.ofList cs) = String.ofList cs := by
  have hlist : ("." ++ String.ofList cs).toList = '.' :: cs := by simp
  unfold trimDots
  rw [hlist, List.dropWhile_cons_of_pos (by decide)]
  cases cs with
  | nil => rfl
  | cons c cs =>
    have hc : c ≠ '.' := fun heq => h (heq ▸ List.mem_cons_self)
    rw [List.dropWhile_cons_of_neg (by simpa using hc)]

theorem toLower_eq_dot {c : Char} (h : c.toLower = '.') : c = '.' := by
  unfold Char.toLower at h
  by_cases hupper : 'A'.val ≤ c.val ∧ c.val ≤ 'Z'.val
  · rw [dif_pos hupper] at h
    have hval := congrArg (fun d : Char => d.val.toNat) h
    simp only [UInt32.le_iff_toNat_le, UInt32.toNat_add] at hupper hval
    simp at hupper hval
    omega
  · rwa [dif_neg hupper] at h

theorem lowerAscii_dot (cs : List Char) :
    lowerAscii ("." ++ String.ofList cs) = "." ++ String.ofList (cs.map Char.toLower) := by
  unfold lowerAscii
  have hlist : ("." ++ String.ofList cs).toList = '.' :: cs := by simp
  have hdot : Char.toLower '.' = '.' := by decide
  rw [hlist, List.map_cons, hdot]
  exact String.toList_injective (by simp)

theorem getLastD_purePath {text : String} (h : namesDir text = false) :
    (purePath [text]).parts.getLastD "" = lastSegment text := by
  have hne : split '/' text ≠ [] := by
    unfold split
    exact mt List.map_eq_nil_iff.mp (List.splitOn_ne_nil _ _)
  obtain ⟨init, last, hsplit⟩ := (split '/' text).eq_nil_or_concat.resolve_left hne
  have hlast : lastSegment text = last := by
    unfold lastSegment
    rw [hsplit]
    simp
  unfold namesDir at h
  rw [hlast, Bool.or_eq_false_iff, decide_eq_false_iff_not, decide_eq_false_iff_not] at h
  have hparts : (purePath [text]).parts =
      ((split '/' text).filter fun p => p ≠ "").filter fun seg => seg ≠ "." := by
    simp [purePath, join, FilePath.file, parts]
  rw [hparts, hsplit, hlast]
  simp [h.1, h.2]

/-- **And so they find the same extension.** -/
theorem extension_eq {text : String} (h : namesDir text = false) :
    pyExtension text = exExtension text := by
  unfold pyExtension exExtension extname suffix
  rw [getLastD_purePath h]
  cases hcut : cutAt '.' (lastSegment text).toList.reverse with
  | none => rfl
  | some p =>
    obtain ⟨ext, stem⟩ := p
    have hdot : '.' ∉ ext.reverse := by
      rw [List.mem_reverse]
      exact (cutAt_eq_some.mp hcut).2
    have hlower : '.' ∉ ext.reverse.map Char.toLower := by
      rintro hmem
      obtain ⟨c, hc, heq⟩ := List.mem_map.mp hmem
      exact hdot (toLower_eq_dot heq ▸ hc)
    by_cases hstem : stem = []
    · simp [hstem]
      rfl
    · by_cases hext : ext = []
      · subst hext
        simp [hstem]
        rfl
      · simp only [hstem, hext, ne_eq, not_false_eq_true, and_self, if_true, Uri.downcase,
          PyUri.lower, trimDots_dot hdot, lowerAscii_dot, trimDots_dot hlower]
        simp [lowerAscii]

theorem pyExtension_lower (text : String) : lowerAscii (pyExtension text) = pyExtension text := by
  unfold pyExtension
  dsimp only
  split
  · decide
  · exact lowerAscii_lowerAscii _

/-! ## What is accepted -/

theorem allowedExts_eq : allowedExts = Uri.allowedExts := rfl

theorem exAllows_eq (mediaType ext : String) :
    exAllows mediaType ext = pyAllows mediaType (lowerAscii ext) := by
  have hzeros : Uri.validateSha256 zeros = true := by decide +kernel
  have hpath (last : String) : ∃ uri, Uri.buildPath ["resources", mediaType, last] "localhost"
      { env := none } = .ok uri := ⟨_, rfl⟩
  obtain ⟨uri, huri⟩ := hpath (zeros ++ "." ++ Uri.downcase ext)
  have hvalid : Uri.validateExt mediaType (Uri.downcase ext) = pyAllows mediaType (lowerAscii ext) := by
    unfold Uri.validateExt pyAllows
    rw [Uri.downcase, Uri.downcase, lowerAscii_lowerAscii]
    rfl
  unfold exAllows Uri.buildResource
  simp only [hzeros, Bool.not_true, Bool.false_eq_true, if_false, hvalid, huri]
  cases pyAllows mediaType (lowerAscii ext) <;> rfl

section
variable {w : World} {mediaType text : String}

/-- The path can only be one of a directory, and behind that a file would be accepted. -/
def Overlooked (w : World) (mediaType text : String) : Prop :=
  namesDir text = true ∧ (∃ content, w.look (purePath [text]) = some (.file content)) ∧
    pyAllows mediaType (pyExtension text) = true

theorem toOption_pyCheck {m : Medium} : (pyCheck w mediaType text).toOption = some m ↔
    ∃ content, w.look (purePath [text]) = some (.file content) ∧
      pyAllows mediaType (pyExtension text) = true ∧
      m = ⟨mediaType, w.sha256 content, pyExtension text, content⟩ := by
  unfold pyCheck
  cases hlook : w.look (purePath [text]) with
  | none => simp [Except.toOption]
  | some node =>
    cases hallows : pyAllows mediaType (pyExtension text) with
    | false => simp [Except.toOption, hallows]
    | true =>
      cases node with
      | dir => simp [Except.toOption, hallows]
      | file content =>
        simp only [Except.toOption, hallows, Bool.not_true, Bool.false_eq_true, if_false,
          Option.some.injEq, Node.file.injEq, true_and, exists_eq_left']
        exact eq_comm

theorem namesDir_empty : namesDir "" = true := by decide

theorem toOption_exCheck {m : Medium} : (exCheck w mediaType text).toOption = some m ↔
    namesDir text = false ∧ ∃ content, w.look (purePath [text]) = some (.file content) ∧
      pyAllows mediaType (pyExtension text) = true ∧
      m = ⟨mediaType, w.sha256 content, pyExtension text, content⟩ := by
  cases hdir : namesDir text with
  | true =>
    have hstat : w.stat text = none ∨ w.stat text = some .dir := by
      unfold World.stat
      by_cases hempty : text = ""
      · simp [hempty]
      · rw [if_neg hempty]
        cases w.look (purePath [text]) with
        | none => simp
        | some node => cases node <;> simp [hdir]
    unfold exCheck
    rcases hstat with hstat | hstat <;> rw [hstat] <;> dsimp only <;> split <;>
      simp [Except.toOption]
  | false =>
    have hne : text ≠ "" := by
      rintro rfl
      rw [namesDir_empty] at hdir
      cases hdir
    have hstat : w.stat text = w.look (purePath [text]) := by
      unfold World.stat
      rw [if_neg hne]
      cases w.look (purePath [text]) with
      | none => rfl
      | some node => cases node <;> simp [hdir]
    have hallows : exAllows mediaType (exExtension text) =
        pyAllows mediaType (pyExtension text) := by
      rw [← extension_eq hdir, exAllows_eq, pyExtension_lower]
    unfold exCheck
    dsimp only
    rw [hallows, hstat, ← extension_eq hdir]
    cases pyAllows mediaType (pyExtension text) with
    | false => simp [Except.toOption]
    | true =>
      cases w.look (purePath [text]) with
      | none => simp [Except.toOption]
      | some node =>
        cases node with
        | dir => simp [Except.toOption]
        | file content =>
          simp only [Except.toOption, Bool.not_true, Bool.false_eq_true, if_false,
            Option.some.injEq, Node.file.injEq, true_and, exists_eq_left']
          exact eq_comm

/-- **Which sources both stores treat alike.** -/
theorem accepted_iff :
    (pyCheck w mediaType text).toOption = (exCheck w mediaType text).toOption ↔
      ¬Overlooked w mediaType text := by
  constructor
  · rintro hsame ⟨hdir, ⟨content, hlook⟩, hallows⟩
    have hpy := toOption_pyCheck.mpr ⟨content, hlook, hallows, rfl⟩
    rw [hsame, toOption_exCheck] at hpy
    rw [hdir] at hpy
    cases hpy.1
  · intro hnot
    apply Option.ext
    intro m
    rw [toOption_pyCheck, toOption_exCheck]
    constructor
    · rintro ⟨content, hlook, hallows, rfl⟩
      refine ⟨?_, content, hlook, hallows, rfl⟩
      by_contra hdir
      rw [Bool.not_eq_false] at hdir
      exact hnot ⟨hdir, ⟨content, hlook⟩, hallows⟩
    · exact And.right

end

/-! ## The URIs -/

/-- What both stores are about to write. -/
structure Medium.Valid (w : World) (m : Medium) : Prop where
  sha : m.sha256 = w.sha256 m.content
  allowed : pyAllows m.mediaType m.ext = true
  lower : lowerAscii m.ext = m.ext

/-- The URI is one of the medium in this instance, in both languages. -/
structure Reads (s : Setting) (m : Medium) (uri : String) : Prop where
  ex : ∃ host, Uri.parseResource uri = .ok ⟨m.mediaType, m.sha256, m.ext, some s.env, host⟩
  py : ∃ host, PyUri.parseResource uri = .ok ⟨m.mediaType, m.sha256, m.ext, some s.env, host⟩

section
variable {w : World} {s : Setting} {m : Medium}

theorem World.newline_sha256 (w : World) (b : Bytes) : '\n' ∉ (w.sha256 b).toList := by
  intro hmem
  have hchar := w.hexChars b _ hmem
  rw [hexLower_newline] at hchar
  cases hchar

theorem World.sha256_pattern (w : World) (b : Bytes) : sha256Pattern (w.sha256 b) = true := by
  have hchomp : chompNewline (w.sha256 b).toList = (w.sha256 b).toList := by
    unfold chompNewline
    rw [if_neg fun hlast => w.newline_sha256 b (List.mem_of_getLast? hlast)]
  unfold sha256Pattern
  rw [hchomp, Bool.and_eq_true, decide_eq_true_eq, List.all_eq_true]
  exact ⟨w.hexLength b, w.hexChars b⟩

theorem Address.digitCount (a : Address) :
    ∀ n, a.portInt = some n → digitCount n.repr ≤ maxStrDigits := by
  intro n hn
  obtain ⟨port, -, rfl⟩ := Option.map_eq_some_iff.mp hn
  have hsign : (signOf port.val.repr.toList).2.length ≤ port.val.repr.toList.length := by
    unfold signOf
    split <;> simp_all
  have hlen : port.val.repr.length ≤ 5 := Nat.length_repr_le_iff (by omega) |>.mpr (by omega)
  have hlist : port.val.repr.toList.length = port.val.repr.length := String.length_toList
  have hcount : Esr.digitCount (port.val : Int).repr = (signOf port.val.repr.toList).2.length := rfl
  have hmax : maxStrDigits = 4300 := rfl
  omega

theorem Setting.env_plain (s : Setting) :
    s.env ≠ "" ∧ ∀ c ∈ s.env.toList, c ≠ '/' ∧ c ≠ '?' ∧ c ≠ '@' := by
  unfold Setting.env
  cases h : s.esrInstance with
  | some i => exact s.instanceName i h
  | none =>
    have hall : "default".toList.all (fun c => c ≠ '/' ∧ c ≠ '?' ∧ c ≠ '@') = true := by decide
    exact ⟨by decide, fun c hc => of_decide_eq_true (List.all_eq_true.mp hall c hc)⟩

theorem lookup_of_allows {mediaType ext : String} (h : pyAllows mediaType ext = true) :
    ∃ exts, Uri.allowedExts.lookup mediaType = some exts ∧ ext ∈ exts := by
  unfold pyAllows at h
  rw [allowedExts_eq] at h
  split at h
  · cases h
  · rename_i exts hlookup
    exact ⟨exts, hlookup, List.contains_iff_mem.mp h⟩

theorem Medium.Valid.plain_ext (h : m.Valid w) : ∀ c ∈ m.ext.toList, c ≠ '/' ∧ c ≠ '.' := by
  obtain ⟨exts, hlookup, hmem⟩ := lookup_of_allows h.allowed
  obtain ⟨-, -, -, hexts⟩ := plain_of_lookup hlookup
  intro c hc
  obtain ⟨hslash, -, hdot⟩ := plainChar_iff.mp (hexts m.ext hmem c hc)
  exact ⟨hslash, hdot⟩

theorem Medium.Valid.resource (h : m.Valid w) (host : String) :
    Allowed ⟨m.mediaType, m.sha256, m.ext, [s.env], host⟩ := by
  refine ⟨?_, ?_⟩
  · show sha256Pattern m.sha256 = true
    rw [h.sha]
    exact w.sha256_pattern _
  · obtain ⟨exts, hlookup, hmem⟩ := lookup_of_allows h.allowed
    refine ⟨exts, hlookup, ?_⟩
    show lowerAscii m.ext ∈ exts
    rwa [h.lower]

/-- The URI of a medium, at an address. -/
def uriGiven (s : Setting) (a : Address) (m : Medium) : Given :=
  ⟨[s.env], a.host, a.portInt, ["resources", m.mediaType, m.fileName], []⟩

theorem reads_text (h : m.Valid w) (a : Address) :
    Reads s m ((uriGiven s a m).pieces (some s.env)).text := by
  have hallowed : Allowed ⟨m.mediaType, m.sha256, m.ext, [s.env], a.host⟩ := h.resource a.host
  have hauthority : PlainAuthority (uriGiven s a m).orgs (some s.env) (uriGiven s a m).host := by
    refine ⟨⟨?_, ?_⟩, ?_, a.hostNe, ?_, ?_⟩
    · intro o ho
      rw [List.mem_singleton.mp ho]
    · intro hnil
      cases hnil
    · intro o ho
      obtain rfl := Option.some.inj ho
      exact s.env_plain.2
    · intro c hc
      obtain ⟨hslash, hquery, hcolon, -⟩ := a.hostChars c hc
      exact ⟨hslash, hquery, hcolon⟩
    · intro hnone
      cases hnone
  have hsegs : (uriGiven s a m).segments = (GivenResource.given
      ⟨m.mediaType, m.sha256, m.ext, [s.env], a.host⟩).segments := by
    simp only [uriGiven, GivenResource.given, Medium.fileName, h.lower]
  have hsegments : PlainSegments (uriGiven s a m).segments := by
    rw [hsegs]
    exact hallowed.segments
  have hnew : '\n' ∉ m.sha256.toList := by
    rw [h.sha]
    exact w.newline_sha256 m.content
  have hrows : TextRows (uriGiven s a m).rows := fun r hr => by cases hr
  have hnodup : ((uriGiven s a m).rows.map Prod.fst).Nodup := List.nodup_nil
  have henv : (some s.env) ≠ some "" := fun heq => s.env_plain.1 (Option.some.inj heq)
  obtain ⟨⟨u, hu, hback⟩, v, hv, hback'⟩ :=
    readBack_of_plain a.digitCount henv hnodup hauthority hsegments hrows
  have hex := hallowed.parseResource_exSegments hnew hu hback.type (hback.segments.trans hsegs)
  have hpy := hallowed.parseResource_pySegments hv hback'.type (hback'.segments.trans hsegs)
  have horg : u.org = some s.env := hback.org.1 s.env List.mem_cons_self
  have horg' : v.org = some s.env := hback'.org.1 s.env List.mem_cons_self
  rw [horg] at hex
  rw [horg'] at hpy
  dsimp only at hex hpy
  rw [h.lower] at hex hpy
  exact ⟨⟨_, hex⟩, ⟨_, hpy⟩⟩

theorem Address.text_ne (a : Address) : a.text ≠ "" := by
  intro h
  have hlist := congrArg String.toList h
  unfold Address.text at hlist
  rw [String.toList_append] at hlist
  exact a.hostNe (String.toList_injective (List.append_eq_nil_iff.mp hlist).1)

theorem text_uriGiven (h : lowerAscii m.ext = m.ext) (a : Address) :
    ((GivenResource.given ⟨m.mediaType, m.sha256, m.ext, givenNames none (some s.env),
        a.text⟩).pieces (some s.env)).text = ((uriGiven s a m).pieces (some s.env)).text := by
  have hsuffix : portSuffix none = "" := rfl
  rw [Given.text_eq, Given.text_eq]
  simp only [GivenResource.given, uriGiven, Medium.fileName, h, authText, hsuffix, Address.text,
    String.append_empty]

theorem Setting.written_env (s : Setting) : Uri.written none (some s.env) = some s.env ∧
    PyUri.written none (some s.env) = some s.env := by
  have hne : s.env ≠ "" := s.env_plain.1
  constructor
  · simp [Uri.written, hne]
  · simp [PyUri.written, PyUri.orgArg, hne]

/-- **The URI of the Python store.** -/
theorem reads_pyUri (h : m.Valid w) : ∃ uri, pyUri s m = .ok uri ∧ Reads s m uri := by
  have hallowed : Allowed ⟨m.mediaType, m.sha256, m.ext, [s.env], s.pyAddress.text⟩ :=
    h.resource s.pyAddress.text
  obtain ⟨exts, hlookup, hmem⟩ := hallowed.ext
  have hsha : PyUri.shaMatches m.sha256 = true := hallowed.sha256
  have hexts : PyUri.allowedExts.lookup m.mediaType = some exts := hlookup
  have hlower : PyUri.lower m.ext ∈ exts := hmem
  have hfirst : "resources" ∈ PyUri.pathStyleTypes := by decide
  have hnone : (["resources", m.mediaType, m.sha256 ++ "." ++ PyUri.lower m.ext].findIdx?
      fun seg => seg = "") = none := by
    rw [List.findIdx?_eq_none_iff]
    intro seg hseg
    simpa using (hallowed.segments.chars seg hseg).1
  obtain ⟨uri, huri⟩ : ∃ uri, pyUri s m = .ok uri := by
    unfold pyUri PyUri.buildResource
    dsimp only
    rw [hsha, hexts]
    simp only [Bool.not_true, Bool.false_eq_true, if_false]
    rw [if_neg (not_not_intro hlower)]
    unfold PyUri.buildPath
    simp only [hfirst, not_true_eq_false, if_false, if_neg s.pyAddress.text_ne, hnone]
    exact ⟨_, rfl⟩
  refine ⟨uri, huri, ?_⟩
  rw [(PyUri.of_buildResource huri).2, s.written_env.2, text_uriGiven h.lower]
  exact reads_text h s.pyAddress

/-- **The URI of the runtime's store.** -/
theorem reads_exUri (h : m.Valid w) : ∃ uri, exUri s m = .ok uri ∧ Reads s m uri := by
  have hallowed : Allowed ⟨m.mediaType, m.sha256, m.ext, [s.env], s.exAddress.text⟩ :=
    h.resource s.exAddress.text
  obtain ⟨exts, hlookup, hmem⟩ := hallowed.ext
  have hsha : Uri.validateSha256 m.sha256 = true := by
    rw [validateSha256_iff hallowed.sha256, h.sha]
    exact w.newline_sha256 m.content
  have hext : Uri.validateExt m.mediaType (Uri.downcase m.ext) = true := by
    unfold Uri.validateExt
    rw [hlookup, Uri.downcase, Uri.downcase, lowerAscii_lowerAscii]
    exact List.contains_iff_mem.mpr hmem
  obtain ⟨uri, huri⟩ : ∃ uri, exUri s m = .ok uri := by
    unfold exUri Uri.buildResource
    simp only [hsha, hext, Bool.not_true, Bool.false_eq_true, if_false]
    exact ⟨_, rfl⟩
  refine ⟨uri, huri, ?_⟩
  have htext := (Uri.of_buildResource huri).2.2
  dsimp only at htext
  rw [htext, s.written_env.1, text_uriGiven h.lower]
  exact reads_text h s.exAddress

/-! ## Finding the file again -/

variable {files : Ets FilePath Bytes} {uri : String} {bytes : Bytes}

theorem file_purePath (segments : List String) : (purePath segments).file = purePath segments := by
  unfold purePath FilePath.file
  rw [List.filter_filter]
  simp only [Bool.and_self]

theorem Reads.pyResolve (h : Reads s m uri) (hfile : files.lookup (pyDest s m) = some bytes) :
    pyResolve s files uri = .ok (pyDest s m) := by
  obtain ⟨host, hparse⟩ := h.py
  have hsome : ¬((files.lookup (purePath (resourceDir s m.mediaType ++
      [m.sha256 ++ "." ++ m.ext]))).isNone = true) := by
    have hlookup : files.lookup (purePath (resourceDir s m.mediaType ++
      [m.sha256 ++ "." ++ m.ext])) = some bytes := hfile
    rw [hlookup]
    exact Bool.false_ne_true
  unfold MediaStore.pyResolve
  rw [hparse]
  simp only [ne_eq, not_true_eq_false, and_false, if_false, if_neg hsome]
  rfl

theorem Reads.exResolve (h : Reads s m uri) (hfile : files.lookup (pyDest s m) = some bytes) :
    exResolve s files uri = .ok (exDest s m) := by
  obtain ⟨host, hparse⟩ := h.ex
  have hsome : ¬((files.lookup (join (resourceDir s m.mediaType ++
      [m.sha256 ++ "." ++ m.ext])).file).isNone = true) := by
    have hlookup : files.lookup (join (resourceDir s m.mediaType ++
      [m.sha256 ++ "." ++ m.ext])).file = some bytes := hfile
    rw [hlookup]
    exact Bool.false_ne_true
  unfold MediaStore.exResolve
  rw [hparse]
  simp only [ne_eq, not_true_eq_false, and_false, if_false, if_neg hsome]
  rfl

end

end MediaStore
end Esr
