import Esr.MediaRuns

/-! # The files of the media store

`Media.store/3` as a whole, in any environment and on any host: after the checks of
`exCheck` it makes the directory, copies the source next to its place, renames the copy,
appends a line to the references of the medium and builds the URI.  What the system
answers to each of these steps is given; so is what is in the directory, where every
medium has the digest that it is named after (`Shelf`).

Beside it is `Media.resolve/1`.  `store_correct_iff` says when a call finds its medium again and
leaves nothing behind where it fails.
-/
namespace Esr
namespace MediaFiles
open MediaStore
open MediaRuns (dots dots_append dots_repr)
open Esr.Path (IsPlain)

abbrev Files := Ets FilePath Bytes

/-- What a runtime is started with: `ESRD_HOME`, `ESR_INSTANCE` and the text of
`LocalAddress.host_port/0`, here any texts. -/
structure Local where
  home : String
  esrInstance : Option String
  hostPort : String

/-- `LocalAddress.env/0`. -/
def Local.env (l : Local) : String := l.esrInstance.getD "default"

/-- `build_local_dir/1`, in pieces. -/
def Local.dir (l : Local) (mediaType : String) : List String :=
  [l.home, l.env, "resources", mediaType]

/-- A file of `build_local_dir/1`. -/
def Local.path (l : Local) (mediaType name : String) : FilePath := join (l.dir mediaType ++ [name])

/-- `build_local_path/3`. -/
def Local.buildLocalPath (l : Local) (mediaType sha256 ext : String) : FilePath :=
  l.path mediaType (sha256 ++ "." ++ ext)

/-- `resolve/1`. -/
def resolve (l : Local) (files : Files) (uri : String) : Except ResolveError FilePath :=
  match Uri.parseResource uri with
  | .error _ => .error .invalidUri
  | .ok r =>
      if r.env ≠ none ∧ r.env ≠ some l.env then .error .wrongEnv
      else
        let p := l.buildLocalPath r.mediaType r.sha256 r.ext
        if (files.lookup p.file).isNone then .error .notFound else .ok p

/-! ## Storing -/

/-- What a call that writes a file comes to; one that fails may leave something. -/
inductive Written where
  | done
  | failed (left : Option Bytes)

def Written.write (wr : Written) (p : FilePath) (content : Bytes) (files : Files) : Files :=
  match wr with
  | .done => files.insert p content
  | .failed (some left) => files.insert p left
  | .failed none => files

/-- What the system answers to the steps of one call; `unique` is the number in the name of
the copy. -/
structure Io where
  mkdir : Bool
  unique : Nat
  copy : Written
  rename : Bool
  rm : Bool
  append : Written

/-- `{:error, _}`. -/
inductive Error where
  | refused (e : StoreError)
  | mkdir
  | copy
  | append

/-- `%{uri: uri, sha256: sha, path: dest}`. -/
structure Stored where
  uri : String
  sha256 : String
  path : FilePath

inductive Outcome where
  | ok (stored : Stored)
  | error (e : Error)
  | raised

/-- The place of a medium. -/
def Local.dest (l : Local) (m : Medium) : FilePath := l.buildLocalPath m.mediaType m.sha256 m.ext

/-- `"#{dest}.tmp.#{unique}"`. -/
def Local.tmp (l : Local) (m : Medium) (unique : Nat) : FilePath :=
  l.path m.mediaType (m.fileName ++ ".tmp." ++ unique.repr)

/-- `"#{sha}.refs.jsonl"`. -/
def Local.refs (l : Local) (m : Medium) : FilePath :=
  l.path m.mediaType (m.sha256 ++ ".refs.jsonl")

/-- `atomic_copy/2`, and whether it ends with `:ok`. -/
def atomicCopy (l : Local) (io : Io) (m : Medium) (files : Files) : Bool × Files :=
  if (files.lookup (l.dest m).file).isSome then (true, files)
  else
    let tmp := (l.tmp m io.unique).file
    let copied := io.copy.write tmp m.content files
    match io.copy with
    | .failed _ => (false, copied)
    | .done =>
        if io.rename then (true, (copied.delete tmp).insert (l.dest m).file m.content)
        else (false, if io.rm then copied.delete tmp else copied)

/-- `append_ref/3`, behind `Jason.encode!/1`. -/
def appendRef (l : Local) (io : Io) (m : Medium) (line : Bytes) (files : Files) : Files :=
  let refs := (l.refs m).file
  io.append.write refs ((files.lookup refs).getD [] ++ line ++ [10]) files

/-- `store/3`, from `atomic_copy/2` on; the line is what `Jason.encode!/1` makes of the
metadata and the time, if it does not raise. -/
def place (l : Local) (io : Io) (line : Option Bytes) (m : Medium) (files : Files) :
    Outcome × Files :=
  match atomicCopy l io m files with
  | (false, files) => (.error .copy, files)
  | (true, files) =>
      match line with
      | none => (.raised, files)
      | some line =>
          match io.append with
          | .failed _ => (.error .append, appendRef l io m line files)
          | .done =>
              match Uri.buildResource m.mediaType m.sha256
                { ext := m.ext, env := some l.env, host := l.hostPort } with
              | .ok uri => (.ok ⟨uri, m.sha256, l.dest m⟩, appendRef l io m line files)
              | .error _ => (.raised, appendRef l io m line files)

/-- `store/3`. -/
def store (l : Local) (w : World) (io : Io) (line : Option Bytes) (mediaType text : String)
    (files : Files) : Outcome × Files :=
  match exCheck w mediaType text with
  | .error e => (.error (.refused e), files)
  | .ok m => if io.mkdir then place l io line m files else (.error .mkdir, files)

/-! ## Names of files -/

theorem file_path (l : Local) {mediaType name : String} (ht : IsPlain mediaType) (hn : IsPlain name) :
    (l.path mediaType name).file = ⟨Path.isAbsolute l.home,
      ((parts l.home ++ (parts l.env ++ ["resources"])).filter fun seg => seg ≠ ".") ++
        [mediaType, name]⟩ := by
  have hresources : parts "resources" = ["resources"] := by decide +kernel
  have htype : ¬ mediaType = "." := ht.2.2.1
  have hname : ¬ name = "." := hn.2.2.1
  simp [Local.path, Local.dir, join, FilePath.file, hresources,
    MediaRuns.parts_of_plain ht.2.1 ht.1, MediaRuns.parts_of_plain hn.2.1 hn.1, htype, hname, List.filter_append]

theorem file_path_inj {l : Local} {t t' n n' : String} (ht : IsPlain t) (ht' : IsPlain t')
    (hn : IsPlain n) (hn' : IsPlain n') : (l.path t n).file = (l.path t' n').file ↔ t = t' ∧ n = n' := by
  rw [file_path l ht hn, file_path l ht' hn']
  simp

theorem dots_eq_zero {name : String} (h : '.' ∉ name.toList) : dots name = 0 :=
  List.count_eq_zero.mpr h

section
variable {w : World} {m : Medium}

theorem plain_of_validateSha256 {sha rest : String} (h : Uri.validateSha256 sha = true)
    (hrest : '/' ∉ rest.toList) : IsPlain (sha ++ rest) := by
  rw [Uri.validateSha256, Bool.and_eq_true, decide_eq_true_eq] at h
  obtain ⟨-, hpattern⟩ := h
  have hlong : 2 < (sha ++ rest).toList.length := by
    rw [String.toList_append, List.length_append]
    rcases sha256Pattern_cases hpattern with ⟨hlen, -⟩ | ⟨ds, hs, hlen, -⟩
    · omega
    · rw [hs, List.length_append]
      omega
  refine ⟨?_, ?_, ?_, ?_⟩
  · rintro he
    rw [he] at hlong
    exact absurd hlong (by decide)
  · rw [String.toList_append, List.mem_append]
    rintro (hmem | hmem)
    · exact (plainChar_iff.mp (sha256Pattern_plain hpattern _ hmem)).1 rfl
    · exact hrest hmem
  · rintro he
    rw [he] at hlong
    exact absurd hlong (by decide)
  · rintro he
    rw [he] at hlong
    exact absurd hlong (by decide)

theorem not_dot_of_validateSha256 {sha : String} (h : Uri.validateSha256 sha = true) :
    '.' ∉ sha.toList := by
  rw [Uri.validateSha256, Bool.and_eq_true] at h
  exact fun hmem => (plainChar_iff.mp (sha256Pattern_plain h.2 _ hmem)).2.2 rfl

theorem validateSha256_sha256 (w : World) (b : Bytes) : Uri.validateSha256 (w.sha256 b) = true :=
  (validateSha256_iff (w.sha256_pattern b)).mpr (w.newline_sha256 b)

theorem plain_of_pyAllows {mediaType ext : String} (h : pyAllows mediaType ext = true) :
    IsPlain mediaType ∧ ∀ c ∈ ext.toList, plainChar c = true := by
  obtain ⟨exts, hlookup, hmem⟩ := lookup_of_allows h
  obtain ⟨-, hne, htype, hexts⟩ := plain_of_lookup hlookup
  have hdot : '.' ∉ mediaType.toList := fun hc => (plainChar_iff.mp (htype _ hc)).2.2 rfl
  refine ⟨⟨hne, fun hc => (plainChar_iff.mp (htype _ hc)).1 rfl, ?_, ?_⟩, hexts ext hmem⟩
  · rintro rfl
    exact hdot (by decide)
  · rintro rfl
    exact hdot (by decide)

theorem plain_name {mediaType sha ext : String} (hs : Uri.validateSha256 sha = true)
    (h : pyAllows mediaType ext = true) :
    IsPlain (sha ++ "." ++ ext) ∧ dots (sha ++ "." ++ ext) = 1 := by
  obtain ⟨-, hext⟩ := plain_of_pyAllows h
  constructor
  · rw [String.append_assoc]
    refine plain_of_validateSha256 hs ?_
    rw [String.toList_append, List.mem_append]
    rintro (hc | hc)
    · exact absurd hc (by decide)
    · exact (plainChar_iff.mp (hext _ hc)).1 rfl
  · rw [dots_append, dots_append, dots_eq_zero (not_dot_of_validateSha256 hs),
      dots_eq_zero fun hc => (plainChar_iff.mp (hext _ hc)).2.2 rfl]
    rfl

theorem validateSha256_of_valid (h : m.Valid w) : Uri.validateSha256 m.sha256 = true := by
  rw [h.sha]
  exact validateSha256_sha256 w m.content

theorem plain_dest (h : m.Valid w) : IsPlain m.fileName ∧ dots m.fileName = 1 :=
  plain_name (validateSha256_of_valid h) h.allowed

theorem plain_tmp (h : m.Valid w) (unique : Nat) :
    IsPlain (m.fileName ++ ".tmp." ++ unique.repr) ∧
      dots (m.fileName ++ ".tmp." ++ unique.repr) = 3 := by
  have hdots : dots ".tmp." = 2 := by decide
  constructor
  · rw [Medium.fileName, String.append_assoc, String.append_assoc, String.append_assoc]
    refine plain_of_validateSha256 (validateSha256_of_valid h) ?_
    obtain ⟨-, hext⟩ := plain_of_pyAllows h.allowed
    simp only [String.toList_append, List.mem_append]
    rintro (hc | hc | hc | hc)
    · exact absurd hc (by decide)
    · exact (plainChar_iff.mp (hext _ hc)).1 rfl
    · exact absurd hc (by decide)
    · exact (MediaRuns.Token.digits_plain _ hc).1 rfl
  · rw [dots_append, dots_append, (plain_dest h).2, hdots, dots_repr]

theorem plain_refs (h : m.Valid w) :
    IsPlain (m.sha256 ++ ".refs.jsonl") ∧ dots (m.sha256 ++ ".refs.jsonl") = 2 := by
  have hdots : dots ".refs.jsonl" = 2 := by decide
  constructor
  · exact plain_of_validateSha256 (validateSha256_of_valid h) (by decide)
  · rw [dots_append, dots_eq_zero (not_dot_of_validateSha256 (validateSha256_of_valid h)), hdots]

theorem path_ne {l : Local} {t t' n n' : String} (ht : IsPlain t) (ht' : IsPlain t') (hn : IsPlain n)
    (hn' : IsPlain n') (hdots : dots n ≠ dots n') : (l.path t n).file ≠ (l.path t' n').file :=
  fun h => hdots (congrArg dots ((file_path_inj ht ht' hn hn').mp h).2)

end

/-! ## What a call adds -/

/-- **What is in the directories of the media.**  The file of a digest has the content of
that digest. -/
structure Shelf (w : World) (l : Local) where
  files : Files
  addressed : ∀ mediaType sha ext content, Uri.validateSha256 sha = true →
    pyAllows mediaType ext = true →
    files.lookup (l.buildLocalPath mediaType sha ext).file = some content →
    (∃ p, w.look p = some (.file content)) ∧ w.sha256 content = sha

/-- A file that was not there. -/
def Adds (files files' : Files) : Prop := ∃ p, files.lookup p = none ∧ files'.lookup p ≠ none

/-- The medium comes to be in its place. -/
def Placed (l : Local) (io : Io) (m : Medium) (files : Files) : Prop :=
  files.lookup (l.dest m).file ≠ none ∨ io.copy = .done ∧ io.rename = true

/-- A copy that is not moved to its place stays beside it. -/
def Io.Remains (io : Io) : Prop :=
  (∃ left, io.copy = .failed (some left)) ∨
    io.copy = .done ∧ io.rename = false ∧ io.rm = false

/-- **What a call must meet that returns an error behind the check.**  A copy that does not
come to its place is not left beside it, unless there was a file of its name; and where
the line cannot be appended, the medium was there before, and there is no new file of
references. -/
structure TidyErrors (l : Local) (io : Io) (line : Option Bytes) (m : Medium) (files : Files) :
    Prop where
  copied : files.lookup (l.dest m).file = none → io.Remains →
    files.lookup (l.tmp m io.unique).file ≠ none
  appended : Placed l io m files → line ≠ none → ∀ left, io.append = .failed left →
    files.lookup (l.dest m).file ≠ none ∧ (left ≠ none → files.lookup (l.refs m).file ≠ none)

/-- And where it raises, since the metadata has no text: the medium was there before. -/
structure Tidy (l : Local) (io : Io) (line : Option Bytes) (m : Medium) (files : Files) :
    Prop extends TidyErrors l io line m files where
  encoded : Placed l io m files → line = none → files.lookup (l.dest m).file ≠ none

section
variable {w : World} {l : Local} {io : Io} {line : Option Bytes} {m : Medium} {files : Files}

theorem adds_iff_of_lookup {files' : Files} {p : FilePath} (hp : files'.lookup p ≠ none)
    (hother : ∀ q, q ≠ p → files'.lookup q ≠ none → files.lookup q ≠ none) :
    Adds files files' ↔ files.lookup p = none := by
  constructor
  · rintro ⟨q, hnone, hsome⟩
    by_cases hq : q = p
    · rwa [← hq]
    · exact absurd hnone (hother q hq hsome)
  · exact fun h => ⟨p, h, hp⟩

theorem not_adds_self : ¬ Adds files files := fun ⟨_, hnone, hsome⟩ => hsome hnone

theorem adds_insert {p : FilePath} {content : Bytes} :
    Adds files (files.insert p content) ↔ files.lookup p = none := by
  refine adds_iff_of_lookup (by simp) fun q hq hsome => ?_
  rwa [Ets.lookup_insert_of_ne _ _ hq] at hsome

theorem atomicCopy_of_placed (h : Placed l io m files) :
    ∃ files', atomicCopy l io m files = (true, files') ∧
      (∃ content, files'.lookup (l.dest m).file = some content ∧
        (content = m.content ∨ files.lookup (l.dest m).file = some content)) ∧
      ∀ p, p ≠ (l.dest m).file →
        files'.lookup p = if p = (l.tmp m io.unique).file ∧ files.lookup (l.dest m).file = none
          then none else files.lookup p := by
  cases hdest : files.lookup (l.dest m).file with
  | some content =>
    refine ⟨files, ?_, ⟨content, hdest, .inr rfl⟩, fun p hp => by simp⟩
    rw [atomicCopy, if_pos (by simp [hdest])]
  | none =>
    obtain ⟨hcopy, hrename⟩ := h.resolve_left (· hdest)
    refine ⟨((files.insert (l.tmp m io.unique).file m.content).delete
      (l.tmp m io.unique).file).insert (l.dest m).file m.content, ?_,
      ⟨m.content, Ets.lookup_insert_self _ _ _, .inl rfl⟩, fun p hp => ?_⟩
    · rw [atomicCopy, if_neg (by simp [hdest]), hcopy]
      simp only [hrename, if_true]
      rfl
    · rw [Ets.lookup_insert_of_ne _ _ hp, Ets.lookup_delete]
      by_cases htmp : p = (l.tmp m io.unique).file
      · rw [if_pos htmp, if_pos ⟨htmp, rfl⟩]
      · rw [if_neg htmp, if_neg fun hand => htmp hand.1]
        exact Ets.lookup_insert_of_ne _ _ htmp

theorem atomicCopy_of_not_placed (h : ¬ Placed l io m files) :
    ∃ files', atomicCopy l io m files = (false, files') ∧
      (Adds files files' ↔ io.Remains ∧ files.lookup (l.tmp m io.unique).file = none) ∧
      ∀ p, p ≠ (l.tmp m io.unique).file → files'.lookup p = files.lookup p := by
  rw [Placed, not_or, not_not, not_and] at h
  obtain ⟨hdest, hrename⟩ := h
  rw [atomicCopy, if_neg (by simp [hdest])]
  cases hcopy : io.copy with
  | failed left =>
    rcases left with _ | left
    · refine ⟨files, rfl, iff_of_false not_adds_self ?_, fun p hp => rfl⟩
      rintro ⟨⟨left, hleft⟩ | ⟨hdone, -⟩, -⟩
      · rw [hcopy] at hleft
        cases hleft
      · rw [hcopy] at hdone
        cases hdone
    · refine ⟨_, rfl, ?_, fun p hp => Ets.lookup_insert_of_ne _ _ hp⟩
      have hremains : io.Remains := .inl ⟨left, hcopy⟩
      exact adds_insert.trans (and_iff_right hremains).symm
  | done =>
    have hfalse : io.rename = false := by simpa using hrename hcopy
    simp only [hfalse, Bool.false_eq_true, if_false]
    by_cases hrm : io.rm = true
    · refine ⟨_, by rw [if_pos hrm], iff_of_false ?_ ?_, fun p hp => ?_⟩
      · rintro ⟨p, hnone, hsome⟩
        by_cases hp : p = (l.tmp m io.unique).file
        · rw [hp, Ets.lookup_delete_self] at hsome
          exact hsome rfl
        · rw [Ets.lookup_delete_of_ne _ hp] at hsome
          exact hsome ((Ets.lookup_insert_of_ne _ _ hp).trans hnone)
      · rintro ⟨⟨left, hleft⟩ | ⟨-, -, hrm'⟩, -⟩
        · rw [hcopy] at hleft
          cases hleft
        · rw [hrm] at hrm'
          cases hrm'
      · rw [Ets.lookup_delete_of_ne _ hp]
        exact Ets.lookup_insert_of_ne _ _ hp
    · refine ⟨files.insert (l.tmp m io.unique).file m.content, by rw [if_neg hrm]; rfl, ?_,
        fun p hp => Ets.lookup_insert_of_ne _ _ hp⟩
      have hremains : io.Remains := .inr ⟨hcopy, hfalse, by simpa using hrm⟩
      exact adds_insert.trans (and_iff_right hremains).symm

theorem exists_uri (hv : m.Valid w) (l : Local) : ∃ uri, Uri.buildResource m.mediaType m.sha256
    { ext := m.ext, env := some l.env, host := l.hostPort } = .ok uri := by
  have hsha : Uri.validateSha256 m.sha256 = true := validateSha256_of_valid hv
  have hext : Uri.validateExt m.mediaType (Uri.downcase m.ext) = true := by
    obtain ⟨exts, hlookup, hmem⟩ := lookup_of_allows hv.allowed
    rw [Uri.validateExt, hlookup, Uri.downcase, Uri.downcase, lowerAscii_lowerAscii, hv.lower]
    exact List.contains_iff_mem.mpr hmem
  rw [Uri.buildResource]
  simp only [hsha, hext, Bool.not_true, Bool.false_eq_true, if_false]
  exact ⟨_, rfl⟩

theorem dest_ne_refs (hv : m.Valid w) : (l.dest m).file ≠ (l.refs m).file := by
  obtain ⟨htype, -⟩ := plain_of_pyAllows hv.allowed
  obtain ⟨hdest, hone⟩ := plain_dest hv
  obtain ⟨hrefs, htwo⟩ := plain_refs hv
  have hdots : dots m.fileName ≠ dots (m.sha256 ++ ".refs.jsonl") := by omega
  exact path_ne htype htype hdest hrefs hdots

theorem tmp_ne_refs (hv : m.Valid w) (unique : Nat) : (l.tmp m unique).file ≠ (l.refs m).file := by
  obtain ⟨htype, -⟩ := plain_of_pyAllows hv.allowed
  obtain ⟨htmp, hthree⟩ := plain_tmp hv unique
  obtain ⟨hrefs, htwo⟩ := plain_refs hv
  have hdots : dots (m.fileName ++ ".tmp." ++ unique.repr) ≠ dots (m.sha256 ++ ".refs.jsonl") := by
    omega
  exact path_ne htype htype htmp hrefs hdots

/-- **How a call goes on behind the copy.** -/
theorem place_cases (line : Option Bytes) (hv : m.Valid w) (hplaced : Placed l io m files) :
    ∃ copied, atomicCopy l io m files = (true, copied) ∧
      (line = none ∧ place l io line m files = (.raised, copied) ∨
        ∃ text, line = some text ∧
          ((∃ left, io.append = .failed left ∧
              place l io line m files = (.error .append, appendRef l io m text copied)) ∨
            io.append = .done ∧ ∃ uri, Uri.buildResource m.mediaType m.sha256
              { ext := m.ext, env := some l.env, host := l.hostPort } = .ok uri ∧
              place l io line m files =
                (.ok ⟨uri, m.sha256, l.dest m⟩, appendRef l io m text copied))) := by
  obtain ⟨copied, hcopy, -⟩ := atomicCopy_of_placed hplaced
  refine ⟨copied, hcopy, ?_⟩
  rw [place, hcopy]
  cases line with
  | none => exact .inl ⟨rfl, rfl⟩
  | some text =>
    refine .inr ⟨text, rfl, ?_⟩
    cases happend : io.append with
    | failed left => exact .inl ⟨left, rfl, rfl⟩
    | done =>
      obtain ⟨uri, huri⟩ := exists_uri hv l
      refine .inr ⟨rfl, uri, huri, ?_⟩
      simp only [huri]

variable {copied : Files}

theorem adds_copied (hplaced : Placed l io m files)
    (hcopy : atomicCopy l io m files = (true, copied)) :
    Adds files copied ↔ files.lookup (l.dest m).file = none := by
  obtain ⟨copied', hcopy', ⟨content, hcontent, -⟩, hother⟩ := atomicCopy_of_placed hplaced
  obtain rfl : copied' = copied := by
    rw [hcopy] at hcopy'
    exact (Prod.mk.inj hcopy').2.symm
  refine adds_iff_of_lookup (by simp [hcontent]) fun p hp hsome => ?_
  rw [hother p hp] at hsome
  split_ifs at hsome with htmp
  · exact absurd rfl hsome
  · exact hsome

theorem lookup_refs_copied (hv : m.Valid w) (hplaced : Placed l io m files)
    (hcopy : atomicCopy l io m files = (true, copied)) :
    copied.lookup (l.refs m).file = files.lookup (l.refs m).file := by
  obtain ⟨copied', hcopy', -, hother⟩ := atomicCopy_of_placed hplaced
  obtain rfl : copied' = copied := by
    rw [hcopy] at hcopy'
    exact (Prod.mk.inj hcopy').2.symm
  rw [hother _ (dest_ne_refs hv).symm, if_neg fun h => tmp_ne_refs hv io.unique h.1.symm]

theorem adds_appendRef (hv : m.Valid w) (hplaced : Placed l io m files)
    (hcopy : atomicCopy l io m files = (true, copied)) (text : Bytes) :
    Adds files (appendRef l io m text copied) ↔
      files.lookup (l.dest m).file = none ∨
        io.append ≠ .failed none ∧ files.lookup (l.refs m).file = none := by
  have hcopied := adds_copied hplaced hcopy
  have hrefs := lookup_refs_copied hv hplaced hcopy
  rw [appendRef, ← hcopied, ← hrefs]
  by_cases hnone : io.append = .failed none
  · rw [hnone]
    exact (or_iff_left fun h => h.1 rfl).symm
  · -- Something is written, and so the file of references is there.
    rw [and_iff_right hnone]
    obtain ⟨content, hwrite⟩ : ∃ content, io.append.write (l.refs m).file
        ((copied.lookup (l.refs m).file).getD [] ++ text ++ [10]) copied =
          copied.insert (l.refs m).file content := by
      rcases happend : io.append with _ | _ | left
      · exact ⟨_, rfl⟩
      · exact absurd happend hnone
      · exact ⟨_, rfl⟩
    rw [hwrite]
    constructor
    · rintro ⟨p, habsent, hsome⟩
      by_cases hp : p = (l.refs m).file
      · exact .inr (by rw [hrefs, ← hp]; exact habsent)
      · rw [Ets.lookup_insert_of_ne _ _ hp] at hsome
        exact .inl ⟨p, habsent, hsome⟩
    · rintro (⟨p, habsent, hsome⟩ | habsent)
      · refine ⟨p, habsent, ?_⟩
        by_cases hp : p = (l.refs m).file
        · rw [hp]
          simp
        · rwa [Ets.lookup_insert_of_ne _ _ hp]
      · refine ⟨(l.refs m).file, by rw [← hrefs]; exact habsent, ?_⟩
        simp

/-- **A call that returns an error adds no file if and only if its errors are tidy.** -/
theorem place_error (hv : m.Valid w) :
    (∀ e, (place l io line m files).1 = .error e → ¬ Adds files (place l io line m files).2) ↔
      TidyErrors l io line m files := by
  by_cases hplaced : Placed l io m files
  · have hcopied : files.lookup (l.dest m).file = none → io.Remains → False := by
      intro hdest hremains
      obtain ⟨hdone, hrename⟩ := hplaced.resolve_left (· hdest)
      rcases hremains with ⟨left, hleft⟩ | ⟨-, hfalse, -⟩
      · rw [hdone] at hleft
        cases hleft
      · rw [hrename] at hfalse
        cases hfalse
    obtain ⟨copied, hcopy, ⟨hline, hplace⟩ | ⟨text, hline, ⟨left, happend, hplace⟩ |
      ⟨happend, uri, -, hplace⟩⟩⟩ := place_cases line hv hplaced
    · rw [hplace]
      refine iff_of_true (fun e he => Outcome.noConfusion he) ⟨?_, ?_⟩
      · exact fun hdest hremains => (hcopied hdest hremains).elim
      · exact fun _ hsome => absurd hline hsome
    · have hleft : io.append ≠ .failed none ↔ left ≠ none := by simp [happend]
      rw [hplace, adds_appendRef hv hplaced hcopy, hleft, not_or, not_and, ← ne_eq, ← ne_eq]
      constructor
      · intro h
        refine ⟨fun hdest hremains => (hcopied hdest hremains).elim, fun _ _ left' hleft' => ?_⟩
        obtain rfl := Written.failed.inj (happend.symm.trans hleft')
        exact h _ rfl
      · intro h _ _
        exact h.appended hplaced (by simp [hline]) left happend
    · rw [hplace]
      refine iff_of_true (fun e he => Outcome.noConfusion he) ⟨?_, fun _ _ left hleft => ?_⟩
      · exact fun hdest hremains => (hcopied hdest hremains).elim
      · rw [happend] at hleft
        cases hleft
  · -- The copy has not come to its place; only it can be new.
    obtain ⟨files', hcopy, hadds, -⟩ := atomicCopy_of_not_placed hplaced
    have hdest : files.lookup (l.dest m).file = none := not_not.mp fun h => hplaced (.inl h)
    rw [place, hcopy]
    constructor
    · intro h
      refine ⟨fun _ hremains habsent => ?_, fun h => absurd h hplaced⟩
      exact h .copy rfl (hadds.mpr ⟨hremains, habsent⟩)
    · intro h _ _ hnew
      obtain ⟨hremains, habsent⟩ := hadds.mp hnew
      exact h.copied hdest hremains habsent

theorem place_raised (hv : m.Valid w) :
    ((place l io line m files).1 = .raised → ¬ Adds files (place l io line m files).2) ↔
      (Placed l io m files → line = none → files.lookup (l.dest m).file ≠ none) := by
  by_cases hplaced : Placed l io m files
  · obtain ⟨copied, hcopy, ⟨hline, hplace⟩ | ⟨text, hline, ⟨left, -, hplace⟩ |
      ⟨-, uri, -, hplace⟩⟩⟩ := place_cases line hv hplaced
    · rw [hplace, adds_copied hplaced hcopy]
      exact ⟨fun h _ _ => h rfl, fun h _ => h hplaced hline⟩
    · rw [hplace]
      exact iff_of_true (fun he => Outcome.noConfusion he) fun _ hnone => by
        rw [hline] at hnone
        cases hnone
    · rw [hplace]
      exact iff_of_true (fun he => Outcome.noConfusion he) fun _ hnone => by
        rw [hline] at hnone
        cases hnone
  · obtain ⟨files', hcopy, -⟩ := atomicCopy_of_not_placed hplaced
    rw [place, hcopy]
    exact iff_of_true (fun he => Outcome.noConfusion he) fun h => absurd h hplaced

/-- **A call that fails adds no file if and only if it is tidy.** -/
theorem place_clean (hv : m.Valid w) :
    ((∀ stored, (place l io line m files).1 ≠ .ok stored) →
      ¬ Adds files (place l io line m files).2) ↔ Tidy l io line m files := by
  have herror : (∀ e, (place l io line m files).1 = .error e →
      ¬ Adds files (place l io line m files).2) ↔ TidyErrors l io line m files := place_error hv
  have hraised : ((place l io line m files).1 = .raised →
      ¬ Adds files (place l io line m files).2) ↔
        (Placed l io m files → line = none → files.lookup (l.dest m).file ≠ none) :=
    place_raised hv
  constructor
  · intro h
    have herrors := herror.mp fun e he => h fun stored hok => by
      rw [he] at hok
      cases hok
    refine { herrors with encoded := hraised.mp fun he => h fun stored hok => ?_ }
    rw [he] at hok
    cases hok
  · intro h hfails
    cases hplace : (place l io line m files).1 with
    | ok stored => exact absurd hplace (hfails stored)
    | error e => exact herror.mpr h.toTidyErrors e hplace
    | raised => exact hraised.mpr h.encoded hplace

end

/-! ## The URI of a medium -/

theorem parse_eq_ok {s : String} {u : Uri.Parsed} : Uri.parse s = .ok u ↔
    ∃ p port, pieces s = some p ∧ Uri.Typed (parts p.path) ∧
      Uri.readPort (cutAuthority p.authority) = some port ∧ u = Uri.assemble p port := by
  have hoption : Uri.parse s = .ok u ↔ (pieces s).bind Uri.ofPieces = some u := by
    rw [← Uri.parse_pieces]
    cases Uri.parse s <;> simp [Except.toOption]
  rw [hoption, Option.bind_eq_some_iff]
  refine exists_congr fun p => ?_
  rw [Uri.ofPieces]
  constructor
  · rintro ⟨hp, h⟩
    split_ifs at h with htyped
    obtain ⟨port, hport, rfl⟩ := Option.map_eq_some_iff.mp h
    exact ⟨port, hp, htyped, hport, rfl⟩
  · rintro ⟨port, hp, htyped, hport, rfl⟩
    rw [if_pos htyped, hport]
    exact ⟨hp, rfl⟩

/-- The path is that of a file with the digest. -/
def NamesFile (mediaType sha256 ext path : String) : Prop :=
  ∃ spelled, Uri.downcase spelled = ext ∧
    parts path = ["resources", mediaType, sha256 ++ "." ++ spelled]

variable {uri : String}

theorem parseResource_eq_ok {r : Uri.Resource} : Uri.parseResource uri = .ok r ↔
    ∃ p, pieces uri = some p ∧ Uri.readPort (cutAuthority p.authority) ≠ none ∧
      NamesFile r.mediaType r.sha256 r.ext p.path ∧ Uri.validateSha256 r.sha256 = true ∧
      Uri.validateExt r.mediaType r.ext = true ∧
      r.env = (cutAuthority p.authority).org ∧ r.host = (cutAuthority p.authority).host := by
  constructor
  · intro h
    rw [Uri.parseResource] at h
    split at h
    · cases h
    · rename_i u hu
      obtain ⟨p, port, hp, -, hport, rfl⟩ := parse_eq_ok.mp hu
      split_ifs at h with htype
      split at h
      · rename_i first mediaType last hsegments
        split at h
        · rename_i sha ext hsplit
          split_ifs at h with hsha hext
          obtain rfl := Except.ok.inj h
          have hparts : parts p.path = [first, mediaType, last] := hsegments
          have hfirst : first = "resources" := by
            have htype' : typeOf (parts p.path) = "resources" := htype
            rwa [hparts] at htype'
          obtain ⟨rfl, -⟩ := splitParts2_eq_pair.mp hsplit
          refine ⟨p, hp, by simp [hport], ⟨ext, rfl, ?_⟩, by simpa using hsha,
            by simpa using hext, rfl, rfl⟩
          rw [hparts, hfirst]
          rfl
        · cases h
      · cases h
  · rintro ⟨p, hp, hport, ⟨ext, hext, hparts⟩, hsha, hvalid, henv, hhost⟩
    obtain ⟨port, hport⟩ := Option.ne_none_iff_exists'.mp hport
    have htyped : Uri.Typed (parts p.path) := by
      rw [hparts]
      exact ⟨by simp, show "resources" ∈ Uri.validTypes by decide⟩
    have hu := parse_eq_ok.mpr ⟨p, port, hp, htyped, hport, rfl⟩
    have hsplit : splitParts2 '.' (r.sha256 ++ "." ++ ext) = [r.sha256, ext] :=
      splitParts2_eq_pair.mpr ⟨rfl, not_dot_of_validateSha256 hsha⟩
    have hsegments : (Uri.assemble p port).segments =
        ["resources", r.mediaType, r.sha256 ++ "." ++ ext] := hparts
    have htype : (Uri.assemble p port).type = "resources" := congrArg typeOf hparts
    rw [Uri.parseResource, hu]
    simp only [htype, hsegments, hsplit, hsha, hext, hvalid, if_true, Bool.not_true,
      Bool.false_eq_true, if_false, Except.ok.injEq]
    rw [show (Uri.assemble p port).org = r.env from henv.symm,
      show (Uri.assemble p port).host = r.host from hhost.symm]

/-- `authority/2`, of the URIs of the store. -/
def Local.authority (l : Local) : String := Uri.authority l.hostPort { env := some l.env }

/-- **The URI of the medium is read as it was meant.**  The environment and the host are
read up to their first slash, where the environment has to stand in front of the `@`, or
no `@` be, and the port has to be a number.  Behind that slash may be nothing but slashes;
or, in front of a `?`, again the path of the medium. -/
structure Legible (l : Local) (m : Medium) : Prop where
  env : (cutAuthority (cutFirst '/' l.authority).1).org = none ∨
    (cutAuthority (cutFirst '/' l.authority).1).org = some l.env
  port : Uri.readPort (cutAuthority (cutFirst '/' l.authority).1) ≠ none
  slashes : ∀ behind, (cutFirst '/' l.authority).2 = some behind → '?' ∉ behind.toList →
    parts behind = []
  query : ∀ behind, (cutFirst '/' l.authority).2 = some behind → '?' ∈ behind.toList →
    NamesFile m.mediaType m.sha256 m.ext (cutFirst '?' behind).1

theorem parts_append (a b : String) : parts (a ++ "/" ++ b) = parts a ++ parts b := by
  have hlist : (a ++ "/" ++ b).toList = a.toList ++ '/' :: b.toList := by simp
  rw [parts, split, hlist, List.splitOn_append_cons_self, List.map_append, List.filter_append]
  rfl

/-- The path of a medium in its URI. -/
def pathText (m : Medium) : String := "/".intercalate ["resources", m.mediaType, m.fileName]

section
variable {w : World} {l : Local} {m : Medium} {uri : String}

theorem pathText_plain (hv : m.Valid w) :
    parts (pathText m) = ["resources", m.mediaType, m.fileName] ∧ '?' ∉ (pathText m).toList := by
  obtain ⟨exts, hlookup, hmem⟩ := lookup_of_allows hv.allowed
  obtain ⟨-, -, htype, hexts⟩ := plain_of_lookup hlookup
  obtain ⟨hplain, -⟩ := plain_of_pyAllows hv.allowed
  obtain ⟨hname, -⟩ := plain_dest hv
  have hsha : sha256Pattern m.sha256 = true := by
    rw [hv.sha]
    exact w.sha256_pattern m.content
  constructor
  · refine parts_intercalate fun seg hseg => ?_
    simp only [List.mem_cons, List.not_mem_nil, or_false] at hseg
    rcases hseg with rfl | rfl | rfl
    · exact ⟨by decide, by decide⟩
    · exact ⟨hplain.1, hplain.2.1⟩
    · exact ⟨hname.1, hname.2.1⟩
  · intro hquery
    rcases of_mem_intercalate hquery with hc | ⟨seg, hseg, hc⟩
    · exact absurd hc (by decide)
    · simp only [List.mem_cons, List.not_mem_nil, or_false] at hseg
      rcases hseg with rfl | rfl | rfl
      · exact absurd hc (by decide)
      · exact (plainChar_iff.mp (htype _ hc)).2.1 rfl
      · rw [Medium.fileName, String.toList_append, String.toList_append, List.mem_append,
          List.mem_append] at hc
        rcases hc with (hc | hc) | hc
        · exact (plainChar_iff.mp (sha256Pattern_plain hsha _ hc)).2.1 rfl
        · exact absurd hc (by decide)
        · exact (plainChar_iff.mp (hexts _ hmem _ hc)).2.1 rfl

theorem uri_text (hv : m.Valid w)
    (huri : Uri.buildResource m.mediaType m.sha256
      { ext := m.ext, env := some l.env, host := l.hostPort } = .ok uri) :
    uri = "esr://" ++ (l.authority ++ "/" ++ pathText m) := by
  rw [Uri.buildResource] at huri
  dsimp only at huri
  split_ifs at huri
  rw [Uri.downcase, hv.lower] at huri
  have htext := (Except.ok.inj huri).symm
  rw [htext, pathText, Medium.fileName, Local.authority]
  simp only [String.append_assoc]

theorem pieces_uri (hv : m.Valid w)
    (huri : Uri.buildResource m.mediaType m.sha256
      { ext := m.ext, env := some l.env, host := l.hostPort } = .ok uri) :
    ∃ p, pieces uri = some p ∧ p.authority = (cutFirst '/' l.authority).1 ∧
      ((cutFirst '/' l.authority).2 = none ∧ p.path = pathText m ∨
        ∃ behind, (cutFirst '/' l.authority).2 = some behind ∧
          p.path = (cutFirst '?' (behind ++ "/" ++ pathText m)).1) := by
  have htext := uri_text hv huri
  have hone : ("/" : String) = String.singleton '/' := rfl
  rcases hcut : cutFirst '/' l.authority with ⟨a, _ | behind⟩
  · obtain ⟨rfl, hslash⟩ := cutFirst_eq_none.mp hcut
    refine ⟨⟨l.authority, pathText m, none⟩, pieces_eq_some.mpr ⟨pathText m, htext, hslash, ?_⟩,
      rfl, .inl ⟨rfl, rfl⟩⟩
    exact cutFirst_of_not_mem (pathText_plain hv).2
  · obtain ⟨hauthority, hslash⟩ := cutFirst_eq_some.mp hcut
    refine ⟨⟨a, (cutFirst '?' (behind ++ "/" ++ pathText m)).1,
      (cutFirst '?' (behind ++ "/" ++ pathText m)).2⟩,
      pieces_eq_some.mpr ⟨behind ++ "/" ++ pathText m, ?_, hslash, rfl⟩, rfl,
      .inr ⟨behind, rfl, rfl⟩⟩
    rw [htext, hauthority, ← hone]
    simp only [String.append_assoc]

theorem namesFile_pathText (hv : m.Valid w) :
    NamesFile m.mediaType m.sha256 m.ext (pathText m) :=
  ⟨m.ext, hv.lower, (pathText_plain hv).1⟩

theorem namesFile_behind (hv : m.Valid w) (behind : String) :
    NamesFile m.mediaType m.sha256 m.ext (cutFirst '?' (behind ++ "/" ++ pathText m)).1 ↔
      ('?' ∉ behind.toList → parts behind = []) ∧
        ('?' ∈ behind.toList →
          NamesFile m.mediaType m.sha256 m.ext (cutFirst '?' behind).1) := by
  by_cases hquery : '?' ∈ behind.toList
  · have hcut : (cutFirst '?' (behind ++ "/" ++ pathText m)).1 = (cutFirst '?' behind).1 := by
      rcases hbehind : cutFirst '?' behind with ⟨a, _ | b⟩
      · exact absurd hquery (cutFirst_eq_none.mp hbehind).2
      · obtain ⟨hb, ha⟩ := cutFirst_eq_some.mp hbehind
        have happend := cutFirst_append ha (b ++ "/" ++ pathText m)
        rw [hb]
        simp only [String.append_assoc] at happend ⊢
        rw [happend]
    rw [hcut]
    exact ⟨fun h => ⟨fun hnot => absurd hquery hnot, fun _ => h⟩, fun h => h.2 hquery⟩
  · have hnone : '?' ∉ (behind ++ "/" ++ pathText m).toList := by
      rw [String.toList_append, String.toList_append, List.mem_append, List.mem_append]
      rintro ((hmem | hmem) | hmem)
      · exact hquery hmem
      · exact absurd hmem (by decide)
      · exact (pathText_plain hv).2 hmem
    rw [cutFirst_of_not_mem hnone, NamesFile, parts_append, (pathText_plain hv).1]
    constructor
    · rintro ⟨spelled, -, hparts⟩
      refine ⟨fun _ => ?_, fun hmem => absurd hmem hquery⟩
      have hlen := congrArg List.length hparts
      rw [List.length_append] at hlen
      exact List.eq_nil_of_length_eq_zero (by simpa using hlen)
    · rintro ⟨hnil, -⟩
      rw [hnil hquery]
      exact ⟨m.ext, hv.lower, rfl⟩

/-- **When the URI of a medium is read as the medium.** -/
theorem legible_iff (hv : m.Valid w)
    (huri : Uri.buildResource m.mediaType m.sha256
      { ext := m.ext, env := some l.env, host := l.hostPort } = .ok uri) :
    (∃ r, Uri.parseResource uri = .ok r ∧ (r.env = none ∨ r.env = some l.env) ∧
      r.mediaType = m.mediaType ∧ r.sha256 = m.sha256 ∧ r.ext = m.ext) ↔ Legible l m := by
  obtain ⟨p, hp, hauthority, hpath⟩ := pieces_uri hv huri
  have hnames : NamesFile m.mediaType m.sha256 m.ext p.path ↔
      ∀ behind, (cutFirst '/' l.authority).2 = some behind →
        ('?' ∉ behind.toList → parts behind = []) ∧
          ('?' ∈ behind.toList →
            NamesFile m.mediaType m.sha256 m.ext (cutFirst '?' behind).1) := by
    rcases hpath with ⟨hnone, hpath⟩ | ⟨behind, hsome, hpath⟩
    · rw [hpath]
      refine iff_of_true (namesFile_pathText hv) fun behind hbehind => ?_
      rw [hnone] at hbehind
      cases hbehind
    · rw [hpath, namesFile_behind hv]
      constructor
      · intro h behind' hbehind'
        obtain rfl := Option.some.inj (hsome.symm.trans hbehind')
        exact h
      · exact fun h => h behind hsome
  constructor
  · rintro ⟨r, hr, henv, htype, hsha, hext⟩
    obtain ⟨p', hp', hport, hfile, -, -, horg, -⟩ := parseResource_eq_ok.mp hr
    obtain rfl := Option.some.inj (hp.symm.trans hp')
    rw [hauthority] at hport horg
    rw [htype, hsha, hext] at hfile
    have hbehind := hnames.mp hfile
    exact ⟨horg ▸ henv, hport, fun b hb => (hbehind b hb).1, fun b hb => (hbehind b hb).2⟩
  · intro h
    have hfile := hnames.mpr fun b hb => ⟨h.slashes b hb, h.query b hb⟩
    have hvalid : Uri.validateExt m.mediaType m.ext = true := by
      obtain ⟨exts, hlookup, hmem⟩ := lookup_of_allows hv.allowed
      rw [Uri.validateExt, hlookup, Uri.downcase, hv.lower]
      exact List.contains_iff_mem.mpr hmem
    refine ⟨⟨m.mediaType, m.sha256, m.ext, (cutAuthority p.authority).org,
      (cutAuthority p.authority).host⟩, ?_, ?_, rfl, rfl, rfl⟩
    · refine parseResource_eq_ok.mpr ⟨p, hp, ?_, hfile, validateSha256_of_valid hv, hvalid,
        rfl, rfl⟩
      rw [hauthority]
      exact h.port
    · dsimp only
      rw [hauthority]
      exact h.env

end

/-! ## Resolving -/

theorem resolve_eq_ok {l : Local} {files : Files} {p : FilePath} :
    resolve l files uri = .ok p ↔ ∃ r, Uri.parseResource uri = .ok r ∧
      (r.env = none ∨ r.env = some l.env) ∧ p = l.buildLocalPath r.mediaType r.sha256 r.ext ∧
      files.lookup p.file ≠ none := by
  rw [resolve]
  constructor
  · intro h
    split at h
    · cases h
    · rename_i r hr
      dsimp only at h
      split_ifs at h with henv hfile
      obtain rfl := Except.ok.inj h
      have hforeign : r.env = none ∨ r.env = some l.env := by
        by_contra hnot
        exact henv (not_or.mp hnot)
      exact ⟨r, hr, hforeign, rfl, by simpa using hfile⟩
  · rintro ⟨r, hr, henv, rfl, hfile⟩
    have hforeign : ¬ (r.env ≠ none ∧ r.env ≠ some l.env) := fun h => henv.elim h.1 h.2
    simp only [hr, if_neg hforeign]
    rw [if_neg (by simpa using hfile)]

theorem allows_of_parseResource {r : Uri.Resource} (h : Uri.parseResource uri = .ok r) :
    Uri.validateSha256 r.sha256 = true ∧ pyAllows r.mediaType r.ext = true := by
  obtain ⟨cut, -, -, ⟨spelled, hspelled, -⟩, hsha, hext, -, -⟩ := parseResource_eq_ok.mp h
  have hlower : Uri.downcase r.ext = r.ext := by
    rw [← hspelled]
    exact lowerAscii_lowerAscii spelled
  rw [Uri.validateExt, hlower] at hext
  exact ⟨hsha, hext⟩

/-- **Whatever the URI, the file is in the directory of its media type.** -/
theorem resolve_confined {l : Local} {files : Files} {p : FilePath}
    (h : resolve l files uri = .ok p) :
    ∃ mediaType ∈ PyUri.mediaTypes, ∃ name, IsPlain name ∧ p = l.path mediaType name := by
  obtain ⟨r, hr, -, rfl, -⟩ := resolve_eq_ok.mp h
  obtain ⟨hsha, hallows⟩ := allows_of_parseResource hr
  obtain ⟨exts, hlookup, -⟩ := lookup_of_allows hallows
  exact ⟨r.mediaType, (plain_of_lookup hlookup).1, _, (plain_name hsha hallows).1, rfl⟩

section
variable {w : World} {l : Local} {io : Io} {line : Option Bytes} {m : Medium}

variable {mediaType text : String} {files : Files}

theorem of_exCheck (h : exCheck w mediaType text = .ok m) :
    m.Valid w ∧ w.stat text = some (.file m.content) ∧
      ∃ p, w.look p = some (.file m.content) := by
  have hsource : w.stat text = some (.file m.content) := by
    rw [exCheck] at h
    split_ifs at h
    split at h
    · cases h
    · cases h
    · rename_i content hstat
      rw [← Except.ok.inj h]
      exact hstat
  have hoption : (exCheck w mediaType text).toOption = some m := by
    rw [h]
    rfl
  obtain ⟨-, content, hlook, hallows, hm⟩ := toOption_exCheck.mp hoption
  have hcontent : m.content = content := by rw [hm]
  have hext : m.ext = pyExtension text := by rw [hm]
  have htype : m.mediaType = mediaType := by rw [hm]
  have hsha : m.sha256 = w.sha256 content := by rw [hm]
  rw [← hcontent] at hlook
  refine ⟨⟨?_, ?_, ?_⟩, hsource, ⟨_, hlook⟩⟩
  · rw [hcontent, hsha]
  · rw [htype, hext]
    exact hallows
  · rw [hext]
    exact pyExtension_lower text

theorem exists_exCheck {content : Bytes} (hdir : namesDir text = false)
    (hlook : w.look (purePath [text]) = some (.file content))
    (hallows : pyAllows mediaType (pyExtension text) = true) :
    ∃ m, exCheck w mediaType text = .ok m := by
  have hoption := toOption_exCheck.mpr ⟨hdir, content, hlook, hallows, rfl⟩
  cases hcheck : exCheck w mediaType text with
  | error e =>
    rw [hcheck] at hoption
    cases hoption
  | ok m => exact ⟨m, rfl⟩

theorem lookup_appendRef (files : Files) (text : Bytes) {p : FilePath} (hp : p ≠ (l.refs m).file) :
    (appendRef l io m text files).lookup p = files.lookup p := by
  rw [appendRef]
  rcases io.append with _ | _ | left
  · exact Ets.lookup_insert_of_ne _ _ hp
  · rfl
  · exact Ets.lookup_insert_of_ne _ _ hp

/-! ## When a call is right -/

/-- Every step of a call is done. -/
def Finishes (l : Local) (io : Io) (line : Option Bytes) (m : Medium) (files : Files) : Prop :=
  Placed l io m files ∧ line ≠ none ∧ io.append = .done

theorem adds_of_finishes (hv : m.Valid w) (h : Finishes l io line m files) :
    Adds files (place l io line m files).2 ↔
      files.lookup (l.dest m).file = none ∨ files.lookup (l.refs m).file = none := by
  obtain ⟨hplaced, hline, hdone⟩ := h
  obtain ⟨copied, hcopy, ⟨hnone, -⟩ | ⟨text, -, ⟨left, hfailed, -⟩ | ⟨-, uri, -, hplace⟩⟩⟩ :=
    place_cases line hv hplaced
  · exact absurd hnone hline
  · rw [hdone] at hfailed
    cases hfailed
  · have hwrites : io.append ≠ .failed none := by simp [hdone]
    rw [hplace, adds_appendRef hv hplaced hcopy, and_iff_right hwrites]

theorem resolve_dest (hv : m.Valid w) {uri : String}
    (huri : Uri.buildResource m.mediaType m.sha256 { ext := m.ext, env := some l.env, host := l.hostPort } = .ok uri)
    (hfile : files.lookup (l.dest m).file ≠ none) :
    resolve l files uri = .ok (l.dest m) ↔ Legible l m := by
  rw [← legible_iff hv huri, resolve_eq_ok]
  refine exists_congr fun r => and_congr_right fun hr => and_congr_right fun _ => ?_
  constructor
  · rintro ⟨hpath, -⟩
    obtain ⟨hsha, hallows⟩ := allows_of_parseResource hr
    obtain ⟨htype, hname⟩ := (file_path_inj (plain_of_pyAllows hallows).1
      (plain_of_pyAllows hv.allowed).1 (plain_name hsha hallows).1 (plain_dest hv).1).mp
        (congrArg FilePath.file hpath.symm)
    obtain ⟨hsame, hsame'⟩ := cut_injective (not_dot_of_validateSha256 hsha)
      (not_dot_of_validateSha256 (validateSha256_of_valid hv)) hname
    exact ⟨htype, hsame, hsame'⟩
  · rintro ⟨htype, hsha, hext⟩
    rw [htype, hsha, hext]
    exact ⟨rfl, hfile⟩

theorem place_of_finishes (shelf : Shelf w l) (hv : m.Valid w)
    (hlook : ∃ p, w.look p = some (.file m.content))
    (h : Finishes l io line m shelf.files) :
    ∃ uri, (place l io line m shelf.files).1 = .ok ⟨uri, m.sha256, l.dest m⟩ ∧
      (place l io line m shelf.files).2.lookup (l.dest m).file = some m.content ∧
      (resolve l (place l io line m shelf.files).2 uri = .ok (l.dest m) ↔ Legible l m) := by
  obtain ⟨hplaced, hline, hdone⟩ := h
  obtain ⟨copied, hcopy, ⟨hnone, -⟩ | ⟨text, -, ⟨left, hfailed, -⟩ | ⟨-, uri, huri, hplace⟩⟩⟩ :=
    place_cases line hv hplaced
  · exact absurd hnone hline
  · rw [hdone] at hfailed
    cases hfailed
  · obtain ⟨copied', hcopy', ⟨content, hcontent, hfrom⟩, -⟩ := atomicCopy_of_placed hplaced
    obtain rfl : copied' = copied := by
      rw [hcopy] at hcopy'
      exact (Prod.mk.inj hcopy').2.symm
    -- A file that was there has the digest of the medium, so it is the medium.
    have hsame : content = m.content := by
      rcases hfrom with hnew | hold
      · exact hnew
      · obtain ⟨⟨p, hp⟩, hsha⟩ := shelf.addressed _ _ _ _ (validateSha256_of_valid hv) hv.allowed hold
        obtain ⟨q, hq⟩ := hlook
        exact w.collisionFree p q _ _ hp hq (hsha.trans hv.sha)
    have hafter : (place l io line m shelf.files).2.lookup (l.dest m).file = some m.content := by
      rw [hplace, ← hsame, ← hcontent]
      exact lookup_appendRef copied' text (dest_ne_refs hv)
    refine ⟨uri, by rw [hplace], hafter, resolve_dest hv huri ?_⟩
    rw [hafter]
    exact Option.some_ne_none _

theorem ok_of_finishes (hv : m.Valid w) (h : Finishes l io line m files) :
    ∃ stored, (place l io line m files).1 = .ok stored := by
  obtain ⟨hplaced, hline, hdone⟩ := h
  obtain ⟨copied, hcopy, ⟨hnone, -⟩ | ⟨text, -, ⟨left, hfailed, -⟩ | ⟨-, uri, -, hplace⟩⟩⟩ :=
    place_cases line hv hplaced
  · exact absurd hnone hline
  · rw [hdone] at hfailed
    cases hfailed
  · exact ⟨_, by rw [hplace]⟩

theorem finishes_of_ok (hv : m.Valid w) {stored : Stored}
    (h : (place l io line m files).1 = .ok stored) : Finishes l io line m files := by
  by_cases hplaced : Placed l io m files
  · obtain ⟨copied, -, ⟨-, hplace⟩ | ⟨text, rfl, ⟨left, -, hplace⟩ | ⟨hdone, -⟩⟩⟩ :=
      place_cases line hv hplaced
    · rw [hplace] at h
      cases h
    · rw [hplace] at h
      cases h
    · exact ⟨hplaced, Option.some_ne_none text, hdone⟩
  · obtain ⟨copied, hcopy, -⟩ := atomicCopy_of_not_placed hplaced
    rw [place, hcopy] at h
    cases h

theorem store_eq_place (hm : exCheck w mediaType text = .ok m) (hmkdir : io.mkdir = true) :
    store l w io line mediaType text files = place l io line m files := by
  rw [store, hm]
  exact if_pos hmkdir

theorem store_refused (hnot : ∀ m, exCheck w mediaType text = .ok m → io.mkdir ≠ true) :
    ∃ e, store l w io line mediaType text files = (.error e, files) := by
  rw [store]
  split
  · exact ⟨_, rfl⟩
  · rename_i m hm
    rw [if_neg (hnot m hm)]
    exact ⟨_, rfl⟩

/-- **What is asked of a call**, and of every URI. -/
structure Correct (shelf : Shelf w l) (io : Io) (line : Option Bytes) (mediaType text : String) :
    Prop where
  found : ∀ stored, (store l w io line mediaType text shelf.files).1 = .ok stored →
    resolve l (store l w io line mediaType text shelf.files).2 stored.uri = .ok stored.path ∧
      ∃ content, w.stat text = some (.file content) ∧
        (store l w io line mediaType text shelf.files).2.lookup stored.path.file = some content
  clean : (∀ stored, (store l w io line mediaType text shelf.files).1 ≠ .ok stored) →
    ¬ Adds shelf.files (store l w io line mediaType text shelf.files).2
  confined : ∀ files uri p, resolve l files uri = .ok p →
    ∃ mediaType ∈ PyUri.mediaTypes, ∃ name, IsPlain name ∧ p = l.path mediaType name

/-- **When a call is right.**  Of a source that is accepted: if the call finishes, the URI of
the medium is legible, and if not, it is tidy. -/
theorem store_correct_iff (shelf : Shelf w l) (io : Io) (line : Option Bytes)
    (mediaType text : String) :
    Correct shelf io line mediaType text ↔
      ∀ m, exCheck w mediaType text = .ok m → io.mkdir = true →
        Tidy l io line m shelf.files ∧ (Finishes l io line m shelf.files → Legible l m) := by
  constructor
  · intro h m hm hmkdir
    obtain ⟨hv, -, hlook⟩ := of_exCheck hm
    have hstore : store l w io line mediaType text shelf.files = place l io line m shelf.files :=
      store_eq_place hm hmkdir
    refine ⟨(place_clean hv).mp ?_, fun hfinishes => ?_⟩
    · rw [← hstore]
      exact h.clean
    · obtain ⟨uri, hok, -, hlegible⟩ := place_of_finishes shelf hv hlook hfinishes
      rw [← hstore] at hok hlegible
      exact hlegible.mp (h.found _ hok).1
  · intro h
    by_cases hgoes : ∃ m, exCheck w mediaType text = .ok m ∧ io.mkdir = true
    · obtain ⟨m, hm, hmkdir⟩ := hgoes
      obtain ⟨hv, hstat, hlook⟩ := of_exCheck hm
      obtain ⟨htidy, hlegible⟩ := h m hm hmkdir
      refine ⟨?_, ?_, fun files uri p => resolve_confined⟩
      · rw [store_eq_place hm hmkdir]
        intro stored hstored
        have hfinishes := finishes_of_ok hv hstored
        obtain ⟨uri, hok, hafter, hfound⟩ := place_of_finishes shelf hv hlook hfinishes
        obtain rfl := Outcome.ok.inj (hok.symm.trans hstored)
        exact ⟨hfound.mpr (hlegible hfinishes), m.content, hstat, hafter⟩
      · rw [store_eq_place hm hmkdir]
        exact (place_clean hv).mpr htidy
    · obtain ⟨e, he⟩ : ∃ e, store l w io line mediaType text shelf.files =
          (.error e, shelf.files) := store_refused fun m hm hmkdir => hgoes ⟨m, hm, hmkdir⟩
      refine ⟨?_, ?_, fun files uri p => resolve_confined⟩
      · rw [he]
        intro stored hstored
        cases hstored
      · rw [he]
        exact fun _ => not_adds_self

end

/-- Nothing goes wrong. -/
def Io.smooth : Io := ⟨true, 1, .done, true, true, .done⟩

def emptyShelf (w : World) (l : Local) : Shelf w l where
  files := .empty
  addressed mediaType sha ext content _ _ h := by
    rw [Ets.lookup_empty] at h
    cases h

/-- An instance with an `@` in its name. -/
def laptop : Local := ⟨"/root/.esrd", some "dev@mac", "localhost:4001"⟩

/-- The URI of the photo is read as one of the instance `dev`. -/
theorem not_correct_at : ¬ Correct (emptyShelf MediaRuns.photoWorld laptop) .smooth
    (some [123, 125]) "image" "/tmp/photo.png" := by
  intro h
  have hpath : purePath ["/tmp/photo.png"] = ⟨true, ["tmp", "photo.png"]⟩ := by decide +kernel
  obtain ⟨m, hm⟩ : ∃ m, exCheck MediaRuns.photoWorld "image" "/tmp/photo.png" = .ok m :=
    exists_exCheck (by decide +kernel) (by rw [hpath]; rfl) (by decide +kernel)
  obtain ⟨hv, -, hlook⟩ := of_exCheck hm
  have hstore : store laptop MediaRuns.photoWorld .smooth (some [123, 125]) "image"
      "/tmp/photo.png" (emptyShelf MediaRuns.photoWorld laptop).files =
      place laptop .smooth (some [123, 125]) m (emptyShelf MediaRuns.photoWorld laptop).files := by
    rw [store, hm]
    rfl
  have hfinishes : Finishes laptop .smooth (some [123, 125]) m
      (emptyShelf MediaRuns.photoWorld laptop).files :=
    ⟨.inr ⟨rfl, rfl⟩, Option.some_ne_none _, rfl⟩
  obtain ⟨uri, hok, -, hlegible⟩ := place_of_finishes _ hv hlook hfinishes
  rw [← hstore] at hok hlegible
  have hdev : (cutAuthority (cutFirst '/' laptop.authority).1).org = some "dev" := by
    decide +kernel
  rcases (hlegible.mp (h.found _ hok).1).env with hnone | hsome
  · rw [hdev] at hnone
    cases hnone
  · rw [hdev] at hsome
    exact absurd hsome (by decide)

end MediaFiles
end Esr
