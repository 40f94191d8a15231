import Esr.MediaStore
import Esr.Runs

/-! # Both stores at work

The adapter and the runtime store in the same directory.  A call of `store` looks whether
the file is there; if not, it copies the source, a chunk at a time, under a name of its
own, and renames the copy.  Then it appends a line to the references and returns a URI.
The calls run side by side, and each step of one may come between two of another.

What a step does to the files of the others is said once, in `Touches`: the copies are
left alone, and at the place of a medium there is what was there, or its content.
-/
namespace Esr
namespace MediaRuns
open MediaStore

/-! ## The calls -/

/-- What a call goes by while it runs: its process and an object, in the adapter, or a
unique integer, in the runtime. -/
inductive Token where
  | adapter (pid id : Nat)
  | runtime (n : Nat)
  deriving DecidableEq

namespace Token

/-- The store of its side, up to the hash. -/
def check (w : World) (mediaType text : String) : Token → Except StoreError Medium
  | adapter _ _ => pyCheck w mediaType text
  | runtime _ => exCheck w mediaType text

/-- The URI of its side. -/
def uri (s : Setting) (m : Medium) : Token → Option String
  | adapter _ _ => (pyUri s m).toOption
  | runtime _ => (exUri s m).toOption

def path (segments : List String) : Token → FilePath
  | adapter _ _ => purePath segments
  | runtime _ => join segments

def dest (s : Setting) (m : Medium) (token : Token) : FilePath :=
  token.path (resourceDir s m.mediaType ++ [m.fileName])

def text : Token → String
  | adapter pid id => pid.repr ++ "." ++ id.repr
  | runtime n => n.repr

/-- The name of the copy is that of the file, `.tmp.` and its own. -/
def tmp (s : Setting) (m : Medium) (token : Token) : FilePath :=
  token.path (resourceDir s m.mediaType ++ [m.fileName ++ ".tmp." ++ token.text])

def refs (s : Setting) (m : Medium) (token : Token) : FilePath :=
  token.path (resourceDir s m.mediaType ++ [m.sha256 ++ ".refs.jsonl"])

end Token

/-- How far a call is: it has the hash; it has not found the file; it has copied `n`
bytes; the file is there. -/
inductive Stage where
  | planned
  | absent
  | copying (n : Nat)
  | stored

structure Job where
  mediaType : String
  text : String
  medium : Medium
  stage : Stage

/-- What a call returns, with what it was called for. -/
structure Receipt where
  token : Token
  mediaType : String
  text : String
  medium : Medium
  uri : String
  path : FilePath

structure State where
  files : Ets FilePath Bytes
  jobs : Ets Token Job
  receipts : List Receipt

/-- No file, and no call. -/
def init : State := ⟨.empty, .empty, []⟩

/-! ## The steps -/

def append (files : Ets FilePath Bytes) (p : FilePath) (bytes : Bytes) : Ets FilePath Bytes :=
  files.insert p ((files.lookup p).getD [] ++ bytes)

/-- `tmp.replace(dest)` and `File.rename/2`. -/
def rename (files : Ets FilePath Bytes) (old new : FilePath) : Option (Ets FilePath Bytes) :=
  (files.lookup old).map fun bytes => (files.delete old).insert new bytes

def State.put (st : State) (token : Token) (job : Job) (stage : Stage)
    (files : Ets FilePath Bytes) : State :=
  { st with files := files, jobs := st.jobs.insert token { job with stage := stage } }

/-- The bytes read at a time. -/
def chunk : Nat := 65536

/-- The next step of a call, or `none` where it raises; `line` is what it notes. -/
def advance (s : Setting) (st : State) (token : Token) (job : Job) (line : Bytes) :
    Option State :=
  let m := job.medium
  let dest := (token.dest s m).file
  let tmp := (token.tmp s m).file
  match job.stage with
  | .planned =>
      if (st.files.lookup dest).isSome then some (st.put token job .stored st.files)
      else some (st.put token job .absent st.files)
  | .absent => some (st.put token job (.copying 0) (st.files.insert tmp []))
  | .copying n =>
      if n < m.content.length then
        some (st.put token job (.copying (n + chunk))
          (append st.files tmp ((m.content.drop n).take chunk)))
      else (rename st.files tmp dest).map (st.put token job .stored)
  | .stored =>
      (token.uri s m).map fun uri =>
        { files := append st.files (token.refs s m).file line
          jobs := st.jobs.delete token
          receipts := st.receipts ++
            [⟨token, job.mediaType, job.text, m, uri, token.dest s m⟩] }

inductive Act where
  | start (token : Token) (mediaType text : String)
  | advance (token : Token) (line : Bytes)

/-- A token in use is not given out again. -/
def step (w : World) (s : Setting) (st : State) : Act → Option State
  | .start token mediaType text =>
      match st.jobs.lookup token with
      | some _ => none
      | none =>
        match token.check w mediaType text with
        | .error _ => some st
        | .ok m => some { st with jobs := st.jobs.insert token ⟨mediaType, text, m, .planned⟩ }
  | .advance token line =>
      match st.jobs.lookup token with
      | none => none
      | some job => advance s st token job line

/-! ## The names -/

namespace Token

theorem file_path (token : Token) (segments : List String) :
    (token.path segments).file = purePath segments := by
  cases token with
  | adapter pid id => exact file_purePath segments
  | runtime n => rfl

theorem file_dest (s : Setting) (m : Medium) (token : Token) :
    (token.dest s m).file = pyDest s m := token.file_path _

theorem digits_plain {n : Nat} : ∀ c ∈ n.repr.toList, c ≠ '/' ∧ c ≠ '.' := by
  intro c hc
  rw [Nat.toList_repr] at hc
  have hdigit : c.isDigit = true := Nat.isDigit_of_mem_toDigits (by decide) (by decide) hc
  constructor <;>
  · rintro rfl
    cases hdigit

end Token

section
variable {w : World} {s : Setting}

theorem parts_of_plain {name : String} (hslash : '/' ∉ name.toList) (hne : name ≠ "") :
    parts name = [name] := by
  unfold parts split
  rw [List.splitOn_eq_singleton hslash]
  simp [hne]

/-- Two files of the directory, each named after a digest, are different unless their
names are the same. -/
theorem name_inj {mediaType mediaType' : String} {b b' : Bytes} {tail tail' : String}
    (htail : '/' ∉ tail.toList) (htail' : '/' ∉ tail'.toList)
    (h : purePath (resourceDir s mediaType ++ [w.sha256 b ++ tail]) =
      purePath (resourceDir s mediaType' ++ [w.sha256 b' ++ tail'])) :
    w.sha256 b = w.sha256 b' ∧ tail = tail' := by
  have hend (mediaType : String) (b : Bytes) {tail : String} (htail : '/' ∉ tail.toList) :
      (purePath (resourceDir s mediaType ++ [w.sha256 b ++ tail])).parts.getLast? =
        some (w.sha256 b ++ tail) := by
    have hlen : 64 ≤ (w.sha256 b ++ tail).toList.length := by
      rw [String.toList_append, List.length_append, w.hexLength]
      omega
    have hslash : '/' ∉ (w.sha256 b ++ tail).toList := by
      rw [String.toList_append, List.mem_append]
      rintro (hmem | hmem)
      · exact absurd (w.hexChars b _ hmem) (by decide)
      · exact htail hmem
    have hne : w.sha256 b ++ tail ≠ "" := by
      intro hempty
      rw [hempty] at hlen
      exact absurd hlen (by decide)
    have hdot : w.sha256 b ++ tail ≠ "." := by
      intro hdot
      rw [hdot] at hlen
      exact absurd hlen (by decide)
    show (List.filter _ (List.flatMap parts (resourceDir s mediaType ++ _))).getLast? = _
    rw [List.flatMap_append, List.filter_append, List.flatMap_singleton, parts_of_plain hslash hne]
    simp [hdot]
  have hname : w.sha256 b ++ tail = w.sha256 b' ++ tail' := by
    have hlast := congrArg (fun p : FilePath => p.parts.getLast?) h
    rw [hend _ _ htail, hend _ _ htail'] at hlast
    exact Option.some.inj hlast
  have hlist := congrArg String.toList hname
  rw [String.toList_append, String.toList_append] at hlist
  obtain ⟨hsha, hrest⟩ := List.append_inj hlist ((w.hexLength b).trans (w.hexLength b').symm)
  exact ⟨String.toList_injective hsha, String.toList_injective hrest⟩

/-- A medium that a store has accepted. -/
structure Taken (w : World) (m : Medium) : Prop extends m.Valid w where
  source : ∃ p, w.look p = some (.file m.content)

/-- How many dots a name has. -/
def dots (name : String) : Nat := name.toList.count '.'

theorem dots_append (a b : String) : dots (a ++ b) = dots a + dots b := by
  unfold dots
  rw [String.toList_append, List.count_append]

theorem dots_repr (n : Nat) : dots n.repr = 0 :=
  List.count_eq_zero.mpr fun hmem => (Token.digits_plain _ hmem).2 rfl

theorem Token.text_inj {token token' : Token} (h : token.text = token'.text) :
    token = token' := by
  have hdot : ∀ n : Nat, '.' ∉ n.repr.toList := fun n hmem => (digits_plain _ hmem).2 rfl
  have hcount := congrArg dots h
  cases token with
  | adapter pid id =>
    cases token' with
    | adapter pid' id' =>
      obtain ⟨hpid, hid⟩ := cut_injective (hdot pid) (hdot pid') h
      rw [decimal_injective hpid, decimal_injective hid]
    | runtime n =>
      simp only [text, dots_append, dots_repr] at hcount
      exact absurd hcount (by decide)
  | runtime n =>
    cases token' with
    | adapter pid id =>
      simp only [text, dots_append, dots_repr] at hcount
      exact absurd hcount (by decide)
    | runtime n' => rw [decimal_injective h]

theorem Token.slash_text (token : Token) : '/' ∉ token.text.toList := by
  have hslash : ∀ n : Nat, '/' ∉ n.repr.toList := fun n hmem => (digits_plain _ hmem).1 rfl
  cases token with
  | adapter pid id =>
    simp only [text, String.toList_append, List.mem_append, not_or]
    exact ⟨⟨hslash pid, by decide⟩, hslash id⟩
  | runtime n => exact hslash n

variable {m m' : Medium} {token token' : Token}

theorem fileName_eq (h : m.Valid w) : m.fileName = w.sha256 m.content ++ ("." ++ m.ext) := by
  unfold Medium.fileName
  rw [h.sha, String.append_assoc]

theorem file_tmp (h : m.Valid w) : (token.tmp s m).file = purePath (resourceDir s m.mediaType ++
    [w.sha256 m.content ++ ("." ++ m.ext ++ ("." ++ ("tmp." ++ token.text)))]) := by
  have hname : m.fileName ++ ".tmp." ++ token.text =
      w.sha256 m.content ++ ("." ++ m.ext ++ ("." ++ ("tmp." ++ token.text))) := by
    have htmp : ".tmp." = "." ++ "tmp." := by decide
    rw [fileName_eq h, htmp]
    simp only [String.append_assoc]
  unfold Token.tmp
  rw [token.file_path, hname]

theorem file_refs (h : m.Valid w) : (token.refs s m).file = purePath (resourceDir s m.mediaType ++
    [w.sha256 m.content ++ ".refs.jsonl"]) := by
  unfold Token.refs
  rw [token.file_path, h.sha]

theorem pyDest_eq (h : m.Valid w) : pyDest s m = purePath (resourceDir s m.mediaType ++
    [w.sha256 m.content ++ ("." ++ m.ext)]) := by
  unfold pyDest
  rw [fileName_eq h]

theorem slash_ext (h : m.Valid w) : '/' ∉ ("." ++ m.ext).toList := by
  simp only [String.toList_append, List.mem_append, not_or]
  exact ⟨by decide, fun hmem => (h.plain_ext _ hmem).1 rfl⟩

theorem slash_tmp (h : m.Valid w) :
    '/' ∉ ("." ++ m.ext ++ ("." ++ ("tmp." ++ token.text))).toList := by
  simp only [String.toList_append, List.mem_append, not_or]
  refine ⟨⟨by decide, fun hmem => (h.plain_ext _ hmem).1 rfl⟩, by decide, by decide, ?_⟩
  exact token.slash_text

theorem dots_ext (h : m.Valid w) : dots ("." ++ m.ext) = 1 := by
  rw [dots_append, show dots m.ext = 0 from
    List.count_eq_zero.mpr fun hmem => (h.plain_ext _ hmem).2 rfl]
  rfl

theorem dots_tmp (h : m.Valid w) (token : Token) :
    3 ≤ dots ("." ++ m.ext ++ ("." ++ ("tmp." ++ token.text))) := by
  rw [dots_append, dots_ext h, dots_append, dots_append]
  have hdot : dots "." = 1 := by decide
  have htmp : dots "tmp." = 1 := by decide
  omega

/-- **One place, one content.** -/
theorem content_of_dest (h : Taken w m) (h' : Taken w m') (hdest : pyDest s m = pyDest s m') :
    m.content = m'.content := by
  rw [pyDest_eq h.toValid, pyDest_eq h'.toValid] at hdest
  obtain ⟨hsha, -⟩ := name_inj (slash_ext h.toValid) (slash_ext h'.toValid) hdest
  obtain ⟨p, hp⟩ := h.source
  obtain ⟨q, hq⟩ := h'.source
  exact w.collisionFree p q _ _ hp hq hsha

theorem token_of_tmp (h : m.Valid w) (h' : m'.Valid w)
    (htmp : (token.tmp s m).file = (token'.tmp s m').file) : token = token' := by
  have hdot : ∀ {m : Medium}, m.Valid w → '.' ∉ m.ext.toList :=
    fun h hmem => (h.plain_ext _ hmem).2 rfl
  rw [file_tmp h, file_tmp h'] at htmp
  obtain ⟨-, htail⟩ := name_inj (slash_tmp h) (slash_tmp h') htmp
  rw [String.append_assoc, String.append_assoc, String.append_right_inj,
    ← @String.append_assoc m.ext, ← @String.append_assoc m'.ext] at htail
  obtain ⟨-, hrest⟩ := cut_injective (hdot h) (hdot h') htail
  exact Token.text_inj ((String.append_right_inj _).mp hrest)

theorem dest_ne_tmp (h : m.Valid w) (h' : m'.Valid w) :
    pyDest s m ≠ (token.tmp s m').file := by
  intro hpath
  rw [pyDest_eq h, file_tmp h'] at hpath
  obtain ⟨-, htail⟩ := name_inj (slash_ext h) (slash_tmp h') hpath
  have hcount := dots_tmp h' token
  rw [← htail, dots_ext h] at hcount
  omega

theorem dest_ne_refs (h : m.Valid w) (h' : m'.Valid w) :
    pyDest s m ≠ (token.refs s m').file := by
  intro hpath
  rw [pyDest_eq h, file_refs h'] at hpath
  obtain ⟨-, htail⟩ := name_inj (slash_ext h) (by decide) hpath
  have hcount := dots_ext h
  rw [htail] at hcount
  exact absurd hcount (by decide)

theorem tmp_ne_refs (h : m.Valid w) (h' : m'.Valid w) :
    (token.tmp s m).file ≠ (token'.refs s m').file := by
  intro hpath
  rw [file_tmp h, file_refs h'] at hpath
  obtain ⟨-, htail⟩ := name_inj (slash_tmp h) (by decide) hpath
  have hcount := dots_tmp h token
  rw [htail] at hcount
  exact absurd hcount (by decide)

end

section
variable {w : World} {s : Setting} {m m' : Medium} {token token' : Token}
  {files files' : Ets FilePath Bytes}

/-! ## What a step does to the files -/

/-- What a step of the call may do to the files of the others. -/
structure Touches (w : World) (s : Setting) (token : Token)
    (files files' : Ets FilePath Bytes) : Prop where
  dest : ∀ m, Taken w m → files'.lookup (pyDest s m) = files.lookup (pyDest s m) ∨
    files'.lookup (pyDest s m) = some m.content
  tmp : ∀ m, m.Valid w → ∀ other, other ≠ token →
    files'.lookup (other.tmp s m).file = files.lookup (other.tmp s m).file

theorem Touches.refl (w : World) (s : Setting) (token : Token) (files : Ets FilePath Bytes) :
    Touches w s token files files := ⟨fun _ _ => .inl rfl, fun _ _ _ _ => rfl⟩

theorem touches_tmp (h : m.Valid w) (bytes : Bytes) :
    Touches w s token files (files.insert (token.tmp s m).file bytes) := by
  constructor
  · intro m' h'
    exact .inl (files.lookup_insert_of_ne bytes (dest_ne_tmp h'.toValid h))
  · intro m' h' other hother
    exact files.lookup_insert_of_ne bytes fun htmp => hother (token_of_tmp h' h htmp)

theorem touches_refs (h : m.Valid w) (bytes : Bytes) :
    Touches w s token files (files.insert (token.refs s m).file bytes) := by
  constructor
  · intro m' h'
    exact .inl (files.lookup_insert_of_ne bytes (dest_ne_refs h'.toValid h))
  · intro m' h' other hother
    exact files.lookup_insert_of_ne bytes (tmp_ne_refs h' h)

theorem touches_rename (h : Taken w m)
    (hcopy : files.lookup (token.tmp s m).file = some m.content)
    (hrename : rename files (token.tmp s m).file (pyDest s m) = some files') :
    Touches w s token files files' ∧ files'.lookup (pyDest s m) = some m.content := by
  unfold rename at hrename
  rw [hcopy, Option.map_some] at hrename
  obtain rfl := Option.some.inj hrename
  refine ⟨⟨?_, ?_⟩, Ets.lookup_insert_self _ _ _⟩
  · intro m' h'
    by_cases hsame : pyDest s m' = pyDest s m
    · right
      rw [hsame, Ets.lookup_insert_self, content_of_dest h h' hsame.symm]
    · left
      rw [Ets.lookup_insert_of_ne _ _ hsame,
        files.lookup_delete_of_ne (dest_ne_tmp h'.toValid h.toValid)]
  · intro m' h' other hother
    rw [Ets.lookup_insert_of_ne _ _ (dest_ne_tmp h.toValid h').symm,
      files.lookup_delete_of_ne fun htmp => hother (token_of_tmp h' h.toValid htmp)]

/-! ## The invariant -/

/-- What is on disk for a call at its stage. -/
def AtStage (s : Setting) (files : Ets FilePath Bytes) (token : Token) (m : Medium) :
    Stage → Prop
  | .planned => True
  | .absent => True
  | .copying n => files.lookup (token.tmp s m).file = some (m.content.take n)
  | .stored => files.lookup (pyDest s m) = some m.content

/-- A call has returned its URI, and the place where the content of its medium is. -/
structure Settled (w : World) (s : Setting) (files : Ets FilePath Bytes) (r : Receipt) :
    Prop where
  accepted : r.token.check w r.mediaType r.text = .ok r.medium
  uri : r.token.uri s r.medium = some r.uri
  path : r.path = r.token.dest s r.medium
  there : files.lookup (pyDest s r.medium) = some r.medium.content

/-- Where a file of the store is, it is the right one; every call has accepted its source
and is as far as it says; and what was returned is there. -/
structure Sound (w : World) (s : Setting) (st : State) : Prop where
  files : ∀ m, Taken w m → ∀ bytes, st.files.lookup (pyDest s m) = some bytes → bytes = m.content
  accepted : ∀ token job, st.jobs.lookup token = some job →
    token.check w job.mediaType job.text = .ok job.medium
  stage : ∀ token job, st.jobs.lookup token = some job →
    AtStage s st.files token job.medium job.stage
  returned : ∀ r ∈ st.receipts, Settled w s st.files r

theorem sound_init : Sound w s init where
  files m _ bytes h := by
    rw [show init.files = .empty from rfl, Ets.lookup_empty] at h
    cases h
  accepted token job h := by
    rw [show init.jobs = .empty from rfl, Ets.lookup_empty] at h
    cases h
  stage token job h := by
    rw [show init.jobs = .empty from rfl, Ets.lookup_empty] at h
    cases h
  returned r h := by cases h

theorem Token.check_iff {mediaType text : String} (h : token.check w mediaType text = .ok m) :
    Taken w m ∧ m.mediaType = mediaType ∧
      w.look (purePath [text]) = some (.file m.content) := by
  have hpy : ∃ content, w.look (purePath [text]) = some (.file content) ∧
      pyAllows mediaType (pyExtension text) = true ∧
      m = ⟨mediaType, w.sha256 content, pyExtension text, content⟩ := by
    cases token with
    | adapter pid id =>
      rw [Token.check] at h
      exact toOption_pyCheck.mp (toOption_eq_some.mpr h)
    | runtime n =>
      rw [Token.check] at h
      exact (toOption_exCheck.mp (toOption_eq_some.mpr h)).2
  obtain ⟨content, hlook, hallows, hm⟩ := hpy
  have hvalid : m.Valid w := by
    constructor
    · rw [hm]
    · simpa only [hm] using hallows
    · simpa only [hm] using pyExtension_lower text
  have hsource : w.look (purePath [text]) = some (.file m.content) := by rw [hlook, hm]
  exact ⟨⟨hvalid, _, hsource⟩, by rw [hm], hsource⟩

end

/-! ## Steps and runs -/

section
variable {w : World} {s : Setting} {st st' : State} {token : Token} {job : Job} {line : Bytes}

/-- How many steps a call has before it, at most. -/
def Job.left (job : Job) : Nat :=
  match job.stage with
  | .planned => job.medium.content.length + 4
  | .absent => job.medium.content.length + 3
  | .copying n => job.medium.content.length - n + 2
  | .stored => 1

/-- The call goes on, and is at its next stage. -/
structure GoesOn (s : Setting) (st st' : State) (token : Token) (job : Job) (stage : Stage) :
    Prop where
  jobs : st'.jobs = st.jobs.insert token { job with stage := stage }
  receipts : st'.receipts = st.receipts
  there : AtStage s st'.files token job.medium stage
  less : ({ job with stage := stage } : Job).left < job.left

/-- The call returns. -/
structure Returns (s : Setting) (st st' : State) (token : Token) (job : Job) (uri : String) :
    Prop where
  jobs : st'.jobs = st.jobs.delete token
  receipts : st'.receipts = st.receipts ++
    [⟨token, job.mediaType, job.text, job.medium, uri, token.dest s job.medium⟩]
  uri : token.uri s job.medium = some uri
  there : st.files.lookup (pyDest s job.medium) = some job.medium.content

/-- **What a step of a call does.** -/
theorem advance_spec (hs : Sound w s st) (hjob : st.jobs.lookup token = some job)
    (h : advance s st token job line = some st') :
    Touches w s token st.files st'.files ∧
      ((∃ stage, GoesOn s st st' token job stage) ∨ ∃ uri, Returns s st st' token job uri) := by
  obtain ⟨htaken, -, -⟩ := Token.check_iff (hs.accepted token job hjob)
  have hthere := hs.stage token job hjob
  obtain ⟨mediaType, text, m, stage⟩ := job
  dsimp only at htaken hthere h ⊢
  cases stage with
  | planned =>
    simp only [advance, Token.file_dest] at h
    split at h
    · rename_i hsome
      obtain ⟨bytes, hbytes⟩ := Option.isSome_iff_exists.mp hsome
      obtain rfl := Option.some.inj h
      refine ⟨Touches.refl _ _ _ _, .inl ⟨.stored, rfl, rfl, ?_, ?_⟩⟩
      · show st.files.lookup (pyDest s m) = some m.content
        rw [hbytes, hs.files m htaken bytes hbytes]
      · simp only [Job.left]
        omega
    · obtain rfl := Option.some.inj h
      refine ⟨Touches.refl _ _ _ _, .inl ⟨.absent, rfl, rfl, trivial, ?_⟩⟩
      simp only [Job.left]
      omega
  | absent =>
    simp only [advance] at h
    obtain rfl := Option.some.inj h
    refine ⟨touches_tmp htaken.toValid [], .inl ⟨.copying 0, rfl, rfl, ?_, ?_⟩⟩
    · exact Ets.lookup_insert_self _ _ _
    · simp only [Job.left]
      omega
  | copying n =>
    simp only [advance, Token.file_dest] at h
    split at h
    · rename_i hlt
      obtain rfl := Option.some.inj h
      have hcopy : st.files.lookup (token.tmp s m).file = some (m.content.take n) := hthere
      refine ⟨touches_tmp htaken.toValid _, .inl ⟨.copying (n + chunk), rfl, rfl, ?_, ?_⟩⟩
      · show (append st.files _ _).lookup _ = _
        unfold append
        rw [Ets.lookup_insert_self, hcopy, Option.getD_some, ← List.take_add]
      · have hchunk : chunk = 65536 := rfl
        simp only [Job.left]
        omega
    · rename_i hge
      have hcopy : st.files.lookup (token.tmp s m).file = some m.content := by
        rw [← List.take_of_length_le (Nat.le_of_not_lt hge)]
        exact hthere
      obtain ⟨files', hrename, rfl⟩ := Option.map_eq_some_iff.mp h
      obtain ⟨htouches, hdest⟩ := touches_rename htaken hcopy hrename
      refine ⟨htouches, .inl ⟨.stored, rfl, rfl, hdest, ?_⟩⟩
      simp only [Job.left]
      omega
  | stored =>
    simp only [advance] at h
    obtain ⟨uri, huri, rfl⟩ := Option.map_eq_some_iff.mp h
    exact ⟨touches_refs htaken.toValid _, .inr ⟨uri, rfl, rfl, huri, hthere⟩⟩

theorem advance_isSome (hs : Sound w s st) (hjob : st.jobs.lookup token = some job)
    (line : Bytes) : ∃ st', advance s st token job line = some st' := by
  obtain ⟨htaken, -, -⟩ := Token.check_iff (hs.accepted token job hjob)
  have hthere := hs.stage token job hjob
  obtain ⟨mediaType, text, m, stage⟩ := job
  dsimp only at htaken hthere
  cases stage with
  | planned =>
    simp only [advance]
    split
    · exact ⟨_, rfl⟩
    · exact ⟨_, rfl⟩
  | absent => exact ⟨_, rfl⟩
  | copying n =>
    have hcopy : st.files.lookup (token.tmp s m).file = some (m.content.take n) := hthere
    simp only [advance, rename, hcopy]
    split
    · exact ⟨_, rfl⟩
    · exact ⟨_, rfl⟩
  | stored =>
    have huri : ∃ uri, token.uri s m = some uri := by
      cases token with
      | adapter pid id =>
        obtain ⟨uri, huri, -⟩ := reads_pyUri (s := s) htaken.toValid
        exact ⟨uri, by rw [Token.uri, huri]; rfl⟩
      | runtime n =>
        obtain ⟨uri, huri, -⟩ := reads_exUri (s := s) htaken.toValid
        exact ⟨uri, by rw [Token.uri, huri]; rfl⟩
    obtain ⟨uri, huri⟩ := huri
    simp only [advance, huri]
    exact ⟨_, rfl⟩

theorem Touches.keeps {m : Medium} (h : Touches w s token st.files st'.files) (hm : Taken w m)
    (hthere : st.files.lookup (pyDest s m) = some m.content) :
    st'.files.lookup (pyDest s m) = some m.content := by
  rcases h.dest m hm with hsame | hnow
  · rw [hsame, hthere]
  · exact hnow

theorem Touches.atStage {m : Medium} {other : Token} {stage : Stage}
    (h : Touches w s token st.files st'.files) (hm : Taken w m) (hother : other ≠ token)
    (hthere : AtStage s st.files other m stage) : AtStage s st'.files other m stage := by
  cases stage with
  | planned => trivial
  | absent => trivial
  | copying n => exact (h.tmp m hm.toValid other hother).trans hthere
  | stored => exact h.keeps hm hthere

theorem Touches.settled {r : Receipt} (h : Touches w s token st.files st'.files)
    (hr : Settled w s st.files r) : Settled w s st'.files r :=
  { hr with there := h.keeps (Token.check_iff hr.accepted).1 hr.there }

theorem Sound.of_touches (hs : Sound w s st) (htouches : Touches w s token st.files st'.files)
    (hothers : ∀ other, other ≠ token → st'.jobs.lookup other = st.jobs.lookup other)
    (hown : ∀ job, st'.jobs.lookup token = some job →
      token.check w job.mediaType job.text = .ok job.medium ∧
        AtStage s st'.files token job.medium job.stage)
    (hreceipts : ∀ r ∈ st'.receipts, r ∈ st.receipts ∨ Settled w s st'.files r) :
    Sound w s st' := by
  refine ⟨?_, ?_, ?_, ?_⟩
  · intro m hm bytes hbytes
    rcases htouches.dest m hm with hsame | hnow
    · exact hs.files m hm bytes (hsame ▸ hbytes)
    · exact Option.some.inj (hbytes.symm.trans hnow)
  · intro other job hjob
    by_cases hother : other = token
    · subst hother
      exact (hown job hjob).1
    · rw [hothers other hother] at hjob
      exact hs.accepted other job hjob
  · intro other job hjob
    by_cases hother : other = token
    · subst hother
      exact (hown job hjob).2
    · rw [hothers other hother] at hjob
      obtain ⟨htaken, -, -⟩ := Token.check_iff (hs.accepted other job hjob)
      exact htouches.atStage htaken hother (hs.stage other job hjob)
  · intro r hr
    rcases hreceipts r hr with hold | hnew
    · exact htouches.settled (hs.returned r hold)
    · exact hnew

theorem sound_advance (hs : Sound w s st) (hjob : st.jobs.lookup token = some job)
    (h : advance s st token job line = some st') : Sound w s st' := by
  have haccepted := hs.accepted token job hjob
  obtain ⟨htouches, ⟨stage, hgoes⟩ | ⟨uri, hreturns⟩⟩ := advance_spec hs hjob h
  · refine hs.of_touches htouches ?_ ?_ ?_
    · intro other hother
      rw [hgoes.jobs, Ets.lookup_insert_of_ne _ _ hother]
    · intro job' hjob'
      rw [hgoes.jobs, Ets.lookup_insert_self] at hjob'
      obtain rfl := Option.some.inj hjob'
      exact ⟨haccepted, hgoes.there⟩
    · intro r hr
      rw [hgoes.receipts] at hr
      exact .inl hr
  · refine hs.of_touches htouches ?_ ?_ ?_
    · intro other hother
      rw [hreturns.jobs, Ets.lookup_delete_of_ne _ hother]
    · intro job' hjob'
      rw [hreturns.jobs, Ets.lookup_delete_self] at hjob'
      cases hjob'
    · intro r hr
      rw [hreturns.receipts] at hr
      rcases List.mem_append.mp hr with hr | hr
      · exact .inl hr
      · obtain rfl := List.mem_singleton.mp hr
        have hthere := htouches.keeps (Token.check_iff haccepted).1 hreturns.there
        exact .inr ⟨haccepted, hreturns.uri, rfl, hthere⟩

/-- **What a call does before it writes.** -/
theorem start_cases {mediaType text : String}
    (h : step w s st (.start token mediaType text) = some st') :
    (∃ e, token.check w mediaType text = .error e ∧ st' = st) ∨
      ∃ m, token.check w mediaType text = .ok m ∧
        st' = { st with jobs := st.jobs.insert token ⟨mediaType, text, m, .planned⟩ } := by
  simp only [step] at h
  split at h
  · cases h
  · split at h
    · rename_i e hcheck
      exact .inl ⟨e, hcheck, (Option.some.inj h).symm⟩
    · rename_i m hcheck
      exact .inr ⟨m, hcheck, (Option.some.inj h).symm⟩

theorem sound_step {a : Act} (hs : Sound w s st) (h : step w s st a = some st') :
    Sound w s st' := by
  cases a with
  | start token mediaType text =>
    rcases start_cases h with ⟨e, -, rfl⟩ | ⟨m, hcheck, rfl⟩
    · exact hs
    · refine hs.of_touches (Touches.refl _ _ token _) ?_ ?_ fun r => Or.inl
      · intro other hother
        exact Ets.lookup_insert_of_ne _ _ hother
      · intro job hjob
        rw [Ets.lookup_insert_self] at hjob
        obtain rfl := Option.some.inj hjob
        exact ⟨hcheck, trivial⟩
  | advance token line =>
    simp only [step] at h
    split at h
    · cases h
    · rename_i job hlookup
      exact sound_advance hs hlookup h

theorem sound_of_reaches (h : Reaches (step w s) anyStep init st) : Sound w s st :=
  h.invariant sound_init fun _ _ _ hs _ hstep => sound_step hs hstep

/-- Its own steps. -/
def Own (token : Token) (_ : State) (a : Act) : Prop := ∃ line, a = .advance token line

/-- **A call that has begun returns**, by its own steps. -/
theorem returns (hs : Sound w s st) (hjob : st.jobs.lookup token = some job) :
    ∃ st', Reaches (step w s) (Own token) st st' ∧ ∃ r ∈ st'.receipts, r.token = token ∧
      r.mediaType = job.mediaType ∧ r.text = job.text := by
  induction hleft : job.left using Nat.strong_induction_on generalizing st job with
  | _ n ih =>
    obtain ⟨st₁, hadvance⟩ := advance_isSome hs hjob []
    have hstep : step w s st (.advance token []) = some st₁ := by
      simp only [step, hjob]
      exact hadvance
    have hown : Own token st (.advance token []) := ⟨[], rfl⟩
    obtain ⟨-, ⟨stage, hgoes⟩ | ⟨uri, hreturns⟩⟩ := advance_spec hs hjob hadvance
    · have hjob₁ : st₁.jobs.lookup token = some { job with stage := stage } := by
        rw [hgoes.jobs, Ets.lookup_insert_self]
      obtain ⟨st', ⟨as, hrun⟩, r, hr, hreceipt⟩ :=
        ih _ (hleft ▸ hgoes.less) (sound_advance hs hjob hadvance) hjob₁ rfl
      exact ⟨st', ⟨_, .cons hown hstep hrun⟩, r, hr, hreceipt⟩
    · refine ⟨st₁, ⟨_, .cons hown hstep .nil⟩, ?_⟩
      rw [hreturns.receipts]
      exact ⟨_, List.mem_append_right _ List.mem_cons_self, rfl, rfl, rfl⟩

end

section
variable {w : World} {s : Setting} {st : State} {mediaType text : String}

/-! ## One store -/

/-- **What a call returned is kept**: both sides accept the source and find the same
medium, the file at its place has the bytes of the source, the URI is read as one of the
medium, and both sides resolve it to that file. -/
structure Kept (w : World) (s : Setting) (files : Ets FilePath Bytes) (r : Receipt) : Prop where
  py : pyCheck w r.mediaType r.text = .ok r.medium
  ex : exCheck w r.mediaType r.text = .ok r.medium
  source : w.look (purePath [r.text]) = some (.file r.medium.content)
  path : r.path.file = pyDest s r.medium ∧ r.path.file = (exDest s r.medium).file
  bytes : files.lookup r.path.file = some r.medium.content
  reads : Reads s r.medium r.uri
  pyFinds : ∃ p, pyResolve s files r.uri = .ok p ∧ p.file = r.path.file
  exFinds : ∃ p, exResolve s files r.uri = .ok p ∧ p.file = r.path.file

/-- **The two stores are one** for a source: they accept or reject it alike; a call that
rejects it changes nothing, and one that accepts it begins, and returns however the calls
are interleaved; and what was returned is kept. -/
structure OneStore (w : World) (s : Setting) (mediaType text : String) : Prop where
  alike : (pyCheck w mediaType text).toOption = (exCheck w mediaType text).toOption
  rejects : ∀ st st' token e, token.check w mediaType text = .error e →
    step w s st (.start token mediaType text) = some st' → st' = st
  begins : ∀ st token m, st.jobs.lookup token = none →
    token.check w mediaType text = .ok m → ∃ st',
      step w s st (.start token mediaType text) = some st' ∧
        st'.jobs.lookup token = some ⟨mediaType, text, m, .planned⟩
  returns : ∀ st, Reaches (step w s) anyStep init st →
    ∀ token job, st.jobs.lookup token = some job → job.mediaType = mediaType → job.text = text →
      ∃ st', Reaches (step w s) (Own token) st st' ∧ ∃ r ∈ st'.receipts, r.token = token ∧
        r.mediaType = mediaType ∧ r.text = text
  kept : ∀ st, Reaches (step w s) anyStep init st → ∀ r ∈ st.receipts,
    r.mediaType = mediaType → r.text = text → Kept w s st.files r

theorem begins {token : Token} {m : Medium} (hfree : st.jobs.lookup token = none)
    (hcheck : token.check w mediaType text = .ok m) :
    ∃ st', step w s st (.start token mediaType text) = some st' ∧
      st'.jobs.lookup token = some ⟨mediaType, text, m, .planned⟩ := by
  simp only [step, hfree, hcheck]
  exact ⟨_, rfl, Ets.lookup_insert_self _ _ _⟩

theorem Token.reads_uri {token : Token} {m : Medium} {uri : String} (h : m.Valid w)
    (huri : token.uri s m = some uri) : Reads s m uri := by
  cases token with
  | adapter pid id =>
    obtain ⟨uri', hbuilt, hreads⟩ := reads_pyUri (s := s) h
    rw [Token.uri, hbuilt] at huri
    obtain rfl : uri' = uri := Option.some.inj huri
    exact hreads
  | runtime n =>
    obtain ⟨uri', hbuilt, hreads⟩ := reads_exUri (s := s) h
    rw [Token.uri, hbuilt] at huri
    obtain rfl : uri' = uri := Option.some.inj huri
    exact hreads

theorem Token.check_both {token : Token} {m : Medium}
    (halike : (pyCheck w mediaType text).toOption = (exCheck w mediaType text).toOption)
    (hcheck : token.check w mediaType text = .ok m) :
    pyCheck w mediaType text = .ok m ∧ exCheck w mediaType text = .ok m := by
  cases token with
  | adapter pid id =>
    rw [Token.check] at hcheck
    rw [hcheck] at halike
    exact ⟨hcheck, toOption_eq_some.mp halike.symm⟩
  | runtime n =>
    rw [Token.check] at hcheck
    rw [hcheck] at halike
    exact ⟨toOption_eq_some.mp halike, hcheck⟩

theorem kept_of_sound (hs : Sound w s st)
    (halike : (pyCheck w mediaType text).toOption = (exCheck w mediaType text).toOption)
    {r : Receipt} (hr : r ∈ st.receipts) (htype : r.mediaType = mediaType) (htext : r.text = text) :
    Kept w s st.files r := by
  obtain ⟨hcheck, huri, hpath, hthere⟩ := hs.returned r hr
  subst htype htext
  obtain ⟨htaken, -, hsource⟩ := Token.check_iff hcheck
  obtain ⟨hpy, hex⟩ := Token.check_both halike hcheck
  have hreads := Token.reads_uri htaken.toValid huri
  have hfile : r.path.file = pyDest s r.medium := by rw [hpath, Token.file_dest]
  refine ⟨hpy, hex, hsource, ⟨hfile, hfile⟩, ?_, hreads, ?_, ?_⟩
  · rw [hfile]
    exact hthere
  · exact ⟨_, hreads.pyResolve hthere, (file_purePath _).trans hfile.symm⟩
  · exact ⟨_, hreads.exResolve hthere, hfile.symm⟩

/-- **When the stores of the two sides are one.** -/
theorem oneStore_iff (w : World) (s : Setting) (mediaType text : String) :
    OneStore w s mediaType text ↔ ¬Overlooked w mediaType text := by
  rw [← accepted_iff]
  constructor
  · exact OneStore.alike
  · intro halike
    refine ⟨halike, ?_, fun _ _ _ => begins, ?_, ?_⟩
    · intro st st' token e hcheck hstep
      rcases start_cases hstep with ⟨-, -, rfl⟩ | ⟨m, hok, -⟩
      · rfl
      · rw [hcheck] at hok
        cases hok
    · rintro st hreaches token job hjob rfl rfl
      exact returns (sound_of_reaches hreaches) hjob
    · intro st hreaches r hr
      exact kept_of_sound (sound_of_reaches hreaches) halike hr

end

theorem toList_zeros : zeros.toList = List.replicate 64 '0' := String.toList_ofList

theorem length_zeros : zeros.toList.length = 64 := by
  rw [toList_zeros, List.length_replicate]

theorem hex_zeros : ∀ c ∈ zeros.toList, hexLower c = true := by
  intro c hc
  rw [toList_zeros] at hc
  rw [List.eq_of_mem_replicate hc]
  decide

/-- One photo, and a hash that is the same for everything. -/
def photoWorld : World where
  look p := if p = ⟨true, ["tmp", "photo.png"]⟩ then some (.file [0xff]) else none
  sha256 _ := zeros
  hexLength _ := length_zeros
  hexChars _ := hex_zeros
  collisionFree p q b c hb hc _ := by
    split at hb
    · split at hc
      · cases hb
        cases hc
        rfl
      · cases hc
    · cases hb

def localSetting : Setting where
  home := "/root/.esrd"
  esrInstance := none
  hostPort := none
  httpPort := none
  instanceName := by rintro i ⟨⟩

/-- The adapter stores the photo for a path that ends in a slash, the runtime does not. -/
theorem not_oneStore_slash : ¬OneStore photoWorld localSetting "image" "/tmp/photo.png/" := by
  intro h
  refine accepted_iff.mp h.alike ⟨by decide +kernel, ⟨[0xff], ?_⟩, by decide +kernel⟩
  have hpath : purePath ["/tmp/photo.png/"] = ⟨true, ["tmp", "photo.png"]⟩ := by decide +kernel
  rw [hpath]
  rfl

end MediaRuns
end Esr
