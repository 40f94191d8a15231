import Esr.UriTexts

/-! # Paths

`Path.expand/1` on Unix: a leading `~` is the home directory, a relative path is one
below the current directory, and `.` and `..` are followed.  Two slashes in a row
count as one, and so does one at the end.

What a path is expanded to is expanded to itself (`expand_expand`), so a path that was
expanded once can be compared with the expansions of others.
-/
namespace Esr
namespace Path

/-- The directories that `expand/1` reads from the system. -/
structure Dirs where
  home : String
  cwd : String

/-- The home directory in place of a leading `~`. -/
def expandHome (home path : String) : String :=
  match path.toList with
  | ['~'] => home
  | '~' :: '/' :: rest => home ++ "/" ++ String.ofList rest
  | _ => path

/-- `Path.type(path) == :absolute`. -/
def isAbsolute (path : String) : Bool := path.toList.head? = some '/'

/-- `expand_dot/1` on segments; `seen` are those before, the last one first.  Above the
root is the root. -/
def expandDots : List String → List String → List String
  | seen, [] => seen.reverse
  | seen, seg :: rest =>
      if seg = "." then expandDots seen rest
      else if seg = ".." then expandDots seen.tail rest
      else expandDots (seg :: seen) rest

/-- The segments of the expanded path. -/
def expandedParts (dirs : Dirs) (path : String) : List String :=
  let path := expandHome dirs.home path
  expandDots [] (if isAbsolute path then parts path else parts dirs.cwd ++ parts path)

/-- The absolute path of segments. -/
def ofParts (segments : List String) : String := "/" ++ "/".intercalate segments

/-- `Path.expand/1`. -/
def expand (dirs : Dirs) (path : String) : String := ofParts (expandedParts dirs path)

/-- `Path.basename/1`. -/
def basename (path : String) : String := (parts path).getLastD ""

/-- `Path.dirname/1`, on an absolute path. -/
def dirname (path : String) : String := ofParts (parts path).dropLast

/-- `Path.join/2`, on an absolute path. -/
def join (path segment : String) : String := ofParts (parts path ++ parts segment)

/-- A segment that stands for itself. -/
def IsPlain (seg : String) : Prop := seg ≠ "" ∧ '/' ∉ seg.toList ∧ seg ≠ "." ∧ seg ≠ ".."

theorem plain_of_expandDots {seen segments : List String} (hseen : ∀ seg ∈ seen, IsPlain seg)
    (hparts : ∀ seg ∈ segments, seg ≠ "" ∧ '/' ∉ seg.toList) :
    ∀ seg ∈ expandDots seen segments, IsPlain seg := by
  induction segments generalizing seen with
  | nil =>
    intro seg hseg
    exact hseen seg (List.mem_reverse.mp hseg)
  | cons seg rest ih =>
    obtain ⟨hseg, hrest⟩ := List.forall_mem_cons.mp hparts
    unfold expandDots
    split
    · exact ih hseen hrest
    · rename_i hdot
      split
      · exact ih (fun s hs => hseen s (List.mem_of_mem_tail hs)) hrest
      · rename_i hdots
        refine ih ?_ hrest
        intro s hs
        rcases List.mem_cons.mp hs with rfl | hs
        · exact ⟨hseg.1, hseg.2, hdot, hdots⟩
        · exact hseen s hs

theorem expandDots_of_plain {seen segments : List String} (h : ∀ seg ∈ segments, IsPlain seg) :
    expandDots seen segments = seen.reverse ++ segments := by
  induction segments generalizing seen with
  | nil => simp [expandDots]
  | cons seg rest ih =>
    obtain ⟨hseg, hrest⟩ := List.forall_mem_cons.mp h
    rw [expandDots, if_neg hseg.2.2.1, if_neg hseg.2.2.2, ih hrest]
    simp

theorem plain_expandedParts (dirs : Dirs) (path : String) :
    ∀ seg ∈ expandedParts dirs path, IsPlain seg := by
  have hparts : ∀ p, ∀ seg ∈ parts p, seg ≠ "" ∧ '/' ∉ seg.toList := by
    intro p seg hseg
    obtain ⟨hne, hchars⟩ := of_mem_parts hseg
    exact ⟨hne, fun hslash => (hchars _ hslash).1 rfl⟩
  refine plain_of_expandDots (fun seg hseg => by cases hseg) ?_
  intro seg hseg
  split at hseg
  · exact hparts _ seg hseg
  · rcases List.mem_append.mp hseg with hseg | hseg
    · exact hparts _ seg hseg
    · exact hparts _ seg hseg

theorem parts_ofParts {segments : List String} (h : ∀ seg ∈ segments, IsPlain seg) :
    parts (ofParts segments) = segments := by
  unfold ofParts
  rw [parts_slash, parts_intercalate fun seg hseg => ⟨(h seg hseg).1, (h seg hseg).2.1⟩]

theorem toList_ofParts (segments : List String) :
    ∃ rest, (ofParts segments).toList = '/' :: rest :=
  ⟨_, String.toList_append⟩

theorem expand_expand (dirs : Dirs) (path : String) :
    expand dirs (expand dirs path) = expand dirs path := by
  have hplain := plain_expandedParts dirs path
  obtain ⟨rest, hrest⟩ := toList_ofParts (expandedParts dirs path)
  have hhome : expandHome dirs.home (expand dirs path) = expand dirs path := by
    unfold expandHome expand
    rw [hrest]
    rfl
  have habs : isAbsolute (expand dirs path) = true := by
    unfold isAbsolute expand
    rw [hrest]
    rfl
  have hparts : expandedParts dirs (expand dirs path) = expandedParts dirs path := by
    rw [expandedParts, hhome]
    simp only [habs, if_true]
    rw [expand, parts_ofParts hplain, expandDots_of_plain hplain]
    rfl
  rw [expand, hparts, expand]

example : expand ⟨"/home/ann", "/srv"⟩ "~/a//./b/../c/" = "/home/ann/a/c" ∧
    expand ⟨"/home/ann", "/srv"⟩ "../x" = "/x" := by decide +kernel

end Path
end Esr
