import Esr.CliSubmit
import Esr.Runs

/-! # The registry of repositories

`registered_repos.yaml` lists the paths of the repositories whose workspaces are loaded,
with a name for some.  Every call reads the file and writes all of it anew, the paths and
names as they stand.

`lawful_of_careful` says for which calls the file keeps to the registry it stands for:
those that enter paths and names that are read as themselves.
-/
namespace Esr
namespace RepoRegistry
open Yaml Yaml.Reader
open Yaml.Writer (Conforms IsScalar toStr)
open Cli (isBare isScalar_bare isEntry_line linesOf_entry standard)

/-- `Entry`.  What is read for the path and the name is not checked. -/
structure Entry where
  path : Value
  name : Value

/-- `to_entry/1`, with `none` where it raises. -/
def toEntry : Value → Option Entry
  | .map m => (get "path" m).map fun p => ⟨p, (get "name" m).getD .null⟩
  | _ => none

/-- What `load/1` returns. -/
inductive Loaded where
  | ok (repos : List Entry)
  | yamlReadFailed
  | raised

/-- `load/1`. -/
def load (read : String → Option Value) : Option String → Loaded
  | none => .ok []
  | some text =>
      match read text with
      | none => .yamlReadFailed
      | some (.map m) =>
          match get "repos" m with
          | some (.list repos) =>
              match repos.mapM toEntry with
              | some entries => .ok entries
              | none => .raised
          | _ => .ok []
      | some _ => .ok []

/-- The lines of an entry, with `none` where the interpolation raises. -/
def renderRepo (e : Entry) : Option String :=
  match e.name with
  | .null => (toStr e.path).map fun p => "  - path: " ++ p
  | name => (toStr e.path).bind fun p => (toStr name).map fun n =>
      "  - path: " ++ p ++ "\n    name: " ++ n

/-- `render_repos/1`. -/
def renderRepos : List Entry → Option String
  | [] => some "  []"
  | repos => (repos.mapM renderRepo).map fun lines => "\n".intercalate lines

/-- The text `write/2` writes. -/
def fileText (repos : List Entry) : Option String :=
  (renderRepos repos).map fun body => "schema_version: 1\nrepos:\n" ++ body ++ "\n"

/-- `write/2` on the file, which is kept where the text is none. -/
def write (file : Option String) (repos : List Entry) : Option String :=
  match fileText repos with
  | some text => some text
  | none => file

/-- `register/3`. -/
def register (read : String → Option Value) (path : String) (name : Option String)
    (file : Option String) : Option String :=
  match load read file with
  | .ok repos =>
      if repos.any fun e => e.path.isStr path then file
      else write file (repos ++ [⟨.str path, (name.map Value.str).getD .null⟩])
  | _ => file

/-- `unregister/2`. -/
def unregister (read : String → Option Value) (path : String) (file : Option String) :
    Option String :=
  match load read file with
  | .ok repos => write file (repos.filter fun e => !e.path.isStr path)
  | _ => file

/-! ## What the file stands for -/

/-- The registry: paths in the order in which they were entered, with their names. -/
abbrev Registry := List (String × Option String)

/-- A call. -/
inductive Call where
  | register (path : String) (name : Option String)
  | unregister (path : String)

/-- What a call does to the registry: a path that is known stays as it is. -/
def Registry.after (reg : Registry) : Call → Registry
  | .register path name => if path ∈ reg.map Prod.fst then reg else reg ++ [(path, name)]
  | .unregister path => reg.filter fun r => r.1 ≠ path

/-- The entry of the file for one of the registry. -/
def entryOf (r : String × Option String) : Entry := ⟨.str r.1, (r.2.map Value.str).getD .null⟩

/-- The file, and the registry it stands for. -/
structure State where
  file : Option String
  registry : Registry

/-- A call on both. -/
def step (read : String → Option Value) (s : State) : Call → Option State
  | .register path name =>
      some ⟨register read path name s.file, s.registry.after (.register path name)⟩
  | .unregister path => some ⟨unregister read path s.file, s.registry.after (.unregister path)⟩

/-- There is no file. -/
def start : State := ⟨none, []⟩

/-- `load/1` returns the registry, which has each path once. -/
structure Lawful (read : String → Option Value) (s : State) : Prop where
  loads : load read s.file = .ok (s.registry.map entryOf)
  once : (s.registry.map Prod.fst).Nodup

/-- The path and the name are read as themselves. -/
def Bare (r : String × Option String) : Prop :=
  isBare r.1 = true ∧ ∀ name, r.2 = some name → isBare name = true

/-- The condition on a call: what it enters is read as itself. -/
def Careful (s : State) : Call → Prop
  | .register path name => path ∈ s.registry.map Prod.fst ∨ Bare (path, name)
  | .unregister _ => True

/-! ## The lines of the file -/

/-- The lines of an entry, each without its indentation. -/
def group (r : String × Option String) : Group :=
  (⟨2, "- path: ".toList ++ r.1.toList⟩,
    (r.2.map fun n => (⟨4, "name: ".toList ++ n.toList⟩ : Line)).toList)

/-- The text of an entry. -/
def repoText (r : String × Option String) : String :=
  match r.2 with
  | none => "  - path: " ++ r.1
  | some n => "  - path: " ++ r.1 ++ "\n    name: " ++ n

theorem renderRepo_entryOf (r : String × Option String) : renderRepo (entryOf r) = some (repoText r) := by
  rcases r with ⟨path, _ | name⟩ <;> rfl

section
variable {P : Profile} (hplain : ∀ c, P.plain c = true)
include hplain

theorem linesOf_repoText {r : String × Option String} (h : Bare r) :
    linesOf (repoText r).toList = (group r).1 :: (group r).2 := by
  have hpath : linesOf ("  - path: ".toList ++ r.1.toList) = [(group r).1] := by
    have hscalar := isScalar_bare hplain h.1
    have htext : "  - path: ".toList ++ r.1.toList =
        List.replicate 2 ' ' ++ ("- path: ".toList ++ r.1.toList) := rfl
    rw [htext, linesOf_line, lineOf_indent 2 rfl (by simp [isBlank])]
    · rfl
    · simpa using hscalar.line
  rcases r with ⟨path, _ | name⟩
  · have htext : (repoText (path, none)).toList = "  - path: ".toList ++ path.toList := by
      simp [repoText]
    rw [htext]
    exact hpath
  · have hname := linesOf_entry (P := P) 4 (isScalar_bare hplain (by decide : isBare "name" = true))
      (isScalar_bare hplain (h.2 name rfl)).line
    have htext : (repoText (path, some name)).toList = ("  - path: ".toList ++ path.toList) ++
        '\n' :: (List.replicate 4 ' ' ++ ("name".toList ++ ':' :: ' ' :: name.toList)) := by
      simp [repoText]
    rw [htext, linesOf_append, hpath, hname]
    rfl

/-- The item an entry is read as. -/
def repoValue (r : String × Option String) : Value :=
  .map ((r.2.map fun n => (Value.str "name", Value.str n)).toList ++ [(.str "path", .str r.1)])

theorem isEntry_bare {i : Nat} {s : String} (key : String) (hkey : isBare key = true) (hlength : key.length ≤ 1024)
    (hs : isBare s = true) :
    IsEntry P (⟨i, key.toList ++ ':' :: ' ' :: s.toList⟩, []) (.str key, .str s) := by
  have hscalar := isScalar_bare hplain hs
  refine isEntry_line (isScalar_bare hplain hkey) hlength ?_ (flow_of_scalar hscalar.scalar hscalar.strip)
  rw [show strip (' ' :: s.toList) = strip s.toList from rfl, hscalar.strip]
  exact hscalar.ne

/-- **An entry** is read from its lines. -/
theorem reads_repo {r : String × Option String} (h : Bare r) :
    Reads P (itemLines (group r)) (repoValue r) := by
  have hpath : IsEntry P (⟨4, "path: ".toList ++ r.1.toList⟩, []) (.str "path", .str r.1) :=
    isEntry_bare hplain "path" (by decide) (by decide) h.1
  have hlines : itemLines (group r) = ⟨4, "path: ".toList ++ r.1.toList⟩ :: (group r).2 := by
    have hdash : behindDash (group r).1 = ⟨4, "path: ".toList ++ r.1.toList⟩ :=
      Writer.behindDash_row (n := 2) rfl
    rw [itemLines, hdash, if_neg (by simp)]
  rw [hlines]
  rcases r with ⟨path, _ | name⟩
  · show Reads P (ungroup [(⟨4, "path: ".toList ++ path.toList⟩, [])]) _
    refine reads_mapping P (i := 4) (by simp) ?_ ?_ (.cons hpath .nil) (List.Perm.refl _) (by simp)
      (List.pairwise_singleton _ _)
    · intro g hg
      obtain rfl := List.mem_singleton.mp hg
      exact ⟨rfl, by simp⟩
    · intro g hg
      obtain rfl := List.mem_singleton.mp hg
      rfl
  · have hname : IsEntry P (⟨4, "name: ".toList ++ name.toList⟩, []) (.str "name", .str name) :=
      isEntry_bare hplain "name" (by decide) (by decide) (h.2 name rfl)
    show Reads P (ungroup [(⟨4, "path: ".toList ++ path.toList⟩, []),
      (⟨4, "name: ".toList ++ name.toList⟩, [])]) _
    refine reads_mapping P (i := 4) (by simp) ?_ ?_ (.cons hpath (.cons hname .nil))
      (List.Perm.swap _ _ _) (by simp) (List.pairwise_pair.mpr (before_str _ _ (by decide)))
    · intro g hg
      rcases List.mem_pair.mp hg with rfl | rfl <;> exact ⟨rfl, by simp⟩
    · intro g hg
      rcases List.mem_pair.mp hg with rfl | rfl <;> rfl

/-- The lines of the list. -/
def listLines (reg : Registry) : List Line :=
  if reg = [] then [⟨2, "[]".toList⟩] else ungroup (reg.map group)

theorem reads_list {reg : Registry} (h : ∀ r ∈ reg, Bare r) :
    Reads P (listLines reg) (.list (reg.map repoValue)) := by
  rw [listLines]
  split
  · rename_i hnil
    subst hnil
    intro fuel hfuel
    cases fuel with
    | zero => simp at hfuel
    | succ fuel => rfl
  · rename_i hne
    refine reads_sequence P (i := 2) (by simpa using hne) ?_ ?_ ?_
    · intro g hg
      obtain ⟨r, -, rfl⟩ := List.mem_map.mp hg
      refine ⟨rfl, fun l hl => ?_⟩
      obtain ⟨n, -, rfl⟩ := Option.map_eq_some_iff.mp (Option.mem_toList.mp hl)
      exact (by decide : 2 < 4)
    · intro g hg
      obtain ⟨r, -, rfl⟩ := List.mem_map.mp hg
      rfl
    · rw [List.forall₂_map_left_iff, List.forall₂_map_right_iff, List.forall₂_same]
      exact fun r hr => reads_repo hplain (h r hr)

/-! ## The file -/

/-- The text of the list. -/
def listText : Registry → String
  | [] => "  []"
  | reg => "\n".intercalate (reg.map repoText)

omit hplain in
theorem mapM_renderRepo (reg : Registry) :
    (reg.map entryOf).mapM renderRepo = some (reg.map repoText) := by
  induction reg with
  | nil => rfl
  | cons r reg ih =>
    rw [List.map_cons, List.mapM_cons, renderRepo_entryOf, ih]
    rfl

omit hplain in
theorem renderRepos_entryOf (reg : Registry) : renderRepos (reg.map entryOf) = some (listText reg) := by
  cases reg with
  | nil => rfl
  | cons r reg =>
    have hmap := mapM_renderRepo (r :: reg)
    rw [List.map_cons] at hmap ⊢
    rw [renderRepos, hmap]
    · rfl
    · simp

theorem linesOf_listText {reg : Registry} (h : ∀ r ∈ reg, Bare r) :
    linesOf (listText reg).toList = listLines reg := by
  induction reg with
  | nil => rfl
  | cons r reg ih =>
    obtain ⟨hr, hreg⟩ := List.forall_mem_cons.mp h
    have hfirst := linesOf_repoText hplain hr
    cases reg with
    | nil => simpa [listText, listLines, ungroup] using hfirst
    | cons r' reg =>
      have hrest := ih hreg
      have htext : (listText (r :: r' :: reg)).toList =
          (repoText r).toList ++ '\n' :: (listText (r' :: reg)).toList := by
        simp [listText, String.toList_intercalate]
      rw [htext, linesOf_append, hfirst, hrest]
      simp [listLines, ungroup]

/-- What the file is read as. -/
def document (reg : Registry) : Value :=
  .map [(.str "repos", .list (reg.map repoValue)), (.str "schema_version", .int 1)]

/-- **The file of a registry of bare texts** is read as it. -/
theorem read_fileText {reg : Registry} (h : ∀ r ∈ reg, Bare r) :
    ∃ text, fileText (reg.map entryOf) = some text ∧ Reader.read P text = some (document reg) := by
  refine ⟨_, by rw [fileText, renderRepos_entryOf]; rfl, ?_⟩
  have hlines : linesOf ("schema_version: 1\nrepos:\n" ++ listText reg ++ "\n").toList =
      ungroup [(⟨0, "schema_version: 1".toList⟩, []), (⟨0, "repos:".toList⟩, listLines reg)] := by
    have htext : ("schema_version: 1\nrepos:\n" ++ listText reg ++ "\n").toList =
        "schema_version: 1".toList ++ '\n' :: ("repos:".toList ++ '\n' ::
          ((listText reg).toList ++ '\n' :: [])) := by simp
    rw [htext, linesOf_append, linesOf_append, linesOf_append, linesOf_listText hplain h]
    simp only [ungroup, List.flatMap_cons, List.flatMap_nil, List.append_nil, linesOf_nil]
    rfl
  have hdeeper : ∀ l ∈ listLines reg, 0 < l.indent := by
    intro l hl
    rw [listLines] at hl
    split at hl
    · obtain rfl := List.mem_singleton.mp hl
      decide
    · obtain ⟨g, hg, hl⟩ := List.mem_flatMap.mp hl
      obtain ⟨r, -, rfl⟩ := List.mem_map.mp hg
      rcases List.mem_cons.mp hl with rfl | hl
      · exact (by decide : 0 < 2)
      · obtain ⟨n, -, rfl⟩ := Option.map_eq_some_iff.mp (Option.mem_toList.mp hl)
        exact (by decide : 0 < 4)
  have hone : flow P " 1".toList = some (.int 1) :=
    flow_of_scalar (Writer.isScalar_int (fun c _ => hplain c) 1).scalar (by decide)
  have hversion : IsEntry P (⟨0, "schema_version: 1".toList⟩, []) (.str "schema_version", .int 1) :=
    .behind "schema_version".toList " 1".toList rfl
      (Cli.keyOf_scalar (isScalar_bare hplain (by decide)) (by decide)) (by decide) rfl hone
  have hrepos : IsEntry P (⟨0, "repos:".toList⟩, listLines reg) (.str "repos", .list (reg.map repoValue)) :=
    .below "repos".toList [] rfl (Cli.keyOf_scalar (isScalar_bare hplain (by decide)) (by decide)) rfl
      (reads_list hplain h)
  refine read_of_reads ?_ ?_
  · rw [hlines]
    have hmarkers : (listLines reg).any isMarker = false := by
      rw [List.any_eq_false]
      intro l hl
      simp [isMarker, Nat.ne_of_gt (hdeeper l hl)]
    simp [ungroup, isMarker, hmarkers]
  · rw [hlines]
    refine reads_mapping P (i := 0) (by simp) ?_ ?_ (.cons hversion (.cons hrepos .nil))
      (List.Perm.swap _ _ _) (by simp) (List.pairwise_pair.mpr (before_str _ _ (by decide)))
    · intro g hg
      rcases List.mem_pair.mp hg with rfl | rfl
      · exact ⟨rfl, by simp⟩
      · exact ⟨rfl, hdeeper⟩
    · intro g hg
      rcases List.mem_pair.mp hg with rfl | rfl <;> rfl

end

/-! ## The calls -/

variable {floatText : String → String} {read : String → Option Value}

theorem toEntry_repoValue (r : String × Option String) : toEntry (repoValue r) = some (entryOf r) := by
  rcases r with ⟨path, _ | name⟩ <;> rfl

theorem loads_write (hread : Conforms (standard floatText) read) {reg : Registry}
    (h : ∀ r ∈ reg, Bare r) (file : Option String) :
    load read (write file (reg.map entryOf)) = .ok (reg.map entryOf) := by
  obtain ⟨text, htext, hdocument⟩ := @read_fileText (standard floatText) (fun _ => rfl) reg h
  have hentries : (reg.map repoValue).mapM toEntry = some (reg.map entryOf) := by
    clear h htext hdocument
    induction reg with
    | nil => rfl
    | cons r reg ih =>
      rw [List.map_cons, List.mapM_cons, toEntry_repoValue, ih]
      rfl
  have hget : get "repos" [(.str "repos", .list (reg.map repoValue)), (.str "schema_version", .int 1)] =
      some (.list (reg.map repoValue)) := by simp [get_cons]
  rw [write, htext]
  simp only [load, hread text _ hdocument, document, hget, hentries]

/-- What holds behind careful calls: what is registered is bare. -/
structure Inv (read : String → Option Value) (s : State) : Prop where
  lawful : Lawful read s
  bare : ∀ r ∈ s.registry, Bare r

theorem any_path (reg : Registry) (path : String) :
    ((reg.map entryOf).any fun e => e.path.isStr path) = decide (path ∈ reg.map Prod.fst) := by
  rw [Bool.eq_iff_iff]
  simp [entryOf]

theorem filter_path (reg : Registry) (path : String) :
    ((reg.map entryOf).filter fun e => !e.path.isStr path) =
      (reg.filter fun r => r.1 ≠ path).map entryOf := by
  rw [List.filter_map]
  congr 1
  refine List.filter_congr fun r _ => ?_
  simp only [Function.comp, entryOf, Value.isStr_str, decide_not]
  rfl

/-- **The step lemma.** -/
theorem Inv.step (hread : Conforms (standard floatText) read) {s s' : State} {c : Call}
    (hi : Inv read s) (hok : Careful s c) (hs : RepoRegistry.step read s c = some s') : Inv read s' := by
  cases c with
  | register path name =>
    obtain rfl := Option.some.inj hs
    by_cases hknown : path ∈ s.registry.map Prod.fst
    · -- the path is known: neither changes
      have hfile : register read path name s.file = s.file := by
        simp only [register, hi.lawful.loads, any_path, decide_eq_true hknown, if_true]
      rw [hfile, Registry.after, if_pos hknown]
      exact hi
    · have hbare := hok.resolve_left hknown
      have hall : ∀ r ∈ s.registry ++ [(path, name)], Bare r := by
        intro r hr
        rcases List.mem_append.mp hr with hr | hr
        · exact hi.bare r hr
        · obtain rfl := List.mem_singleton.mp hr
          exact hbare
      have hfile : register read path name s.file =
          write s.file ((s.registry ++ [(path, name)]).map entryOf) := by
        simp only [register, hi.lawful.loads, any_path, decide_eq_false hknown, List.map_append]
        rfl
      rw [hfile, Registry.after, if_neg hknown]
      refine ⟨⟨loads_write hread hall s.file, ?_⟩, hall⟩
      rw [List.map_append, List.nodup_append']
      exact ⟨hi.lawful.once, List.nodup_singleton _, List.disjoint_singleton.mpr hknown⟩
  | unregister path =>
    obtain rfl := Option.some.inj hs
    have hall : ∀ r ∈ s.registry.filter fun r => r.1 ≠ path, Bare r := fun r hr =>
      hi.bare r (List.mem_of_mem_filter hr)
    have hfile : unregister read path s.file =
        write s.file ((s.registry.filter fun r => r.1 ≠ path).map entryOf) := by
      simp only [unregister, hi.lawful.loads, filter_path]
    rw [hfile]
    exact ⟨⟨loads_write hread hall s.file,
      hi.lawful.once.sublist (List.filter_sublist.map Prod.fst)⟩, hall⟩

/-- Behind every sequence of careful calls the file is loaded as the registry it stands
for, by every reader of the core schema. -/
theorem lawful_of_careful (hread : Conforms (standard floatText) read) {s : State}
    (h : Reaches (step read) Careful start s) : Lawful read s := by
  have hinv : Inv read s := by
    refine h.invariant ⟨⟨rfl, List.nodup_nil⟩, by simp [start]⟩ ?_
    exact fun t c u hi hok hs => hi.step hread hok hs
  exact hinv.lawful

/-- A path with a name, and one without. -/
theorem lawful_twoRepos : ∃ s, Lawful (Reader.read (standard id)) s ∧
    s.registry = [("/repo/b", some "bee")] := by
  have hrun : ∃ s, Run (step (Reader.read (standard id))) Careful start
      [.register "/repo/a" none, .register "/repo/b" (some "bee"), .unregister "/repo/a"] s ∧
      s.registry = [("/repo/b", some "bee")] := by
    refine ⟨_, .cons (.inr ⟨by decide, ?_⟩) rfl (.cons (.inr ⟨by decide, ?_⟩) rfl
      (.cons trivial rfl .nil)), by decide⟩
    · rintro name ⟨⟩
    · rintro name ⟨⟩
      decide
  obtain ⟨s, hrun, hregistry⟩ := hrun
  exact ⟨s, lawful_of_careful (Writer.conforms_self _) ⟨_, hrun⟩, hregistry⟩

/-! ## A name of digits -/

/-- A repository that is named after a year. -/
def dated : Call := .register "/repo/a" (some "2024")

/-- The name comes back as a number. -/
theorem not_lawful_dated :
    ¬Careful start dated ∧ ∀ read, Conforms (standard id) read →
      ∃ s, Reaches (step read) anyStep start s ∧ ¬Lawful read s := by
  refine ⟨?_, fun read hread => ?_⟩
  · rintro (hmem | ⟨-, hname⟩)
    · cases hmem
    · exact absurd (hname "2024" rfl) (by decide)
  have htext : fileText [entryOf ("/repo/a", some "2024")] =
      some "schema_version: 1\nrepos:\n  - path: /repo/a\n    name: 2024\n" := by decide
  have hdocument : Reader.read (standard id)
      "schema_version: 1\nrepos:\n  - path: /repo/a\n    name: 2024\n" =
        some (.map [(.str "repos", .list [.map [(.str "name", .int 2024), (.str "path", .str "/repo/a")]]),
          (.str "schema_version", .int 1)]) := by decide +kernel
  have hfile : register read "/repo/a" (some "2024") none =
      some "schema_version: 1\nrepos:\n  - path: /repo/a\n    name: 2024\n" := by
    show write none [entryOf ("/repo/a", some "2024")] = _
    rw [write, htext]
  refine ⟨_, ⟨_, .cons (a := dated) trivial rfl .nil⟩, fun h => ?_⟩
  have hloads : load read (register read "/repo/a" (some "2024") none) =
      .ok [entryOf ("/repo/a", some "2024")] := h.loads
  rw [hfile] at hloads
  simp only [load, hread _ _ hdocument] at hloads
  cases hloads

end RepoRegistry
end Esr
