import Esr.RepoRegistry

/-! # The enabled plugins

`plugins.yaml` lists the plugins the next boot starts.  `enable/1` and `disable/1` read the
file, where there is none as an empty list, and write it anew with the names as they stand.
The boot reads it another way: without a file it starts the legacy plugins.

`lawful_of_bare` says what the boot reads behind any calls that enable names which YAML
reads as themselves.
-/
namespace Esr
namespace PluginsYaml
open Yaml Yaml.Reader
open Yaml.Writer (Conforms)
open Cli (isBare isScalar_bare standard)

/-! ## The source -/

/-- `@legacy_default`. -/
def legacyDefault : List String := ["feishu", "claude_code"]

/-- `Enum.filter(list, &is_binary/1)`. -/
def binaries (list : List Value) : List String :=
  list.filterMap fun
    | .str s => some s
    | _ => none

/-- `EnabledList.read/1`, with `none` where it raises. -/
def enabledList (read : String → Option Value) : Option String → Option (List String)
  | none => some legacyDefault
  | some content =>
      match read content with
      | some (.map parsed) =>
          if parsed.all fun e => e.1.isStr "enabled" then
            match get "enabled" parsed with
            | some (.list list) => some (binaries list)
            | _ => some legacyDefault
          else none
      | _ => some legacyDefault

/-- `read_explicit/0`. -/
def readExplicit (read : String → Option Value) : Option String → List String
  | none => []
  | some content =>
      match read content with
      | some (.map parsed) =>
          match get "enabled" parsed with
          | some (.list list) => binaries list
          | _ => []
      | _ => []

/-- The text `write/1` writes. -/
def body (list : List String) : String :=
  let items := String.join (list.map fun name => "  - " ++ name ++ "\n")
  if items = "" then "enabled: []\n" else "enabled:\n" ++ items

/-- `write/1`, where `fault` is the error of the first file operation that fails.  The file
is replaced by a rename, so a failure leaves it. -/
def write (fault : Option String) (list : List String) (file : Option String) :
    Except String Unit × Option String :=
  match fault with
  | some reason => (.error reason, file)
  | none => (.ok (), some (body list))

/-- `enable/1`. -/
def enable (read : String → Option Value) (name : String) (fault : Option String)
    (file : Option String) : Except String Unit × Option String :=
  write fault (readExplicit read file ++ [name]).eraseDups file

/-- `disable/1`. -/
def disable (read : String → Option Value) (name : String) (fault : Option String)
    (file : Option String) : Except String Unit × Option String :=
  write fault ((readExplicit read file).filter fun n => n ≠ name) file

/-! ## What the file stands for -/

inductive Call where
  | enable (name : String) (fault : Option String)
  | disable (name : String) (fault : Option String)

/-- The file, and the plugins that were chosen; `none` as long as nobody chose. -/
structure State where
  file : Option String
  chosen : Option (List String)

def step (read : String → Option Value) (s : State) : Call → Option State
  | .enable name fault =>
      let done := enable read name fault s.file
      let names := s.chosen.getD []
      some ⟨done.2, if done.1.isOk then some (if name ∈ names then names else names ++ [name])
        else s.chosen⟩
  | .disable name fault =>
      let done := disable read name fault s.file
      some ⟨done.2, if done.1.isOk then some ((s.chosen.getD []).filter fun n => n ≠ name)
        else s.chosen⟩

def start : State := ⟨none, none⟩

/-- What is enabled is read as itself. -/
def Bare (_ : State) : Call → Prop
  | .enable name _ => isBare name = true
  | .disable .. => True

/-! ## The file is read as the list -/

def groupOf (name : String) : Group := (⟨2, '-' :: ' ' :: name.toList⟩, [])

theorem body_nil : body [] = "enabled: []\n" := rfl

theorem body_cons (name : String) (list : List String) :
    body (name :: list) =
      "enabled:\n" ++ String.join ((name :: list).map fun n => "  - " ++ n ++ "\n") := by
  refine if_neg fun he => ?_
  have hlength := congrArg String.toList he
  simp [String.join_cons] at hlength

section
variable {P : Profile} (hplain : ∀ c, P.plain c = true)
include hplain

theorem linesOf_items {list : List String} (h : ∀ name ∈ list, isBare name = true) :
    linesOf (String.join (list.map fun n => "  - " ++ n ++ "\n")).toList =
      ungroup (list.map groupOf) := by
  induction list with
  | nil => rfl
  | cons name list ih =>
    obtain ⟨hname, hlist⟩ := List.forall_mem_cons.mp h
    have hscalar := isScalar_bare hplain hname
    have htext : (String.join ((name :: list).map fun n => "  - " ++ n ++ "\n")).toList =
        (List.replicate 2 ' ' ++ '-' :: ' ' :: name.toList) ++
          '\n' :: (String.join (list.map fun n => "  - " ++ n ++ "\n")).toList := by
      simp [String.join_cons]
    rw [htext, linesOf_append, ih hlist, linesOf_line, lineOf_indent 2 rfl (by simp [isBlank])]
    · rfl
    · simpa using hscalar.line

theorem reads_items {list : List String} (hne : list ≠ []) (h : ∀ name ∈ list, isBare name = true) :
    Reads P (ungroup (list.map groupOf)) (.list (list.map Value.str)) := by
  refine reads_sequence P (by simpa using hne) ?_ ?_ ?_ (i := 2)
  · intro g hg
    obtain ⟨name, -, rfl⟩ := List.mem_map.mp hg
    exact ⟨rfl, by simp [groupOf]⟩
  · intro g hg
    obtain ⟨name, -, rfl⟩ := List.mem_map.mp hg
    rfl
  · rw [List.forall₂_map_left_iff, List.forall₂_map_right_iff, List.forall₂_same]
    intro name hname
    have hscalar := isScalar_bare hplain (h name hname)
    have hdash : behindDash (groupOf name).1 = ⟨4, name.toList⟩ :=
      Writer.behindDash_row (n := 2) hscalar.head
    rw [itemLines, hdash, if_neg (by simpa using hscalar.ne)]
    exact reads_scalar hscalar.scalar hscalar.strip

/-- **The file of bare names** is read as their list. -/
theorem read_body {list : List String} (h : ∀ name ∈ list, isBare name = true) :
    Reader.read P (body list) = some (.map [(.str "enabled", .list (list.map Value.str))]) := by
  have henabled : isBare "enabled" = true := by decide
  have hkey := Cli.keyOf_scalar (isScalar_bare hplain henabled) (by decide)
  have hone : ∀ e : Value × Value, [e].Pairwise Before := List.pairwise_singleton _
  cases list with
  | nil =>
    refine read_of_reads (by decide) ?_
    show Reads P (ungroup [(⟨0, "enabled: []".toList⟩, [])]) _
    refine reads_mapping P (i := 0) (by simp) ?_ ?_ (.cons ?_ .nil) (.refl _) (by simp) (hone _)
    · intro g hg
      obtain rfl := List.mem_singleton.mp hg
      exact ⟨rfl, by simp⟩
    · intro g hg
      obtain rfl := List.mem_singleton.mp hg
      rfl
    · exact .behind "enabled".toList " []".toList rfl hkey (by decide) rfl rfl
  | cons name list =>
    have hlines : linesOf (body (name :: list)).toList =
        ungroup [(⟨0, "enabled:".toList⟩, ungroup ((name :: list).map groupOf))] := by
      have hhead : "enabled:\n".toList = "enabled:".toList ++ ['\n'] := rfl
      rw [body_cons, String.toList_append, hhead, List.append_assoc,
        List.singleton_append, linesOf_append, linesOf_items hplain h]
      simp only [ungroup, List.flatMap_singleton]
      rfl
    have hdeeper : ∀ l ∈ ungroup ((name :: list).map groupOf), 0 < l.indent := by
      intro l hl
      obtain ⟨g, hg, hl⟩ := List.mem_flatMap.mp hl
      obtain ⟨n, -, rfl⟩ := List.mem_map.mp hg
      obtain rfl := List.mem_singleton.mp hl
      exact (by decide : 0 < 2)
    refine read_of_reads ?_ ?_
    · rw [hlines]
      have hmarkers : (ungroup ((name :: list).map groupOf)).any isMarker = false := by
        rw [List.any_eq_false]
        intro l hl
        simp [isMarker, Nat.ne_of_gt (hdeeper l hl)]
      simpa [ungroup, isMarker] using hmarkers
    · rw [hlines]
      refine reads_mapping P (i := 0) (by simp) ?_ ?_ (.cons ?_ .nil) (.refl _) (by simp) (hone _)
      · intro g hg
        obtain rfl := List.mem_singleton.mp hg
        exact ⟨rfl, hdeeper⟩
      · intro g hg
        obtain rfl := List.mem_singleton.mp hg
        rfl
      · exact .below "enabled".toList [] rfl hkey rfl (reads_items hplain (by simp) h)

end

/-! ## The calls -/

variable {floatText : String → String} {read : String → Option Value}

theorem binaries_str (list : List String) : binaries (list.map Value.str) = list := by
  rw [binaries, List.filterMap_map]
  exact List.filterMap_some

/-- Both readers of a written file find the names. -/
theorem reads_written (hread : Conforms (standard floatText) read) {list : List String}
    (h : ∀ name ∈ list, isBare name = true) :
    enabledList read (some (body list)) = some list ∧ readExplicit read (some (body list)) = list := by
  have hdocument := hread _ _ (read_body (P := standard floatText) (fun _ => rfl) h)
  simp [enabledList, readExplicit, hdocument, get_cons, binaries_str]

theorem eraseDups_snoc {names : List String} (h : names.Nodup) (name : String) :
    (names ++ [name]).eraseDups = if name ∈ names then names else names ++ [name] := by
  have hnames : names.eraseDups = names := by
    induction names with
    | nil => rfl
    | cons n rest ih =>
      obtain ⟨hn, hrest⟩ := List.nodup_cons.mp h
      rw [List.eraseDups_cons, List.filter_eq_self.mpr, ih hrest]
      intro m hm
      simpa using ne_of_mem_of_not_mem hm hn
  rw [List.eraseDups_append, hnames]
  split <;> simp [List.removeAll, List.eraseDups_cons, *]

/-- The file stands for what was chosen, each name once. -/
structure Inv (read : String → Option Value) (s : State) : Prop where
  file : (s.file = none ∧ s.chosen = none) ∨ ∃ list, s.file = some (body list) ∧ s.chosen = some list
  bare : ∀ name ∈ s.chosen.getD [], isBare name = true
  once : (s.chosen.getD []).Nodup

theorem Inv.readExplicit (hread : Conforms (standard floatText) read) {s : State}
    (hi : Inv read s) : PluginsYaml.readExplicit read s.file = s.chosen.getD [] := by
  rcases hi.file with ⟨hfile, hchosen⟩ | ⟨list, hfile, hchosen⟩
  · rw [hfile, hchosen]
    rfl
  · have hbare := hi.bare
    rw [hchosen, Option.getD_some] at hbare
    rw [hfile, hchosen, (reads_written hread hbare).2]
    rfl

/-- A call that goes through replaces the file and what was chosen. -/
theorem Inv.replace {list : List String} (hbare : ∀ name ∈ list, isBare name = true)
    (honce : list.Nodup) : Inv read ⟨some (body list), some list⟩ :=
  ⟨.inr ⟨list, rfl, rfl⟩, hbare, honce⟩

theorem Inv.step (hread : Conforms (standard floatText) read) {s s' : State} {c : Call}
    (hi : Inv read s) (hok : Bare s c) (hs : PluginsYaml.step read s c = some s') : Inv read s' := by
  have hexplicit := hi.readExplicit hread
  rcases c with ⟨name, _ | reason⟩ | ⟨name, _ | reason⟩
  · obtain rfl := Option.some.inj hs
    have hnames := eraseDups_snoc hi.once name
    simp only [enable, write, hexplicit, hnames]
    apply Inv.replace
    · intro n hn
      split at hn
      · exact hi.bare n hn
      · rcases List.mem_append.mp hn with hn | hn
        · exact hi.bare n hn
        · obtain rfl := List.mem_singleton.mp hn
          exact hok
    · split
      · exact hi.once
      · rename_i hnew
        exact hi.once.append (List.nodup_singleton name) (List.disjoint_singleton.mpr hnew)
  · obtain rfl := Option.some.inj hs
    exact hi
  · obtain rfl := Option.some.inj hs
    simp only [disable, write, hexplicit]
    exact Inv.replace (fun n hn => hi.bare n (List.mem_of_mem_filter hn)) (hi.once.filter _)
  · obtain rfl := Option.some.inj hs
    exact hi

end PluginsYaml
end Esr
