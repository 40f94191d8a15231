import Esr.CliCommands
import Esr.Inspect
import Esr.YamlRoundTrip

/-! # The file of a submission

`cmd_exec_kind/3` writes the file by hand: the id, the kind, the submitter and the keys of
the arguments stand as they are, and the values as `inspect/1` shows them.  `Safe` says for
which submissions the file is read as what was submitted.
-/
namespace Esr
namespace Cli
open Yaml Yaml.Reader
open Yaml.Writer (Conforms IsScalar isCoreText resolve_core)

/-- `format_args_yaml/1`, of the arguments in the order in which the runtime enumerates them. -/
def formatArgsYaml (pairs : List (String × String)) : String :=
  if pairs = [] then "  \x7b\x7d"
  else "\n".intercalate (pairs.map fun p => "  " ++ p.1 ++ ": " ++ Inspect.inspect p.2)

/-- The text of the file. -/
def fileText (sub : Submission) (pairs : List (String × String)) : String :=
  "id: " ++ sub.id ++ "\n" ++ "kind: " ++ sub.kind ++ "\n" ++ "submitted_by: " ++ sub.submittedBy ++
    "\n" ++ "args:" ++ "\n" ++ formatArgsYaml pairs ++ "\n"

/-- What was submitted: the id, the kind, the submitter and the arguments. -/
def document (sub : Submission) : Value :=
  .map [(.str "args", .map (sub.args.pairs.map fun p => (.str p.1, .str p.2))), (.str "id", .str sub.id),
    (.str "kind", .str sub.kind), (.str "submitted_by", .str sub.submittedBy)]

/-- The whole of YAML's plain scalars. -/
def standard (floatText : String → String) : Profile := ⟨floatText, fun _ => true⟩

/-! ## Safe submissions -/

/-- A text that stands as it is and is read as itself. -/
def isBare (s : String) : Bool := isPlain s.toList && strip s.toList = s.toList && isCoreText s

/-- **A safe submission**: bare words, keys within the length of keys, and values that
are read back from what `inspect/1` shows. -/
structure Safe (sub : Submission) : Prop where
  id : isBare sub.id = true
  kind : isBare sub.kind = true
  submittedBy : isBare sub.submittedBy = true
  keys : ∀ p ∈ sub.args.pairs, isBare p.1 = true ∧ p.1.length ≤ 1024
  values : ∀ p ∈ sub.args.pairs, Inspect.isReadBack p.2 = true

/-! ## Lines -/

/-- A word behind its name. -/
def wordText (name s : String) : List Char := name.toList ++ ':' :: ' ' :: s.toList

/-- An argument, without its indentation. -/
def argText (p : String × String) : List Char :=
  p.1.toList ++ ':' :: ' ' :: (Inspect.inspect p.2).toList

/-- The lines of an argument. -/
def argLines (p : String × String) : List Line := linesOf (' ' :: ' ' :: argText p)

/-- The lines of the arguments. -/
def argsLines (pairs : List (String × String)) : List Line :=
  if pairs = [] then [⟨2, ['\x7b', '\x7d']⟩] else pairs.flatMap argLines

theorem linesOf_args (pairs : List (String × String)) :
    linesOf (formatArgsYaml pairs).toList = argsLines pairs := by
  unfold formatArgsYaml argsLines
  split
  · rfl
  · rename_i hne
    rw [String.toList_intercalate]
    clear hne
    induction pairs with
    | nil => rfl
    | cons p pairs ih =>
      have hline : ("  " ++ p.1 ++ ": " ++ Inspect.inspect p.2).toList = ' ' :: ' ' :: argText p := by
        simp [argText]
      cases pairs with
      | nil => simp [hline, argLines]
      | cons p' pairs =>
        rw [List.flatMap_cons, ← ih, List.map_cons, List.map_cons, List.map_cons, List.map_cons,
          List.intercalate_cons_cons, hline]
        have hnewline : "\n".toList = ['\n'] := rfl
        rw [hnewline, List.append_assoc, List.singleton_append, linesOf_append]
        rfl

/-- **The lines of the file.** -/
theorem linesOf_file (sub : Submission) (pairs : List (String × String)) :
    linesOf (fileText sub pairs).toList = linesOf (wordText "id" sub.id) ++
      (linesOf (wordText "kind" sub.kind) ++ (linesOf (wordText "submitted_by" sub.submittedBy) ++
        ⟨0, "args:".toList⟩ :: argsLines pairs)) := by
  have htext : (fileText sub pairs).toList = wordText "id" sub.id ++ '\n' ::
      (wordText "kind" sub.kind ++ '\n' :: (wordText "submitted_by" sub.submittedBy ++ '\n' ::
        ("args:".toList ++ '\n' :: ((formatArgsYaml pairs).toList ++ '\n' :: [])))) := by
    unfold fileText
    simp only [String.toList_append, List.append_assoc, wordText]
    rfl
  have hargs : linesOf "args:".toList = [⟨0, "args:".toList⟩] := by
    rw [linesOf_line (by decide)]
    rfl
  rw [htext, linesOf_append, linesOf_append, linesOf_append, linesOf_append, linesOf_append,
    linesOf_nil, List.append_nil, linesOf_args, hargs, List.singleton_append]

/-! ## Safe submissions are read back -/

theorem plainRest_line {before : Char} {cs : List Char} (h : plainRest before cs = true) :
    '\n' ∉ cs := by
  induction cs generalizing before with
  | nil => simp
  | cons c cs ih =>
    simp only [plainRest, Bool.and_eq_true] at h
    obtain ⟨⟨⟨hprint, -⟩, -⟩, hrest⟩ := h
    rw [List.mem_cons, not_or]
    refine ⟨?_, ih hrest⟩
    rintro rfl
    cases hprint

theorem isPlain_line {cs : List Char} (h : isPlain cs = true) : '\n' ∉ cs := by
  obtain ⟨c, cs, rfl, hprint, -, -, hrest⟩ := isPlain_cons h
  rw [List.mem_cons, not_or]
  refine ⟨?_, plainRest_line hrest⟩
  rintro rfl
  cases hprint

section
variable {P : Profile} (hplain : ∀ c, P.plain c = true)

include hplain in
theorem isScalar_bare {s : String} (h : isBare s = true) : IsScalar P s.toList (.str s) := by
  simp only [isBare, Bool.and_eq_true, decide_eq_true_eq] at h
  obtain ⟨⟨hisPlain, hstrip⟩, hcore⟩ := h
  have hhead : ∀ rest, s.toList = '"' :: rest → False := by
    intro rest heq
    rw [heq] at hisPlain
    cases hisPlain
  refine ⟨?_, hstrip, isPlain_line hisPlain⟩
  rw [scalar]
  · rw [if_pos (by simp [hisPlain, hplain]), String.ofList_toList, resolve_core hcore]
  · exact hhead

theorem linesOf_entry (n : Nat) {k cs : List Char} {v : Value} (hk : IsScalar P k v)
    (hcs : '\n' ∉ cs) : linesOf (List.replicate n ' ' ++ (k ++ ':' :: ' ' :: cs)) =
      [⟨n, k ++ ':' :: ' ' :: cs⟩] := by
  have hhead : (k ++ ':' :: ' ' :: cs).dropWhile (· == ' ') = k ++ ':' :: ' ' :: cs := by
    rw [List.dropWhile_append, hk.head, if_neg (by simpa using hk.ne)]
  have hvisible : (k ++ ':' :: ' ' :: cs).all isBlank = false := by simp [isBlank]
  rw [linesOf_line, lineOf_indent n hhead hvisible]
  · rfl
  · simp only [List.mem_append, List.mem_cons, not_or]
    exact ⟨by simp, hk.line, by decide, by decide, hcs⟩

theorem keyOf_scalar {k : String} (hk : IsScalar P k.toList (.str k)) (hlength : k.length ≤ 1024) :
    keyOf P k.toList = some (.str k) := by
  rw [keyOf, String.length_toList, if_pos hlength, hk.last, hk.scalar]

theorem isEntry_line {i : Nat} {k : String} {cs : List Char} {v : Value}
    (hk : IsScalar P k.toList (.str k)) (hlength : k.length ≤ 1024) (hne : strip (' ' :: cs) ≠ [])
    (hflow : flow P (' ' :: cs) = some v) :
    IsEntry P (⟨i, k.toList ++ ':' :: ' ' :: cs⟩, []) (.str k, v) :=
  .behind _ _ (key_of_scalar hk.scalar rfl) (keyOf_scalar hk hlength) hne rfl hflow

variable {sub : Submission} {pairs : List (String × String)}

include hplain in
theorem linesOf_word {name s : String} (hname : isBare name = true) (hs : isBare s = true) :
    linesOf (wordText name s) = [⟨0, wordText name s⟩] :=
  linesOf_entry 0 (isScalar_bare hplain hname) (isScalar_bare hplain hs).line

include hplain in
theorem argLines_bare {p : String × String} (hkey : isBare p.1 = true) :
    argLines p = [⟨2, argText p⟩] :=
  linesOf_entry 2 (isScalar_bare hplain hkey) (Inspect.inspect_line p.2)

/-- The entry of a word. -/
def wordGroup (name s : String) : Group := (⟨0, wordText name s⟩, [])

/-- The entry of an argument. -/
def argGroup (p : String × String) : Group := (⟨2, argText p⟩, [])

include hplain in
theorem isEntry_word {name s : String} (hname : isBare name = true) (hlength : name.length ≤ 1024)
    (hs : isBare s = true) : IsEntry P (wordGroup name s) (.str name, .str s) := by
  have hscalar := isScalar_bare hplain hs
  refine isEntry_line (isScalar_bare hplain hname) hlength ?_ (flow_of_scalar hscalar.scalar ?_)
  · rw [show strip (' ' :: s.toList) = strip s.toList from rfl, hscalar.strip]
    exact hscalar.ne
  · exact hscalar.strip

include hplain in
theorem isEntry_arg {p : String × String} (hkey : isBare p.1 = true) (hlength : p.1.length ≤ 1024)
    (hvalue : Inspect.isReadBack p.2 = true) : IsEntry P (argGroup p) (.str p.1, .str p.2) := by
  refine isEntry_line (isScalar_bare hplain hkey) hlength ?_ (Inspect.flow_inspect.mpr hvalue)
  rw [Inspect.strip_inspect]
  exact Inspect.inspect_ne p.2

include hplain in
/-- **The arguments of a safe submission** are read from their lines. -/
theorem reads_args (hsafe : Safe sub) (hperm : pairs.Perm sub.args.pairs) :
    Reads P (argsLines pairs) (.map (sub.args.pairs.map fun p => (.str p.1, .str p.2))) := by
  have hsafePairs : ∀ p ∈ pairs, isBare p.1 = true ∧ p.1.length ≤ 1024 ∧
      Inspect.isReadBack p.2 = true := by
    intro p hp
    have hp := hperm.mem_iff.mp hp
    exact ⟨(hsafe.keys p hp).1, (hsafe.keys p hp).2, hsafe.values p hp⟩
  unfold argsLines
  split
  · rename_i hnil
    rw [hnil] at hperm
    rw [List.nil_perm.mp hperm]
    intro fuel hfuel
    cases fuel with
    | zero => simp at hfuel
    | succ fuel => rfl
  · rename_i hne
    have hlines : pairs.flatMap argLines = ungroup (pairs.map argGroup) := by
      rw [ungroup, List.flatMap_map]
      refine List.flatMap_congr fun p hp => ?_
      exact argLines_bare hplain (hsafePairs p hp).1
    rw [hlines]
    refine reads_mapping P (i := 2) (by simpa using hne) ?_ ?_ ?_ (hperm.map _) ?_ ?_
    · intro g hg
      obtain ⟨p, -, rfl⟩ := List.mem_map.mp hg
      exact ⟨rfl, by simp [argGroup]⟩
    · intro g hg
      obtain ⟨p, hp, rfl⟩ := List.mem_map.mp hg
      exact isDash_of_scalar (isScalar_bare hplain (hsafePairs p hp).1).scalar _
    · rw [List.forall₂_map_left_iff, List.forall₂_map_right_iff, List.forall₂_same]
      intro p hp
      obtain ⟨hkey, hlength, hvalue⟩ := hsafePairs p hp
      exact isEntry_arg hplain hkey hlength hvalue
    · intro e he
      obtain ⟨p, -, rfl⟩ := List.mem_map.mp he
      exact ⟨p.1, rfl⟩
    · exact List.Pairwise.map _ (fun p p' hlt => ⟨p.1, p'.1, rfl, rfl, hlt⟩) sub.args.sorted

/-- The entries of the file. -/
def fileGroups (sub : Submission) (pairs : List (String × String)) : List Group :=
  [wordGroup "id" sub.id, wordGroup "kind" sub.kind, wordGroup "submitted_by" sub.submittedBy,
    (⟨0, "args:".toList⟩, argsLines pairs)]

include hplain in
theorem argsLines_indent (hkeys : ∀ p ∈ pairs, isBare p.1 = true) :
    ∀ l ∈ argsLines pairs, 0 < l.indent := by
  unfold argsLines
  split
  · simp
  · intro l hl
    obtain ⟨p, hp, hl⟩ := List.mem_flatMap.mp hl
    rw [argLines_bare hplain (hkeys p hp), List.mem_singleton] at hl
    rw [hl]
    exact Nat.succ_pos _

include hplain in
/-- **A safe submission is read back.** -/
theorem read_of_safe (hsafe : Safe sub) (hperm : pairs.Perm sub.args.pairs) :
    read P (fileText sub pairs) = some (document sub) := by
  have hlines : linesOf (fileText sub pairs).toList = ungroup (fileGroups sub pairs) := by
    rw [linesOf_file, linesOf_word hplain (by decide) hsafe.id,
      linesOf_word hplain (by decide) hsafe.kind, linesOf_word hplain (by decide) hsafe.submittedBy]
    simp [fileGroups, ungroup, wordGroup]
  have hdeeper := argsLines_indent hplain fun p hp => (hsafe.keys p (hperm.mem_iff.mp hp)).1
  have hargs : IsEntry P (⟨0, "args:".toList⟩, argsLines pairs)
      (.str "args", .map (sub.args.pairs.map fun p => (.str p.1, .str p.2))) :=
    .below "args".toList [] rfl (keyOf_scalar (isScalar_bare hplain (by decide)) (by decide)) rfl
      (reads_args hplain hsafe hperm)
  refine read_of_reads ?_ ?_
  · have hmarkers : (argsLines pairs).any isMarker = false := by
      rw [List.any_eq_false]
      intro l hl
      simp [isMarker, Nat.ne_of_gt (hdeeper l hl)]
    rw [hlines]
    simp [fileGroups, ungroup, wordGroup, wordText, isMarker, hmarkers]
  · rw [hlines]
    refine reads_mapping P (i := 0) (by simp [fileGroups]) ?_ ?_
      (.cons (isEntry_word hplain (by decide) (by decide) hsafe.id)
        (.cons (isEntry_word hplain (by decide) (by decide) hsafe.kind)
          (.cons (isEntry_word hplain (by decide) (by decide) hsafe.submittedBy)
            (.cons hargs .nil)))) ?_ ?_ ?_
    · simp only [fileGroups, List.forall_mem_cons, List.not_mem_nil, false_imp_iff, implies_true,
        and_true]
      exact ⟨⟨rfl, by simp [wordGroup]⟩, ⟨rfl, by simp [wordGroup]⟩, ⟨rfl, by simp [wordGroup]⟩,
        ⟨rfl, hdeeper⟩⟩
    · simp only [fileGroups, List.forall_mem_cons, List.not_mem_nil, false_imp_iff, implies_true,
        and_true]
      exact ⟨rfl, rfl, rfl, rfl⟩
    · exact @List.perm_append_comm _ [_, _, _] [_]
    · simp
    · simp only [List.pairwise_cons, List.forall_mem_cons, List.not_mem_nil, false_imp_iff,
        implies_true, and_true, List.Pairwise.nil]
      refine ⟨⟨?_, ?_, ?_⟩, ⟨?_, ?_⟩, ?_⟩ <;> exact before_str _ _ (by decide)

end

end Cli
end Esr
