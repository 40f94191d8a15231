import Esr.YamlKept

/-! # Safe values are read back

The rows of a safe value are the lines the reader goes through, and each collection of
rows is read as what it was written from: by the rules for sequences and for mappings,
from the scalars on.
-/
namespace Esr
namespace Yaml
namespace Writer
open Reader

section
variable {P : Profile} {t : List Char} {v : Value}

namespace IsScalar

theorem head (h : IsScalar P t v) : t.dropWhile (· == ' ') = t := by
  have hlength : t.length ≤ (t.dropWhile (· == ' ')).length := by
    conv => lhs; rw [← h.strip, Reader.strip]
    exact (List.rdropWhile_prefix isBlank _).length_le
  exact (List.dropWhile_suffix _).eq_of_length_le hlength

theorem last (h : IsScalar P t v) : t.rdropWhile isBlank = t := by
  have hstrip := h.strip
  rwa [Reader.strip, h.head] at hstrip

theorem ne (h : IsScalar P t v) : t ≠ [] := by
  rintro rfl
  cases h.scalar

theorem visible (h : IsScalar P t v) : t.all isBlank = false := by
  rw [← Bool.not_eq_true]
  intro hblank
  have hnil : t.rdropWhile isBlank = [] :=
    List.rdropWhile_eq_nil_iff.mpr fun c hc => List.all_eq_true.mp hblank c hc
  exact h.ne (h.last.symm.trans hnil)

end IsScalar

variable {s : String} {e : Value × Value} {n : Nat} {rs : List Row}

theorem isRow_scalar (n : Nat) (h : IsScalar P s.toList v) : IsRow (n, s) :=
  ⟨h.line, h.head, h.visible⟩

theorem isRow_dash (n : Nat) (h : '\n' ∉ s.toList) : IsRow (n, "- " ++ s) := by
  refine ⟨?_, ?_, ?_⟩
  · simpa using h
  · simp
  · simp [isBlank]

theorem trimLeading_line (h : '\n' ∉ s.toList) : '\n' ∉ (trimLeading s).toList := by
  intro hc
  rw [trimLeading, String.toList_ofList] at hc
  exact h ((List.dropWhile_suffix _).mem hc)

theorem isScalar_key (hplain : ∀ c, c ≠ '"' → P.plain c = true) {k : Value} (h : isKey k = true) :
    IsScalar P (scalarText k).toList k ∧ keyOf P (scalarText k).toList = some k := by
  cases k with
  | str s =>
    simp only [isKey, Bool.and_eq_true, decide_eq_true_eq] at h
    have hscalar : IsScalar P (encodeString s).toList (.str s) := isScalar_str hplain h.1
    have hlength : (encodeString s).toList.length = writtenLength s := by
      rw [toList_encodeString, writtenLength]
      split
      · simp [length_esc, ← String.length_toList]
      · exact String.length_toList
    refine ⟨hscalar, ?_⟩
    show keyOf P (encodeString s).toList = _
    rw [keyOf, hlength, if_pos h.2, hscalar.last, hscalar.scalar]
  | _ => cases h

theorem tailText_line (hplain : ∀ c, c ≠ '"' → P.plain c = true) (h : Plain P.floatText v)
    (hkept : Kept v) : '\n' ∉ (tailText v).toList := by
  have hscalar : isCollection v = false → '\n' ∉ (tailText v).toList := by
    intro hv
    rw [tailText_scalar hv]
    simpa using (isScalar hplain hv h hkept).line
  cases v with
  | list vs =>
    cases vs with
    | nil => decide
    | cons v vs => exact (by decide : '\n' ∉ ":".toList)
  | map es =>
    cases es with
    | nil => decide
    | cons e es => exact (by decide : '\n' ∉ ":".toList)
  | _ => exact hscalar rfl

theorem isRow_entry (hplain : ∀ c, c ≠ '"' → P.plain c = true) (n : Nat) (hkey : isKey e.1 = true)
    (h : Plain P.floatText e.2) (hkept : Kept e.2) :
    IsRow (n, scalarText e.1 ++ tailText e.2) := by
  obtain ⟨hscalar, -⟩ := isScalar_key hplain hkey
  obtain ⟨c, cs, hc⟩ := List.exists_cons_of_ne_nil hscalar.ne
  have hhead := hscalar.head
  refine ⟨?_, ?_, ?_⟩
  · simpa using ⟨hscalar.line, tailText_line hplain h hkept⟩
  · have hspace : ¬(c == ' ') = true := by
      intro hspace
      have hless : (cs.dropWhile (· == ' ')).length = (c :: cs).length := by
        rw [← hc, ← hhead, hc]
        exact (congrArg List.length (@List.dropWhile_cons_of_pos _ (· == ' ') c cs hspace)).symm
      have hdrop := List.length_dropWhile_le (· == ' ') cs
      rw [List.length_cons] at hless
      omega
    simp only [String.toList_append, hc, List.cons_append]
    exact List.dropWhile_cons_of_neg hspace
  · have hvisible := hscalar.visible
    simp [hvisible]

/-- **The rows of what is kept** are lines. -/
theorem rows_isRow (hplain : ∀ c, c ≠ '"' → P.plain c = true) (h : Plain P.floatText v)
    (hkept : Kept v) (n : Nat) : ∀ r ∈ rows n v, IsRow r := by
  have hscalar : ∀ v, isCollection v = false → Plain P.floatText v → Kept v →
      ∀ n, ∀ r ∈ rows n v, IsRow r := by
    intro v hv h hkept n r hr
    rw [rows_scalar n hv, List.mem_singleton] at hr
    subst hr
    exact isRow_scalar n (isScalar hplain hv h hkept)
  induction h generalizing n with
  | null => exact hscalar _ rfl .null hkept n
  | bool b => exact hscalar _ rfl (.bool b) hkept n
  | int i => exact hscalar _ rfl (.int i) hkept n
  | float t ht hread => exact hscalar _ rfl (.float t ht hread) hkept n
  | str s => exact hscalar _ rfl (.str s) hkept n
  | list vs hvs ih =>
    cases hkept with
    | list _ _ hkepts =>
      cases vs with
      | nil =>
        intro r hr
        rw [rows, List.mem_singleton] at hr
        subst hr
        exact ⟨by decide, by decide, by decide⟩
      | cons v vs =>
        rw [rows, itemRows_eq]
        intro r hr
        obtain ⟨w, hw, hr⟩ := List.mem_flatMap.mp hr
        unfold itemBlock at hr
        split at hr
        · have hdeeper := ih w hw (hkepts w hw) (n + 2)
          cases hrows : rows (n + 2) w with
          | nil =>
            rw [hrows, dashed, List.mem_singleton] at hr
            subst hr
            exact ⟨by simp, by simp, by simp [isBlank]⟩
          | cons r' rs =>
            rw [hrows] at hdeeper hr
            rcases List.mem_cons.mp hr with rfl | hr
            · exact isRow_dash n (trimLeading_line (hdeeper r' List.mem_cons_self).line)
            · exact hdeeper r (List.mem_cons_of_mem _ hr)
        · rename_i hw'
          rw [List.mem_singleton] at hr
          subst hr
          exact isRow_dash n (isScalar hplain (by simpa using hw') (hvs w hw) (hkepts w hw)).line
  | map es hkeys hsorted hes ih =>
    cases hkept with
    | map _ hisKey hkepts =>
      rw [rows, entryRows_eq]
      intro r hr
      obtain ⟨e, he, hr⟩ := List.mem_flatMap.mp hr
      rcases List.mem_cons.mp hr with rfl | hr
      · exact isRow_entry hplain n (hisKey e he) (hes e he) (hkepts e he)
      · split at hr
        · exact ih e he (hkepts e he) (n + 2) r hr
        · cases hr

/-! ## Groups of rows -/

/-- Rows as a group: the first, and the deeper ones. -/
def groupOf : List Row → Group
  | [] => (⟨0, []⟩, [])
  | r :: rs => (lineRow r, rs.map lineRow)

theorem ungroup_rows {α : Type} {f : α → List Row} (hne : ∀ a, f a ≠ []) (as : List α) :
    ungroup (as.map fun a => groupOf (f a)) = (as.flatMap f).map lineRow := by
  induction as with
  | nil => rfl
  | cons a as ih =>
    obtain ⟨r, rs, hrows⟩ := List.exists_cons_of_ne_nil (hne a)
    have hgroup : (groupOf (f a)).1 :: (groupOf (f a)).2 = (f a).map lineRow := by
      rw [hrows]
      rfl
    rw [List.flatMap_cons, List.map_append, ← ih, ← hgroup]
    rfl

theorem at_groupOf (h : Deepens n rs) : At n (groupOf rs) := by
  obtain ⟨body, deeper, rfl, hdeeper⟩ := h
  refine ⟨rfl, ?_⟩
  intro l hl
  obtain ⟨r, hr, rfl⟩ := List.mem_map.mp hl
  exact hdeeper r hr

theorem trimLeading_of_head {c : Char} (hs : s.toList.head? = some c) (hc : isSpace c = false) :
    trimLeading s = s := by
  obtain ⟨cs, hs⟩ := List.head?_eq_some_iff.mp hs
  rw [trimLeading, hs, List.dropWhile_cons_of_neg (by simp [hc]), ← hs, String.ofList_toList]

theorem trimLeading_list {vs : List Value} {r : Row} (h : rows n (.list vs) = r :: rs) :
    trimLeading r.2 = r.2 := by
  cases vs with
  | nil =>
    rw [rows] at h
    obtain ⟨rfl, -⟩ := List.cons.inj h
    exact (by decide : trimLeading "[]" = "[]")
  | cons v vs =>
    rw [rows, itemRows_eq, List.flatMap_cons] at h
    have hdash : ∀ s : String, trimLeading ("- " ++ s) = "- " ++ s := fun s =>
      trimLeading_of_head (c := '-') (by rw [String.toList_append]; rfl) (by decide)
    unfold itemBlock at h
    split at h
    · cases hrows : rows (n + 2) v with
      | nil =>
        rw [hrows] at h
        obtain ⟨rfl, -⟩ := List.cons.inj h
        exact (by decide : trimLeading "- " = "- ")
      | cons r' rs' =>
        rw [hrows] at h
        obtain ⟨rfl, -⟩ := List.cons.inj h
        exact hdash _
    · obtain ⟨rfl, -⟩ := List.cons.inj h
      exact hdash _

theorem trimLeading_item {r : Row} (hplain : ∀ c, c ≠ '"' → P.plain c = true) (hkept : Kept v)
    (hitem : isItem v = true) (hv : isCollection v = true) (h : rows n v = r :: rs) :
    trimLeading r.2 = r.2 := by
  cases v with
  | list vs => exact trimLeading_list h
  | map es =>
    cases es with
    | nil => cases hitem
    | cons e es =>
      obtain ⟨k, w⟩ := e
      rw [rows, entryRows_eq, List.flatMap_cons, entryBlock, List.cons_append] at h
      obtain ⟨rfl, -⟩ := List.cons.inj h
      cases hkept with
      | map _ hkeys _ =>
        have hkey := hkeys _ List.mem_cons_self
        cases k with
        | str s =>
          obtain ⟨hscalar, -⟩ := isScalar_key hplain hkey
          obtain ⟨c, cs, hc⟩ := List.exists_cons_of_ne_nil hscalar.ne
          refine trimLeading_of_head (c := c) ?_ ?_
          · simp [hc]
          · have htext : (encodeString s).toList = c :: cs := hc
            rw [toList_encodeString] at htext
            split at htext
            · obtain ⟨rfl, -⟩ := List.cons.inj htext
              decide
            · rename_i hquoted
              simpa [isItem, hquoted, htext] using hitem
        | _ => cases hkey
  | _ => cases hv

theorem behindDash_row (ht : t.dropWhile (· == ' ') = t) :
    behindDash ⟨n, '-' :: ' ' :: t⟩ = ⟨n + 2, t⟩ := by
  have hafter : afterDash ('-' :: ' ' :: t) = t := ht
  rw [behindDash]
  dsimp only
  rw [hafter, List.length_cons, List.length_cons, Nat.add_assoc, Nat.add_sub_cancel_left]

theorem itemLines_row (h : IsRow (n + 2, s)) :
    itemLines (groupOf ((n, "- " ++ s) :: rs)) = ((n + 2, s) :: rs).map lineRow := by
  have hline : lineRow (n, "- " ++ s) = ⟨n, '-' :: ' ' :: s.toList⟩ := by simp [lineRow]
  have hne : s.toList ≠ [] := by
    intro hnil
    have hvisible := h.visible
    rw [hnil] at hvisible
    cases hvisible
  rw [itemLines, groupOf, hline, behindDash_row h.head, if_neg hne]
  rfl

/-- **An item** is read from its rows. -/
theorem reads_item (hplain : ∀ c, c ≠ '"' → P.plain c = true) (h : Plain P.floatText v)
    (hkept : Kept v) (hitem : isItem v = true) (n : Nat)
    (hread : isBlock v = true → Reads P ((rows (n + 2) v).map lineRow) v) :
    isDash (groupOf (itemBlock n v)).1.text = true ∧
      Reads P (itemLines (groupOf (itemBlock n v))) v := by
  have hdash : ∀ s rs, isDash (groupOf ((n, "- " ++ s) :: rs)).1.text = true := by
    intro s rs
    simp [groupOf, lineRow, isDash, followed, isBlank]
  cases hv : isCollection v with
  | false =>
    have hscalar := isScalar hplain hv h hkept
    rw [itemBlock, if_neg (by simp [hv])]
    refine ⟨hdash _ _, ?_⟩
    rw [itemLines_row (isRow_scalar _ hscalar)]
    exact reads_scalar hscalar.scalar hscalar.strip
  | true =>
    cases hblock : isBlock v with
    | true =>
      obtain ⟨body, rs, hrows⟩ := rows_cons (n + 2) hblock
      have hrow := rows_isRow hplain h hkept (n + 2) (n + 2, body) (by simp [hrows])
      have htrim := trimLeading_item hplain hkept hitem hv hrows
      have hread := hread hblock
      rw [itemBlock, if_pos hv, hrows, dashed, htrim]
      rw [hrows] at hread
      refine ⟨hdash _ _, ?_⟩
      rw [itemLines_row hrow]
      exact hread
    | false =>
      cases v with
      | list vs =>
        cases vs with
        | nil =>
          have hrow : IsRow (n + 2, "[]") := ⟨by simp, by simp, by simp [isBlank]⟩
          have htrim : trimLeading "[]" = "[]" := by decide
          rw [itemBlock, if_pos hv, rows, dashed, htrim]
          refine ⟨hdash _ _, ?_⟩
          rw [itemLines_row hrow, show [(n + 2, "[]")].map lineRow = [⟨n + 2, ['[', ']']⟩] by
            simp [lineRow]]
          exact reads_emptyList
        | cons => cases hblock
      | map es =>
        cases es with
        | nil => cases hitem
        | cons => cases hblock
      | _ => cases hv

/-- **An entry** is read from its rows. -/
theorem reads_entry (hplain : ∀ c, c ≠ '"' → P.plain c = true) (hkey : isKey e.1 = true)
    (h : Plain P.floatText e.2) (hkept : Kept e.2) (n : Nat)
    (hread : isBlock e.2 = true → Reads P ((rows (n + 2) e.2).map lineRow) e.2) :
    isDash (groupOf (entryBlock n e)).1.text = false ∧ IsEntry P (groupOf (entryBlock n e)) e := by
  obtain ⟨hscalar, hkeyOf⟩ := isScalar_key hplain hkey
  have htext : (groupOf (entryBlock n e)).1.text =
      (scalarText e.1).toList ++ (tailText e.2).toList := by
    simp [groupOf, entryBlock, lineRow]
  have hcut : ∀ rest, (tailText e.2).toList = ':' :: rest → followed rest = false →
      cutKey (groupOf (entryBlock n e)).1.text = some ((scalarText e.1).toList, rest) := by
    intro rest htail hrest
    rw [htext, htail]
    exact key_of_scalar hscalar.scalar hrest
  refine ⟨by rw [htext]; exact isDash_of_scalar hscalar.scalar _, ?_⟩
  obtain ⟨k, v⟩ := e
  have hbelow : isBlock v = true → (tailText v).toList = [':'] →
      IsEntry P (groupOf (entryBlock n (k, v))) (k, v) := by
    intro hblock htail
    refine .below _ [] (hcut _ htail rfl) hkeyOf rfl ?_
    rw [entryBlock, if_pos hblock]
    exact hread hblock
  have hbehind : ∀ rest, (tailText v).toList = ':' :: ' ' :: rest → strip rest ≠ [] →
      isBlock v = false → flow P rest = some v → IsEntry P (groupOf (entryBlock n (k, v))) (k, v) := by
    intro rest htail hstrip hblock hflow
    refine .behind _ (' ' :: rest) (hcut _ htail rfl) hkeyOf hstrip ?_ hflow
    rw [entryBlock, if_neg (by simp [hblock])]
    rfl
  have hscalarValue : isCollection v = false → IsEntry P (groupOf (entryBlock n (k, v))) (k, v) := by
    intro hv
    have hvalue := isScalar hplain hv h hkept
    have hblock : isBlock v = false := by cases v <;> first | rfl | cases hv
    refine hbehind _ ?_ ?_ hblock (flow_of_scalar hvalue.scalar hvalue.strip)
    · rw [tailText_scalar hv]
      simp
    · rw [hvalue.strip]
      exact hvalue.ne
  cases v with
  | list vs =>
    cases vs with
    | nil => exact hbehind ['[', ']'] rfl (by decide) rfl rfl
    | cons v vs => exact hbelow rfl (by simp [tailText])
  | map es =>
    cases es with
    | nil => exact hbehind ['\x7b', '\x7d'] rfl (by decide) rfl rfl
    | cons e es => exact hbelow rfl (by simp [tailText])
  | _ => exact hscalarValue rfl

/-- **What is kept is read** from its rows. -/
theorem reads_rows (hplain : ∀ c, c ≠ '"' → P.plain c = true) (h : Plain P.floatText v)
    (hkept : Kept v) (hne : v ≠ .map []) (n : Nat) : Reads P ((rows n v).map lineRow) v := by
  have hscalar : ∀ v, isCollection v = false → Plain P.floatText v → Kept v →
      ∀ n, Reads P ((rows n v).map lineRow) v := by
    intro v hv h hkept n
    have hvalue := isScalar hplain hv h hkept
    rw [rows_scalar n hv]
    exact reads_scalar hvalue.scalar hvalue.strip
  induction h generalizing n with
  | null => exact hscalar _ rfl .null hkept n
  | bool b => exact hscalar _ rfl (.bool b) hkept n
  | int i => exact hscalar _ rfl (.int i) hkept n
  | float t ht hread => exact hscalar _ rfl (.float t ht hread) hkept n
  | str s => exact hscalar _ rfl (.str s) hkept n
  | list vs hvs ih =>
    cases hkept with
    | list _ hitems hkepts =>
      cases vs with
      | nil =>
        rw [rows]
        exact reads_emptyList
      | cons v vs =>
        rw [rows, itemRows_eq, ← ungroup_rows (itemBlock_ne n)]
        have hitem : ∀ w ∈ v :: vs, isDash (groupOf (itemBlock n w)).1.text = true ∧
            Reads P (itemLines (groupOf (itemBlock n w))) w := by
          intro w hw
          refine reads_item hplain (hvs w hw) (hkepts w hw) (hitems w hw) n fun hblock => ?_
          exact ih w hw (hkepts w hw) (by rintro rfl; cases hblock) (n + 2)
        refine reads_sequence P (i := n) (by simp) ?_ ?_ ?_
        · intro g hg
          obtain ⟨w, hw, rfl⟩ := List.mem_map.mp hg
          exact at_groupOf (deepens_item fun hblock => rows_indent (hvs w hw) (n + 2) hblock)
        · intro g hg
          obtain ⟨w, hw, rfl⟩ := List.mem_map.mp hg
          exact (hitem w hw).1
        · rw [List.forall₂_map_left_iff, List.forall₂_same]
          exact fun w hw => (hitem w hw).2
  | map es hkeys hsorted hes ih =>
    cases hkept with
    | map _ hisKey hkepts =>
      rw [rows, entryRows_eq, ← ungroup_rows (entryBlock_ne n)]
      have hentry : ∀ e ∈ es, isDash (groupOf (entryBlock n e)).1.text = false ∧
          IsEntry P (groupOf (entryBlock n e)) e := by
        intro e he
        refine reads_entry hplain (hisKey e he) (hes e he) (hkepts e he) n fun hblock => ?_
        exact ih e he (hkepts e he) (by intro hnil; rw [hnil] at hblock; cases hblock) (n + 2)
      refine reads_mapping P (i := n) ?_ ?_ ?_ ?_ (.refl es) hkeys hsorted
      · rintro hnil
        exact hne (by rw [List.map_eq_nil_iff.mp hnil])
      · intro g hg
        obtain ⟨e, he, rfl⟩ := List.mem_map.mp hg
        exact at_groupOf (deepens_entry fun hblock => rows_indent (hes e he) (n + 2) hblock)
      · intro g hg
        obtain ⟨e, he, rfl⟩ := List.mem_map.mp hg
        exact (hentry e he).1
      · rw [List.forall₂_map_left_iff, List.forall₂_same]
        exact fun e he => (hentry e he).2

/-! ## Markers -/

theorem isMarker_key (k rest : List Char) :
    isMarker ⟨0, k ++ ':' :: rest⟩ = isMarker ⟨0, k ++ [':']⟩ := by
  rcases k with _ | ⟨a, _ | ⟨b, _ | ⟨c, _ | ⟨d, k⟩⟩⟩⟩ <;> simp [isMarker, followed]

theorem isMarker_deeper {l : Line} (h : 0 < l.indent) : isMarker l = false := by
  simp [isMarker, Nat.ne_of_gt h]

theorem marker_deepens {body : String} {deeper : List Row} (h : Deepens 0 rs)
    (hrs : rs = (0, body) :: deeper) :
    (rs.map lineRow).any isMarker = isMarker ⟨0, body.toList⟩ := by
  obtain ⟨body', deeper', rfl, hdeeper⟩ := h
  obtain ⟨hrow, rfl⟩ := List.cons.inj hrs
  obtain ⟨-, rfl⟩ := Prod.mk.inj hrow
  have hnone : (deeper'.map lineRow).any isMarker = false := by
    rw [List.any_eq_false]
    intro l hl
    obtain ⟨r, hr, rfl⟩ := List.mem_map.mp hl
    rw [isMarker_deeper (hdeeper r hr)]
    decide
  rw [List.map_cons, List.any_cons, hnone, Bool.or_false]
  rfl

theorem any_flatMap_lines {α : Type} (f : α → List Row) (as : List α) :
    ((as.flatMap f).map lineRow).any isMarker =
      as.any fun a => ((f a).map lineRow).any isMarker := by
  induction as with
  | nil => rfl
  | cons a as ih => rw [List.flatMap_cons, List.map_append, List.any_append, ih, List.any_cons]

theorem isMarker_signed {sign ds : List Char} (hsign : IsSign sign) (hds : IsDigits ds)
    (rest : List Char) : isMarker ⟨0, sign ++ (ds ++ rest)⟩ = false := by
  obtain ⟨hne, hdigits⟩ := hds
  obtain ⟨d, ds, rfl⟩ := List.exists_cons_of_ne_nil hne
  have hd := hdigits d List.mem_cons_self
  have hdash : d ≠ '-' ∧ d ≠ '.' := by
    constructor <;>
    · rintro rfl
      cases hd
  rcases hsign with rfl | rfl <;> simp [isMarker, hdash]

theorem isMarker_written (s : String) (next : List Char) :
    isMarker ⟨0, (encodeString s).toList ++ next⟩ = endsDocument s next := by
  rw [toList_encodeString, endsDocument]
  cases isQuoted s with
  | true => simp [isMarker]
  | false => rfl

theorem marker_scalar (hv : isCollection v = false) (h : Plain P.floatText v) :
    isMarker ⟨0, (scalarText v).toList⟩ = !isDocument v := by
  cases h with
  | null => rfl
  | bool b => cases b <;> rfl
  | int n =>
    obtain ⟨sign, ds, htext, hsign, hds⟩ := repr_shape n
    have hmarker := isMarker_signed hsign hds []
    rw [List.append_nil, ← htext] at hmarker
    exact hmarker
  | float t ht hread =>
    obtain ⟨sign, ds, fraction, exponent, htext, hsign, hds, -⟩ := ht
    have hmarker := isMarker_signed hsign hds ('.' :: (fraction ++ exponent))
    rw [← htext] at hmarker
    exact hmarker
  | str s =>
    have hmarker := isMarker_written s []
    rw [List.append_nil] at hmarker
    rw [show isDocument (.str s) = !endsDocument s [] from rfl, Bool.not_not]
    exact hmarker
  | list => cases hv
  | map => cases hv

theorem marker_item (h : Plain P.floatText v) :
    ((itemBlock 0 v).map lineRow).any isMarker = false := by
  have hdash : ∀ s : String, isMarker ⟨0, ("- " ++ s).toList⟩ = false := fun s => by
    simp [isMarker]
  have hdeepens : Deepens 0 (itemBlock 0 v) := deepens_item fun hblock => rows_indent h _ hblock
  have hfirst := hdeepens
  obtain ⟨body, deeper, hrows, -⟩ := hfirst
  rw [marker_deepens hdeepens hrows]
  unfold itemBlock at hrows
  split at hrows
  · cases hinner : rows (0 + 2) v with
    | nil =>
      rw [hinner] at hrows
      obtain ⟨hrow, -⟩ := List.cons.inj hrows
      obtain ⟨-, rfl⟩ := Prod.mk.inj hrow
      decide
    | cons r rs =>
      rw [hinner] at hrows
      obtain ⟨hrow, -⟩ := List.cons.inj hrows
      obtain ⟨-, rfl⟩ := Prod.mk.inj hrow
      exact hdash _
  · obtain ⟨hrow, -⟩ := List.cons.inj hrows
    obtain ⟨-, rfl⟩ := Prod.mk.inj hrow
    exact hdash _

theorem tailText_cons (v : Value) : ∃ rest, (tailText v).toList = ':' :: rest := by
  have hscalar : isCollection v = false → ∃ rest, (tailText v).toList = ':' :: rest := by
    intro hv
    rw [tailText_scalar hv]
    exact ⟨' ' :: (scalarText v).toList, by simp⟩
  cases v with
  | list vs => cases vs <;> exact ⟨_, by simp [tailText]; rfl⟩
  | map es => cases es <;> exact ⟨_, by simp [tailText]; rfl⟩
  | _ => exact hscalar rfl

theorem marker_entry (h : Plain P.floatText e.2) {key : String} (hkey : e.1 = .str key) :
    ((entryBlock 0 e).map lineRow).any isMarker = endsDocument key [':'] := by
  have hdeepens : Deepens 0 (entryBlock 0 e) := deepens_entry fun hblock => rows_indent h _ hblock
  obtain ⟨rest, htail⟩ := tailText_cons e.2
  have htext : (scalarText e.1 ++ tailText e.2).toList = (encodeString key).toList ++ ':' :: rest := by
    rw [String.toList_append, htail, hkey]
    rfl
  rw [marker_deepens hdeepens rfl, htext, isMarker_key, isMarker_written]

/-- **Where the markers are** among the lines of a value. -/
theorem markers (h : Plain P.floatText v) (hne : v ≠ .map []) :
    ((rows 0 v).map lineRow).any isMarker = !isDocument v := by
  have hscalar : isCollection v = false → ((rows 0 v).map lineRow).any isMarker = !isDocument v := by
    intro hv
    rw [rows_scalar 0 hv, ← marker_scalar hv h]
    simp [lineRow]
  cases h with
  | list vs hvs =>
    cases vs with
    | nil => rw [rows]; rfl
    | cons v vs =>
      rw [rows, itemRows_eq, any_flatMap_lines]
      show _ = false
      rw [List.any_eq_false]
      intro w hw
      rw [marker_item (hvs w hw)]
      decide
  | map es hkeys hsorted hes =>
    have hnil : es ≠ [] := by
      rintro rfl
      exact hne rfl
    have hentries : es.any (fun e => ((entryBlock 0 e).map lineRow).any isMarker) =
        !es.all fun e => !keyEndsDocument e.1 := by
      clear hnil hne hscalar hsorted
      induction es with
      | nil => rfl
      | cons e es ih =>
        obtain ⟨key, hkey⟩ := hkeys e List.mem_cons_self
        have hrest := ih (fun e he => hkeys e (List.mem_cons_of_mem _ he)) fun e he =>
          hes e (List.mem_cons_of_mem _ he)
        rw [List.any_cons, List.all_cons, hrest, marker_entry (hes e List.mem_cons_self) hkey, hkey,
          Bool.not_and, Bool.not_not]
        rfl
    rw [rows, entryRows_eq, any_flatMap_lines, isDocument, hentries]
    simp [hnil]
  | _ => exact hscalar rfl

/-! ## Documents -/

theorem encode_rows (h : Plain P.floatText v) : encode v = .ok (text (rows 0 v) ++ "\n") := by
  rw [encode, emit_rows h]
  rfl

theorem linesOf_written (rs : List Row) : linesOf (text rs ++ "\n").toList = linesOfRows rs := by
  have htext : (text rs ++ "\n").toList = (text rs).toList ++ '\n' :: [] := by simp
  rw [htext, linesOf_append, linesOf_nil, List.append_nil, linesOf_text]

/-- **A safe value is read** from what is written of it. -/
theorem read_of_safe (hplain : ∀ c, c ≠ '"' → P.plain c = true) (h : Plain P.floatText v)
    (hsafe : Safe v) : read P (text (rows 0 v) ++ "\n") = some v := by
  obtain ⟨hdocument, hkept⟩ := hsafe
  have hne : v ≠ .map [] := by
    rintro rfl
    cases hdocument
  have hlines : linesOf (text (rows 0 v) ++ "\n").toList = (rows 0 v).map lineRow := by
    rw [linesOf_written, linesOfRows_eq (rows_isRow hplain h hkept 0)]
  refine read_of_reads ?_ ?_
  · rw [hlines, markers h hne, hdocument]
    rfl
  · rw [hlines]
    exact reads_rows hplain h hkept hne 0

end

end Writer
end Yaml
end Esr
