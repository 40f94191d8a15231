import Esr.YamlExact

/-! # The round trip through the writer

A reader conforms when it reads every document of the fragment as the fragment is read.
What the writer writes of a plain value is read back by every such reader exactly for the
safe values (`roundTrips_iff_safe`).  The writer's own account promises a round trip for all.
-/
namespace Esr
namespace Yaml
namespace Writer
open Reader

section
variable {P : Profile} (hplain : ∀ c, c ≠ '"' → P.plain c = true) (hquote : P.plain '"' = false)

/-! ## Lines with something before them -/

variable {m n : Nat} {v : Value}

theorem says_first {x y b : List Char} (hx : '\n' ∉ x) (hy : '\n' ∉ y)
    (hline : ∀ cs m, SaysAll P (lineOf (x ++ cs)).toList m → SaysAll P (lineOf (y ++ cs)).toList m)
    (h : SaysAll P (linesOf (x ++ b)) m) : SaysAll P (linesOf (y ++ b)) m := by
  have hnone : ∀ {x cs : List Char}, '\n' ∉ x → '\n' ∉ cs → '\n' ∉ x ++ cs := by
    intro x cs hx hcs
    rw [List.mem_append, not_or]
    exact ⟨hx, hcs⟩
  by_cases hnewline : '\n' ∈ b
  · obtain ⟨first, others, rfl, hfirst⟩ := List.eq_append_cons_of_mem hnewline
    rw [← List.append_assoc, linesOf_append, saysAll_append] at h ⊢
    obtain ⟨a, c, ha, hc, rfl⟩ := h
    rw [linesOf_line (hnone hx hfirst)] at ha
    rw [linesOf_line (hnone hy hfirst)]
    exact ⟨a, c, hline _ _ ha, hc, rfl⟩
  · rw [linesOf_line (hnone hx hnewline)] at h
    rw [linesOf_line (hnone hy hnewline)]
    exact hline _ _ h

theorem spaces_line (n : Nat) : '\n' ∉ List.replicate n ' ' := by
  rw [List.mem_replicate]
  exact fun hc => absurd hc.2 (by decide)

theorem not_says_blank {cs : List Char} (hblank : cs.all isBlank = true) : ¬Says P cs m := by
  rw [List.all_eq_true] at hblank
  have hdash : isDash cs = true → False := by
    intro hdash
    obtain ⟨cs', rfl⟩ := dash_cons hdash
    cases hblank '-' List.mem_cons_self
  have hcut : ∀ {key rest}, cutKey cs = some (key, rest) → False := by
    intro key rest hcut
    rw [cutKey, cutColon_blank hblank] at hcut
    · cases hcut
    · rintro rest rfl
      cases hblank '"' List.mem_cons_self
  have hstrip : strip cs = [] :=
    List.rdropWhile_eq_nil_iff.mpr fun c hc => hblank c ((List.dropWhile_suffix _).mem hc)
  intro h
  cases h with
  | dash hd => exact hdash hd
  | item hd => exact hdash hd
  | key hd hkey => exact hcut hkey
  | entry hd hkey => exact hcut hkey
  | scalar hd hkey hflow =>
    rw [flow, hstrip] at hflow
    cases hflow

theorem says_dash {b : List Char} {k : Nat}
    (h : SaysAll P (linesOf (List.replicate n ' ' ++ ['-', ' '] ++ b)) m) :
    SaysAll P (linesOf (List.replicate k ' ' ++ b)) m := by
  refine says_first ?_ (spaces_line k) ?_ h
  · rw [List.mem_append, not_or]
    exact ⟨spaces_line n, by decide⟩
  intro cs m h
  have hline : lineOf (List.replicate n ' ' ++ ['-', ' '] ++ cs) = some ⟨n, '-' :: ' ' :: cs⟩ := by
    rw [List.append_assoc]
    exact lineOf_indent n rfl rfl
  have hafter : afterDash ('-' :: ' ' :: cs) = cs.dropWhile (· == ' ') := rfl
  rw [hline] at h
  obtain ⟨a, b, ha, hb, rfl⟩ := saysAll_cons h
  cases hb
  unfold lineOf
  simp only [dropWhile_replicate]
  cases ha with
  | dash hdash hblank =>
    rw [hafter] at hblank
    rw [hblank]
    exact .nil
  | item hdash hsays =>
    rw [hafter] at hsays
    rw [if_neg fun hblank => not_says_blank hblank hsays]
    exact .cons hsays .nil
  | key hdash => cases hdash
  | entry hdash => cases hdash
  | scalar hdash => cases hdash

/-! ## Values -/

/-- What a value weighs on the line of its key. -/
def tailWeight (v : Value) : Nat := if isBlock v then 0 else weight v

theorem isTail_scalar (hv : isCollection v = false) {t : List Char}
    (htext : (scalarText v).toList = t) (hfollows : Follows (':' :: ' ' :: t)) (hline : '\n' ∉ t)
    (hstrip : strip t = [] → weight v ≠ 0)
    (hflow : ∀ w, flow P t = some w → weight w ≤ weight v ∧ (weight w = weight v → Kept v)) :
    IsTail P (tailText v).toList (tailWeight v) (isBlock v = false → Kept v) := by
  have hblock : isBlock v = false := by cases v <;> first | rfl | cases hv
  have htail : (tailText v).toList = ':' :: ' ' :: t := by
    rw [tailText_scalar hv, ← htext]
    simp
  rw [htail, tailWeight, hblock]
  refine ⟨hfollows, by simpa using hline, ' ' :: t, rfl, rfl, ?_, ?_⟩
  · intro hblank hzero
    exact absurd hzero.symm (hstrip hblank)
  · intro w hw
    obtain ⟨hle, heq⟩ := hflow w hw
    exact ⟨hle, fun hsame _ => heq hsame⟩

include hplain hquote in
theorem isTail_other (hv : isCollection v = false) (h : Plain P.floatText v) (hkept : Kept v)
    (hother : isText v = false) :
    IsTail P (tailText v).toList (tailWeight v) (isBlock v = false → Kept v) := by
  have hscalar := isScalar hplain hv h hkept
  have hnone : '"' ∉ (scalarText v).toList := by
    refine plain_quote hquote ?_ hscalar.scalar
    intro rest heq
    have hread := hscalar.scalar
    rw [heq, scalar] at hread
    split at hread
    · cases hread
      cases hother
    · cases hread
  refine isTail_scalar hv rfl (.inl (by simpa using hnone)) hscalar.line ?_ ?_
  · intro hblank
    rw [hscalar.strip] at hblank
    exact absurd hblank hscalar.ne
  · intro w hw
    rw [flow_of_scalar hscalar.scalar hscalar.strip] at hw
    cases hw
    exact ⟨Nat.le_refl _, fun _ => hkept⟩

include hplain hquote in
/-- **What follows a key** is read as less than the value weighs, or it stays what it is;
or it is not read at all. -/
theorem tail_cases (h : Plain P.floatText v) :
    (∀ pre m, ¬SaysAll P (linesOf (pre ++ (tailText v).toList)) m) ∨
      IsTail P (tailText v).toList (tailWeight v) (isBlock v = false → Kept v) := by
  have hcolon : (tailText (.list [])).toList = [':', ' ', '[', ']'] ∧
      (tailText (.map [])).toList = [':', ' ', '\x7b', '\x7d'] ∧ ":".toList = [':'] := by decide
  have hblock : ∀ {v}, isBlock v = true → (tailText v).toList = [':'] →
      IsTail P (tailText v).toList (tailWeight v) (isBlock v = false → Kept v) := by
    intro v hv htail
    rw [htail, tailWeight, if_pos hv]
    refine ⟨.inl (by decide), by decide, [], rfl, rfl, ?_, ?_⟩
    · intro _ _ hnot
      rw [hv] at hnot
      cases hnot
    · intro w hw
      cases hw
  cases h with
  | null => exact .inr (isTail_other hplain hquote rfl .null .null rfl)
  | bool b => exact .inr (isTail_other hplain hquote rfl (.bool b) (.bool b) rfl)
  | int n => exact .inr (isTail_other hplain hquote rfl (.int n) (.int n) rfl)
  | float t ht hread =>
    exact .inr (isTail_other hplain hquote rfl (.float t ht hread) (.float t) rfl)
  | str s =>
    by_cases hquoted : isQuoted s = true
    · by_cases hnewline : '\n' ∈ s.toList
      · refine .inl fun pre m => ?_
        have htext : pre ++ (tailText (.str s)).toList =
            (pre ++ [':', ' ']) ++ '"' :: (esc s.toList ++ '"' :: []) := by
          rw [tailText_scalar rfl, String.toList_append, scalarText, toList_encodeString,
            if_pos hquoted]
          simp
        rw [htext]
        exact not_says_newline hquote follows_nil hnewline (by simp)
      · refine .inr (isTail_scalar rfl rfl ?_ ?_ ?_ ?_)
        · rw [scalarText, toList_encodeString, if_pos hquoted]
          exact .inr ⟨_, rfl⟩
        · rw [scalarText, toList_encodeString, if_pos hquoted]
          simp [esc_line hnewline]
        · rw [scalarText, toList_encodeString, if_pos hquoted, strip_quoted]
          simp
        · intro w hw
          obtain ⟨hle, heq⟩ := flow_written hw
          exact ⟨hle, fun hsame => .str s (heq hsame)⟩
    · obtain ⟨hne, hchars, -⟩ := chars_of_not_quoted (by simpa using hquoted)
      have htext : (scalarText (.str s)).toList = s.toList := by
        rw [scalarText, toList_encodeString, if_neg hquoted]
      refine .inr (isTail_scalar rfl htext ?_ ?_ ?_ ?_)
      · exact .inl fun hc => by
          rcases List.mem_cons.mp hc with hc | hc
          · cases hc
          · rcases List.mem_cons.mp hc with hc | hc
            · cases hc
            · exact (hchars _ hc).2.2.1 rfl
      · exact fun hc => (hchars _ hc).2.2.2 rfl
      · intro _
        rw [weight, ← String.length_toList]
        exact fun hzero => hne (List.length_eq_zero_iff.mp hzero)
      · intro w hw
        rw [← htext] at hw
        obtain ⟨hle, heq⟩ := flow_written hw
        exact ⟨hle, fun hsame => .str s (heq hsame)⟩
  | list vs hvs =>
    cases vs with
    | nil =>
      refine .inr ?_
      rw [hcolon.1]
      refine ⟨.inl (by decide), by decide, [' ', '[', ']'], rfl, rfl, ?_, ?_⟩
      · intro hblank
        cases hblank
      · rintro w hw
        cases hw
        exact ⟨Nat.le_refl _, fun _ _ => .list [] (by simp) (by simp)⟩
    | cons v vs => exact .inr (hblock rfl hcolon.2.2)
  | map es hkeys hsorted hes =>
    cases es with
    | nil =>
      refine .inr ?_
      rw [hcolon.2.1]
      refine ⟨.inl (by decide), by decide, [' ', '\x7b', '\x7d'], rfl, rfl, ?_, ?_⟩
      · intro hblank
        cases hblank
      · rintro w hw
        cases hw
        exact ⟨Nat.le_refl _, fun _ _ => .map [] (by simp) (by simp)⟩
    | cons e es => exact .inr (hblock rfl hcolon.2.2)

/-! ## Rows -/

/-- The rows of a value say no more than it weighs, and as much only if it is kept. -/
def RowsExact (P : Profile) (v : Value) : Prop := ∀ n m, SaysAll P (linesOfRows (rows n v)) m →
  m ≤ weight v ∧ (m = weight v → Kept v ∧ v ≠ .map [])

/-- And so do its rows behind a dash. -/
def ItemExact (P : Profile) (v : Value) : Prop :=
  ∀ n m, SaysAll P (linesOfRows (itemBlock n v)) m →
    m ≤ weight v ∧ (m = weight v → Kept v ∧ isItem v = true)

theorem linesOfRows_append (rs rs' : List Row) :
    linesOfRows (rs ++ rs') = linesOfRows rs ++ linesOfRows rs' := List.flatMap_append

theorem linesOfRows_cons (r : Row) (rs : List Row) :
    linesOfRows (r :: rs) = linesOf (render r).toList ++ linesOfRows rs := List.flatMap_cons

theorem says_below (hexact : RowsExact P v) {b : Nat}
    (h : SaysAll P (linesOfRows (if isBlock v then rows n v else [])) b) :
    tailWeight v + b ≤ weight v ∧
      (tailWeight v + b = weight v → (isBlock v = false → Kept v) → Kept v) := by
  rw [tailWeight]
  cases hblock : isBlock v with
  | true =>
    rw [hblock] at h
    obtain ⟨hle, heq⟩ := hexact n b h
    rw [if_pos rfl, Nat.zero_add]
    exact ⟨hle, fun hsame _ => (heq hsame).1⟩
  | false =>
    rw [hblock] at h
    cases h
    exact ⟨Nat.le_refl _, fun _ hkept => hkept rfl⟩

include hplain hquote in
/-- **An entry** says no more than it weighs. -/
theorem says_entry {e : Value × Value} {key : String} (hkey : e.1 = .str key)
    (h : Plain P.floatText e.2) (hexact : RowsExact P e.2)
    (hs : SaysAll P (linesOfRows (entryBlock n e)) m) : m ≤ weight e.1 + weight e.2 ∧
      (m = weight e.1 + weight e.2 → isKey e.1 = true ∧ Kept e.2) := by
  rw [entryBlock, linesOfRows_cons] at hs
  obtain ⟨a, b, ha, hb, rfl⟩ := saysAll_append.mp hs
  have htext : (render (n, scalarText e.1 ++ tailText e.2)).toList =
      List.replicate n ' ' ++ ((encodeString key).toList ++ (tailText e.2).toList) := by
    rw [toList_render, hkey, String.toList_append]
    rfl
  rw [htext] at ha
  rcases tail_cases hplain hquote h with hnone | htail
  · rw [← List.append_assoc] at ha
    exact absurd ha (hnone _ _)
  · obtain ⟨hale, haeq⟩ := says_key hquote htail ha
    obtain ⟨hble, hbeq⟩ := says_below hexact hb
    have hweight : weight e.1 = key.length := by rw [hkey, weight]
    refine ⟨by omega, fun hsame => ?_⟩
    obtain ⟨hisKey, hkept⟩ := haeq (by omega)
    exact ⟨hkey ▸ hisKey, hbeq (by omega) hkept⟩

include hplain hquote in
theorem says_firstEntry {e : Value × Value} {key : String} (hkey : e.1 = .str key)
    (h : Plain P.floatText e.2) (hexact : RowsExact P e.2) {k : Nat}
    (hs : SaysAll P (linesOfRows ((n, "- " ++ trimLeading (scalarText e.1 ++ tailText e.2)) :: if isBlock e.2 then rows k e.2 else [])) m) :
    m ≤ weight e.1 + weight e.2 ∧
      (m = weight e.1 + weight e.2 → isKey e.1 = true ∧
        (isQuoted key || !(key.toList.take 1).any isSpace) = true ∧ Kept e.2) := by
  rw [linesOfRows_cons] at hs
  obtain ⟨a, b, ha, hb, rfl⟩ := saysAll_append.mp hs
  have htext : (render (n, "- " ++ trimLeading (scalarText e.1 ++ tailText e.2))).toList =
      List.replicate n ' ' ++ ['-', ' '] ++
        ((encodeString key).toList ++ (tailText e.2).toList).dropWhile isSpace := by
    rw [toList_render, hkey]
    simp [trimLeading, scalarText]
  rw [htext] at ha
  have ha : SaysAll P (linesOf (List.replicate 0 ' ' ++ _)) a := says_dash ha
  rcases tail_cases hplain hquote h with hnone | htail
  · obtain ⟨rest, htail⟩ := tailText_cons e.2
    rw [htail, dropWhile_append_cons (by decide), ← htail, ← List.append_assoc] at ha
    exact absurd ha (hnone _ _)
  · obtain ⟨hale, haeq⟩ := says_trimmedKey hquote htail ha
    obtain ⟨hble, hbeq⟩ := says_below hexact hb
    have hweight : weight e.1 = key.length := by rw [hkey, weight]
    refine ⟨by omega, fun hsame => ?_⟩
    obtain ⟨hisKey, hspace, hkept⟩ := haeq (by omega)
    exact ⟨hkey ▸ hisKey, hspace, hbeq (by omega) hkept⟩

include hplain hquote in
theorem says_entries {es : Entries} (hkeys : ∀ e ∈ es, ∃ key, e.1 = .str key)
    (h : ∀ e ∈ es, Plain P.floatText e.2) (hexact : ∀ e ∈ es, RowsExact P e.2) {n m : Nat}
    (hs : SaysAll P (linesOfRows (es.flatMap (entryBlock n))) m) : m ≤ weightEntries es ∧
      (m = weightEntries es → ∀ e ∈ es, isKey e.1 = true ∧ Kept e.2) := by
  induction es generalizing m with
  | nil =>
    cases hs
    exact ⟨Nat.le_refl _, by simp⟩
  | cons e es ih =>
    rw [List.flatMap_cons, linesOfRows_append] at hs
    obtain ⟨a, b, ha, hb, rfl⟩ := saysAll_append.mp hs
    obtain ⟨key, hkey⟩ := hkeys e List.mem_cons_self
    obtain ⟨hale, haeq⟩ := says_entry hplain hquote hkey (h e List.mem_cons_self)
      (hexact e List.mem_cons_self) ha
    obtain ⟨hble, hbeq⟩ := ih (fun e he => hkeys e (List.mem_cons_of_mem _ he))
      (fun e he => h e (List.mem_cons_of_mem _ he))
      (fun e he => hexact e (List.mem_cons_of_mem _ he)) hb
    rw [weightEntries_cons]
    refine ⟨by omega, fun hsame => ?_⟩
    exact List.forall_mem_cons.mpr ⟨haeq (by omega), hbeq (by omega)⟩

theorem says_items {vs : List Value} (hexact : ∀ v ∈ vs, ItemExact P v)
    (hs : SaysAll P (linesOfRows (vs.flatMap (itemBlock n))) m) : m ≤ weightList vs ∧
      (m = weightList vs → ∀ v ∈ vs, Kept v ∧ isItem v = true) := by
  induction vs generalizing m with
  | nil =>
    cases hs
    exact ⟨Nat.le_refl _, by simp⟩
  | cons v vs ih =>
    rw [List.flatMap_cons, linesOfRows_append] at hs
    obtain ⟨a, b, ha, hb, rfl⟩ := saysAll_append.mp hs
    obtain ⟨hale, haeq⟩ := hexact v List.mem_cons_self n a ha
    obtain ⟨hble, hbeq⟩ := ih (fun v hv => hexact v (List.mem_cons_of_mem _ hv)) hb
    rw [weightList]
    refine ⟨by omega, fun hsame => ?_⟩
    exact List.forall_mem_cons.mpr ⟨haeq (by omega), hbeq (by omega)⟩

theorem says_scalar {t : List Char} (h : scalar P t = some v) (hstrip : strip t = t)
    (hs : Says P t m) : m = weight v := by
  have hdash := isDash_of_scalar h []
  have hcut : cutKey (t ++ []) = none := cutKey_of_scalar h (by simp)
  rw [List.append_nil] at hdash hcut
  cases hs with
  | dash hd => rw [hdash] at hd; cases hd
  | item hd => rw [hdash] at hd; cases hd
  | key hd hkey => rw [hcut] at hkey; cases hkey
  | entry hd hkey => rw [hcut] at hkey; cases hkey
  | scalar hd hkey hflow =>
    rw [flow_of_scalar h hstrip] at hflow
    cases hflow
    rfl

theorem says_emptyList (h : SaysAll P (linesOf (List.replicate n ' ' ++ ['[', ']'])) m) :
    m = 0 := by
  have hline : '\n' ∉ List.replicate n ' ' ++ ['[', ']'] := by
    rw [List.mem_append, not_or]
    exact ⟨spaces_line n, by decide⟩
  have hsays := says_line hline h
  rw [dropWhile_replicate] at hsays
  rcases hsays with ⟨-, hm⟩ | hsays
  · exact hm
  · cases hsays with
    | dash hd => cases hd
    | item hd => cases hd
    | key hd hkey => cases hkey
    | entry hd hkey => cases hkey
    | scalar hd hkey hflow =>
      cases hflow
      rfl

include hplain hquote in
theorem exact_scalar (hv : isCollection v = false) (h : Plain P.floatText v) :
    RowsExact P v ∧ ItemExact P v := by
  have hne : v ≠ .map [] := by
    rintro rfl
    cases hv
  have hitem : isItem v = true := by cases v <;> first | rfl | cases hv
  have hline : ∀ n m, SaysAll P (linesOf (List.replicate n ' ' ++ (scalarText v).toList)) m →
      m ≤ weight v ∧ (m = weight v → Kept v) := by
    intro n m hs
    cases hother : isText v with
    | true =>
      cases v with
      | str s =>
        obtain ⟨hle, heq⟩ := says_text hquote hs
        rw [weight]
        exact ⟨hle, fun hsame => .str s (heq hsame)⟩
      | _ => cases hother
    | false =>
      have hkept : Kept v := by
        cases h with
        | null => exact .null
        | bool b => exact .bool b
        | int i => exact .int i
        | float t => exact .float t
        | str => cases hother
        | list => cases hv
        | map => cases hv
      have hscalar := isScalar hplain hv h hkept
      have hline : '\n' ∉ List.replicate n ' ' ++ (scalarText v).toList := by
        rw [List.mem_append, not_or]
        exact ⟨spaces_line n, hscalar.line⟩
      have hsays := says_line hline hs
      rw [dropWhile_replicate, hscalar.head, hscalar.visible] at hsays
      rcases hsays with ⟨hblank, -⟩ | hsays
      · cases hblank
      · have hm := says_scalar hscalar.scalar hscalar.strip hsays
        exact ⟨Nat.le_of_eq hm, fun _ => hkept⟩
  refine ⟨?_, ?_⟩
  · intro n m hs
    rw [rows_scalar n hv] at hs
    obtain ⟨hle, heq⟩ := hline n m (by simpa [linesOfRows, toList_render] using hs)
    exact ⟨hle, fun hsame => ⟨heq hsame, hne⟩⟩
  · intro n m hs
    rw [itemBlock, if_neg (by simp [hv])] at hs
    obtain ⟨hle, heq⟩ := hline 0 m (says_dash (by simpa [linesOfRows, toList_render] using hs))
    exact ⟨hle, fun hsame => ⟨heq hsame, hitem⟩⟩

include hplain hquote in
/-- **What is written of a value says no more than it weighs**, and as much only if the
value is kept. -/
theorem exact_of_plain (h : Plain P.floatText v) : RowsExact P v ∧ ItemExact P v := by
  induction h with
  | null => exact exact_scalar hplain hquote rfl .null
  | bool b => exact exact_scalar hplain hquote rfl (.bool b)
  | int i => exact exact_scalar hplain hquote rfl (.int i)
  | float t ht hread => exact exact_scalar hplain hquote rfl (.float t ht hread)
  | str s => exact exact_scalar hplain hquote rfl (.str s)
  | list vs hvs ih =>
    have hrows : RowsExact P (.list vs) := by
      intro n m hs
      cases vs with
      | nil =>
        rw [rows] at hs
        obtain rfl := says_emptyList (n := 0) (by simpa [linesOfRows, toList_render] using hs)
        exact ⟨Nat.le_refl _, fun _ => ⟨.list [] (by simp) (by simp), by simp⟩⟩
      | cons v vs =>
        rw [rows, itemRows_eq] at hs
        obtain ⟨hle, heq⟩ := says_items (fun w hw => (ih w hw).2) hs
        rw [weight]
        refine ⟨hle, fun hsame => ⟨?_, by simp⟩⟩
        exact .list _ (fun w hw => (heq hsame w hw).2) fun w hw => (heq hsame w hw).1
    refine ⟨hrows, ?_⟩
    intro n m hs
    have hlines : SaysAll P (linesOfRows (rows (n + 2) (.list vs))) m := by
      rw [itemBlock_collection n rfl] at hs
      cases hrows : rows (n + 2) (.list vs) with
      | nil =>
        cases vs with
        | nil => rw [rows] at hrows; cases hrows
        | cons v vs => exact absurd hrows (rows_ne _ rfl)
      | cons r rs =>
        rw [hrows, dashed, trimLeading_list hrows, linesOfRows_cons] at hs
        obtain ⟨a, b, ha, hb, rfl⟩ := saysAll_append.mp hs
        have hfirst : SaysAll P (linesOf (List.replicate r.1 ' ' ++ r.2.toList)) a :=
          says_dash (n := n) (by simpa [toList_render] using ha)
        rw [linesOfRows_cons, toList_render]
        exact saysAll_append.mpr ⟨a, b, hfirst, hb, rfl⟩
    obtain ⟨hle, heq⟩ := hrows _ _ hlines
    exact ⟨hle, fun hsame => ⟨(heq hsame).1, rfl⟩⟩
  | map es hkeys hsorted hes ih =>
    refine ⟨?_, ?_⟩
    · intro n m hs
      rw [rows, entryRows_eq] at hs
      obtain ⟨hle, heq⟩ := says_entries hplain hquote hkeys hes (fun e he => (ih e he).1) hs
      cases es with
      | nil =>
        cases hs
        exact ⟨Nat.zero_le _, fun hsame => absurd hsame (by simp [weight])⟩
      | cons e es =>
        rw [weight]
        refine ⟨hle, fun hsame => ⟨?_, by simp⟩⟩
        exact .map _ (fun e he => (heq hsame e he).1) fun e he => (heq hsame e he).2
    · intro n m hs
      rw [itemBlock_collection n rfl, rows, entryRows_eq] at hs
      cases es with
      | nil =>
        have hzero : m = 0 := by
          have hline : linesOfRows [(n, "- ")] = [⟨n, ['-', ' ']⟩] := by
            rw [linesOfRows_eq (by simpa using ⟨by simp, by simp, by simp [isBlank]⟩)]
            simp [lineRow]
          rw [List.flatMap_nil, dashed, hline] at hs
          obtain ⟨a, b, ha, hb, rfl⟩ := saysAll_cons hs
          cases hb
          cases ha with
          | dash => rfl
          | item hdash h => exact absurd h not_says_nil
          | key hdash => cases hdash
          | entry hdash => cases hdash
          | scalar hdash => cases hdash
        subst hzero
        exact ⟨Nat.zero_le _, fun hsame => absurd hsame (by simp [weight])⟩
      | cons e es =>
        obtain ⟨key, hkey⟩ := hkeys e List.mem_cons_self
        rw [List.flatMap_cons, entryBlock, List.cons_append, dashed, ← List.cons_append,
          linesOfRows_append] at hs
        obtain ⟨a, b, ha, hb, rfl⟩ := saysAll_append.mp hs
        obtain ⟨hale, haeq⟩ := says_firstEntry hplain hquote hkey (hes e List.mem_cons_self)
          (ih e List.mem_cons_self).1 ha
        obtain ⟨hble, hbeq⟩ := says_entries hplain hquote
          (fun e he => hkeys e (List.mem_cons_of_mem _ he))
          (fun e he => hes e (List.mem_cons_of_mem _ he))
          (fun e he => (ih e (List.mem_cons_of_mem _ he)).1) hb
        rw [weight, weightEntries_cons]
        refine ⟨by omega, fun hsame => ?_⟩
        obtain ⟨hisKey, hspace, hkept⟩ := haeq (by omega)
        have hrest := hbeq (by omega)
        refine ⟨.map _ ?_ ?_, ?_⟩
        · exact List.forall_mem_cons.mpr ⟨hisKey, fun e he => (hrest e he).1⟩
        · exact List.forall_mem_cons.mpr ⟨hkept, fun e he => (hrest e he).2⟩
        · obtain ⟨k, w⟩ := e
          cases hkey
          exact hspace

end

/-! ## The round trip -/

/-- What is assumed of readers: no plain scalar has a quote in it. -/
def fragment (floatText : String → String) : Profile := ⟨floatText, fun c => c ≠ '"'⟩

/-- The reader reads the documents of the fragment. -/
def Conforms (P : Profile) (read : String → Option Value) : Prop :=
  ∀ text v, Reader.read P text = some v → read text = some v

/-- The value is written, and read back. -/
def RoundTrips (read : String → Option Value) (v : Value) : Prop :=
  ∃ text, encode v = .ok text ∧ read text = some v

/-- What is written of the value is a document of the fragment. -/
def Legible (P : Profile) (v : Value) : Prop :=
  ∃ text w, encode v = .ok text ∧ Reader.read P text = some w

theorem conforms_self (P : Profile) : Conforms P (Reader.read P) := fun _ _ h => h

section
variable {floatText : String → String} {v : Value} (h : Plain floatText v)
include h

theorem roundTrips_of_safe {read : String → Option Value} (hread : Conforms (fragment floatText) read)
    (hsafe : Safe v) : RoundTrips read v := by
  have hplain : ∀ c, c ≠ '"' → (fragment floatText).plain c = true := fun c hc => by
    simpa [fragment] using hc
  exact ⟨_, encode_rows (P := fragment floatText) h, hread _ _ (read_of_safe hplain h hsafe)⟩

theorem safe_of_roundTrips (hback : RoundTrips (Reader.read (fragment floatText)) v) : Safe v := by
  have hplain : ∀ c, c ≠ '"' → (fragment floatText).plain c = true := fun c hc => by
    simpa [fragment] using hc
  have hquote : (fragment floatText).plain '"' = false := rfl
  obtain ⟨text, hencode, hread⟩ := hback
  rw [encode_rows (P := fragment floatText) h] at hencode
  cases hencode
  unfold Reader.read at hread
  dsimp only at hread
  split at hread
  · cases hread
  · rename_i hmarkers
    have hsays := node_says hread
    rw [linesOf_written] at hsays hmarkers
    obtain ⟨hkept, hne⟩ := ((exact_of_plain hplain hquote h).1 0 _ hsays).2 rfl
    have hrows : ∀ r ∈ rows 0 v, IsRow r := rows_isRow hplain h hkept 0
    have hmarkers' := markers (P := fragment floatText) h hne
    rw [linesOfRows_eq hrows, hmarkers'] at hmarkers
    exact ⟨by simpa using hmarkers, hkept⟩

/-- **The round trip holds exactly for the safe values**: for all readers together, and for
each of them where what is written is in the fragment. -/
theorem roundTrips_iff_safe :
    ((∀ read, Conforms (fragment floatText) read → RoundTrips read v) ↔ Safe v) ∧
      ∀ read, Conforms (fragment floatText) read → Legible (fragment floatText) v →
        (RoundTrips read v ↔ Safe v) := by
  refine ⟨⟨?_, ?_⟩, ?_⟩
  · intro hall
    exact safe_of_roundTrips h (hall _ (conforms_self _))
  · intro hsafe read hread
    exact roundTrips_of_safe h hread hsafe
  · intro read hread hlegible
    refine ⟨?_, roundTrips_of_safe h hread⟩
    rintro ⟨text, hencode, hback⟩
    obtain ⟨text', w, hencode', hw⟩ := hlegible
    rw [hencode] at hencode'
    cases hencode'
    have hsame := hread _ _ hw
    rw [hback] at hsame
    cases hsame
    exact safe_of_roundTrips h ⟨text, hencode, hw⟩

end

/-- A list with a text that needs quotes, a number and a map in it, beside an empty map. -/
def demo : Value :=
  .map [(.str "a", .list [.str "x: y", .float "1.5", .map [(.str "b", .null)]]), (.str "c", .map [])]

theorem plain_demo : Plain id demo := by
  have hfloat : IsFloatText "1.5" := by
    have hdigit : ∀ d : Char, d.isDigit = true → IsDigits [d] := fun d hd => by simp [IsDigits, hd]
    exact ⟨[], ['1'], ['5'], [], by decide, .inl rfl, hdigit _ rfl, hdigit _ rfl, .inl rfl⟩
  have hinner : Plain id (.map [(.str "b", .null)]) :=
    .map _ (by simp) (by simp) (by simpa using .null)
  refine .map _ (by simp) (List.pairwise_pair.mpr (before_str _ _ (by decide))) ?_
  simp only [List.forall_mem_cons, List.not_mem_nil, false_imp_iff, implies_true, and_true]
  refine ⟨.list _ ?_, .map [] (by simp) (by simp) (by simp)⟩
  simp only [List.forall_mem_cons, List.not_mem_nil, false_imp_iff, implies_true, and_true]
  exact ⟨.str _, .float _ hfloat rfl, hinner⟩

theorem safe_demo : Safe demo := by
  have hinner : Kept (.map [(.str "b", .null)]) :=
    .map _ (by simpa using by decide) (by simpa using .null)
  refine ⟨by decide, .map _ (by decide) ?_⟩
  simp only [List.forall_mem_cons, List.not_mem_nil, false_imp_iff, implies_true, and_true]
  refine ⟨.list _ (by decide) ?_, .map [] (by simp) (by simp)⟩
  simp only [List.forall_mem_cons, List.not_mem_nil, false_imp_iff, implies_true, and_true]
  exact ⟨.str _ (by decide), .float _, hinner⟩

theorem roundTrips_demo :
    Safe demo ∧ ∀ read, Conforms (fragment id) read → RoundTrips read demo :=
  ⟨safe_demo, (roundTrips_iff_safe plain_demo).1.mpr safe_demo⟩

/-- A text that is `~` is written without quotes, and every reader has it for `null`. -/
theorem not_roundTrips_tilde : Plain id (.map [(.str "a", .str "~")]) ∧
    ∀ read, Conforms (fragment id) read → ¬RoundTrips read (.map [(.str "a", .str "~")]) := by
  refine ⟨.map _ (by simp) (by simp) (by simpa using .str "~"), ?_⟩
  rintro read hread ⟨text, hencode, hback⟩
  have hwritten : encode (.map [(.str "a", .str "~")]) = .ok "a: ~\n" := rfl
  have hfragment : Reader.read (fragment id) "a: ~\n" = some (.map [(.str "a", .null)]) := rfl
  rw [hwritten] at hencode
  cases hencode
  rw [hread _ _ hfragment] at hback
  cases hback

end Writer
end Yaml
end Esr
