import Mathlib.Data.List.Perm.Basic
import Esr.PluginConfigLayers

/-! # Safe maps are read back

The text of a map as lines: for each entry a line with its key, and the lines of a map below it
(`linesOf_row`).  Of a safe map these lines are read entry by entry (`reads_safe`).
-/
namespace Esr
namespace PluginConfig
open Yaml Yaml.Reader
open Yaml.Writer (toStr escapeQuotes pad quoted esc IsScalar)

variable {enum : Enumeration}

/-! ## The lines of the encoder -/

/-- The text of the map that stands below a key. -/
def belowText (enum : Enumeration) (indent : Nat) : Value → Option String
  | .map es => yamlEncode enum (indent + 1) es
  | _ => none

/-- The text is put for the entry. -/
def IsRow (enum : Enumeration) (indent : Nat) (e : Value × Value) (row : Value × String) : Prop :=
  row.1 = e.1 ∧ entryText indent e.1 e.2 (belowText enum indent e.2) = some row.2

theorem entryTexts_cons (indent : Nat) (e : Value × Value) (rest : Entries) :
    entryTexts enum indent (e :: rest) =
      (entryText indent e.1 e.2 (belowText enum indent e.2)).bind fun text =>
        (entryTexts enum indent rest).map fun rows => (e.1, text) :: rows := by
  obtain ⟨k, v⟩ := e
  have hrows : ∀ o : Option String, (do
      let text ← o
      return (k, text) :: (← entryTexts enum indent rest)) =
        o.bind fun text => (entryTexts enum indent rest).map fun rows => (k, text) :: rows := by
    rintro (_ | text)
    · rfl
    · cases entryTexts enum indent rest <;> rfl
  cases v with
  | map es => rw [entryTexts]; exact hrows _
  | _ => rw [entryTexts]; exacts [hrows _, by simp]

variable {indent : Nat} {rows : List (Value × String)}

theorem entryTexts_iff {es : Entries} :
    entryTexts enum indent es = some rows ↔ List.Forall₂ (IsRow enum indent) es rows := by
  induction es generalizing rows with
  | nil =>
    rw [entryTexts, List.forall₂_nil_left_iff]
    exact ⟨fun h => (Option.some.inj h).symm, fun h => by rw [h]⟩
  | cons e es ih =>
    rw [entryTexts_cons, Option.bind_eq_some_iff, List.forall₂_cons_left_iff]
    constructor
    · rintro ⟨text, htext, h⟩
      obtain ⟨rows', hrows, rfl⟩ := Option.map_eq_some_iff.mp h
      exact ⟨(e.1, text), rows', ⟨rfl, htext⟩, ih.mp hrows, rfl⟩
    · rintro ⟨⟨k, text⟩, rows', ⟨rfl, htext⟩, hrows, rfl⟩
      exact ⟨text, htext, by rw [ih.mpr hrows]; rfl⟩

theorem rows_ordered {es : Entries} (h : List.Forall₂ (IsRow enum indent) es rows) :
    ∃ es', es'.Perm es ∧ List.Forall₂ (IsRow enum indent) es' (enum.order rows) := by
  obtain ⟨es', hes', hperm⟩ := List.perm_comp_forall₂ (enum.perm rows) h.flip
  exact ⟨es', hperm, hes'.flip⟩

theorem linesOf_intercalate (texts : List String) :
    linesOf ("\n".intercalate texts).toList = texts.flatMap fun s => linesOf s.toList := by
  rw [String.toList_intercalate]
  induction texts with
  | nil => rfl
  | cons s texts ih =>
    cases texts with
    | nil => simp
    | cons s' texts =>
      have hnewline : "\n".toList = ['\n'] := rfl
      rw [List.map_cons, List.map_cons, List.intercalate_cons_cons, hnewline, List.append_assoc,
        List.singleton_append, linesOf_append, List.flatMap_cons, ← ih, List.map_cons, hnewline]

/-- **The lines of a map** are those of its entries. -/
theorem linesOf_joined (hne : rows ≠ []) :
    linesOf (joined enum rows).toList = (enum.order rows).flatMap fun row => linesOf row.2.toList := by
  have htext : (joined enum rows).toList =
      ("\n".intercalate ((enum.order rows).map Prod.snd)).toList ++ '\n' :: [] := by
    rw [joined, if_neg (by simpa using hne), String.toList_append]
    rfl
  rw [htext, linesOf_append, linesOf_nil, List.append_nil, linesOf_intercalate, List.flatMap_map]

/-- What stands behind the colon of a key, on its line. -/
def behind : Value → Option (List Char)
  | .map _ => some []
  | .str s => some (' ' :: '"' :: (esc s.toList ++ ['"']))
  | v => (toStr v).map fun t => ' ' :: t.toList

theorem text_of_behind {v : Value} {tail : List Char} (h : behind v = some tail)
    (hmap : ∀ es, v ≠ .map es) (hstr : ∀ s, v ≠ .str s) :
    ∃ t, toStr v = some t ∧ tail = ' ' :: t.toList := by
  unfold behind at h
  split at h
  · exact absurd rfl (hmap _)
  · exact absurd rfl (hstr _)
  · obtain ⟨t, ht, htail⟩ := Option.map_eq_some_iff.mp h
    exact ⟨t, ht, htail.symm⟩

/-- The lines below the line of a key. -/
def below (enum : Enumeration) (indent : Nat) (v : Value) : List Line :=
  ((belowText enum indent v).map fun t => linesOf t.toList).getD []

theorem toList_quoted (s : String) : (quoted (escapeQuotes s)).toList =
    '"' :: (esc s.toList ++ ['"']) := by
  simp [quoted, escapeQuotes, esc]

theorem toList_pad (n : Nat) : (pad n).toList = List.replicate n ' ' := by simp [pad]

/-- **The lines of a row**: the line of the key, and what is below it. -/
theorem linesOf_row {e : Value × Value} {row : Value × String} (h : IsRow enum indent e row) :
    ∃ key tail, toStr e.1 = some key ∧ behind e.2 = some tail ∧
      linesOf row.2.toList =
        linesOf (List.replicate (2 * indent) ' ' ++ (key.toList ++ ':' :: tail)) ++
          below enum indent e.2 := by
  obtain ⟨k, v⟩ := e
  obtain ⟨k', text⟩ := row
  obtain ⟨-, h⟩ := h
  obtain ⟨key, hkey, h⟩ := Option.bind_eq_some_iff.mp h
  have hline : ∀ t : String, (pad (2 * indent) ++ key ++ ":" ++ " " ++ t).toList =
      List.replicate (2 * indent) ' ' ++ (key.toList ++ ':' :: ' ' :: t.toList) := by
    intro t
    simp [toList_pad]
  cases v with
  | map es =>
    obtain ⟨t, ht, h⟩ := Option.bind_eq_some_iff.mp h
    obtain rfl := Option.some.inj h
    have htext : (pad (2 * indent) ++ key ++ ":" ++ "\n" ++ t).toList =
        (List.replicate (2 * indent) ' ' ++ (key.toList ++ [':'])) ++ '\n' :: t.toList := by
      simp [toList_pad]
    refine ⟨key, [], hkey, rfl, ?_⟩
    rw [htext, linesOf_append, below, ht]
    rfl
  | str s =>
    obtain rfl := Option.some.inj h
    refine ⟨key, _, hkey, rfl, ?_⟩
    rw [hline, toList_quoted, show below enum indent (.str s) = [] from rfl, List.append_nil]
  | _ =>
    obtain ⟨t, ht, h⟩ := Option.bind_eq_some_iff.mp h
    obtain rfl := Option.some.inj h
    refine ⟨key, ' ' :: t.toList, hkey, congrArg (Option.map fun t : String => ' ' :: t.toList) ht, ?_⟩
    simp only [hline, below, belowText, Option.map_none, Option.getD_none, List.append_nil]

theorem exists_row {e : Value × Value} {key : String} {tail : List Char}
    (hkey : toStr e.1 = some key) (htail : behind e.2 = some tail)
    (hbelow : ∀ es, e.2 = .map es → ∃ text, yamlEncode enum (indent + 1) es = some text) :
    ∃ row, IsRow enum indent e row := by
  obtain ⟨k, v⟩ := e
  suffices h : ∃ text, entryText indent k v (belowText enum indent v) = some text by
    obtain ⟨text, htext⟩ := h
    exact ⟨(k, text), rfl, htext⟩
  dsimp only at hkey hbelow htail
  rw [entryText, hkey]
  cases v with
  | map es =>
    obtain ⟨text, htext⟩ := hbelow es rfl
    exact ⟨_, by rw [belowText, htext]; rfl⟩
  | str s => exact ⟨_, rfl⟩
  | _ =>
    obtain ⟨t, ht, -⟩ := text_of_behind htail (by simp) (by simp)
    exact ⟨pad (2 * indent) ++ key ++ ":" ++ " " ++ t,
      Option.bind_eq_some_iff.mpr ⟨key, rfl, Option.bind_eq_some_iff.mpr ⟨t, ht, rfl⟩⟩⟩

/-! ## Groups of lines -/

section
variable {P : Profile} (hplain : ∀ c, c ≠ '"' → P.plain c = true)

/-- The lines of an entry, read as the entry. -/
structure IsGroup (P : Profile) (n : Nat) (e : Value × Value) (g : Group) : Prop where
  place : At n g
  dash : isDash g.1.text = false
  entry : IsEntry P g e
  head : ∃ s tail, e.1 = .str s ∧ g.1.text = s.toList ++ ':' :: tail

include hplain in
theorem isScalar_key {s : String} (h : isBareKey s = true) : IsScalar P s.toList (.str s) := by
  simp only [isBareKey, Cli.isBare, Bool.and_eq_true, decide_eq_true_eq] at h
  obtain ⟨⟨⟨⟨hisPlain, hstrip⟩, hcore⟩, -⟩, hquote⟩ := h
  have hnone : '"' ∉ s.toList := by simpa using hquote
  refine ⟨?_, hstrip, Cli.isPlain_line hisPlain⟩
  rw [Writer.scalar_plain hplain hisPlain hnone, Writer.resolve_core hcore]

theorem linesOf_key (n : Nat) {s : String} {tail : List Char} (hs : IsScalar P s.toList (.str s))
    (htail : '\n' ∉ tail) : linesOf (List.replicate n ' ' ++ (s.toList ++ ':' :: tail)) =
      [⟨n, s.toList ++ ':' :: tail⟩] := by
  have hhead : (s.toList ++ ':' :: tail).dropWhile (· == ' ') = s.toList ++ ':' :: tail := by
    rw [Writer.dropWhile_append_cons (by decide), hs.head]
  have hvisible : (s.toList ++ ':' :: tail).all isBlank = false := by simp [isBlank]
  rw [linesOf_line, lineOf_indent n hhead hvisible]
  · rfl
  · simp only [List.mem_append, List.mem_cons, not_or]
    exact ⟨by simp, hs.line, by decide, htail⟩

variable {e : Value × Value} {indent : Nat} {es : Entries}

/-- **An entry** whose value is read from what stands behind the colon and below it. -/
theorem isGroup_of {n : Nat} {s : String} {tail : List Char} {ls : List Line}
    (hs : IsScalar P s.toList (.str s)) (hlength : s.length ≤ 1024) (he : e.1 = .str s)
    (hblank : followed tail = false) (hdeeper : ∀ l ∈ ls, n < l.indent)
    (hvalue : strip tail = [] ∧ Reads P ls e.2 ∨ strip tail ≠ [] ∧ ls = [] ∧ flow P tail = some e.2) :
    IsGroup P n e (⟨n, s.toList ++ ':' :: tail⟩, ls) := by
  have hcut := key_of_scalar hs.scalar hblank
  have hkey : keyOf P s.toList = some e.1 := by rw [he, Cli.keyOf_scalar hs hlength]
  refine ⟨⟨rfl, hdeeper⟩, isDash_of_scalar hs.scalar _, ?_, s, tail, he, rfl⟩
  rcases hvalue with ⟨hstrip, hread⟩ | ⟨hstrip, hnone, hflow⟩
  · exact .below _ _ hcut hkey hstrip hread
  · exact .behind _ _ hcut hkey hstrip hnone hflow

theorem flow_behind {t : List Char} {v : Value} (h : IsScalar P t v) :
    strip (' ' :: t) ≠ [] ∧ flow P (' ' :: t) = some v := by
  have hstrip : strip (' ' :: t) = t := h.strip
  exact ⟨by rw [hstrip]; exact h.ne, flow_of_scalar h.scalar hstrip⟩

include hplain in
theorem isScalar_value {v : Value} (hterm : IsTerm P.floatText v) (hsafe : SafeValue v)
    (hmap : ∀ es, v ≠ .map es) (hnull : v ≠ .null) :
    ∃ t, behind v = some (' ' :: t) ∧ IsScalar P t v := by
  have hword : ∀ s ∈ ["true", "false"], ∀ w, Reader.resolve P s = w → IsScalar P s.toList w := by
    intro s hs w hw
    have hshape : isPlain s.toList = true ∧ '"' ∉ s.toList ∧ strip s.toList = s.toList ∧
        '\n' ∉ s.toList := by
      clear hw
      revert s
      decide
    obtain ⟨hisPlain, hquote, hstrip, hline⟩ := hshape
    exact ⟨by rw [Writer.scalar_plain hplain hisPlain hquote, hw], hstrip, hline⟩
  cases hterm with
  | null => exact absurd rfl hnull
  | bool b =>
    cases b with
    | false => exact ⟨_, rfl, hword "false" (by simp) _ rfl⟩
    | true => exact ⟨_, rfl, hword "true" (by simp) _ rfl⟩
  | int n => exact ⟨_, rfl, Writer.isScalar_int hplain n⟩
  | float t ht hread =>
    have hresolve : Reader.resolve P t = .float t := by rw [Writer.resolve_float ht, hread]
    exact ⟨_, rfl, Writer.isScalar_numeric hplain (Writer.float_numeric ht) (Writer.float_isPlain ht)
      hresolve⟩
  | str s =>
    cases hsafe with
    | str _ hs =>
      have hchars : ∀ c ∈ s.toList, isJson c = true ∧ c ≠ '\\' := by
        simpa [isUnescaped, List.all_eq_true] using hs
      have hline : '\n' ∉ s.toList := fun hc => absurd (hchars _ hc).1 (by decide)
      refine ⟨_, rfl, ?_, Writer.strip_quoted _, by simp [Writer.esc_line hline]⟩
      rw [scalar, Writer.quotedRest_esc hchars]
      simp
  | list => cases hsafe
  | map es => exact absurd rfl (hmap es)

theorem text_of_isKey {k : Value} (h : isKey k = true) : ∃ s, k = .str s := by
  unfold isKey at h
  split at h
  · exact ⟨_, rfl⟩
  · cases h

/-- The map stands in its lines, at this indentation or deeper. -/
def Stands (P : Profile) (enum : Enumeration) (indent : Nat) (es : Entries) : Prop :=
  ∃ text, yamlEncode enum indent es = some text ∧ Reads P (linesOf text.toList) (.map es) ∧
    ∀ l ∈ linesOf text.toList, 2 * indent ≤ l.indent

include hplain in
theorem value_lines {v : Value} (hterm : IsTerm P.floatText v) (hsafe : SafeValue v)
    (hbelow : ∀ es, v = .map es → Stands P enum (indent + 1) es) :
    ∃ tail, behind v = some tail ∧ '\n' ∉ tail ∧ followed tail = false ∧
      (∀ l ∈ below enum indent v, 2 * indent < l.indent) ∧
        (strip tail = [] ∧ Reads P (below enum indent v) v ∨
          strip tail ≠ [] ∧ below enum indent v = [] ∧ flow P tail = some v) := by
  by_cases hmap : ∃ es, v = .map es
  · obtain ⟨es, rfl⟩ := hmap
    obtain ⟨text, htext, hread, hdeeper⟩ := hbelow es rfl
    have hlines : below enum indent (.map es) = linesOf text.toList := by
      rw [below, belowText, htext]
      rfl
    refine ⟨[], rfl, by simp, rfl, fun l hl => ?_, .inl ⟨rfl, by rw [hlines]; exact hread⟩⟩
    rw [hlines] at hl
    have hle := hdeeper l hl
    omega
  · have hnone : below enum indent v = [] := by
      cases v <;> first | rfl | exact absurd ⟨_, rfl⟩ hmap
    by_cases hnull : v = .null
    · subst hnull
      exact ⟨[' '], rfl, by decide, rfl, by simp [hnone], .inl ⟨rfl, by rw [hnone]; exact reads_nil P⟩⟩
    · obtain ⟨t, ht, hscalar⟩ :=
        isScalar_value hplain hterm hsafe (fun es hes => hmap ⟨es, hes⟩) hnull
      obtain ⟨hstrip, hflow⟩ := flow_behind hscalar
      exact ⟨_, ht, by simp [hscalar.line], rfl, by simp [hnone], .inr ⟨hstrip, hnone, hflow⟩⟩

include hplain in
/-- **A safe entry has a row**, and the lines of it are read as the entry. -/
theorem group_of_safe (hkey : isKey e.1 = true) (hterm : IsTerm P.floatText e.2)
    (hsafe : SafeValue e.2) (hbelow : ∀ es, e.2 = .map es → Stands P enum (indent + 1) es) :
    (∃ row, IsRow enum indent e row) ∧ ∀ row, IsRow enum indent e row →
      ∃ g, linesOf row.2.toList = g.1 :: g.2 ∧ IsGroup P (2 * indent) e g := by
  obtain ⟨s, hs⟩ := text_of_isKey hkey
  rw [hs] at hkey
  have hscalar := isScalar_key hplain hkey
  have hlength : s.length ≤ 1024 := by
    simp only [isKey, isBareKey, Bool.and_eq_true, decide_eq_true_eq] at hkey
    exact hkey.1.2
  have htext : toStr e.1 = some s := by rw [hs]; rfl
  obtain ⟨tail, htail, hline, hblank, hdeeper, hvalue⟩ := value_lines hplain hterm hsafe hbelow
  refine ⟨exists_row htext htail fun es hes => ?_, fun row hrow => ?_⟩
  · obtain ⟨text, h, -⟩ := hbelow es hes
    exact ⟨text, h⟩
  · obtain ⟨key, tail', hkey', htail', hlines⟩ := linesOf_row hrow
    obtain rfl := Option.some.inj (htext.symm.trans hkey')
    obtain rfl := Option.some.inj (htail.symm.trans htail')
    rw [linesOf_key _ hscalar hline] at hlines
    refine ⟨(⟨2 * indent, s.toList ++ ':' :: tail⟩, below enum indent e.2), hlines, ?_⟩
    exact isGroup_of hscalar hlength hs hblank hdeeper hvalue

theorem groups_of_rows {rows : List (Value × String)}
    (h : List.Forall₂ (IsRow enum indent) es rows)
    (hes : ∀ e ∈ es, ∀ row, IsRow enum indent e row → ∃ g, linesOf row.2.toList = g.1 :: g.2 ∧ IsGroup P (2 * indent) e g) :
    ∃ gs, (rows.flatMap fun row => linesOf row.2.toList) = ungroup gs ∧
      List.Forall₂ (IsGroup P (2 * indent)) es gs := by
  induction h with
  | nil => exact ⟨[], rfl, .nil⟩
  | @cons e row es rows hrow _ ih =>
    obtain ⟨g, hg, hgroup⟩ := hes e List.mem_cons_self row hrow
    obtain ⟨gs, hgs, hgroups⟩ := ih fun e he => hes e (List.mem_cons_of_mem _ he)
    refine ⟨g :: gs, ?_, .cons hgroup hgroups⟩
    rw [List.flatMap_cons, hg, hgs]
    rfl

include hplain in
/-- **The lines of safe entries** are groups, in the runtime's order. -/
theorem encoded_groups (hne : es ≠ []) (hkeys : ∀ e ∈ es, isKey e.1 = true)
    (hterms : ∀ e ∈ es, IsTerm P.floatText e.2) (hsafe : ∀ e ∈ es, SafeValue e.2)
    (hbelow : ∀ e ∈ es, ∀ es', e.2 = .map es' → Stands P enum (indent + 1) es') :
    ∃ text gs es', yamlEncode enum indent es = some text ∧ linesOf text.toList = ungroup gs ∧
      es'.Perm es ∧ List.Forall₂ (IsGroup P (2 * indent)) es' gs := by
  have hgroup := fun e he => group_of_safe hplain (hkeys e he) (hterms e he) (hsafe e he) (hbelow e he)
  obtain ⟨rows, hrows⟩ : ∃ rows, List.Forall₂ (IsRow enum indent) es rows := by
    clear hne hkeys hterms hsafe hbelow
    induction es with
    | nil => exact ⟨[], .nil⟩
    | cons e es ih =>
      obtain ⟨row, hrow⟩ := (hgroup e List.mem_cons_self).1
      obtain ⟨rows, hrows⟩ := ih fun e he => hgroup e (List.mem_cons_of_mem _ he)
      exact ⟨row :: rows, .cons hrow hrows⟩
  obtain ⟨es', hperm, hordered⟩ := rows_ordered hrows
  obtain ⟨gs, hgs, hgroups⟩ := groups_of_rows hordered fun e he => (hgroup e (hperm.mem_iff.mp he)).2
  have hrowsNe : rows ≠ [] := by
    rintro rfl
    cases hrows
    exact hne rfl
  refine ⟨joined enum rows, gs, es', ?_, by rw [linesOf_joined hrowsNe, hgs], hperm, hgroups⟩
  rw [yamlEncode, entryTexts_iff.mpr hrows]
  rfl

theorem entry_at {n : Nat} {gs : List Group} (hgroups : List.Forall₂ (IsGroup P n) es gs)
    {g : Group} (hg : g ∈ gs) :
    ∃ e ∈ es, IsGroup P n e g := by
  induction hgroups with
  | nil => cases hg
  | cons h _ ih =>
    rcases List.mem_cons.mp hg with rfl | hg
    · exact ⟨_, List.mem_cons_self, h⟩
    · obtain ⟨e, he, h⟩ := ih hg
      exact ⟨e, List.mem_cons_of_mem _ he, h⟩

theorem isMarker_group {g : Group} (h : IsGroup P 0 e g) : isMarker g.1 = isSeparator e.1 := by
  obtain ⟨s, tail, hs, htail⟩ := h.head
  have hindent : g.1.indent = 0 := h.place.head
  have hline : g.1 = ⟨0, s.toList ++ ':' :: tail⟩ := by rw [← htail, ← hindent]
  rw [hline, Writer.isMarker_key, hs]
  rfl

theorem reads_groups {n : Nat} {es' : Entries} {gs : List Group} (hne : es ≠ [])
    (hperm : es'.Perm es) (hgroups : List.Forall₂ (IsGroup P n) es' gs)
    (hkeys : ∀ e ∈ es, isKey e.1 = true) (horder : es.Pairwise Precedes) :
    Reads P (ungroup gs) (.map es) := by
  have htexts : ∀ e ∈ es, ∃ s, e.1 = .str s := fun e he => text_of_isKey (hkeys e he)
  have hentries : List.Forall₂ (IsEntry P) gs es' := (hgroups.imp fun _ _ h => h.entry).flip
  have hsorted : es.Pairwise Before :=
    horder.imp_of_mem fun he he' h => before_of_precedes (htexts _ he) (htexts _ he') h
  refine reads_mapping P (i := n) ?_ (fun g hg => ?_) (fun g hg => ?_) hentries hperm htexts hsorted
  · rintro rfl
    cases hgroups
    exact hne hperm.symm.eq_nil
  · obtain ⟨e, -, h⟩ := entry_at hgroups hg
    exact h.place
  · obtain ⟨e, -, h⟩ := entry_at hgroups hg
    exact h.dash

include hplain in
/-- **A safe map stands in its lines.** -/
theorem stands_of_safe {v : Value} (hterm : IsTerm P.floatText v) (hsafe : SafeValue v) :
    ∀ es, v = .map es → ∀ indent, Stands P enum indent es := by
  induction hterm with
  | map es horder hkeyTerms hterms ihk ih =>
    intro es' heq indent
    cases heq
    cases hsafe with
    | map _ hne hkeys hsafe =>
      obtain ⟨text, gs, es', htext, hlines, hperm, hgroups⟩ :=
        @encoded_groups enum _ hplain indent _ hne hkeys hterms hsafe
          fun e he es' hes => ih e he (hsafe e he) es' hes (indent + 1)
      refine ⟨text, htext, ?_, fun l hl => ?_⟩
      · rw [hlines]
        exact reads_groups hne hperm hgroups hkeys horder
      · rw [hlines, ungroup, List.mem_flatMap] at hl
        obtain ⟨g, hg, hl⟩ := hl
        obtain ⟨e, -, h⟩ := entry_at hgroups hg
        rcases List.mem_cons.mp hl with rfl | hl
        · exact Nat.le_of_eq h.place.head.symm
        · exact Nat.le_of_lt (h.place.deeper l hl)
  | _ =>
    intro es heq
    cases heq

include hplain in
/-- **A safe map is read back** from what is written of it. -/
theorem read_of_safe (hterm : IsTerm P.floatText (.map es)) (hsafe : Safe es) :
    ∃ text, text ≠ "" ∧ yamlEncode enum 0 es = some text ∧ read P text = some (.map es) := by
  by_cases hne : es = []
  · subst hne
    exact ⟨"\x7b\x7d\n", by decide, by rw [yamlEncode, entryTexts]; rfl, rfl⟩
  cases hterm with
  | map _ horder hkeyTerms hterms =>
    obtain ⟨text, gs, es', htext, hlines, hperm, hgroups⟩ :=
      @encoded_groups enum _ hplain 0 _ hne hsafe.keys hterms hsafe.values
        fun e he es' hes => stands_of_safe hplain (hterms e he) (hsafe.values e he) es' hes 1
    have hgsNe : gs ≠ [] := by
      rintro rfl
      cases hgroups
      exact hne hperm.symm.eq_nil
    refine ⟨text, ?_, htext, read_of_reads ?_ ?_⟩
    · rintro rfl
      obtain ⟨g, gs, rfl⟩ := List.exists_cons_of_ne_nil hgsNe
      cases hlines
    · rw [hlines, List.any_eq_false]
      intro l hl
      obtain ⟨g, hg, hl⟩ := List.mem_flatMap.mp hl
      obtain ⟨e, he, h⟩ := entry_at hgroups hg
      rcases List.mem_cons.mp hl with rfl | hl
      · rw [isMarker_group h, hsafe.separators e (hperm.mem_iff.mp he)]
        decide
      · rw [Writer.isMarker_deeper (h.place.deeper l hl)]
        decide
    · rw [hlines]
      exact reads_groups hne hperm hgroups hsafe.keys horder

end

end PluginConfig
end Esr
