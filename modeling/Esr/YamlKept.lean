import Esr.YamlLayout

/-! # What the writer's reader reads back

`Safe` says of which values the writer's text is read as the value again, by the texts in
them: a text the writer puts between quotes must not need an escape but for the quotes in
it, and one that stays without quotes must be a plain scalar of the core schema.  An empty
map is written in full as the value of a key only.
-/
namespace Esr
namespace Yaml
namespace Writer
open Reader

/-! ## Texts -/

/-- `encode_scalar/1` puts the text between quotes. -/
def isQuoted (s : String) : Bool :=
  s = "" || allDigits s || s ∈ ["true", "false", "null", "yes", "no", "on", "off"] ||
    s.toList.any ":#\"\n'".toList.contains ||
      (s.toList.take 1).any "-*&!%@`|>[\x7b?".toList.contains

/-- A plain scalar that is a text in the core schema. -/
def isCoreText (s : String) : Bool :=
  s ∉ ["null", "Null", "NULL", "~"] && s ∉ ["true", "True", "TRUE"] &&
    s ∉ ["false", "False", "FALSE"] && (coreInt s).isNone && !coreFloat s

/-- What is written of the text is read as it. -/
def isFaithful (s : String) : Bool :=
  if isQuoted s then s.toList.all fun c => isJson c && c ≠ '\\'
  else isPlain s.toList && strip s.toList = s.toList && isCoreText s

/-- How long the text is when it is written. -/
def writtenLength (s : String) : Nat :=
  if isQuoted s then s.length + s.toList.count '"' + 2 else s.length

/-! ## Values -/

/-- The key of an entry: a text that stays what it is, within the length of keys. -/
def isKey : Value → Bool
  | .str s => isFaithful s && writtenLength s ≤ 1024
  | _ => false

/-- The value can stand behind a dash: white space is trimmed there, and an empty map has
no row. -/
def isItem : Value → Bool
  | .map [] => false
  | .map ((.str k, _) :: _) => isQuoted k || !(k.toList.take 1).any isSpace
  | _ => true

/-- What is written of the text, with `next` behind it, ends the document. -/
def endsDocument (s : String) (next : List Char) : Bool :=
  !isQuoted s && isMarker ⟨0, s.toList ++ next⟩

def keyEndsDocument : Value → Bool
  | .str k => endsDocument k [':']
  | _ => false

/-- The value can be a document. -/
def isDocument : Value → Bool
  | .str s => !endsDocument s []
  | .map es => es ≠ [] && es.all fun e => !keyEndsDocument e.1
  | _ => true

/-- Every text in the value stays what it is, and so does every map. -/
inductive Kept : Value → Prop
  | null : Kept .null
  | bool (b : Bool) : Kept (.bool b)
  | int (n : Int) : Kept (.int n)
  | float (t : String) : Kept (.float t)
  | str (s : String) (h : isFaithful s = true) : Kept (.str s)
  | list (vs : List Value) (hitems : ∀ v ∈ vs, isItem v = true) (h : ∀ v ∈ vs, Kept v) :
      Kept (.list vs)
  | map (es : Entries) (hkeys : ∀ e ∈ es, isKey e.1 = true) (h : ∀ e ∈ es, Kept e.2) :
      Kept (.map es)

/-- **A safe value**: what the writer writes of it is read as it. -/
def Safe (v : Value) : Prop := isDocument v = true ∧ Kept v

/-! ## Quotes -/

/-- A text with its quotes escaped. -/
def esc (cs : List Char) : List Char := cs.flatMap fun c => if c = '"' then ['\\', '"'] else [c]

@[simp] theorem esc_nil : esc [] = [] := rfl

@[simp] theorem esc_append (cs cs' : List Char) : esc (cs ++ cs') = esc cs ++ esc cs' := by
  simp [esc]

theorem esc_cons (c : Char) (cs : List Char) :
    esc (c :: cs) = (if c = '"' then ['\\', '"'] else [c]) ++ esc cs := by
  simp [esc]

theorem esc_quote (cs : List Char) : esc ('"' :: cs) = '\\' :: '"' :: esc cs := by simp [esc_cons]

theorem esc_other {c : Char} (hc : c ≠ '"') (cs : List Char) : esc (c :: cs) = c :: esc cs := by
  simp [esc_cons, hc]

theorem esc_plain {cs : List Char} (h : '"' ∉ cs) : esc cs = cs := by
  induction cs with
  | nil => rfl
  | cons c cs ih =>
    rw [List.mem_cons, not_or] at h
    rw [esc_other (Ne.symm h.1), ih h.2]

theorem length_esc (cs : List Char) : (esc cs).length = cs.length + cs.count '"' := by
  induction cs with
  | nil => rfl
  | cons c cs ih =>
    by_cases hc : c = '"'
    · subst hc
      simp only [esc_quote, List.length_cons, List.count_cons_self, ih]
      omega
    · simp only [esc_other hc, List.length_cons, List.count_cons_of_ne hc, ih]
      omega

theorem chars_of_not_quoted {s : String} (h : isQuoted s = false) :
    s.toList ≠ [] ∧ (∀ c ∈ s.toList, c ≠ ':' ∧ c ≠ '#' ∧ c ≠ '"' ∧ c ≠ '\n') ∧
      ∀ c ∈ s.toList.take 1, c ≠ '-' := by
  simp only [isQuoted, Bool.or_eq_false_iff, decide_eq_false_iff_not, List.any_eq_false] at h
  obtain ⟨⟨⟨⟨hempty, -⟩, -⟩, hspecial⟩, hfirst⟩ := h
  refine ⟨?_, ?_, ?_⟩
  · simpa using hempty
  · intro c hc
    have hc := hspecial c hc
    refine ⟨?_, ?_, ?_, ?_⟩ <;>
    · rintro rfl
      exact hc (by decide)
  · intro c hc
    have hc := hfirst c hc
    rintro rfl
    exact hc (by decide)

theorem allDigits_chars {s : String} (h : allDigits s = true) : '"' ∉ s.toList := by
  have hchomped : '"' ∉ chompNewline s.toList := by
    simp only [allDigits, Bool.and_eq_true, List.all_eq_true] at h
    intro hc
    exact absurd (h.2 _ hc) (by decide)
  intro hc
  unfold chompNewline at hchomped
  split at hchomped
  · rename_i hlast
    rw [← List.dropLast_append_getLast? _ hlast] at hc
    rcases List.mem_append.mp hc with hc | hc
    · exact hchomped hc
    · exact absurd (List.mem_singleton.mp hc) (by decide)
  · exact hchomped hc

/-- **How a text is written**: between quotes with its quotes escaped, or as it is. -/
theorem toList_encodeString (s : String) :
    (encodeString s).toList = if isQuoted s then '"' :: (esc s.toList ++ ['"']) else s.toList := by
  have hquoted : '"' ∉ s.toList → (quoted s).toList = '"' :: (esc s.toList ++ ['"']) := by
    intro hs
    rw [esc_plain hs]
    simp [quoted]
  unfold encodeString isQuoted
  by_cases hempty : s = ""
  · subst hempty
    rfl
  by_cases hdigits : allDigits s = true
  · rw [if_neg hempty, if_pos hdigits, if_pos (by simp [hdigits]), hquoted (allDigits_chars hdigits)]
  by_cases hword : s ∈ ["true", "false", "null", "yes", "no", "on", "off"]
  · have hs : '"' ∉ s.toList := by
      simp only [List.mem_cons, List.not_mem_nil, or_false] at hword
      rcases hword with rfl | rfl | rfl | rfl | rfl | rfl | rfl <;> decide
    rw [if_neg hempty, if_neg hdigits, if_pos hword, if_pos (by simp [hword]), hquoted hs]
  by_cases hspecial : s.toList.any ":#\"\n'".toList.contains = true
  · rw [if_neg hempty, if_neg hdigits, if_neg hword, if_pos hspecial,
      if_pos (by simp only [hspecial, Bool.or_true, Bool.true_or])]
    simp [quoted, escapeQuotes, esc]
  have hs : '"' ∉ s.toList := fun hc => hspecial (List.any_eq_true.mpr ⟨_, hc, by decide⟩)
  by_cases hfirst : (s.toList.take 1).any "-*&!%@`|>[\x7b?".toList.contains = true
  · rw [if_neg hempty, if_neg hdigits, if_neg hword, if_neg hspecial, if_pos hfirst,
      if_pos (by simp only [hfirst, Bool.or_true]), hquoted hs]
  · rw [if_neg hempty, if_neg hdigits, if_neg hword, if_neg hspecial, if_neg hfirst,
      if_neg (by simp only [hempty, hdigits, hword, hspecial, hfirst]; decide)]

/-! ## Scalars -/

section
variable {P : Profile} (hplain : ∀ c, c ≠ '"' → P.plain c = true)

/-- A text on one line that is a scalar, with nothing to strip. -/
structure IsScalar (P : Profile) (t : List Char) (v : Value) : Prop where
  scalar : scalar P t = some v
  strip : strip t = t
  line : '\n' ∉ t

theorem strip_of {cs : List Char} (h : ∀ c ∈ cs, isBlank c = false) : strip cs = cs := by
  have hspaces : cs.dropWhile (· == ' ') = cs := by
    cases cs with
    | nil => rfl
    | cons c cs =>
      refine List.dropWhile_cons_of_neg ?_
      intro hc
      have hblank := h c List.mem_cons_self
      rw [eq_of_beq hc] at hblank
      cases hblank
  rw [strip, hspaces, List.rdropWhile_eq_self_iff]
  intro hne
  rw [h _ (List.getLast_mem hne)]
  decide

theorem resolve_core {s : String} (h : isCoreText s = true) : resolve P s = .str s := by
  simp only [isCoreText, Bool.and_eq_true, decide_eq_true_eq, Bool.not_eq_true',
    Option.isNone_iff_eq_none] at h
  obtain ⟨⟨⟨⟨hnull, htrue⟩, hfalse⟩, hint⟩, hfloat⟩ := h
  rw [resolve, if_neg hnull, if_neg htrue, if_neg hfalse, hint]
  simp [hfloat]

include hplain in
theorem scalar_plain {s : String} (h : isPlain s.toList = true) (hquote : '"' ∉ s.toList) :
    Reader.scalar P s.toList = some (resolve P s) := by
  have hall : s.toList.all P.plain = true := by
    rw [List.all_eq_true]
    intro c hc
    exact hplain c fun heq => hquote (heq ▸ hc)
  obtain ⟨c, cs, hs, -, -, -, -⟩ := isPlain_cons h
  have hhead : ∀ rest, s.toList ≠ '"' :: rest := by
    intro rest heq
    exact hquote (heq ▸ List.mem_cons_self)
  rw [Reader.scalar]
  · rw [if_pos (by simp [h, hall]), String.ofList_toList]
  · exact hhead

/-- The characters that numbers are written in. -/
def isNumeric (c : Char) : Bool := c.isDigit || c = '-' || c = '.' || c = 'e'

theorem isNumeric_chars {c : Char} (h : isNumeric c = true) :
    isPrintable c = true ∧ isBlank c = false ∧ c ≠ ':' ∧ c ≠ '#' ∧ c ≠ '"' ∧ c ≠ '\n' := by
  simp only [isNumeric, Bool.or_eq_true, decide_eq_true_eq] at h
  rcases h with ((h | rfl) | rfl) | rfl
  · obtain ⟨hlow, hhigh⟩ := isDigit_iff.mp h
    refine ⟨?_, ?_, ?_, ?_, ?_, ?_⟩
    · have hprint : 32 ≤ c.toNat ∧ c.toNat ≤ 126 := by omega
      simp [isPrintable, hprint]
    · have hspace : c ≠ ' ' ∧ c ≠ '\t' := by
        constructor <;>
        · rintro rfl
          cases h
      simp [isBlank, hspace]
    all_goals
      rintro rfl
      cases h
  all_goals decide

theorem plainRest_numeric {before : Char} {cs : List Char} (h : ∀ c ∈ cs, isNumeric c = true) :
    plainRest before cs = true := by
  induction cs generalizing before with
  | nil => rfl
  | cons c cs ih =>
    obtain ⟨hprint, -, hcolon, hhash, -, -⟩ := isNumeric_chars (h c List.mem_cons_self)
    rw [plainRest, ih fun c hc => h c (List.mem_cons_of_mem _ hc)]
    simp [hprint, hcolon, hhash]

theorem isPlain_numeric {c : Char} {cs : List Char} (h : ∀ c' ∈ c :: cs, isNumeric c' = true)
    (hfirst : c.isDigit = true ∨ c = '-' ∧ cs ≠ []) : isPlain (c :: cs) = true := by
  obtain ⟨hprint, hblank, -⟩ := isNumeric_chars (h c List.mem_cons_self)
  have hrest : plainRest c cs = true := plainRest_numeric fun c hc => h c (List.mem_cons_of_mem _ hc)
  have hind : (!isIndicator c || ("-?:".toList.contains c && followed cs)) = true := by
    rcases hfirst with hdigit | ⟨rfl, hne⟩
    · have hnot : isIndicator c = false := by
        have hall : "-?:,[]\x7b\x7d#&*!|>'\"%@`".toList.all (fun c => !c.isDigit) = true := by decide
        have hnone : ∀ c ∈ "-?:,[]\x7b\x7d#&*!|>'\"%@`".toList, c.isDigit = false := by
          simpa only [List.all_eq_true, Bool.not_eq_true'] using hall
        rw [← Bool.not_eq_true]
        intro hind
        rw [hnone c (List.contains_iff_mem.mp hind)] at hdigit
        cases hdigit
      simp [hnot]
    · obtain ⟨d, ds, rfl⟩ := List.exists_cons_of_ne_nil hne
      obtain ⟨-, hd, -⟩ := isNumeric_chars (h d (by simp))
      simp [followed, hd]
  rw [isPlain, hprint, hblank, hind, hrest]
  rfl

theorem resolve_of_ne {t : String} (h : ∀ s ∈ ["null", "Null", "NULL", "~"] ++
      (["true", "True", "TRUE"] ++ ["false", "False", "FALSE"]), t ≠ s) :
    resolve P t = match coreInt t with
      | some n => .int n
      | none => if coreFloat t then .float (P.floatText t) else .str t :=
  (if_neg fun hmem => h t (List.mem_append_left _ hmem) rfl).trans <|
    (if_neg fun hmem => h t (List.mem_append_right _ (List.mem_append_left _ hmem)) rfl).trans <|
      if_neg fun hmem => h t (List.mem_append_right _ (List.mem_append_right _ hmem)) rfl

theorem resolve_int (n : Int) : resolve P n.repr = .int n := by
  have hdigits := signedDigits_repr n
  have hwords : ∀ s ∈ ["null", "Null", "NULL", "~"] ++
      (["true", "True", "TRUE"] ++ ["false", "False", "FALSE"]), signedDigits s = false := by
    decide +kernel
  rw [resolve_of_ne, coreInt, if_pos hdigits, intValue_repr]
  rintro s hs rfl
  rw [hwords _ hs] at hdigits
  cases hdigits

/-! ### Floats -/

theorem span_digits {ds : List Char} (h : ∀ c ∈ ds, c.isDigit = true) (rest : List Char)
    (hrest : rest.head?.all fun c => !c.isDigit) :
    (ds ++ rest).takeWhile Char.isDigit = ds ∧ (ds ++ rest).dropWhile Char.isDigit = rest := by
  rw [List.takeWhile_append_of_pos h, List.dropWhile_append_of_pos h]
  cases rest with
  | nil => simp
  | cons c rest =>
    have hc : c.isDigit = false := by simpa using hrest
    simp [hc]

theorem signOf_digits {sign ds : List Char} (hsign : IsSign sign) (hds : IsDigits ds)
    (rest : List Char) : (signOf (sign ++ (ds ++ rest))).2 = ds ++ rest := by
  obtain ⟨hne, hdigits⟩ := hds
  obtain ⟨d, ds, rfl⟩ := List.exists_cons_of_ne_nil hne
  have hd := hdigits d List.mem_cons_self
  rcases hsign with rfl | rfl
  · rw [List.nil_append, List.cons_append, signOf]
    all_goals
      intro cs heq
      rw [(List.cons.inj heq).1] at hd
      cases hd
  · rfl

section
variable {t : String} (ht : IsFloatText t)
include ht

theorem float_parts : ∃ fraction exponent, (signOf t.toList).2.takeWhile Char.isDigit ≠ [] ∧
    (signOf t.toList).2.dropWhile Char.isDigit = '.' :: (fraction ++ exponent) ∧
      IsDigits fraction ∧ (exponent = [] ∨
        ∃ sign ds, exponent = 'e' :: (sign ++ ds) ∧ IsSign sign ∧ IsDigits ds) := by
  obtain ⟨sign, ds, fraction, exponent, htext, hsign, hds, hfraction, hexponent⟩ := ht
  obtain ⟨htake, hdrop⟩ := span_digits hds.2 ('.' :: (fraction ++ exponent)) rfl
  refine ⟨fraction, exponent, ?_, ?_, hfraction, hexponent⟩
  · rw [htext, signOf_digits hsign hds, htake]
    exact hds.1
  · rw [htext, signOf_digits hsign hds, hdrop]

theorem float_decimal : coreFloat t = true := by
  obtain ⟨fraction, exponent, htake, hdrop, hfraction, hexponent⟩ := float_parts ht
  have hrest : exponent.head?.all (fun c => !c.isDigit) = true ∧ isExponent exponent = true := by
    rcases hexponent with rfl | ⟨sign, ds, rfl, hsign, hds⟩
    · exact ⟨rfl, rfl⟩
    · refine ⟨rfl, ?_⟩
      have hdigits := signOf_digits hsign hds []
      simp only [List.append_nil] at hdigits
      simp only [isExponent, hdigits, Bool.and_eq_true, List.all_eq_true]
      exact ⟨⟨rfl, by simpa using hds.1⟩, hds.2⟩
  obtain ⟨hfractionTake, hfractionDrop⟩ := span_digits hfraction.2 exponent hrest.1
  have hdecimal : isDecimal (signOf t.toList).2 = true := by
    rw [isDecimal, hdrop]
    simp only [hfractionDrop, hrest.2, Bool.and_true, Bool.or_eq_true]
    exact .inl (by simpa using htake)
  rw [coreFloat, hdecimal]
  rfl

theorem float_point : '.' ∈ t.toList := by
  obtain ⟨sign, ds, fraction, exponent, htext, -⟩ := ht
  simp [htext]

theorem float_numeric : ∀ c ∈ t.toList, isNumeric c = true := by
  obtain ⟨sign, ds, fraction, exponent, htext, hsign, hds, hfraction, hexponent⟩ := ht
  have hsigns : ∀ {cs : List Char}, IsSign cs → ∀ c ∈ cs, isNumeric c = true := by
    rintro cs (rfl | rfl) c hc
    · cases hc
    · rw [List.mem_singleton.mp hc]
      decide
  have hdigits : ∀ {cs : List Char}, IsDigits cs → ∀ c ∈ cs, isNumeric c = true := by
    rintro cs ⟨-, hcs⟩ c hc
    simp [isNumeric, hcs c hc]
  intro c hc
  rw [htext] at hc
  simp only [List.mem_append, List.mem_cons] at hc
  rcases hc with hc | hc | rfl | hc | hc
  · exact hsigns hsign c hc
  · exact hdigits hds c hc
  · decide
  · exact hdigits hfraction c hc
  · rcases hexponent with rfl | ⟨sign', ds', rfl, hsign', hds'⟩
    · cases hc
    · simp only [List.mem_append, List.mem_cons] at hc
      rcases hc with rfl | hc | hc
      · decide
      · exact hsigns hsign' c hc
      · exact hdigits hds' c hc

theorem float_isPlain : isPlain t.toList = true := by
  have hnumeric := float_numeric ht
  obtain ⟨sign, ds, fraction, exponent, htext, hsign, ⟨hne, hds⟩, -⟩ := ht
  obtain ⟨d, ds, rfl⟩ := List.exists_cons_of_ne_nil hne
  rw [htext] at hnumeric ⊢
  rcases hsign with rfl | rfl
  · exact isPlain_numeric hnumeric (.inl (hds d List.mem_cons_self))
  · exact isPlain_numeric hnumeric (.inr ⟨rfl, by simp⟩)

theorem resolve_float : resolve P t = .float (P.floatText t) := by
  have hpoint := float_point ht
  have hnot : ∀ s : String, '.' ∉ s.toList → t ≠ s := by
    rintro s hs rfl
    exact hs hpoint
  have hint : coreInt t = none := by
    have hsigned : signedDigits t = false := by
      rw [← Bool.not_eq_true]
      intro hsigned
      rcases signedDigits_chars hsigned '.' hpoint with h | h | h <;> cases h
    obtain ⟨fraction, exponent, -, hdrop, -⟩ := float_parts ht
    rw [coreInt, if_neg (by simp [hsigned])]
    split
    · rename_i htext
      rw [htext] at hdrop
      cases hdrop
    · rename_i htext
      rw [htext] at hdrop
      cases hdrop
    · rfl
  rw [resolve_of_ne fun s hs => hnot s (by revert s; decide), hint]
  dsimp only
  rw [if_pos (float_decimal ht)]

end

/-! ### All scalars -/

theorem quotedRest_esc {cs : List Char} (h : ∀ c ∈ cs, isJson c = true ∧ c ≠ '\\')
    (rest : List Char) : quotedRest (esc cs ++ '"' :: rest) = some (cs, rest) := by
  induction cs with
  | nil => rfl
  | cons c cs ih =>
    have hrest := ih fun c hc => h c (List.mem_cons_of_mem _ hc)
    by_cases hquote : c = '"'
    · subst hquote
      rw [esc_quote, List.cons_append, List.cons_append, quotedRest_letter (by decide), hrest]
      rfl
    · obtain ⟨hjson, hescape⟩ := h c List.mem_cons_self
      rw [esc_other hquote, List.cons_append, quotedRest_other hquote hescape, if_pos hjson, hrest]
      rfl

theorem esc_line {cs : List Char} (h : '\n' ∉ cs) : '\n' ∉ esc cs := by
  intro hc
  obtain ⟨c, hmem, hc⟩ := List.mem_flatMap.mp hc
  split at hc
  · revert hc
    decide
  · rw [List.mem_singleton.mp hc] at h
    exact h hmem

theorem strip_quoted (cs : List Char) : strip ('"' :: (cs ++ ['"'])) = '"' :: (cs ++ ['"']) := by
  have hdrop : ('"' :: (cs ++ ['"'])).dropWhile (· == ' ') = '"' :: (cs ++ ['"']) := rfl
  rw [strip, hdrop, ← List.cons_append, List.rdropWhile_concat_neg _ _ _ (by decide)]

include hplain in
theorem isScalar_str {s : String} (h : isFaithful s = true) :
    IsScalar P (encodeString s).toList (.str s) := by
  rw [toList_encodeString]
  unfold isFaithful at h
  split at h
  · rename_i hquoted
    rw [if_pos hquoted]
    have hchars : ∀ c ∈ s.toList, isJson c = true ∧ c ≠ '\\' := by
      simpa [List.all_eq_true] using h
    refine ⟨?_, ?_, ?_⟩
    · rw [Reader.scalar, quotedRest_esc hchars]
      simp
    · exact strip_quoted _
    · have hline : '\n' ∉ s.toList := fun hc => absurd (hchars _ hc).1 (by decide)
      simp [esc_line hline]
  · rename_i hquoted
    rw [if_neg hquoted]
    simp only [Bool.and_eq_true, decide_eq_true_eq] at h
    obtain ⟨⟨hplainText, hstrip⟩, hcore⟩ := h
    obtain ⟨-, hchars, -⟩ := chars_of_not_quoted (by simpa using hquoted)
    refine ⟨?_, hstrip, fun hc => (hchars _ hc).2.2.2 rfl⟩
    rw [scalar_plain hplain hplainText fun hc => (hchars _ hc).2.2.1 rfl, resolve_core hcore]

theorem isScalar_numeric {s : String} {v : Value} (hplain : ∀ c, c ≠ '"' → P.plain c = true)
    (h : ∀ c ∈ s.toList, isNumeric c = true) (hs : isPlain s.toList = true)
    (hv : resolve P s = v) : IsScalar P s.toList v :=
  ⟨by rw [scalar_plain hplain hs fun hc => (isNumeric_chars (h _ hc)).2.2.2.2.1 rfl, hv],
    strip_of fun c hc => (isNumeric_chars (h c hc)).2.1,
    fun hc => (isNumeric_chars (h _ hc)).2.2.2.2.2 rfl⟩

theorem repr_shape (n : Int) :
    ∃ sign ds, n.repr.toList = sign ++ ds ∧ IsSign sign ∧ IsDigits ds := by
  have hdigits : ∀ k, IsDigits (Nat.toDigits 10 k) := fun k =>
    ⟨Nat.toDigits_ne_nil, fun c hc => Nat.isDigit_of_mem_toDigits (by decide) (by decide) hc⟩
  rw [Int.repr_eq_if]
  split
  · exact ⟨[], _, by rw [Nat.toList_repr]; rfl, .inl rfl, hdigits _⟩
  · exact ⟨['-'], _, by rw [String.toList_append, Nat.toList_repr]; rfl, .inr rfl, hdigits _⟩

theorem isScalar_int (hplain : ∀ c, c ≠ '"' → P.plain c = true) (n : Int) :
    IsScalar P n.repr.toList (.int n) := by
  obtain ⟨sign, ds, htext, hsign, hne, hds⟩ := repr_shape n
  obtain ⟨d, ds, rfl⟩ := List.exists_cons_of_ne_nil hne
  have hdigit : ∀ c ∈ d :: ds, isNumeric c = true := fun c hc => by simp [isNumeric, hds c hc]
  have hnumeric : ∀ c ∈ n.repr.toList, isNumeric c = true := by
    rw [htext]
    rcases hsign with rfl | rfl
    · exact hdigit
    · exact List.forall_mem_cons.mpr ⟨by decide, hdigit⟩
  refine isScalar_numeric hplain hnumeric ?_ (resolve_int n)
  rw [htext] at hnumeric ⊢
  rcases hsign with rfl | rfl
  · exact isPlain_numeric hnumeric (.inl (hds d List.mem_cons_self))
  · exact isPlain_numeric hnumeric (.inr ⟨rfl, by simp⟩)

/-- **A scalar of a plain value** is read from what is written of it. -/
theorem isScalar {v : Value} (hplain : ∀ c, c ≠ '"' → P.plain c = true)
    (hv : isCollection v = false) (h : Plain P.floatText v) (hkept : Kept v) :
    IsScalar P (scalarText v).toList v := by
  have hword : ∀ s ∈ ["null", "true", "false"], ∀ w, resolve P s = w →
      IsScalar P s.toList w := by
    intro s hs w hw
    have hshape : isPlain s.toList = true ∧ '"' ∉ s.toList ∧ strip s.toList = s.toList ∧
        '\n' ∉ s.toList := by
      clear hw
      revert s
      decide
    obtain ⟨hisPlain, hquote, hstrip, hline⟩ := hshape
    exact ⟨by rw [scalar_plain hplain hisPlain hquote, hw], hstrip, hline⟩
  cases h with
  | null => exact hword "null" (by simp) _ rfl
  | bool b =>
    cases b with
    | false => exact hword "false" (by simp) _ rfl
    | true => exact hword "true" (by simp) _ rfl
  | int n => exact isScalar_int hplain n
  | float t ht hread =>
    have hresolve : resolve P t = .float t := by rw [resolve_float ht, hread]
    exact isScalar_numeric hplain (float_numeric ht) (float_isPlain ht) hresolve
  | str s =>
    cases hkept with
    | str _ hs => exact isScalar_str hplain hs
  | list => cases hv
  | map => cases hv

end

end Writer
end Yaml
end Esr
