import Esr.YamlSafe

/-! # Texts as `inspect/1` shows them

`Kernel.inspect/1` of a text, with its default limits: between quotes with escapes, or the
bytes of it when it cannot be printed.  A reader of YAML takes what stands between quotes
for the text again unless there is an escape in it that YAML does not have, or too much of
the text to be shown (`isReadBack`).
-/
namespace Esr
namespace Inspect
open Yaml Yaml.Reader Yaml.Writer

/-- How many characters of a text are shown. -/
def printableLimit : Nat := 4096

/-- How many bytes are shown of what is not printed as a text. -/
def byteLimit : Nat := 50

/-- `String.printable?/1` of one character. -/
def isPrintable (c : Char) : Bool :=
  (0x20 ≤ c.toNat && c.toNat ≤ 0x7E) || (7 ≤ c.toNat && c.toNat ≤ 13) || c.toNat = 27 ||
    c.toNat = 0x7F || (0xA0 ≤ c.toNat && c.toNat ≤ 0xFFFD) || 0x10000 ≤ c.toNat

/-- `Code.Identifier.escape/3` of one character, the quote apart. -/
def escapeChar : Char → List Char
  | '\x07' => ['\\', 'a']
  | '\x08' => ['\\', 'b']
  | '\x7f' => ['\\', 'd']
  | '\x1b' => ['\\', 'e']
  | '\x0c' => ['\\', 'f']
  | '\n' => ['\\', 'n']
  | '\r' => ['\\', 'r']
  | '\\' => ['\\', '\\']
  | '\t' => ['\\', 't']
  | '\x0b' => ['\\', 'v']
  | '\x00' => ['\\', '0']
  | '\ufeff' => ['\\', 'u', 'F', 'E', 'F', 'F']
  | c =>
      if isPrintable c then [c]
      else if c.toNat < 0x100 then ['\\', 'x', upperHex (c.toNat / 16), upperHex (c.toNat % 16)]
      else ['\\', 'x', '\x7b', upperHex (c.toNat / 4096), upperHex (c.toNat / 256 % 16),
        upperHex (c.toNat / 16 % 16), upperHex (c.toNat % 16), '\x7d']

/-- `Code.Identifier.escape/3`, and what is left of the text at the limit. -/
def escapeText : Nat → List Char → List Char × List Char
  | _, [] => ([], [])
  | 0, c :: cs => ([], c :: cs)
  | n + 1, '"' :: cs => ('\\' :: '"' :: (escapeText n cs).1, (escapeText n cs).2)
  | n + 1, '#' :: '\x7b' :: cs =>
      ('\\' :: '#' :: '\x7b' :: (escapeText n cs).1, (escapeText n cs).2)
  | n + 1, c :: cs => (escapeChar c ++ (escapeText n cs).1, (escapeText n cs).2)

/-- The bytes of a text, as `inspect/1` has them. -/
def inspectBytes (s : String) : String :=
  let bytes := (s.toList.flatMap String.utf8EncodeChar).map fun b => toString b.toNat
  if bytes.length ≤ byteLimit then "<<" ++ ", ".intercalate bytes ++ ">>"
  else "<<" ++ ", ".intercalate (bytes.take byteLimit) ++ ", ...>>"

/-- `Kernel.inspect/1` of a text. -/
def inspect (s : String) : String :=
  if (s.toList.take printableLimit).all isPrintable then
    let (escaped, rest) := escapeText printableLimit s.toList
    String.ofList ('"' :: (escaped ++ '"' :: if rest = [] then [] else " <> ...".toList))
  else inspectBytes s

example : inspect "a\"#\x7bb\x7d\n" = "\"a\\\"\\#\x7bb\x7d\\n\"" := by decide +kernel

/-! ## What is read back -/

/-- The text has what begins an interpolation. -/
def hasInterpolation : List Char → Bool
  | '#' :: '\x7b' :: _ => true
  | _ :: cs => hasInterpolation cs
  | [] => false

/-- What `inspect/1` shows of the text is, in YAML, the text. -/
def isReadBack (s : String) : Bool :=
  s.length ≤ printableLimit && s.toList.all (fun c => isPrintable c && c ≠ '\x7f') &&
    !hasInterpolation s.toList

/-! ## Escapes -/

/-- A character that YAML has an escape for, or that needs none. -/
def isKept (c : Char) : Bool := (isPrintable c || c = '\x00') && c ≠ '\x7f'

theorem isJson_of_printable {c : Char} (hprint : isPrintable c = true)
    (hescape : ∀ d ∈ ['\x07', '\x08', '\x1b', '\x0c', '\n', '\r', '\x0b'], c ≠ d) :
    isJson c = true := by
  have hnat : ∀ d ∈ ['\x07', '\x08', '\x1b', '\x0c', '\n', '\r', '\x0b'], c.toNat ≠ d.toNat :=
    fun d hd heq => hescape d hd (Char.toNat_inj.mp heq)
  simp only [List.forall_mem_cons, List.not_mem_nil, false_imp_iff, implies_true, and_true,
    Char.reduceToNat] at hnat
  simp only [isPrintable, Bool.or_eq_true, Bool.and_eq_true, decide_eq_true_eq] at hprint
  by_cases htab : c = '\t'
  · simp [isJson, htab]
  · have hnine : c.toNat ≠ 9 := fun heq => htab (Char.toNat_inj.mp heq)
    have hlow : 32 ≤ c.toNat := by omega
    simp [isJson, hlow]

theorem quotedRest_escapeChar {c : Char} (hquote : c ≠ '"') (more : List Char) :
    quotedRest (escapeChar c ++ more) =
      if isKept c then (quotedRest more).map fun p => (c :: p.1, p.2) else none := by
  have hnone : ∀ cs : List Char, quotedRest ('\\' :: 'x' :: cs) = none := fun cs =>
    quotedRest_letter (by decide) cs
  fun_cases escapeChar c with
  | case3 => exact quotedRest_letter (by decide) _
  | case12 => rfl
  | case13 c ha hb hd he hf hn hr hescape ht hv hzero hmark hprint =>
    have hjson : isJson c = true := isJson_of_printable hprint (by
      simp only [List.forall_mem_cons, List.not_mem_nil, false_imp_iff, implies_true, and_true]
      exact ⟨ha, hb, he, hf, hn, hr, hv⟩)
    have hkept : isKept c = true := by simpa [isKept, hprint] using hd
    rw [if_pos hkept, List.singleton_append, quotedRest_other hquote hescape, if_pos hjson]
  | case14 c ha hb hd he hf hn hr hescape ht hv hzero hmark hprint hlow =>
    have hkept : ¬isKept c = true := by simpa [isKept, hprint] using fun hc => (hzero hc).elim
    rw [if_neg hkept]
    exact hnone _
  | case15 c ha hb hd he hf hn hr hescape ht hv hzero hmark hprint hlow =>
    have hkept : ¬isKept c = true := by simpa [isKept, hprint] using fun hc => (hzero hc).elim
    rw [if_neg hkept]
    exact hnone _
  | _ => rw [List.cons_append, List.cons_append, quotedRest_letter (by decide)]; rfl

/-! ## Between the quotes -/

theorem hasInterpolation_cons {c : Char} {cs : List Char}
    (h : ∀ cs', c = '#' → cs = '\x7b' :: cs' → False) :
    hasInterpolation (c :: cs) = hasInterpolation cs := by
  rw [hasInterpolation]
  exact fun cs' hc hcs => h cs' hc hcs

/-- **What is read of the quoted text** is what was shown of it, up to the closing quote; and
only kept characters are. -/
theorem shown_of_quotedRest {n : Nat} {cs r w after : List Char}
    (h : quotedRest ((escapeText n cs).1 ++ '"' :: r) = some (w, after)) :
    after = r ∧ cs = w ++ (escapeText n cs).2 ∧ (∀ c ∈ w, isKept c = true) ∧
      ((escapeText n cs).2 = [] → hasInterpolation cs = false) := by
  induction n, cs using escapeText.induct generalizing w with
  | case1 n =>
    rw [escapeText] at h ⊢
    obtain ⟨rfl, rfl⟩ := Prod.mk.inj (Option.some.inj h)
    exact ⟨rfl, rfl, by simp, fun _ => rfl⟩
  | case2 c cs =>
    obtain ⟨rfl, rfl⟩ := Prod.mk.inj (Option.some.inj h)
    exact ⟨rfl, by simp [escapeText], by simp, by simp [escapeText]⟩
  | case3 n cs ih =>
    rw [escapeText, List.cons_append, List.cons_append, quotedRest_letter (by decide)] at h
    obtain ⟨p, rfl, hp⟩ := map_cons_eq_some.mp h
    obtain ⟨hafter, hcs, hkept, hnone⟩ := ih hp
    refine ⟨hafter, ?_, List.forall_mem_cons.mpr ⟨by decide, hkept⟩, hnone⟩
    rw [escapeText, List.cons_append, ← hcs]
  | case4 n cs ih =>
    rw [escapeText, List.cons_append, List.cons_append, quotedRest_letter (by decide)] at h
    cases h
  | case5 n c cs hquote hbrace ih =>
    rw [escapeText, List.append_assoc, quotedRest_escapeChar hquote] at h
    · split at h
      · rename_i hc
        obtain ⟨p, rfl, hp⟩ := map_cons_eq_some.mp h
        obtain ⟨hafter, hcs, hkept, hnone⟩ := ih hp
        refine ⟨hafter, ?_, List.forall_mem_cons.mpr ⟨hc, hkept⟩, ?_⟩
        · rw [escapeText, List.cons_append, ← hcs]
          all_goals assumption
        · rw [escapeText, hasInterpolation_cons hbrace]
          · exact hnone
          all_goals assumption
      · cases h
    all_goals assumption

theorem quotedRest_shown {n : Nat} {cs : List Char} (r : List Char) (hlength : cs.length ≤ n)
    (hkept : ∀ c ∈ cs, isKept c = true) (hinter : hasInterpolation cs = false) :
    quotedRest ((escapeText n cs).1 ++ '"' :: r) = some (cs, r) := by
  induction n, cs using escapeText.induct with
  | case1 n =>
    rw [escapeText]
    rfl
  | case2 c cs => simp at hlength
  | case3 n cs ih =>
    have hrest := ih (Nat.le_of_succ_le_succ hlength)
      (fun c hc => hkept c (List.mem_cons_of_mem _ hc)) hinter
    rw [escapeText, List.cons_append, List.cons_append, quotedRest_letter (by decide), hrest]
    rfl
  | case4 n cs ih => cases hinter
  | case5 n c cs hquote hbrace ih =>
    rw [hasInterpolation_cons hbrace] at hinter
    have hrest := ih (Nat.le_of_succ_le_succ hlength)
      (fun c hc => hkept c (List.mem_cons_of_mem _ hc)) hinter
    rw [escapeText, List.append_assoc, quotedRest_escapeChar hquote,
      if_pos (hkept c List.mem_cons_self), hrest]
    · rfl
    all_goals assumption

theorem escapeText_rest {n : Nat} {cs : List Char} (hinter : hasInterpolation cs = false) :
    (escapeText n cs).2 = [] ↔ cs.length ≤ n := by
  induction n, cs using escapeText.induct with
  | case1 n => simp [escapeText]
  | case2 c cs => simp [escapeText]
  | case3 n cs ih => rw [escapeText, ih hinter, List.length_cons, Nat.succ_le_succ_iff]
  | case4 n cs ih => cases hinter
  | case5 n c cs hquote hbrace ih =>
    rw [hasInterpolation_cons hbrace] at hinter
    rw [escapeText, ih hinter, List.length_cons, Nat.succ_le_succ_iff]
    all_goals assumption

/-! ## The whole text -/

/-- The characters that the numbers of bytes are shown with. -/
def isShown (c : Char) : Bool := c.isDigit || c = '<' || c = '>' || c = ',' || c = ' ' || c = '.'

theorem isShown_printable {c : Char} (h : isShown c = true) :
    isPrintable c = true ∧ c ≠ '"' ∧ c ≠ '\n' := by
  simp only [isShown, Bool.or_eq_true, decide_eq_true_eq] at h
  rcases h with ((((h | rfl) | rfl) | rfl) | rfl) | rfl
  · obtain ⟨hlow, hhigh⟩ := isDigit_iff.mp h
    have hprint : 0x20 ≤ c.toNat ∧ c.toNat ≤ 0x7E := by omega
    refine ⟨by simp [isPrintable, hprint], ?_, ?_⟩ <;>
    · rintro rfl
      cases h
  all_goals decide

theorem numbers_shown {bytes : List String} (h : ∀ b ∈ bytes, ∀ c ∈ b.toList, isShown c = true) :
    ∀ c ∈ (", ".intercalate bytes).toList, isShown c = true := by
  rw [String.toList_intercalate]
  induction bytes with
  | nil => simp
  | cons b bytes ih =>
    have hb := h b List.mem_cons_self
    have hrest := ih fun b hb => h b (List.mem_cons_of_mem _ hb)
    cases bytes with
    | nil => simpa using hb
    | cons b' bytes =>
      rw [List.map_cons, List.map_cons, List.intercalate_cons_cons]
      intro c hc
      rcases List.mem_append.mp hc with hc | hc
      · rcases List.mem_append.mp hc with hc | hc
        · exact hb c hc
        · exact List.all_eq_true.mp (show ", ".toList.all isShown = true by decide) c hc
      · exact hrest c hc

theorem inspectBytes_shown (s : String) :
    ∃ cs, (inspectBytes s).toList = '<' :: (cs ++ ['>']) ∧ ∀ c ∈ cs, isShown c = true := by
  have hbytes : ∀ b ∈ (s.toList.flatMap String.utf8EncodeChar).map (fun b => toString b.toNat),
      ∀ c ∈ b.toList, isShown c = true := by
    intro b hb c hc
    obtain ⟨n, -, rfl⟩ := List.mem_map.mp hb
    have hdigit : c.isDigit = true := by
      rw [Nat.toString_eq_repr, Nat.toList_repr] at hc
      exact Nat.isDigit_of_mem_toDigits (by decide) (by decide) hc
    simp [isShown, hdigit]
  have hbrackets : ∀ inner ending : List Char, (∀ c ∈ inner, isShown c = true) →
      (∀ c ∈ ending, isShown c = true) → ∃ cs, "<<".toList ++ inner ++ (ending ++ ['>', '>']) =
        '<' :: (cs ++ ['>']) ∧ ∀ c ∈ cs, isShown c = true := by
    intro inner ending hinner hending
    refine ⟨'<' :: (inner ++ ending ++ ['>']), by simp, ?_⟩
    simp only [List.mem_cons, List.mem_append, List.not_mem_nil, or_false]
    rintro c (rfl | (hc | hc) | rfl)
    · decide
    · exact hinner c hc
    · exact hending c hc
    · decide
  unfold inspectBytes
  dsimp only
  split
  · rw [String.toList_append, String.toList_append]
    exact hbrackets _ [] (numbers_shown hbytes) (by simp)
  · rw [String.toList_append, String.toList_append]
    refine hbrackets _ ", ...".toList (numbers_shown fun b hb => ?_)
      (List.all_eq_true.mp (show ", ...".toList.all isShown = true by decide))
    exact hbytes b (List.mem_of_mem_take hb)

theorem inspect_printable {s : String} (h : (s.toList.take printableLimit).all isPrintable = true) :
    (inspect s).toList = '"' :: ((escapeText printableLimit s.toList).1 ++
      '"' :: if (escapeText printableLimit s.toList).2 = [] then [] else " <> ...".toList) := by
  rw [inspect, if_pos h, String.toList_ofList]

theorem inspect_bytes {s : String} (h : ¬(s.toList.take printableLimit).all isPrintable = true) :
    inspect s = inspectBytes s := by
  rw [inspect, if_neg h]

theorem inspect_quote (s : String) :
    (∃ cs, (inspect s).toList = '"' :: cs) ∨ '"' ∉ (inspect s).toList := by
  by_cases h : (s.toList.take printableLimit).all isPrintable = true
  · exact .inl ⟨_, inspect_printable h⟩
  · obtain ⟨cs, htext, hcs⟩ := inspectBytes_shown s
    refine .inr ?_
    rw [inspect_bytes h, htext]
    simpa using fun hc => (isShown_printable (hcs _ hc)).2.1 rfl

theorem upperHex_line : ∀ n < 16, '\n' ≠ upperHex n := by decide

theorem escapeText_line (n : Nat) (cs : List Char) : '\n' ∉ (escapeText n cs).1 := by
  have hchar : ∀ c, '\n' ∉ escapeChar c := by
    intro c
    fun_cases escapeChar c with
    | case13 c ha hb hd he hf hn => simpa using fun hc => hn hc.symm
    | case14 c _ _ _ _ _ _ _ _ _ _ _ _ hprint hlow =>
      have hdigits := fun n hn => upperHex_line n hn
      simp [hdigits _ (show c.toNat / 16 < 16 by omega), hdigits _ (Nat.mod_lt c.toNat (by decide))]
    | case15 c _ _ _ _ _ _ _ _ _ _ _ _ hprint hlow =>
      have hhigh : c.toNat / 4096 < 16 := by
        simp [isPrintable] at hprint
        omega
      simp [upperHex_line, hhigh, Nat.mod_lt]
    | _ => decide
  induction n, cs using escapeText.induct with
  | case1 n => simp [escapeText]
  | case2 c cs => simp [escapeText]
  | case3 n cs ih => simp [escapeText, ih]
  | case4 n cs ih => simp [escapeText, ih]
  | case5 n c cs hquote hbrace ih =>
    rw [escapeText, List.mem_append, not_or]
    · exact ⟨hchar c, ih⟩
    all_goals assumption

theorem inspect_line (s : String) : '\n' ∉ (inspect s).toList := by
  by_cases h : (s.toList.take printableLimit).all isPrintable = true
  · rw [inspect_printable h]
    have hescaped := escapeText_line printableLimit s.toList
    split <;> simp [hescaped]
  · obtain ⟨cs, htext, hcs⟩ := inspectBytes_shown s
    rw [inspect_bytes h, htext]
    simpa using fun hc => (isShown_printable (hcs _ hc)).2.2 rfl

theorem inspect_ends (s : String) :
    ∃ c cs d, (inspect s).toList = c :: (cs ++ [d]) ∧ c ≠ ' ' ∧ isBlank d = false := by
  by_cases h : (s.toList.take printableLimit).all isPrintable = true
  · rw [inspect_printable h]
    split
    · exact ⟨'"', _, '"', rfl, by decide, by decide⟩
    · refine ⟨'"', (escapeText printableLimit s.toList).1 ++ '"' :: " <> ..".toList, '.', ?_, by decide,
        by decide⟩
      simp
  · obtain ⟨cs, htext, hcs⟩ := inspectBytes_shown s
    rw [inspect_bytes h, htext]
    exact ⟨'<', cs, '>', rfl, by decide, by decide⟩

theorem inspect_ne (s : String) : (inspect s).toList ≠ [] := by
  obtain ⟨c, cs, d, htext, -⟩ := inspect_ends s
  simp [htext]

theorem strip_inspect (s : String) : strip (' ' :: (inspect s).toList) = (inspect s).toList := by
  obtain ⟨c, cs, d, htext, hc, hd⟩ := inspect_ends s
  rw [htext, strip, List.dropWhile_cons_of_pos rfl,
    @List.dropWhile_cons_of_neg _ (· == ' ') c _ (by simpa using hc), ← List.cons_append,
    List.rdropWhile_concat_neg _ _ _ (by simp [hd])]

/-! ## Read back -/

section
variable {P : Profile} {s : String}

theorem core_of_resolve {t : String} (h : resolve P t = .str s) : s = t ∧ isCoreText s = true := by
  unfold resolve at h
  split at h
  · cases h
  · split at h
    · cases h
    · split at h
      · cases h
      · split at h
        · cases h
        · split at h
          · cases h
          · cases h
            exact ⟨rfl, by simp_all [isCoreText]⟩

theorem text_of_scalar {cs : List Char} (h : scalar P cs = some (.str s)) :
    (∃ rest, cs = '"' :: rest ∧ quotedRest rest = some (s.toList, [])) ∨
      (s.toList = cs ∧ isPlain s.toList = true ∧ isCoreText s = true) := by
  unfold scalar at h
  split at h
  · rename_i rest
    split at h
    · rename_i t hquoted
      cases h
      exact .inl ⟨rest, rfl, by rwa [String.toList_ofList]⟩
    · cases h
  · split at h
    · rename_i hplain
      obtain ⟨rfl, hcore⟩ := core_of_resolve (Option.some.inj h)
      rw [String.toList_ofList]
      exact .inr ⟨rfl, (Bool.and_eq_true_iff.mp hplain).1, hcore⟩
    · cases h

theorem text_of_flow {cs : List Char} (h : flow P cs = some (.str s)) :
    (∃ rest, strip cs = '"' :: rest ∧ quotedRest rest = some (s.toList, [])) ∨
      (s.toList = strip cs ∧ isPlain s.toList = true ∧ isCoreText s = true) := by
  unfold flow at h
  split at h
  · cases h
  · split at h
    · cases h
    · exact text_of_scalar h

theorem isReadBack_of_flow (h : flow P (' ' :: (inspect s).toList) = some (.str s)) :
    isReadBack s = true := by
  have hread := text_of_flow h
  rw [strip_inspect] at hread
  by_cases hprint : (s.toList.take printableLimit).all isPrintable = true
  · rw [inspect_printable hprint] at hread
    rcases hread with ⟨rest, hrest, hquoted⟩ | ⟨htext, hplain, -⟩
    · obtain ⟨-, rfl⟩ := List.cons.inj hrest
      obtain ⟨hafter, -, hkept, hinter⟩ := shown_of_quotedRest hquoted
      have hnone : (escapeText printableLimit s.toList).2 = [] := by
        by_contra hmore
        rw [if_neg hmore] at hafter
        cases hafter
      have hlength := (escapeText_rest (hinter hnone)).mp hnone
      rw [List.take_of_length_le hlength, List.all_eq_true] at hprint
      simp only [isReadBack, Bool.and_eq_true, decide_eq_true_eq, List.all_eq_true,
        Bool.not_eq_true']
      refine ⟨⟨by rwa [← String.length_toList], fun c hc => ⟨hprint c hc, ?_⟩⟩, hinter hnone⟩
      have hc := hkept c hc
      simp only [isKept, Bool.and_eq_true, decide_eq_true_eq] at hc
      exact hc.2
    · rw [htext] at hplain
      cases hplain
  · -- what is not printed is shown by printed characters
    obtain ⟨cs, hbytes, hcs⟩ := inspectBytes_shown s
    rw [inspect_bytes hprint, hbytes] at hread
    rcases hread with ⟨rest, hrest, -⟩ | ⟨htext, -, -⟩
    · cases hrest
    · refine absurd ?_ hprint
      rw [List.all_eq_true]
      intro c hc
      have hc := List.mem_of_mem_take hc
      rw [htext, List.mem_cons, List.mem_append, List.mem_singleton] at hc
      rcases hc with rfl | hc | rfl
      · decide
      · exact (isShown_printable (hcs c hc)).1
      · decide

/-- **What is shown of a text is read as it exactly for the texts that are read back.** -/
theorem flow_inspect : flow P (' ' :: (inspect s).toList) = some (.str s) ↔ isReadBack s = true := by
  refine ⟨isReadBack_of_flow, ?_⟩
  intro h
  simp only [isReadBack, Bool.and_eq_true, decide_eq_true_eq, List.all_eq_true, Bool.not_eq_true'] at h
  obtain ⟨⟨hlength, hchars⟩, hinter⟩ := h
  rw [← String.length_toList] at hlength
  have hprint : (s.toList.take printableLimit).all isPrintable = true := by
    rw [List.all_eq_true]
    exact fun c hc => (hchars c (List.mem_of_mem_take hc)).1
  have hkept : ∀ c ∈ s.toList, isKept c = true := by
    intro c hc
    obtain ⟨hprint, hdel⟩ := hchars c hc
    simp [isKept, hprint, hdel]
  have hquoted := quotedRest_shown [] hlength hkept hinter
  have htext := inspect_printable hprint
  rw [if_pos ((escapeText_rest hinter).mpr hlength)] at htext
  refine flow_of_scalar ?_ (strip_inspect s)
  rw [htext, scalar, hquoted]
  dsimp only
  rw [String.ofList_toList]

end

end Inspect
end Esr
