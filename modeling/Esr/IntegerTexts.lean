import Esr.Words

/-! # Integers as texts

A sign and decimal digits, read by `Integer.parse/1` and by Python's `int`.  The first
reads as many of them as there are and says what is left.  The second wants the whole
text and takes more of them: white space around it, single underscores between
digits, and the decimal digits of every script (those of Unicode 14, as in Python
3.11); it refuses more than 4300 digits.

On a text that is a sign and ASCII digits, and nothing else, both give `intValue`; and
every integer's own text is one (`intValue_repr`).
-/
namespace Esr

/-- The sign of a text, and what follows it. -/
def signOf : List Char → Int × List Char
  | '-' :: ds => (-1, ds)
  | '+' :: ds => (1, ds)
  | ds => (1, ds)

/-- `Integer.parse/1`. -/
def integerParse (s : String) : Option (Int × String) :=
  let (sign, ds) := signOf s.toList
  if ds.takeWhile Char.isDigit = [] then none
  else some (sign * (Nat.ofDigitChars 10 (ds.takeWhile Char.isDigit) 0 : Nat),
    String.ofList (ds.dropWhile Char.isDigit))

/-- The zeros of the scripts with decimal digits, ASCII apart. -/
def decimalZeros : List Nat :=
  [0x660, 0x6F0, 0x7C0, 0x966, 0x9E6, 0xA66, 0xAE6, 0xB66, 0xBE6, 0xC66, 0xCE6, 0xD66, 0xDE6,
    0xE50, 0xED0, 0xF20, 0x1040, 0x1090, 0x17E0, 0x1810, 0x1946, 0x19D0, 0x1A80, 0x1A90, 0x1B50,
    0x1BB0, 0x1C40, 0x1C50, 0xA620, 0xA8D0, 0xA900, 0xA9D0, 0xA9F0, 0xAA50, 0xABF0, 0xFF10,
    0x104A0, 0x10D30, 0x11066, 0x110F0, 0x11136, 0x111D0, 0x112F0, 0x11450, 0x114D0, 0x11650,
    0x116C0, 0x11730, 0x118E0, 0x11950, 0x11C50, 0x11D50, 0x11DA0, 0x16A60, 0x16AC0, 0x16B50,
    0x1D7CE, 0x1D7D8, 0x1D7E2, 0x1D7EC, 0x1D7F6, 0x1E140, 0x1E2F0, 0x1E950, 0x1FBF0]

/-- What `int` makes of a character before it looks for digits. -/
def toAscii (c : Char) : Char :=
  if c.toNat < 127 then c
  else if isSpace c then ' '
  else match decimalZeros.find? fun z => z ≤ c.toNat && c.toNat < z + 10 with
    | some z => Char.ofNat (48 + (c.toNat - z))
    | none => '?'

/-- `sys.get_int_max_str_digits()`. -/
def maxStrDigits : Nat := 4300

/-- `int(s)`, with `none` for `ValueError`. -/
def pyInt (s : String) : Option Int :=
  let (sign, ds) := signOf (trim (String.ofList (s.toList.map toAscii))).toList
  let groups := ds.splitOn '_'
  if groups.all (fun g => g ≠ [] && g.all Char.isDigit) ∧ groups.flatten.length ≤ maxStrDigits then
    some (sign * (Nat.ofDigitChars 10 groups.flatten 0 : Nat))
  else none

/-- A sign, or none, and ASCII digits. -/
def signedDigits (s : String) : Bool :=
  (signOf s.toList).2 ≠ [] && (signOf s.toList).2.all Char.isDigit

/-- How many digits there are. -/
def digitCount (s : String) : Nat := (signOf s.toList).2.length

/-- The integer that a sign and digits are. -/
def intValue (s : String) : Int :=
  (signOf s.toList).1 * (Nat.ofDigitChars 10 (signOf s.toList).2 0 : Nat)

example : pyInt " +१_2" = some 12 ∧ pyInt "1__2" = none ∧ integerParse "-7x" = some (-7, "x") := by
  decide +kernel

/-! ## Signs -/

theorem signOf_cases (cs : List Char) :
    (∃ ds, cs = '-' :: ds ∧ signOf cs = (-1, ds)) ∨ (∃ ds, cs = '+' :: ds ∧ signOf cs = (1, ds)) ∨
      signOf cs = (1, cs) := by
  fun_cases signOf cs with
  | case1 ds => exact .inl ⟨ds, rfl, rfl⟩
  | case2 ds => exact .inr (.inl ⟨ds, rfl, rfl⟩)
  | case3 => exact .inr (.inr rfl)

theorem isDigit_iff {c : Char} : c.isDigit = true ↔ 48 ≤ c.toNat ∧ c.toNat ≤ 57 := by
  rw [Char.isDigit, Bool.and_eq_true, decide_eq_true_eq, decide_eq_true_eq]
  rfl

section
variable {s : String} (h : signedDigits s = true)
include h

theorem signedDigits_ne : (signOf s.toList).2 ≠ [] := by
  rw [signedDigits, Bool.and_eq_true, decide_eq_true_eq] at h
  exact h.1

theorem signedDigits_digits : ∀ c ∈ (signOf s.toList).2, c.isDigit = true := by
  rw [signedDigits, Bool.and_eq_true, List.all_eq_true] at h
  exact h.2

theorem signedDigits_chars : ∀ c ∈ s.toList, c = '-' ∨ c = '+' ∨ c.isDigit = true := by
  intro c hc
  have hdigits := signedDigits_digits h
  rcases signOf_cases s.toList with ⟨ds, hs, hsign⟩ | ⟨ds, hs, hsign⟩ | hsign
  · rw [hs] at hc
    rcases List.mem_cons.mp hc with rfl | hc
    · exact .inl rfl
    · exact .inr (.inr (hdigits c (by rwa [hsign])))
  · rw [hs] at hc
    rcases List.mem_cons.mp hc with rfl | hc
    · exact .inr (.inl rfl)
    · exact .inr (.inr (hdigits c (by rwa [hsign])))
  · exact .inr (.inr (hdigits c (by rwa [hsign])))

theorem signedDigits_ascii : ∀ c ∈ s.toList, c.toNat < 127 ∧ isSpace c = false := by
  intro c hc
  rcases signedDigits_chars h c hc with rfl | rfl | hdigit
  · exact ⟨by decide, by decide⟩
  · exact ⟨by decide, by decide⟩
  · obtain ⟨hlow, hhigh⟩ := isDigit_iff.mp hdigit
    refine ⟨by omega, ?_⟩
    have hlist : c.toNat ∉ [32, 0x85, 0xA0, 0x1680, 0x2028, 0x2029, 0x202F, 0x205F, 0x3000] := by
      intro hmem
      simp at hmem
      omega
    rw [isSpace, Bool.or_eq_false_iff, Bool.or_eq_false_iff]
    refine ⟨⟨?_, ?_⟩, by simpa using hlist⟩
    · rw [Bool.and_eq_false_iff]
      exact .inr (decide_eq_false (by omega))
    · rw [Bool.and_eq_false_iff]
      exact .inl (decide_eq_false (by omega))

/-! ## Two readers of a sign and digits -/

theorem integerParse_of_signed : integerParse s = some (intValue s, "") := by
  have hdigits := signedDigits_digits h
  have htake : (signOf s.toList).2.takeWhile Char.isDigit = (signOf s.toList).2 :=
    List.takeWhile_eq_self_iff.mpr hdigits
  have hdrop : (signOf s.toList).2.dropWhile Char.isDigit = [] :=
    List.dropWhile_eq_nil_iff.mpr hdigits
  unfold integerParse intValue
  dsimp only
  rw [htake, hdrop, if_neg (signedDigits_ne h), String.ofList_nil]

theorem toAscii_of_signed : trim (String.ofList (s.toList.map toAscii)) = s := by
  have hascii : s.toList.map toAscii = s.toList := by
    refine (List.map_congr_left fun c hc => ?_).trans (List.map_id _)
    exact if_pos (signedDigits_ascii h c hc).1
  rw [hascii, String.ofList_toList]
  refine trim_of_trimmed ⟨fun c hc => ?_, fun c hc => ?_⟩
  · exact (signedDigits_ascii h c (List.mem_of_mem_head? hc)).2
  · exact (signedDigits_ascii h c (List.mem_of_getLast? hc)).2

theorem pyInt_of_signed :
    pyInt s = if digitCount s ≤ maxStrDigits then some (intValue s) else none := by
  have hdigits := signedDigits_digits h
  have hsplit : (signOf s.toList).2.splitOn '_' = [(signOf s.toList).2] := by
    refine List.splitOn_eq_singleton fun hmem => ?_
    exact absurd (hdigits _ hmem) (by decide)
  have hall : ([(signOf s.toList).2].all fun g => g ≠ [] && g.all Char.isDigit) = true := by
    rw [List.all_cons, List.all_nil, Bool.and_true]
    exact h
  unfold pyInt
  dsimp only
  rw [toAscii_of_signed h, hsplit, hall, List.flatten_singleton]
  unfold digitCount intValue
  simp only [true_and]

end

theorem signedDigits_of_integerParse {s : String} {n : Int}
    (h : integerParse s = some (n, "")) : signedDigits s = true ∧ intValue s = n := by
  unfold integerParse at h
  dsimp only at h
  split at h
  · cases h
  · rename_i hne
    obtain ⟨hn, hrest⟩ := Prod.mk.inj (Option.some.inj h)
    rw [← String.toList_inj, String.toList_ofList, String.toList_empty] at hrest
    have hdigits := List.dropWhile_eq_nil_iff.mp hrest
    have htake := List.takeWhile_eq_self_iff.mpr hdigits
    rw [htake] at hn hne
    refine ⟨?_, hn⟩
    rw [signedDigits, Bool.and_eq_true, List.all_eq_true, decide_eq_true_eq]
    exact ⟨hne, hdigits⟩

/-! ## The text of an integer -/

theorem repr_signed (n : Int) : signOf n.repr.toList =
    (if 0 ≤ n then 1 else -1, Nat.toDigits 10 n.natAbs) := by
  rw [Int.repr_eq_if]
  split
  · rename_i hn
    have habs : n.toNat = n.natAbs := by omega
    rw [Nat.toList_repr, habs]
    rcases signOf_cases (Nat.toDigits 10 n.natAbs) with ⟨ds, hs, -⟩ | ⟨ds, hs, -⟩ | hsign
    · have hdigit : ('-').isDigit = true :=
        Nat.isDigit_of_mem_toDigits (by decide) (by decide) (hs ▸ List.mem_cons_self)
      cases hdigit
    · have hdigit : ('+').isDigit = true :=
        Nat.isDigit_of_mem_toDigits (by decide) (by decide) (hs ▸ List.mem_cons_self)
      cases hdigit
    · exact hsign
  · have habs : (-n).toNat = n.natAbs := by omega
    rw [String.toList_append, Nat.toList_repr, habs]
    rfl

theorem signedDigits_repr (n : Int) : signedDigits n.repr = true := by
  rw [signedDigits, repr_signed, Bool.and_eq_true, List.all_eq_true, decide_eq_true_eq]
  exact ⟨Nat.toDigits_ne_nil, fun c hc => Nat.isDigit_of_mem_toDigits (by decide) (by decide) hc⟩

theorem repr_chars {n : Int} {c : Char} (h : c ∈ n.repr.toList) :
    c ≠ '/' ∧ c ≠ '?' ∧ c ≠ '@' ∧ c ≠ ':' := by
  rcases signedDigits_chars (signedDigits_repr n) c h with rfl | rfl | hdigit
  · decide
  · decide
  · refine ⟨?_, ?_, ?_, ?_⟩ <;>
    · rintro rfl
      cases hdigit

theorem intValue_repr (n : Int) : intValue n.repr = n := by
  rw [intValue, repr_signed, Nat.ofDigitChars_ten_toDigits]
  split <;> omega

end Esr
