import Mathlib.Data.List.Basic

/-! # Cutting strings

`String.split(s, sep, parts: 2)` for a one-character separator, which both the
capability syntax and the slash-command syntax are read with, the pattern
`prefix <> rest`, and what trimming and a closing `$` do.  The result of a split
is the whole string when the separator does not occur, and otherwise the text
before its first occurrence and the text after it.

`splitParts2_eq_pair` is what clients use: the two parts are the only way to
write the string with a first part free of the separator.
-/
namespace Esr

/-- The characters before the first `c`, and those after it. -/
def cutAt (c : Char) : List Char → Option (List Char × List Char)
  | [] => none
  | x :: xs => if x = c then some ([], xs) else (cutAt c xs).map fun p => (x :: p.1, p.2)

/-- `String.split(s, sep, parts: 2)`. -/
def splitParts2 (sep : Char) (s : String) : List String :=
  match cutAt sep s.toList with
  | none => [s]
  | some (a, b) => [String.ofList a, String.ofList b]

/-- The match of a string against the pattern `p <> rest`. -/
def stripPrefix (p s : String) : Option String :=
  if p.toList.isPrefixOf s.toList then some (String.ofList (s.toList.drop p.toList.length))
  else none

/-- The text `$` anchors at the end of: a pattern also matches before a final
newline. -/
def chompNewline (cs : List Char) : List Char :=
  if cs.getLast? = some '\n' then cs.dropLast else cs

/-- The code points with the Unicode property White_Space. -/
def isSpace (c : Char) : Bool :=
  (9 ≤ c.toNat && c.toNat ≤ 13) || (0x2000 ≤ c.toNat && c.toNat ≤ 0x200A) ||
    [32, 0x85, 0xA0, 0x1680, 0x2028, 0x2029, 0x202F, 0x205F, 0x3000].contains c.toNat

/-- `String.trim_leading/1`. -/
def trimLeading (s : String) : String := String.ofList (s.toList.dropWhile isSpace)

/-- `String.trim/1`. -/
def trim (s : String) : String :=
  String.ofList ((s.toList.dropWhile isSpace).reverse.dropWhile isSpace).reverse

/-- The runs of characters that do not satisfy `sep`, with the run `word` begun. -/
def wordsFrom (sep : Char → Bool) (word : List Char) : List Char → List String
  | [] => if word = [] then [] else [String.ofList word.reverse]
  | c :: cs =>
      if sep c then
        if word = [] then wordsFrom sep [] cs
        else String.ofList word.reverse :: wordsFrom sep [] cs
      else wordsFrom sep (c :: word) cs

/-- `String.split(s, ~r/\s+/, trim: true)`: without the Unicode flag, `\s` is one
of the six ASCII spaces. -/
def words (s : String) : List String :=
  wordsFrom (fun c => c = ' ' || (9 ≤ c.toNat && c.toNat ≤ 13)) [] s.toList

/-- `String.split/1`, at Unicode white space. -/
def unicodeWords (s : String) : List String := wordsFrom isSpace [] s.toList

theorem stripPrefix_eq_some {p s r : String} : stripPrefix p s = some r ↔ s = p ++ r := by
  unfold stripPrefix
  rw [← String.toList_inj, String.toList_append]
  constructor
  · intro h
    split at h
    · rename_i hp
      obtain ⟨t, ht⟩ := List.isPrefixOf_iff_prefix.mp hp
      obtain rfl := Option.some.inj h
      simp [← ht]
    · cases h
  · intro h
    simp [h]

theorem cutAt_eq_none {c : Char} {s : List Char} : cutAt c s = none ↔ c ∉ s := by
  induction s with
  | nil => simp [cutAt]
  | cons x xs ih =>
    unfold cutAt
    by_cases hx : x = c
    · simp [hx]
    · simp [hx, Ne.symm hx, ih]

theorem cutAt_eq_some {c : Char} {s a b : List Char} :
    cutAt c s = some (a, b) ↔ s = a ++ c :: b ∧ c ∉ a := by
  induction s generalizing a with
  | nil => simp [cutAt]
  | cons x xs ih =>
    unfold cutAt
    by_cases hx : x = c
    · subst hx
      rw [if_pos rfl]
      constructor
      · rintro ⟨⟩
        exact ⟨rfl, List.not_mem_nil⟩
      · rintro ⟨hs, ha⟩
        cases a with
        | nil => simp_all
        | cons y ys =>
          obtain ⟨rfl, -⟩ := List.cons.inj hs
          exact absurd List.mem_cons_self ha
    · rw [if_neg hx, Option.map_eq_some_iff]
      constructor
      · rintro ⟨⟨a', b'⟩, hcut, he⟩
        obtain ⟨rfl, rfl⟩ := Prod.mk.inj he
        obtain ⟨rfl, ha⟩ := ih.mp hcut
        exact ⟨rfl, by simp [ha, Ne.symm hx]⟩
      · rintro ⟨hs, ha⟩
        cases a with
        | nil => exact absurd (List.cons.inj hs).1 hx
        | cons y ys =>
          obtain ⟨rfl, hxs⟩ := List.cons.inj hs
          exact ⟨(ys, b), ih.mpr ⟨hxs, fun h => ha (List.mem_cons_of_mem _ h)⟩, rfl⟩

theorem cut_unique {c : Char} {a b a' b' : List Char} (ha : c ∉ a') (hb : c ∉ b')
    (h : a ++ c :: b = a' ++ c :: b') : a = a' ∧ b = b' := by
  have hcount := congrArg (List.count c) h
  rw [List.count_append, List.count_append, List.count_cons_self, List.count_cons_self,
    List.count_eq_zero.mpr ha, List.count_eq_zero.mpr hb] at hcount
  have hna : c ∉ a := List.count_eq_zero.mp (by omega)
  have hcut : cutAt c (a ++ c :: b) = some (a, b) := cutAt_eq_some.mpr ⟨rfl, hna⟩
  rw [h, cutAt_eq_some.mpr ⟨rfl, ha⟩] at hcut
  simpa [eq_comm] using hcut

theorem splitParts2_eq_pair {sep : Char} {s a b : String} :
    splitParts2 sep s = [a, b] ↔ s = a ++ String.singleton sep ++ b ∧ sep ∉ a.toList := by
  have hcut : splitParts2 sep s = [a, b] ↔ cutAt sep s.toList = some (a.toList, b.toList) := by
    unfold splitParts2
    cases cutAt sep s.toList with
    | none => simp
    | some p =>
      obtain ⟨x, y⟩ := p
      simp [← String.toList_inj]
  rw [hcut, cutAt_eq_some, ← String.toList_inj]
  simp

theorem cut_injective {sep : Char} {a b a' b' : String} (ha : sep ∉ a.toList)
    (ha' : sep ∉ a'.toList)
    (h : a ++ String.singleton sep ++ b = a' ++ String.singleton sep ++ b') :
    a = a' ∧ b = b' := by
  have hcut : splitParts2 sep (a ++ String.singleton sep ++ b) = [a, b] :=
    splitParts2_eq_pair.mpr ⟨rfl, ha⟩
  rw [splitParts2_eq_pair.mpr ⟨h, ha'⟩] at hcut
  simpa [eq_comm] using hcut

theorem splitParts2_eq_whole {sep : Char} {s : String} (h : sep ∉ s.toList) :
    splitParts2 sep s = [s] := by
  unfold splitParts2
  rw [cutAt_eq_none.mpr h]

theorem decimal_injective : Function.Injective Nat.repr := by
  intro a b h
  have hdigits := congrArg (fun text => Nat.ofDigitChars 10 text.toList 0) h
  simpa only [Nat.toList_repr, Nat.ofDigitChars_ten_toDigits] using hdigits

end Esr
