import Esr.Utf8

/-! # Percent escapes

Query strings write a byte as `%` and two hexadecimal digits, and a space as `+`.
`URI.decode_www_form/1` turns the escapes of a text into bytes and leaves the bytes
as they are, whether a text has them or not.  `urllib.parse.unquote_plus` turns
them into a text: the bytes of every run of ASCII characters are decoded with
replacements, and the other characters stay.  Both keep an escape that is malformed.

The two give the same exactly where the bytes are those of a text
(`bytesOf_unquotePlus`), and both undo `quote_plus` (`formDecode_quotePlus`).
-/
namespace Esr

/-- The value of a hexadecimal digit. -/
def hexDigit (c : Char) : Option Nat :=
  if '0' ≤ c ∧ c ≤ '9' then some (c.toNat - 48)
  else if 'A' ≤ c ∧ c ≤ 'F' then some (c.toNat - 55)
  else if 'a' ≤ c ∧ c ≤ 'f' then some (c.toNat - 87)
  else none

/-- The byte that three characters are the escape of. -/
def escaped (c a b : Char) : Option UInt8 :=
  if c = '%' then
    match hexDigit a, hexDigit b with
    | some x, some y => some (UInt8.ofNat (16 * x + y))
    | _, _ => none
  else none

/-- The bytes of a text with its escapes read. -/
def percentDecode : List Char → List UInt8
  | [] => []
  | [c] => String.utf8EncodeChar c
  | [c, a] => String.utf8EncodeChar c ++ String.utf8EncodeChar a
  | c :: a :: b :: cs =>
      match escaped c a b with
      | some x => x :: percentDecode cs
      | none => String.utf8EncodeChar c ++ percentDecode (a :: b :: cs)

/-- `"+"` stands for a space. -/
def plusToSpace (c : Char) : Char := if c = '+' then ' ' else c

/-- `URI.decode_www_form/1`. -/
def formDecode (cs : List Char) : List UInt8 := percentDecode (cs.map plusToSpace)

/-- `unquote`, with the run of ASCII characters begun. -/
def unquoteFrom (run : List Char) : List Char → List Char
  | [] => decode (percentDecode run)
  | c :: cs =>
      if c.toNat < 128 then unquoteFrom (run ++ [c]) cs
      else decode (percentDecode run) ++ c :: unquoteFrom [] cs

/-- `urllib.parse.unquote_plus(cs, errors="replace")`. -/
def unquotePlus (cs : List Char) : List Char := unquoteFrom [] (cs.map plusToSpace)

/-- The bytes that `quote_plus` leaves alone. -/
def alwaysSafe (b : UInt8) : Bool :=
  (0x41 ≤ b && b ≤ 0x5A) || (0x61 ≤ b && b ≤ 0x7A) || (0x30 ≤ b && b ≤ 0x39) ||
    b == 0x5F || b == 0x2E || b == 0x2D || b == 0x7E

/-- A digit of `"{:02X}"`. -/
def upperHex (n : Nat) : Char := Char.ofNat (if n < 10 then 48 + n else 55 + n)

/-- What `quote_plus` writes for one byte. -/
def quoteByte (b : UInt8) : List Char :=
  if b = 0x20 then ['+']
  else if alwaysSafe b then [Char.ofNat b.toNat]
  else ['%', upperHex (b.toNat / 16), upperHex (b.toNat % 16)]

/-- `urllib.parse.quote_plus`, of the bytes of a text or of bytes. -/
def quotePlus (bs : List UInt8) : List Char := bs.flatMap quoteByte

example : formDecode "a+b%C3%A9%4".toList = bytesOf "a bé%4".toList := by decide +kernel
example : unquotePlus "%C3é".toList = "\uFFFDé".toList := by decide +kernel

/-! ## Reading past a character -/

variable {c : Char} {cs : List Char}

theorem escaped_of_ne (h : c ≠ '%') (a b : Char) : escaped c a b = none := if_neg h

theorem escaped_eq_none_left {a : Char} (h : hexDigit a = none) (c b : Char) :
    escaped c a b = none := by
  unfold escaped
  rw [h]
  exact ite_self none

theorem escaped_eq_none_right {b : Char} (h : hexDigit b = none) (c a : Char) :
    escaped c a b = none := by
  unfold escaped
  rw [h]
  cases hexDigit a <;> exact ite_self none

theorem percentDecode_cons_of_none {a b : Char} (h : escaped c a b = none) :
    percentDecode (c :: a :: b :: cs) =
      String.utf8EncodeChar c ++ percentDecode (a :: b :: cs) := by
  rw [percentDecode, h]

theorem percentDecode_cons_of_ne (h : c ≠ '%') (cs : List Char) :
    percentDecode (c :: cs) = String.utf8EncodeChar c ++ percentDecode cs := by
  match cs with
  | [] => rw [percentDecode, percentDecode, List.append_nil]
  | [a] => rw [percentDecode, percentDecode]
  | a :: b :: cs => exact percentDecode_cons_of_none (escaped_of_ne h a b)

theorem percentDecode_cons_cons {x : Char} (hc : hexDigit c = none) (b : List Char) :
    percentDecode (x :: c :: b) = String.utf8EncodeChar x ++ percentDecode (c :: b) := by
  cases b with
  | nil => rw [percentDecode, percentDecode]
  | cons y b => exact percentDecode_cons_of_none (escaped_eq_none_left hc x y)

theorem percentDecode_append (hc : hexDigit c = none) (a b : List Char) :
    percentDecode (a ++ c :: b) = percentDecode a ++ percentDecode (c :: b) := by
  fun_induction percentDecode a with
  | case1 => rfl
  | case2 x => exact percentDecode_cons_cons hc b
  | case3 x y =>
    rw [List.append_assoc, ← percentDecode_cons_cons hc b]
    exact percentDecode_cons_of_none (escaped_eq_none_right hc x y)
  | case4 x y z cs d hesc ih => rw [List.cons_append, List.cons_append, List.cons_append,
      percentDecode, hesc, ih, List.cons_append]
  | case5 x y z cs hesc ih =>
    rw [List.append_assoc, ← ih]
    exact percentDecode_cons_of_none hesc

theorem percentDecode_eq_nil : percentDecode cs = [] ↔ cs = [] := by
  fun_cases percentDecode cs <;> simp [*]

/-! ## Runs of ASCII characters -/

theorem ascii_of_hexDigit (h : 128 ≤ c.toNat) : hexDigit c = none ∧ c ≠ '%' := by
  have hlt : ∀ d : Char, d.toNat < 128 → ¬c ≤ d := fun d hd hle =>
    absurd (Char.le_def.mp hle) (by
      have hcd : d.val.toNat < c.val.toNat := Nat.lt_of_lt_of_le hd h
      exact fun hle' => absurd (UInt32.le_iff_toNat_le.mp hle') (by omega))
  refine ⟨?_, ?_⟩
  · unfold hexDigit
    rw [if_neg fun hd => hlt '9' (by decide) hd.2, if_neg fun hd => hlt 'F' (by decide) hd.2,
      if_neg fun hd => hlt 'f' (by decide) hd.2]
  · rintro rfl
    exact absurd h (by decide)

theorem bytesOf_unquoteFrom (run cs : List Char) (h : IsText (percentDecode (run ++ cs))) :
    bytesOf (unquoteFrom run cs) = percentDecode (run ++ cs) := by
  induction cs generalizing run with
  | nil =>
    rw [List.append_nil] at h ⊢
    exact h
  | cons c cs ih =>
    rw [unquoteFrom]
    split
    · have happ : run ++ c :: cs = run ++ [c] ++ cs := List.append_cons run c cs
      rw [happ] at h ⊢
      exact ih _ h
    · rename_i hascii
      obtain ⟨hhex, hne⟩ := ascii_of_hexDigit (Nat.le_of_not_lt hascii)
      rw [percentDecode_append hhex, percentDecode_cons_of_ne hne] at h ⊢
      obtain ⟨hrun, hrest⟩ := (isText_around c).mp h
      rw [bytesOf_append, bytesOf_cons, hrun, ih [] hrest, List.nil_append]

theorem bytesOf_unquotePlus :
    bytesOf (unquotePlus cs) = formDecode cs ↔ IsText (formDecode cs) := by
  constructor
  · intro h
    rw [← h]
    exact isText_bytesOf _
  · intro h
    exact bytesOf_unquoteFrom [] _ h

theorem formDecode_eq_nil : formDecode cs = [] ↔ cs = [] := by
  unfold formDecode
  rw [percentDecode_eq_nil, List.map_eq_nil_iff]

theorem unquoteFrom_eq_nil {run : List Char} : unquoteFrom run cs = [] ↔ run = [] ∧ cs = [] := by
  induction cs generalizing run with
  | nil => rw [unquoteFrom, decode_eq_nil, percentDecode_eq_nil, and_iff_left rfl]
  | cons c cs ih =>
    rw [unquoteFrom]
    split
    · rw [ih]
      simp
    · simp

theorem unquotePlus_eq_nil : unquotePlus cs = [] ↔ cs = [] := by
  unfold unquotePlus
  rw [unquoteFrom_eq_nil, List.map_eq_nil_iff, and_iff_right rfl]

/-! ## What was quoted -/

theorem safe_facts : ∀ n < 256, alwaysSafe (UInt8.ofNat n) →
    Char.ofNat n ≠ '%' ∧ plusToSpace (Char.ofNat n) = Char.ofNat n ∧
      String.utf8EncodeChar (Char.ofNat n) = [UInt8.ofNat n] := by
  decide +kernel

theorem hex_facts : ∀ n < 256, plusToSpace (upperHex (n / 16)) = upperHex (n / 16) ∧
    plusToSpace (upperHex (n % 16)) = upperHex (n % 16) ∧
      escaped '%' (upperHex (n / 16)) (upperHex (n % 16)) = some (UInt8.ofNat n) := by
  decide +kernel

theorem formDecode_quoteByte (b : UInt8) (cs : List Char) :
    formDecode (quoteByte b ++ cs) = b :: formDecode cs := by
  have hb : UInt8.ofNat b.toNat = b := UInt8.ofNat_toNat
  unfold formDecode quoteByte
  split
  · rename_i hspace
    rw [hspace]
    exact percentDecode_cons_of_ne (by decide) _
  · split
    · rename_i hsafe
      obtain ⟨hne, hplus, hbyte⟩ := safe_facts _ b.toNat_lt (by rwa [hb])
      rw [List.singleton_append, List.map_cons, hplus, percentDecode_cons_of_ne hne, hbyte, hb,
        List.singleton_append]
    · obtain ⟨hhigh, hlow, hesc⟩ := hex_facts _ b.toNat_lt
      have hsign : plusToSpace '%' = '%' := rfl
      rw [List.cons_append, List.cons_append, List.singleton_append, List.map_cons, List.map_cons,
        List.map_cons, hsign, hhigh, hlow, percentDecode, hesc, hb]

@[simp] theorem formDecode_quotePlus (bs : List UInt8) : formDecode (quotePlus bs) = bs := by
  induction bs with
  | nil => rfl
  | cons b bs ih =>
    show formDecode (quoteByte b ++ quotePlus bs) = b :: bs
    rw [formDecode_quoteByte, ih]

theorem bytesOf_unquotePlus_quotePlus {bs : List UInt8} (h : IsText bs) :
    bytesOf (unquotePlus (quotePlus bs)) = bs := by
  have htext : IsText (formDecode (quotePlus bs)) := by rwa [formDecode_quotePlus]
  rw [bytesOf_unquotePlus.mpr htext, formDecode_quotePlus]

@[simp] theorem unquotePlus_quotePlus (cs : List Char) :
    unquotePlus (quotePlus (bytesOf cs)) = cs :=
  bytesOf_injective (bytesOf_unquotePlus_quotePlus (isText_bytesOf cs))

theorem quoteByte_chars : ∀ n < 256, ∀ c ∈ quoteByte (UInt8.ofNat n), c ≠ '&' ∧ c ≠ '=' := by
  have hall : (List.range 256).all fun n =>
      (quoteByte (UInt8.ofNat n)).all fun c => c ≠ '&' && c ≠ '=' := by decide +kernel
  intro n hn c hc
  have hchar := List.all_eq_true.mp (List.all_eq_true.mp hall n (List.mem_range.mpr hn)) c hc
  simpa using hchar

theorem quotePlus_chars {bs : List UInt8} (h : c ∈ quotePlus bs) : c ≠ '&' ∧ c ≠ '=' := by
  obtain ⟨b, -, hc⟩ := List.mem_flatMap.mp h
  refine quoteByte_chars b.toNat b.toNat_lt c ?_
  rwa [UInt8.ofNat_toNat]

end Esr
