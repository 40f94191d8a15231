import Mathlib.Data.List.Basic

/-! # Texts and their bytes

A text has one sequence of UTF-8 bytes, and a sequence of bytes has at most one
text.  This module has both directions: `bytesOf`, and `decode`, which puts U+FFFD
in place of every maximal part that can begin no character, so that it reads every
sequence.  The sequences that `decode` reads without a replacement, the
ones with `IsText`, are exactly those of texts (`isText_iff`).

What readers of percent escapes need is the last part: where a sequence is cut in
front of a character's first byte, both parts are texts if the whole is
(`IsText.cut`).
-/
namespace Esr

/-- The UTF-8 bytes of a text. -/
def bytesOf (cs : List Char) : List UInt8 := cs.flatMap String.utf8EncodeChar

/-- The second bytes that can follow the first byte of a character of three or four
bytes. -/
def secondOk (b b' : UInt8) : Bool :=
  if b = 0xE0 then 0xA0 ≤ b' && b' ≤ 0xBF
  else if b = 0xED then 0x80 ≤ b' && b' ≤ 0x9F
  else if b = 0xF0 then 0x90 ≤ b' && b' ≤ 0xBF
  else if b = 0xF4 then 0x80 ≤ b' && b' ≤ 0x8F
  else 0xE1 ≤ b && b ≤ 0xF3 && 0x80 ≤ b' && b' ≤ 0xBF

/-- How many bytes one U+FFFD stands for, where no character begins: those that a
character could have begun with. -/
def badLength : List UInt8 → Nat
  | b :: b' :: bs =>
      if secondOk b b' then
        match bs with
        | b'' :: _ => if 0xF0 ≤ b && 0x80 ≤ b'' && b'' ≤ 0xBF then 3 else 2
        | [] => 2
      else 1
  | _ => 1

/-- The text read from here on, after skipping bytes that are already read. -/
def decodeFrom : Nat → List UInt8 → List Char
  | _, [] => []
  | n + 1, _ :: bs => decodeFrom n bs
  | 0, b :: bs =>
      match (b :: bs).toByteArray.utf8DecodeChar? 0 with
      | some c => c :: decodeFrom (c.utf8Size - 1) bs
      | none => '\uFFFD' :: decodeFrom (badLength (b :: bs) - 1) bs

/-- `bytes.decode("utf-8", "replace")`. -/
def decode (bs : List UInt8) : List Char := decodeFrom 0 bs

/-- The bytes of some text. -/
def IsText (bs : List UInt8) : Prop := bytesOf (decode bs) = bs

instance IsText.decidable (bs : List UInt8) : Decidable (IsText bs) :=
  inferInstanceAs (Decidable (bytesOf (decode bs) = bs))

example : decode [0x61, 0xE2, 0x82, 0x61, 0xF0, 0x9F, 0x92] = ['a', '\uFFFD', 'a', '\uFFFD'] := by
  decide +kernel

/-! ## Encoding -/

@[simp] theorem bytesOf_nil : bytesOf [] = [] := rfl

theorem bytesOf_cons (c : Char) (cs : List Char) :
    bytesOf (c :: cs) = String.utf8EncodeChar c ++ bytesOf cs := List.flatMap_cons

theorem bytesOf_append (a b : List Char) : bytesOf (a ++ b) = bytesOf a ++ bytesOf b :=
  List.flatMap_append

theorem utf8EncodeChar_ascii {c : Char} (h : c.toNat < 128) :
    String.utf8EncodeChar c = [UInt8.ofNat c.toNat] := by
  have hle : c.val.toNat ≤ 0x7f := Nat.le_of_lt_succ h
  unfold String.utf8EncodeChar
  rw [if_pos hle]
  rfl

theorem length_bytesOf_ascii {cs : List Char} (hcs : ∀ c ∈ cs, c.toNat < 128) :
    (bytesOf cs).length = cs.length := by
  induction cs with
  | nil => rfl
  | cons c cs ih =>
    rw [bytesOf_cons, utf8EncodeChar_ascii (hcs c List.mem_cons_self), List.length_append,
      ih fun d hd => hcs d (List.mem_cons_of_mem _ hd), List.length_singleton, List.length_cons,
      Nat.add_comm]

theorem utf8EncodeChar_cons (c : Char) : ∃ b bs, String.utf8EncodeChar c = b :: bs ∧
    b.IsUTF8FirstByte ∧ (∀ b' ∈ bs, ¬b'.IsUTF8FirstByte) ∧ bs.length = c.utf8Size - 1 := by
  have hbyte := @UInt8.isUTF8FirstByte_getElem_utf8EncodeChar c
  have hlen := String.length_utf8EncodeChar c
  cases he : String.utf8EncodeChar c with
  | nil => exact absurd he String.utf8EncodeChar_ne_nil
  | cons b bs =>
    simp only [he] at hbyte hlen
    refine ⟨b, bs, rfl, (@hbyte 0 (by simp)).mpr rfl, fun b' hb' hfirst => ?_, ?_⟩
    · obtain ⟨i, hi, rfl⟩ := List.getElem_of_mem hb'
      have hsucc : i + 1 = 0 := (@hbyte (i + 1) (Nat.succ_lt_succ hi)).mp hfirst
      omega
    · rw [← hlen, List.length_cons, Nat.add_sub_cancel]

/-! ## Decoding what was encoded -/

theorem decodeFrom_skip (n : Nat) (a b : List UInt8) (h : a.length = n) :
    decodeFrom n (a ++ b) = decodeFrom 0 b := by
  induction a generalizing n with
  | nil => rw [← h, List.nil_append, List.length_nil]
  | cons x a ih =>
    obtain ⟨n, rfl⟩ : ∃ m, n = m + 1 := ⟨a.length, h.symm⟩
    rw [List.cons_append, decodeFrom, ih n (Nat.succ.inj h)]

theorem decode_encoded (c : Char) (bs : List UInt8) :
    decode (String.utf8EncodeChar c ++ bs) = c :: decode bs := by
  have hread : ((String.utf8EncodeChar c ++ bs).toByteArray).utf8DecodeChar? 0 = some c := by
    rw [List.toByteArray_append, ByteArray.utf8DecodeChar?_utf8EncodeChar_append]
  obtain ⟨b, rest, he, -, -, hlen⟩ := utf8EncodeChar_cons c
  rw [he, List.cons_append] at hread ⊢
  rw [decode, decodeFrom, hread]
  exact congrArg (c :: ·) (decodeFrom_skip _ rest bs hlen)

theorem decode_bytesOf_append (cs : List Char) (bs : List UInt8) :
    decode (bytesOf cs ++ bs) = cs ++ decode bs := by
  induction cs with
  | nil => rfl
  | cons c cs ih => rw [bytesOf_cons, List.append_assoc, decode_encoded, ih, List.cons_append]

@[simp] theorem decode_bytesOf (cs : List Char) : decode (bytesOf cs) = cs := by
  have h : decode (bytesOf cs ++ []) = cs ++ [] := decode_bytesOf_append cs []
  rwa [List.append_nil, List.append_nil] at h

theorem bytesOf_injective {a b : List Char} (h : bytesOf a = bytesOf b) : a = b := by
  rw [← decode_bytesOf a, h, decode_bytesOf]

theorem decode_eq_nil {bs : List UInt8} : decode bs = [] ↔ bs = [] := by
  constructor
  · intro h
    cases bs with
    | nil => rfl
    | cons b bs =>
      unfold decode decodeFrom at h
      split at h
      · cases h
      · cases h
  · rintro rfl
    rfl

theorem bytesOf_eq_nil {cs : List Char} : bytesOf cs = [] ↔ cs = [] := by
  rw [← decode_eq_nil, decode_bytesOf]

/-! ## The bytes of texts -/

theorem isText_bytesOf (cs : List Char) : IsText (bytesOf cs) :=
  congrArg bytesOf (decode_bytesOf cs)

theorem isText_iff {bs : List UInt8} : IsText bs ↔ ∃ cs, bs = bytesOf cs := by
  constructor
  · intro h
    exact ⟨decode bs, h.symm⟩
  · rintro ⟨cs, rfl⟩
    exact isText_bytesOf cs

theorem IsText.append {a b : List UInt8} (ha : IsText a) (hb : IsText b) : IsText (a ++ b) := by
  rw [isText_iff]
  exact ⟨decode a ++ decode b, by rw [bytesOf_append, ha, hb]⟩

theorem isText_utf8EncodeChar (c : Char) : IsText (String.utf8EncodeChar c) :=
  isText_iff.mpr ⟨[c], by rw [bytesOf_cons, bytesOf_nil, List.append_nil]⟩

theorem cut_bytesOf {cs : List Char} {a b : List UInt8} {x : UInt8}
    (hx : x.IsUTF8FirstByte) (h : bytesOf cs = a ++ x :: b) : IsText a ∧ IsText (x :: b) := by
  induction cs generalizing a with
  | nil => exact absurd h.symm (List.append_ne_nil_of_right_ne_nil _ (List.cons_ne_nil _ _))
  | cons c cs ih =>
    cases a with
    | nil =>
      rw [List.nil_append] at h
      exact ⟨isText_bytesOf [], h ▸ isText_bytesOf (c :: cs)⟩
    | cons y a =>
      obtain ⟨b', rest, he, -, hrest, -⟩ := utf8EncodeChar_cons c
      rw [bytesOf_cons, he, List.cons_append, List.cons_append] at h
      obtain ⟨rfl, htail⟩ := List.cons.inj h
      rcases List.append_eq_append_iff.mp htail with ⟨m, rfl, htexts⟩ | ⟨m, hbytes, hm⟩
      · -- the cut is behind the first character, whose bytes are those of a text
        obtain ⟨hleft, hright⟩ := ih htexts
        refine ⟨?_, hright⟩
        have hfirst : IsText (String.utf8EncodeChar c ++ m) :=
          (isText_utf8EncodeChar c).append hleft
        rwa [he, List.cons_append] at hfirst
      · -- the cut is inside the first character, where no first byte stands
        cases m with
        | nil =>
          rw [List.nil_append] at hm
          rw [List.append_nil] at hbytes
          subst hbytes
          have hfirst : IsText (String.utf8EncodeChar c) := isText_utf8EncodeChar c
          rw [he] at hfirst
          exact ⟨hfirst, hm ▸ isText_bytesOf cs⟩
        | cons z m =>
          rw [List.cons_append] at hm
          obtain ⟨rfl, -⟩ := List.cons.inj hm
          have hz : x ∈ rest := by
            rw [hbytes]
            exact List.mem_append_right _ List.mem_cons_self
          exact absurd hx (hrest x hz)

theorem IsText.cut {a b : List UInt8} {x : UInt8} (h : IsText (a ++ x :: b))
    (hx : x.IsUTF8FirstByte) : IsText a ∧ IsText (x :: b) :=
  cut_bytesOf hx h

theorem isText_around {a b : List UInt8} (c : Char) :
    IsText (a ++ (String.utf8EncodeChar c ++ b)) ↔ IsText a ∧ IsText b := by
  constructor
  · intro h
    obtain ⟨x, rest, he, hx, -, -⟩ := utf8EncodeChar_cons c
    rw [he, List.cons_append] at h
    obtain ⟨ha, hrest⟩ := h.cut hx
    refine ⟨ha, ?_⟩
    rw [← List.cons_append, ← he] at hrest
    have hdec := hrest
    rw [IsText, decode_encoded, bytesOf_cons] at hdec
    exact List.append_cancel_left hdec
  · rintro ⟨ha, hb⟩
    exact ha.append ((isText_utf8EncodeChar c).append hb)

end Esr
