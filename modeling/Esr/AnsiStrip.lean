import Esr.BootBridge

/-! # What is left of terminal output

`AnsiStrip.strip` takes the escape sequences out of what a program writes to its terminal.
Three families of sequences have a body of any length behind their introducer: CSI up to
a final byte, OSC up to BEL or ST, and DCS, SOS, PM and APC up to ST.  Every other ESC takes
one byte with it.

Bytes are a text of bytes and sequences in one way (`Tidy`), and this is what the scanner
goes by: whatever it reads, the result has no ESC but a last one, and stripping it again
changes nothing.  The clause for the bare control bytes never matches, so they stay.
-/
namespace Esr
namespace AnsiStrip
open BootBridge

/-- ESC, DEL and the bytes below the space, but for tab, newline and carriage return. -/
def isControl (b : UInt8) : Bool :=
  b = 0x7F || (b < 0x20 && b ≠ 0x09 && b ≠ 0x0A && b ≠ 0x0D)

/-! ## Sequences -/

/-- The sequences that have a body. -/
inductive Family where
  | csi
  | osc
  | string
deriving DecidableEq

namespace Family

/-- What stands behind ESC: `[`, `]`, or one of `P`, `X`, `^` and `_`. -/
def intros : Family → List UInt8
  | csi => [0x5B]
  | osc => [0x5D]
  | string => [0x50, 0x58, 0x5E, 0x5F]

/-- What a sequence of the family ends with. -/
inductive Ends : Family → Bytes → Prop
  | final {b : UInt8} (h : 0x40 ≤ b ∧ b ≤ 0x7E) : Ends csi [b]
  | bel : Ends osc [0x07]
  | oscSt : Ends osc [0x1B, 0x5C]
  | st : Ends string [0x1B, 0x5C]

/-- No end of the family is in the bytes. -/
def Body (f : Family) (bs : Bytes) : Prop := ∀ t, f.Ends t → ¬t <:+: bs

/-- What is put in the place of a sequence. -/
def separator : Family → Bytes
  | csi => [0x20]
  | _ => []

/-- What is behind an end that the bytes begin with. -/
def atEnd : Family → Bytes → Option Bytes
  | csi, b :: rest => if 0x40 ≤ b ∧ b ≤ 0x7E then some rest else none
  | osc, b :: rest =>
      if b = 0x07 then some rest
      else if b = 0x1B ∧ rest.head? = some 0x5C then some rest.tail else none
  | string, b :: rest => if b = 0x1B ∧ rest.head? = some 0x5C then some rest.tail else none
  | _, [] => none

theorem atEnd_eq_some {f : Family} {bs rest : Bytes} :
    f.atEnd bs = some rest ↔ ∃ t, f.Ends t ∧ bs = t ++ rest := by
  have hst : ∀ {more : Bytes}, more.head? = some 0x5C ∧ more.tail = rest ↔ more = 0x5C :: rest := by
    intro more
    cases more with
    | nil => simp
    | cons c more => simp
  constructor
  · intro h
    rcases f with _ | _ | _ <;> rcases bs with _ | ⟨b, more⟩ <;>
      simp only [atEnd, reduceCtorEq] at h
    · by_cases hb : 0x40 ≤ b ∧ b ≤ 0x7E
      · rw [if_pos hb] at h
        exact ⟨[b], .final hb, by simp [Option.some.inj h]⟩
      · rw [if_neg hb] at h
        cases h
    · by_cases hbel : b = 0x07
      · rw [if_pos hbel] at h
        exact ⟨[0x07], .bel, by simp [hbel, Option.some.inj h]⟩
      · rw [if_neg hbel] at h
        split at h
        · rename_i hesc
          exact ⟨[0x1B, 0x5C], .oscSt, by simp [hesc.1, hst.mp ⟨hesc.2, Option.some.inj h⟩]⟩
        · cases h
    · split at h
      · rename_i hesc
        exact ⟨[0x1B, 0x5C], .st, by simp [hesc.1, hst.mp ⟨hesc.2, Option.some.inj h⟩]⟩
      · cases h
  · rintro ⟨t, ht, rfl⟩
    cases ht with
    | final hb => simp [atEnd, hb]
    | bel => simp [atEnd]
    | oscSt => simp [atEnd]
    | st => simp [atEnd]

theorem body_nil (f : Family) : f.Body [] := by
  intro t ht hmid
  rw [List.infix_nil] at hmid
  subst hmid
  cases ht

theorem body_cons {f : Family} {b : UInt8} {rest : Bytes} :
    f.Body (b :: rest) ↔ f.atEnd (b :: rest) = none ∧ f.Body rest := by
  constructor
  · intro h
    constructor
    · rw [Option.eq_none_iff_forall_ne_some]
      intro more hmore
      obtain ⟨t, ht, heq⟩ := atEnd_eq_some.mp hmore
      exact h t ht ⟨[], more, heq.symm⟩
    · intro t ht hmid
      exact h t ht (hmid.trans (List.suffix_cons b rest).isInfix)
  · rintro ⟨hnone, hrest⟩ t ht hmid
    rcases List.infix_cons_iff.mp hmid with ⟨more, hmore⟩ | hmid
    · rw [atEnd_eq_some.mpr ⟨t, ht, hmore.symm⟩] at hnone
      cases hnone
    · exact hrest t ht hmid

/-- **A complete sequence** ends with the first end behind its introducer. -/
inductive Sequence (f : Family) : Bytes → Prop
  | mk {intro : UInt8} {body t : Bytes} (hintro : intro ∈ f.intros) (hbody : f.Body body)
      (ht : f.Ends t) : Sequence f (0x1B :: intro :: (body ++ t))

/-- What is behind the first end. -/
def dropUntil (f : Family) : Bytes → Bytes
  | [] => []
  | b :: rest => (f.atEnd (b :: rest)).getD (f.dropUntil rest)

theorem dropUntil_body {f : Family} {bs : Bytes} (h : f.Body bs) : f.dropUntil bs = [] := by
  induction bs with
  | nil => rfl
  | cons b rest ih =>
    obtain ⟨hnone, hrest⟩ := body_cons.mp h
    rw [dropUntil, hnone, Option.getD_none, ih hrest]

theorem atEnd_append {f : Family} {b : UInt8} {body t rest : Bytes}
    (h : f.atEnd (b :: body) = none) (ht : f.Ends t) :
    f.atEnd (b :: (body ++ (t ++ rest))) = none := by
  rw [Option.eq_none_iff_forall_ne_some]
  intro more hmore
  obtain ⟨t', ht', heq⟩ := atEnd_eq_some.mp hmore
  have hshort : ∀ more' : Bytes, b :: body = t' ++ more' → False := fun more' hcut => by
    rw [atEnd_eq_some.mpr ⟨t', ht', hcut⟩] at h
    cases h
  rcases body with _ | ⟨c, body⟩
  · -- a second byte of an end is the backslash, and no end begins with it
    cases ht' <;> cases ht <;> simp at heq
    · exact hshort [] (by simp [heq.1])
    · exact hshort [] (by simp [heq.1])
    · exact hshort [] (by simp [heq.1])
  · cases ht' <;> simp at heq
    · exact hshort (c :: body) (by simp [heq.1])
    · exact hshort (c :: body) (by simp [heq.1])
    · exact hshort body (by simp [heq.1, heq.2.1])
    · exact hshort body (by simp [heq.1, heq.2.1])

/-- **The first end is found.** -/
theorem dropUntil_ends {f : Family} {body t : Bytes} (hbody : f.Body body) (ht : f.Ends t)
    (rest : Bytes) : f.dropUntil (body ++ (t ++ rest)) = rest := by
  induction body with
  | nil =>
    rcases t with _ | ⟨b, t⟩
    · cases ht
    · have hend : f.atEnd (b :: (t ++ rest)) = some rest := atEnd_eq_some.mpr ⟨b :: t, ht, rfl⟩
      rw [List.nil_append, List.cons_append, dropUntil, hend, Option.getD_some]
  | cons b body ih =>
    obtain ⟨hnone, hrest⟩ := body_cons.mp hbody
    rw [List.cons_append, dropUntil, atEnd_append hnone ht, Option.getD_none, ih hrest]

theorem body_or_ends (f : Family) (bs : Bytes) :
    f.Body bs ∨ ∃ body t rest, bs = body ++ (t ++ rest) ∧ f.Body body ∧ f.Ends t := by
  induction bs with
  | nil => exact .inl f.body_nil
  | cons b more ih =>
    cases hend : f.atEnd (b :: more) with
    | some rest =>
      obtain ⟨t, ht, heq⟩ := atEnd_eq_some.mp hend
      exact .inr ⟨[], t, rest, heq, f.body_nil, ht⟩
    | none =>
      rcases ih with hbody | ⟨body, t, rest, rfl, hbody, ht⟩
      · exact .inl (body_cons.mpr ⟨hend, hbody⟩)
      · refine .inr ⟨b :: body, t, rest, rfl, body_cons.mpr ⟨?_, hbody⟩, ht⟩
        rw [Option.eq_none_iff_forall_ne_some]
        intro r hr
        obtain ⟨t', ht', heq⟩ := atEnd_eq_some.mp hr
        have hfound : f.atEnd (b :: (body ++ (t ++ rest))) = some (r ++ (t ++ rest)) := by
          refine atEnd_eq_some.mpr ⟨t', ht', ?_⟩
          rw [← List.cons_append, heq, List.append_assoc]
        rw [hfound] at hend
        cases hend

end Family

/-! ## A text of bytes and sequences -/

/-- **What the scanner reads**: single bytes, complete sequences and two-byte ones, and at the
end perhaps a sequence without an end, or a lone ESC.  The single bytes are those of the
output, and DEL. -/
inductive Reads : Bytes → Bytes → Prop
  | nil : Reads [] []
  | esc : Reads [0x1B] [0x1B]
  | byte {b : UInt8} {rest out : Bytes} (hesc : b ≠ 0x1B) (hdel : b ≠ 0x7F)
      (h : Reads rest out) : Reads (b :: rest) (b :: out)
  | del {rest out : Bytes} (h : Reads rest out) : Reads (0x7F :: rest) out
  | sequence {f : Family} {seq rest out : Bytes} (hseq : f.Sequence seq) (h : Reads rest out) :
      Reads (seq ++ rest) (f.separator ++ out)
  | unended {f : Family} {intro : UInt8} {body : Bytes} (hintro : intro ∈ f.intros)
      (hbody : f.Body body) : Reads (0x1B :: intro :: body) f.separator
  | twoByte {next : UInt8} {rest out : Bytes} (hnext : ∀ f : Family, next ∉ f.intros)
      (h : Reads rest out) : Reads (0x1B :: next :: rest) out

/-! ## The scanner -/

theorem dropUntilCsiFinal_eq (bs : Bytes) : dropUntilCsiFinal bs = Family.csi.dropUntil bs := by
  induction bs with
  | nil => rfl
  | cons b rest ih =>
    by_cases hb : 0x40 ≤ b ∧ b ≤ 0x7E <;> simp [dropUntilCsiFinal, Family.dropUntil, Family.atEnd, hb, ih]

theorem dropUntilStOrBel_eq (bs : Bytes) : dropUntilStOrBel bs = Family.osc.dropUntil bs := by
  induction bs with
  | nil => rfl
  | cons b rest ih =>
    by_cases hbel : b = 0x07
    · simp [dropUntilStOrBel, Family.dropUntil, Family.atEnd, hbel]
    · by_cases hst : b = 0x1B ∧ rest.head? = some 0x5C <;>
        simp [dropUntilStOrBel, Family.dropUntil, Family.atEnd, hbel, hst, ih]

theorem dropUntilSt_eq (bs : Bytes) : dropUntilSt bs = Family.string.dropUntil bs := by
  induction bs with
  | nil => rfl
  | cons b rest ih =>
    by_cases hst : b = 0x1B ∧ rest.head? = some 0x5C <;>
      simp [dropUntilSt, Family.dropUntil, Family.atEnd, hst, ih]

theorem strip_nil : strip [] = [] := by rw [strip]

theorem strip_esc : strip [0x1B] = [0x1B] := by
  rw [strip]
  rfl

theorem strip_cons {b : UInt8} (hesc : b ≠ 0x1B) (rest : Bytes) :
    strip (b :: rest) = (if b = 0x7F then [] else [b]) ++ strip rest := by
  rcases rest with _ | ⟨next, rest⟩
  · rw [strip_nil, List.append_nil, strip]
  · by_cases hdel : b = 0x7F <;> simp [strip, hesc, hdel]

theorem strip_intro {f : Family} {intro : UInt8} (h : intro ∈ f.intros) (rest : Bytes) :
    strip (0x1B :: intro :: rest) = f.separator ++ strip (f.dropUntil rest) := by
  rw [strip, if_pos rfl, dropUntilCsiFinal_eq, dropUntilStOrBel_eq, dropUntilSt_eq]
  rcases f with _ | _ | _ <;> simp only [Family.intros, List.mem_cons, List.not_mem_nil, or_false] at h
  · subst h
    rfl
  · subst h
    rfl
  · rcases h with rfl | rfl | rfl | rfl <;> rfl

theorem strip_twoByte {next : UInt8} (h : ∀ f : Family, next ∉ f.intros) (rest : Bytes) :
    strip (0x1B :: next :: rest) = strip rest := by
  have hcsi := h .csi
  have hosc := h .osc
  have hstring := h .string
  simp only [Family.intros, List.mem_cons, List.not_mem_nil, or_false] at hcsi hosc hstring
  rw [strip, if_pos rfl, if_neg hcsi, if_neg hosc, if_neg hstring]

theorem strip_sequence {f : Family} {seq : Bytes} (h : f.Sequence seq) (rest : Bytes) :
    strip (seq ++ rest) = f.separator ++ strip rest := by
  cases h with
  | mk hintro hbody ht =>
    rw [List.cons_append, List.cons_append, List.append_assoc, strip_intro hintro,
      Family.dropUntil_ends hbody ht]

/-- **The scanner follows the reading.** -/
theorem strip_of_reads {bs out : Bytes} (h : Reads bs out) : strip bs = out := by
  induction h with
  | nil => exact strip_nil
  | esc => exact strip_esc
  | byte hesc hdel _ ih => rw [strip_cons hesc, if_neg hdel, ih, List.singleton_append]
  | del _ ih => rw [strip_cons (by decide), if_pos rfl, ih, List.nil_append]
  | sequence hseq _ ih => rw [strip_sequence hseq, ih]
  | unended hintro hbody =>
    rw [strip_intro hintro, Family.dropUntil_body hbody, strip_nil, List.append_nil]
  | twoByte hnext _ ih => rw [strip_twoByte hnext, ih]

theorem reads_strip (bs : Bytes) : Reads bs (strip bs) := by
  induction hlength : bs.length using Nat.strong_induction_on generalizing bs with
  | _ n ih =>
    subst hlength
    rcases bs with _ | ⟨b, rest⟩
    · rw [strip_nil]
      exact .nil
    · by_cases hesc : b = 0x1B
      · subst hesc
        rcases rest with _ | ⟨next, rest⟩
        · rw [strip_esc]
          exact .esc
        · by_cases hintro : ∃ f : Family, next ∈ f.intros
          · obtain ⟨f, hintro⟩ := hintro
            rcases f.body_or_ends rest with hbody | ⟨body, t, rest, rfl, hbody, ht⟩
            · rw [strip_intro hintro, Family.dropUntil_body hbody, strip_nil, List.append_nil]
              exact .unended hintro hbody
            · have hseq : f.Sequence (0x1B :: next :: (body ++ t)) := .mk hintro hbody ht
              have hrest := ih rest.length (by simp only [List.length_cons, List.length_append]; omega)
                rest rfl
              have hread := Reads.sequence hseq hrest
              rw [← strip_sequence hseq, List.cons_append, List.cons_append,
                List.append_assoc] at hread
              exact hread
          · rw [not_exists] at hintro
            rw [strip_twoByte hintro]
            exact .twoByte hintro (ih rest.length (by simp only [List.length_cons]; omega) rest rfl)
      · have hrest := ih rest.length (by simp only [List.length_cons]; omega) rest rfl
        by_cases hdel : b = 0x7F
        · subst hdel
          rw [strip_cons hesc, if_pos rfl, List.nil_append]
          exact .del hrest
        · rw [strip_cons hesc, if_neg hdel, List.singleton_append]
          exact .byte hesc hdel hrest

/-! ## What is left -/

/-- The bytes that are no part of a sequence, less DEL, are none to be stripped. -/
inductive Tidy : Bytes → Prop
  | nil : Tidy []
  | byte {b : UInt8} {rest : Bytes} (hb : isControl b = false) (h : Tidy rest) : Tidy (b :: rest)
  | del {rest : Bytes} (h : Tidy rest) : Tidy (0x7F :: rest)
  | sequence {f : Family} {seq rest : Bytes} (hseq : f.Sequence seq) (h : Tidy rest) :
      Tidy (seq ++ rest)
  | unended {f : Family} {intro : UInt8} {body : Bytes} (hintro : intro ∈ f.intros)
      (hbody : f.Body body) : Tidy (0x1B :: intro :: body)
  | twoByte {next : UInt8} {rest : Bytes} (hnext : ∀ f : Family, next ∉ f.intros)
      (h : Tidy rest) : Tidy (0x1B :: next :: rest)

theorem not_esc_of_clean {b : UInt8} (h : isControl b = false) : b ≠ 0x1B ∧ b ≠ 0x7F := by
  constructor <;> rintro rfl <;> cases h

theorem separator_clean (f : Family) : ∀ b ∈ f.separator, isControl b = false := by
  cases f <;> simp [Family.separator, isControl]

theorem clean_iff_tidy {bs : Bytes} : (∀ b ∈ strip bs, isControl b = false) ↔ Tidy bs := by
  constructor
  · have hreads := reads_strip bs
    generalize strip bs = out at hreads
    intro hclean
    induction hreads with
    | nil => exact .nil
    | esc => cases hclean 0x1B List.mem_cons_self
    | byte _ _ _ ih =>
      obtain ⟨hb, hrest⟩ := List.forall_mem_cons.mp hclean
      exact .byte hb (ih hrest)
    | del _ ih => exact .del (ih hclean)
    | sequence hseq _ ih =>
      exact .sequence hseq (ih fun b hb => hclean b (List.mem_append_right _ hb))
    | unended hintro hbody => exact .unended hintro hbody
    | twoByte hnext _ ih => exact .twoByte hnext (ih hclean)
  · intro h
    induction h with
    | nil => simp [strip_nil]
    | byte hb _ ih =>
      obtain ⟨hesc, hdel⟩ := not_esc_of_clean hb
      rw [strip_cons hesc, if_neg hdel]
      exact List.forall_mem_cons.mpr ⟨hb, ih⟩
    | del _ ih =>
      rw [strip_cons (by decide), if_pos rfl]
      exact ih
    | @sequence f seq rest hseq _ ih =>
      rw [strip_sequence hseq]
      exact List.forall_mem_append.mpr ⟨separator_clean f, ih⟩
    | @unended f intro body hintro hbody =>
      rw [strip_of_reads (.unended hintro hbody)]
      exact separator_clean f
    | twoByte hnext _ ih =>
      rw [strip_twoByte hnext]
      exact ih

theorem strip_append {a : Bytes} (ha : 0x1B ∉ a) (rest : Bytes) :
    strip (a ++ rest) = strip a ++ strip rest := by
  induction a with
  | nil => rw [strip_nil, List.nil_append, List.nil_append]
  | cons b a ih =>
    rw [List.mem_cons, not_or] at ha
    have hesc : b ≠ 0x1B := fun heq => ha.1 heq.symm
    rw [List.cons_append, strip_cons hesc, strip_cons hesc, ih ha.2, List.append_assoc]

theorem strip_last (bs : Bytes) : ∃ out last, strip bs = out ++ last ∧
    (∀ b ∈ out, b ≠ 0x1B ∧ b ≠ 0x7F) ∧ (last = [] ∨ last = [0x1B]) := by
  have hreads := reads_strip bs
  generalize strip bs = all at hreads
  have hseparator (f : Family) : ∀ b ∈ f.separator, b ≠ 0x1B ∧ b ≠ 0x7F := fun b hb =>
    not_esc_of_clean (separator_clean f b hb)
  induction hreads with
  | nil => exact ⟨[], [], rfl, by simp, .inl rfl⟩
  | esc => exact ⟨[], [0x1B], rfl, by simp, .inr rfl⟩
  | @byte b _ _ hesc hdel _ ih =>
    obtain ⟨out, last, rfl, hout, hlast⟩ := ih
    exact ⟨b :: out, last, rfl, List.forall_mem_cons.mpr ⟨⟨hesc, hdel⟩, hout⟩, hlast⟩
  | del _ ih => exact ih
  | @sequence f _ _ _ _ _ ih =>
    obtain ⟨out, last, rfl, hout, hlast⟩ := ih
    exact ⟨f.separator ++ out, last, by rw [List.append_assoc],
      List.forall_mem_append.mpr ⟨hseparator f, hout⟩, hlast⟩
  | @unended f _ _ _ _ => exact ⟨f.separator, [], by simp, hseparator f, .inl rfl⟩
  | twoByte _ _ ih => exact ih

theorem strip_strip (bs : Bytes) : strip (strip bs) = strip bs := by
  obtain ⟨out, last, heq, hout, hlast⟩ := strip_last bs
  have hesc : 0x1B ∉ out := fun hmem => (hout _ hmem).1 rfl
  rw [heq, strip_append hesc, strip_plain hout]
  rcases hlast with rfl | rfl
  · rw [strip_nil]
  · rw [strip_esc]

/-- What is expected of the output for these bytes: it is clean; bytes that are clean
already are left alone; another pass changes nothing; and a complete sequence behind the
bytes is cut out and replaced by its separator. -/
structure Sanitised (bs : Bytes) : Prop where
  clean : ∀ b ∈ strip bs, isControl b = false
  unchanged : (∀ b ∈ bs, isControl b = false) → strip bs = bs
  idempotent : strip (strip bs) = strip bs
  cut : ∀ (f : Family) (seq more : Bytes), f.Sequence seq → 0x1B ∉ bs → 0x1B ∉ more →
    strip (bs ++ seq ++ more) = strip bs ++ f.separator ++ strip more

/-- **Only the bytes that stand by themselves can be left in the output**: the bare control
bytes and a last ESC. -/
theorem sanitised_iff_tidy (bs : Bytes) : Sanitised bs ↔ Tidy bs := by
  refine ⟨fun h => clean_iff_tidy.mp h.clean, fun h => ⟨clean_iff_tidy.mpr h, ?_, strip_strip bs, ?_⟩⟩
  · intro hclean
    exact strip_plain fun b hb => not_esc_of_clean (hclean b hb)
  · intro f seq more hseq hbs _
    rw [List.append_assoc, strip_append hbs, strip_sequence hseq, List.append_assoc]

/-- BEL by itself is not dropped. -/
theorem not_sanitised_bel : ¬∀ bs, Sanitised bs := by
  intro hall
  have hbel : strip [0x07] = [0x07] := strip_of_reads (.byte (by decide) (by decide) .nil)
  have hclean := (hall [0x07]).clean 0x07 (by rw [hbel]; exact List.mem_cons_self)
  cases hclean

end AnsiStrip
end Esr
