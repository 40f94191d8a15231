import Esr.YamlSafe
import Esr.YamlWeight

/-! # No other value is read back

Of a value that is not safe the written lines say less than the value weighs, or some
line cannot be read.  The second is so for a text with a newline: what stands behind its
last newline has a closing quote without an opening one.
-/
namespace Esr
namespace Yaml
namespace Writer
open Reader

/-! ## Quotes without a beginning -/

/-- What may follow a closing quote here: nothing with a quote in it, or an entry's
colon and one text between quotes. -/
def Follows (t : List Char) : Prop :=
  '"' ∉ t ∨ ∃ u, t = ':' :: ' ' :: '"' :: (esc u ++ ['"'])

theorem follows_nil : Follows [] := .inl (by simp)

theorem quoted_mem {cs w r : List Char} (h : Quoted cs w r) : '"' ∈ cs := by
  induction h with
  | close r => exact List.mem_cons_self
  | long _ _ ih => simp [ih]
  | short _ _ _ ih => simp [ih]
  | other _ _ _ _ ih => exact List.mem_cons_of_mem _ ih

theorem quotedRest_none {cs : List Char} (h : '"' ∉ cs) : quotedRest cs = none := by
  rw [Option.eq_none_iff_forall_not_mem]
  rintro ⟨w, r⟩ hread
  exact h (quoted_mem (quotedRest_iff.mp hread))

theorem quotedRest_follows {t r after : List Char} (ht : Follows t)
    (h : quotedRest t = some (r, after)) : ∃ u, after = esc u ++ ['"'] := by
  rcases ht with ht | ⟨u, rfl⟩
  · rw [quotedRest_none ht] at h
    cases h
  · have hrest : quotedRest (':' :: ' ' :: '"' :: (esc u ++ ['"'])) =
        some ([':', ' '], esc u ++ ['"']) := by
      rw [quotedRest_other (by decide) (by decide), quotedRest_other (by decide) (by decide),
        quotedRest]
      rfl
    rw [hrest] at h
    obtain ⟨-, rfl⟩ := Prod.mk.inj (Option.some.inj h)
    exact ⟨u, rfl⟩

theorem follows_strip {t : List Char} (ht : Follows t) : Follows (t.rdropWhile isBlank) := by
  rcases ht with ht | ⟨u, rfl⟩
  · exact .inl fun hc => ht ((List.rdropWhile_prefix isBlank t).mem hc)
  · refine .inr ⟨u, ?_⟩
    rw [show ':' :: ' ' :: '"' :: (esc u ++ ['"']) = (':' :: ' ' :: '"' :: esc u) ++ ['"'] by simp,
      List.rdropWhile_concat_neg _ _ _ (by decide)]

theorem dropWhile_esc (u t : List Char) : (esc u ++ '"' :: t).dropWhile (· == ' ') =
    esc (u.dropWhile (· == ' ')) ++ '"' :: t := by
  induction u with
  | nil => rfl
  | cons c u ih =>
    by_cases hc : c = ' '
    · subst hc
      rw [esc_other (by decide), List.cons_append, List.dropWhile_cons_of_pos rfl, ih,
        List.dropWhile_cons_of_pos rfl]
    · rw [@List.dropWhile_cons_of_neg _ (· == ' ') c u (by simpa using hc)]
      by_cases hquote : c = '"'
      · subst hquote
        rw [esc_quote]
        rfl
      · rw [esc_other hquote, List.cons_append,
          @List.dropWhile_cons_of_neg _ (· == ' ') c _ (by simpa using hc)]

theorem rdropWhile_visible {c : Char} (hc : isBlank c = false) (a t : List Char) :
    (a ++ c :: t).rdropWhile isBlank = a ++ c :: t.rdropWhile isBlank := by
  have hreverse : (a ++ c :: t).reverse = t.reverse ++ c :: a.reverse := by simp
  have hvisible : (c :: a.reverse).dropWhile isBlank = c :: a.reverse :=
    List.dropWhile_cons_of_neg (by simp [hc])
  rw [List.rdropWhile, List.rdropWhile, hreverse, List.dropWhile_append]
  split
  · rename_i hnone
    rw [hvisible, List.isEmpty_iff.mp hnone]
    simp
  · simp

theorem rdropWhile_quote (a t : List Char) : (a ++ '"' :: t).rdropWhile isBlank =
    a ++ '"' :: t.rdropWhile isBlank := rdropWhile_visible (by decide) a t

theorem strip_open (u t : List Char) : strip (esc u ++ '"' :: t) =
    esc (u.dropWhile (· == ' ')) ++ '"' :: t.rdropWhile isBlank := by
  rw [strip, dropWhile_esc, rdropWhile_quote]

section
variable {P : Profile} (hquote : P.plain '"' = false) {t : List Char} (ht : Follows t)

include hquote in
theorem plain_quote {cs : List Char} {v : Value} (hhead : ∀ rest, cs ≠ '"' :: rest)
    (h : scalar P cs = some v) : '"' ∉ cs := by
  intro hc
  rw [scalar] at h
  · split at h
    · rename_i hplain
      have hall := (Bool.and_eq_true_iff.mp hplain).2
      rw [List.all_eq_true.mp hall _ hc] at hquote
      cases hquote
    · cases h
  · exact hhead

theorem esc_head {c : Char} {u t rest : List Char} : esc (c :: u) ++ t ≠ '"' :: rest := by
  by_cases hc : c = '"'
  · subst hc
    simp [esc_quote]
  · rw [esc_other hc, List.cons_append]
    exact fun heq => hc (List.cons.inj heq).1

include hquote ht in
theorem flow_open (u : List Char) : flow P (esc u ++ '"' :: t) = none := by
  have hmem : '"' ∈ strip (esc u ++ '"' :: t) := by simp [strip_open]
  have hscalar : scalar P (strip (esc u ++ '"' :: t)) = none := by
    rw [strip_open]
    cases u.dropWhile (· == ' ') with
    | nil =>
      rw [esc_nil, List.nil_append, scalar]
      split
      · rename_i s hquoted
        obtain ⟨u', hu'⟩ := quotedRest_follows (follows_strip ht) hquoted
        simp at hu'
      · rfl
    | cons c u' =>
      rw [Option.eq_none_iff_forall_not_mem]
      intro v hv
      exact plain_quote hquote (fun _ => esc_head) hv (by simp)
  rw [flow, if_neg, if_neg, hscalar]
  · intro heq
    rw [heq] at hmem
    simp at hmem
  · intro heq
    rw [heq] at hmem
    simp at hmem

theorem cutColon_open {u t key value : List Char} (h : cutColon (esc u ++ '"' :: t) = some (key, value))
    (hkey : '"' ∉ key) : ∃ u', value = esc u' ++ '"' :: t := by
  induction u generalizing key with
  | nil =>
    rcases cutColon_cons h with ⟨hc, -⟩ | ⟨key, rfl, -⟩
    · exact absurd hc (by decide)
    · exact absurd List.mem_cons_self hkey
  | cons c u ih =>
    by_cases hc : c = '"'
    · subst hc
      rw [esc_quote, List.cons_append, List.cons_append] at h
      rcases cutColon_cons h with ⟨hc, -⟩ | ⟨key, rfl, hcut⟩
      · exact absurd hc (by decide)
      · rcases cutColon_cons hcut with ⟨hc, -⟩ | ⟨key, rfl, -⟩
        · exact absurd hc (by decide)
        · exact absurd (List.mem_cons_of_mem _ List.mem_cons_self) hkey
    · rw [esc_other hc, List.cons_append] at h
      rcases cutColon_cons h with ⟨-, -, -, rfl⟩ | ⟨key, rfl, hcut⟩
      · exact ⟨u, rfl⟩
      · exact ih hcut fun hmem => hkey (List.mem_cons_of_mem _ hmem)

include hquote in
theorem keyOf_quote {key : List Char} {k : Value} (hhead : ∀ rest, key ≠ '"' :: rest)
    (h : keyOf P key = some k) : '"' ∉ key := by
  intro hc
  obtain ⟨a, b, rfl⟩ := List.append_of_mem hc
  rw [keyOf, rdropWhile_quote] at h
  split at h
  · refine plain_quote hquote ?_ h (by simp)
    intro rest heq
    cases a with
    | nil => exact hhead b rfl
    | cons c a =>
      obtain ⟨rfl, -⟩ := List.cons.inj heq
      exact hhead _ rfl
  · cases h

include hquote ht in
theorem key_open {u key rest : List Char} {k : Value}
    (hcut : cutKey (esc u ++ '"' :: t) = some (key, rest)) (hkey : keyOf P key = some k) :
    ∃ u' t', rest = esc u' ++ '"' :: t' ∧ Follows t' := by
  cases u with
  | nil =>
    rw [esc_nil, List.nil_append, cutKey] at hcut
    split at hcut
    · rename_i s after hquoted
      split at hcut
      · rename_i gap value hcolon
        split at hcut
        · rename_i hblank
          obtain ⟨-, rfl⟩ := Prod.mk.inj (Option.some.inj hcut)
          obtain ⟨u', rfl⟩ := quotedRest_follows ht hquoted
          have hgap : '"' ∉ gap := fun hc => by
            have hc := List.all_eq_true.mp hblank _ hc
            cases hc
          obtain ⟨u'', hrest⟩ := cutColon_open hcolon hgap
          exact ⟨u'', [], hrest, follows_nil⟩
        · cases hcut
      · cases hcut
    · cases hcut
  | cons c u =>
    rw [cutKey] at hcut
    · have hhead : ∀ rest, key ≠ '"' :: rest := by
        rintro x rfl
        exact esc_head (eq_of_cutColon hcut)
      obtain ⟨u', hrest⟩ := cutColon_open hcut (keyOf_quote hquote hhead hkey)
      exact ⟨u', t, hrest, ht⟩
    · exact fun _ => esc_head

include hquote ht in
/-- **A closing quote only** makes a line that is not read. -/
theorem not_says_open {u : List Char} {m : Nat} : ¬Says P (esc u ++ '"' :: t) m := by
  suffices hcs : ∀ cs, Says P cs m → ∀ u, cs = esc u ++ '"' :: t → False from
    fun h => hcs _ h u rfl
  intro cs h
  have hdash : ∀ u, isDash (esc u ++ '"' :: t) = true → ∃ u',
      afterDash (esc u ++ '"' :: t) = esc u' ++ '"' :: t := by
    intro u hdash
    cases u with
    | nil => cases hdash
    | cons c u =>
      by_cases hc : c = '"'
      · subst hc
        rw [esc_quote] at hdash
        cases hdash
      · refine ⟨u.dropWhile (· == ' '), ?_⟩
        rw [esc_other hc, List.cons_append, afterDash, List.drop_one, List.tail_cons, dropWhile_esc]
  induction h with
  | dash hd hblank =>
    rintro u rfl
    obtain ⟨u', hu'⟩ := hdash u hd
    rw [hu'] at hblank
    simp at hblank
  | item hd h ih =>
    rintro u rfl
    obtain ⟨u', hu'⟩ := hdash u hd
    exact ih u' hu'
  | scalar hd hcut hflow =>
    rintro u rfl
    rw [flow_open hquote ht] at hflow
    cases hflow
  | key hd hcut hkey hblank =>
    rintro u rfl
    obtain ⟨u', t', rfl, -⟩ := key_open hquote ht hcut hkey
    rw [strip_open] at hblank
    simp at hblank
  | entry hd hcut hkey hflow =>
    rintro u rfl
    obtain ⟨u', t', rfl, ht'⟩ := key_open hquote ht hcut hkey
    rw [flow_open hquote ht'] at hflow
    cases hflow

/-! ## Newlines -/

theorem last_newline {cs : List Char} (h : '\n' ∈ cs) : ∃ a b, cs = a ++ '\n' :: b ∧ '\n' ∉ b := by
  obtain ⟨a, b, hcs, hb⟩ := List.eq_append_cons_of_mem (List.mem_reverse.mpr h)
  refine ⟨b.reverse, a.reverse, ?_, by simpa using hb⟩
  rw [← List.reverse_reverse cs, hcs]
  simp

theorem says_line {cs : List Char} {m : Nat} (hline : '\n' ∉ cs) (h : SaysAll P (linesOf cs) m) :
    (cs.dropWhile (· == ' ')).all isBlank = true ∧ m = 0 ∨
      Says P (cs.dropWhile (· == ' ')) m := by
  rw [linesOf_line hline] at h
  unfold lineOf at h
  dsimp only at h
  split at h
  · rename_i hblank
    cases h
    exact .inl ⟨hblank, rfl⟩
  · obtain ⟨a, b, ha, hb, rfl⟩ := saysAll_cons h
    cases hb
    exact .inr ha

include hquote ht in
/-- **A text with a newline** is not read, whatever stands before it. -/
theorem not_says_newline {pre u : List Char} {m : Nat} (hnewline : '\n' ∈ u) (hline : '\n' ∉ t) :
    ¬SaysAll P (linesOf (pre ++ '"' :: (esc u ++ '"' :: t))) m := by
  obtain ⟨a, b, rfl, hb⟩ := last_newline hnewline
  have hsplit : pre ++ '"' :: (esc (a ++ '\n' :: b) ++ '"' :: t) =
      (pre ++ '"' :: esc a) ++ '\n' :: (esc b ++ '"' :: t) := by
    rw [esc_append, esc_other (by decide)]
    simp
  have hlast : '\n' ∉ esc b ++ '"' :: t := by simp [esc_line hb, hline]
  rw [hsplit, linesOf_append]
  intro h
  obtain ⟨-, m', -, hm', -⟩ := saysAll_append.mp h
  rcases says_line hlast hm' with ⟨hblank, -⟩ | hsays
  · rw [dropWhile_esc, List.all_append, List.all_cons, Bool.and_eq_true, Bool.and_eq_true] at hblank
    exact absurd hblank.2.1 (by decide)
  · rw [dropWhile_esc] at hsays
    exact not_says_open hquote ht hsays

/-! ## Texts between quotes -/

theorem esc_digit {u t rest : List Char} {a : Char} {n : Nat} (ha : hexDigit a = some n)
    (h : esc u ++ '"' :: t = a :: rest) : ∃ u', u = a :: u' ∧ esc u' ++ '"' :: t = rest := by
  have hspecial : a ≠ '"' ∧ a ≠ '\\' := by
    constructor <;>
    · rintro rfl
      cases ha
  cases u with
  | nil => exact absurd (List.cons.inj h).1.symm hspecial.1
  | cons c u =>
    by_cases hc : c = '"'
    · subst hc
      rw [esc_quote] at h
      exact absurd (List.cons.inj h).1.symm hspecial.2
    · rw [esc_other hc, List.cons_append] at h
      obtain ⟨rfl, hrest⟩ := List.cons.inj h
      exact ⟨u, rfl, hrest⟩

theorem long_escape {u t r after : List Char}
    (h : quotedRest ('\\' :: 'u' :: (esc u ++ '"' :: t)) = some (r, after)) :
    ∃ w, w.length + 4 = u.length ∧ ∃ r', r.length = r'.length + 1 ∧
      quotedRest (esc w ++ '"' :: t) = some (r', after) := by
  generalize hcs : esc u ++ '"' :: t = cs at h
  by_cases hshort : cs.length < 4
  · rw [quotedRest_short hshort] at h
    cases h
  rcases cs with _ | ⟨a, _ | ⟨b, _ | ⟨c, _ | ⟨d, cs⟩⟩⟩⟩ <;> try simp at hshort
  rw [quotedRest] at h
  obtain ⟨x, hx, h⟩ := Option.bind_eq_some_iff.mp h
  obtain ⟨p, rfl, hp⟩ := map_cons_eq_some.mp h
  obtain ⟨na, ha, hx⟩ := Option.bind_eq_some_iff.mp hx
  obtain ⟨nb, hb, hx⟩ := Option.bind_eq_some_iff.mp hx
  obtain ⟨nc, hc, hx⟩ := Option.bind_eq_some_iff.mp hx
  obtain ⟨nd, hd, -⟩ := Option.bind_eq_some_iff.mp hx
  obtain ⟨ua, rfl, hrestA⟩ := esc_digit ha hcs
  obtain ⟨ub, rfl, hrestB⟩ := esc_digit hb hrestA
  obtain ⟨uc, rfl, hrestC⟩ := esc_digit hc hrestB
  obtain ⟨ud, rfl, rfl⟩ := esc_digit hd hrestC
  exact ⟨ud, rfl, p, rfl, hp⟩

include ht in
/-- The closing quote is found, and what was read is no longer than the text; or another
quote closes, and the one behind the text is left over. -/
theorem quotedRest_written {u r after : List Char}
    (h : quotedRest (esc u ++ '"' :: t) = some (r, after)) :
    (after = t ∧ r.length ≤ u.length ∧
        (r.length = u.length → r = u ∧ ∀ c ∈ u, isJson c = true ∧ c ≠ '\\')) ∨
      ∃ u' t', after = esc u' ++ '"' :: t' ∧ Follows t' := by
  induction hlength : u.length using Nat.strong_induction_on generalizing u r with
  | _ n ih =>
    subst hlength
    cases u with
    | nil =>
      obtain ⟨rfl, rfl⟩ := Prod.mk.inj (Option.some.inj h)
      exact .inl ⟨rfl, Nat.le_refl _, fun _ => ⟨rfl, by simp⟩⟩
    | cons c u =>
      by_cases hc : c = '"'
      · subst hc
        rw [esc_quote, List.cons_append, List.cons_append, quotedRest_letter (by decide)] at h
        obtain ⟨e, he, h⟩ := Option.bind_eq_some_iff.mp h
        obtain ⟨p, rfl, hp⟩ := map_cons_eq_some.mp h
        obtain rfl : '"' = e := Option.some.inj he
        rcases ih u.length (by simp) hp rfl with ⟨rfl, hle, heq⟩ | hopen
        · refine .inl ⟨rfl, Nat.succ_le_succ hle, fun hsame => ?_⟩
          obtain ⟨hr, hchars⟩ := heq (Nat.succ.inj hsame)
          exact ⟨by rw [hr], List.forall_mem_cons.mpr ⟨by decide, hchars⟩⟩
        · exact .inr hopen
      · by_cases hescape : c = '\\'
        · subst hescape
          rw [esc_other (by decide), List.cons_append] at h
          cases u with
          | nil =>
            rw [esc_nil, List.nil_append, quotedRest_letter (by decide)] at h
            obtain ⟨e, -, h⟩ := Option.bind_eq_some_iff.mp h
            obtain ⟨p, -, hp⟩ := map_cons_eq_some.mp h
            obtain ⟨u', hu'⟩ := quotedRest_follows ht hp
            exact .inr ⟨u', [], hu', follows_nil⟩
          | cons d u =>
            by_cases hd : d = '"'
            · subst hd
              rw [esc_quote, List.cons_append, List.cons_append, quotedRest_letter (by decide)] at h
              obtain ⟨e, -, h⟩ := Option.bind_eq_some_iff.mp h
              obtain ⟨p, -, hp⟩ := map_cons_eq_some.mp h
              obtain ⟨-, hp⟩ := Prod.mk.inj (Option.some.inj hp)
              exact .inr ⟨u, t, hp.symm, ht⟩
            · by_cases hu : d = 'u'
              · subst hu
                rw [esc_other hd, List.cons_append] at h
                obtain ⟨w, hw, r', hlength, hr'⟩ := long_escape h
                have hless : w.length < ('\\' :: 'u' :: u).length := by
                  simp only [List.length_cons]
                  omega
                rcases ih w.length hless hr' rfl with ⟨hafter, hle, -⟩ | hopen
                · refine .inl ⟨hafter, ?_, ?_⟩
                  · simp only [List.length_cons]
                    omega
                  · simp only [List.length_cons]
                    omega
                · exact .inr hopen
              rw [esc_other hd, List.cons_append, quotedRest_letter hu] at h
              obtain ⟨e, -, h⟩ := Option.bind_eq_some_iff.mp h
              obtain ⟨p, rfl, hp⟩ := map_cons_eq_some.mp h
              have hless : u.length < ('\\' :: d :: u).length := by
                simp only [List.length_cons]
                omega
              rcases ih u.length hless hp rfl with ⟨hafter, hle, -⟩ | hopen
              · refine .inl ⟨hafter, ?_, ?_⟩
                · simp only [List.length_cons]
                  omega
                · simp only [List.length_cons]
                  omega
              · exact .inr hopen
        · rw [esc_other hc, List.cons_append, quotedRest_other hc hescape] at h
          split at h
          · rename_i hjson
            obtain ⟨p, rfl, hp⟩ := map_cons_eq_some.mp h
            rcases ih u.length (by simp) hp rfl with ⟨hafter, hle, heq⟩ | hopen
            · refine .inl ⟨hafter, Nat.succ_le_succ hle, fun hsame => ?_⟩
              obtain ⟨hr, hchars⟩ := heq (Nat.succ.inj hsame)
              exact ⟨by rw [hr], List.forall_mem_cons.mpr ⟨⟨hjson, hescape⟩, hchars⟩⟩
            · exact .inr hopen
          · cases h

/-! ## What a text says -/

/-- A value weighs less than the text, or the text stays what it is. -/
def Bounded (s : String) (w : Nat) : Prop := w ≤ s.length ∧ (w = s.length → isFaithful s = true)

theorem resolve_weight {s : String} (hne : s ≠ "") : weight (resolve P s) ≤ s.length ∧
    (weight (resolve P s) = s.length → isCoreText s = true) := by
  have hnone : 0 ≤ s.length ∧ (0 = s.length → isCoreText s = true) := by
    refine ⟨Nat.zero_le _, fun hzero => ?_⟩
    exact absurd (String.length_eq_zero_iff.mp hzero.symm) hne
  rw [resolve]
  split
  · exact hnone
  · split
    · exact hnone
    · split
      · exact hnone
      · split
        · exact hnone
        · split
          · exact hnone
          · refine ⟨Nat.le_refl _, fun _ => ?_⟩
            simp_all [isCoreText]

theorem length_strip (cs : List Char) : (strip cs).length ≤ cs.length :=
  (List.rdropWhile_prefix isBlank _).length_le.trans (List.length_dropWhile_le _ _)

theorem strip_eq_of_length {cs : List Char} (h : cs.length ≤ (strip cs).length) :
    strip cs = cs := by
  have hdrop := (List.dropWhile_suffix (· == ' ')).eq_of_length_le
    (h.trans (List.rdropWhile_prefix isBlank _).length_le)
  rw [strip, hdrop] at h ⊢
  exact (List.rdropWhile_prefix isBlank _).eq_of_length_le h

theorem scalar_unquoted {cs : List Char} {v : Value} (hcs : '"' ∉ cs) (h : scalar P cs = some v) :
    isPlain cs = true ∧ weight v ≤ cs.length ∧
      (weight v = cs.length → isCoreText (String.ofList cs) = true) := by
  rw [scalar] at h
  · split at h
    · rename_i hplain
      cases h
      have hisPlain := (Bool.and_eq_true_iff.mp hplain).1
      have hne : String.ofList cs ≠ "" := by
        intro hnil
        rw [String.ofList_eq_empty_iff.mp hnil] at hisPlain
        cases hisPlain
      obtain ⟨hle, heq⟩ := @resolve_weight P _ hne
      rw [String.length_ofList] at hle heq
      exact ⟨hisPlain, hle, heq⟩
    · cases h
  · rintro rest rfl
    exact hcs List.mem_cons_self

/-- What is read weighs less than the plain text, or the text is a scalar. -/
def PlainBounded (cs : List Char) (w : Nat) : Prop := w ≤ cs.length ∧
  (w = cs.length → strip cs = cs ∧ isPlain cs = true ∧ isCoreText (String.ofList cs) = true)

theorem PlainBounded.written {s : String} {w : Nat} (hs : isQuoted s = false)
    (h : PlainBounded s.toList w) : Bounded s w := by
  obtain ⟨hle, heq⟩ := h
  rw [String.length_toList] at hle heq
  refine ⟨hle, fun hsame => ?_⟩
  obtain ⟨hstrip, hplain, hcore⟩ := heq hsame
  rw [String.ofList_toList] at hcore
  rw [isFaithful, if_neg (by simp [hs]), hplain, hcore]
  simp [hstrip]

theorem PlainBounded.of_lt {cs : List Char} {w : Nat} (h : w < cs.length) : PlainBounded cs w :=
  ⟨Nat.le_of_lt h, fun hsame => absurd hsame (Nat.ne_of_lt h)⟩

theorem PlainBounded.of_suffix {cs cs' : List Char} {w : Nat} (hsuffix : cs' <:+ cs)
    (h : PlainBounded cs' w) : PlainBounded cs w := by
  obtain ⟨hle, heq⟩ := h
  have hlength := hsuffix.length_le
  refine ⟨by omega, fun hsame => ?_⟩
  obtain rfl := hsuffix.eq_of_length_le (by omega)
  exact heq hsame

theorem plainBounded_empty {cs : List Char} {w : Nat} {c d : Char} (h : strip cs = [c, d])
    (hw : w ≤ 1) : PlainBounded cs w := by
  have hlength := length_strip cs
  rw [h] at hlength
  simp only [List.length_cons, List.length_nil] at hlength
  exact .of_lt (by omega)

theorem flow_plain {cs : List Char} {v : Value} (hcs : '"' ∉ cs) (h : flow P cs = some v) :
    PlainBounded cs (weight v) := by
  rw [flow] at h
  split at h
  · rename_i hstrip
    cases h
    exact plainBounded_empty hstrip (by simp [weight])
  · split at h
    · rename_i hstrip
      cases h
      exact plainBounded_empty hstrip (by simp [weight, weightList])
    · have hlength := length_strip cs
      have hmem : '"' ∉ strip cs := fun hc =>
        hcs ((List.dropWhile_suffix _).mem ((List.rdropWhile_prefix isBlank _).mem hc))
      obtain ⟨hplain, hle, heq⟩ := scalar_unquoted hmem h
      refine ⟨by omega, fun hsame => ?_⟩
      have hstrip : strip cs = cs := strip_eq_of_length (by omega)
      have hcore := heq (by omega)
      rw [hstrip] at hplain hcore
      exact ⟨hstrip, hplain, hcore⟩

theorem scalar_quoted {u : List Char} {v : Value} (h : scalar P ('"' :: (esc u ++ ['"'])) = some v) :
    weight v ≤ u.length ∧
      (weight v = u.length → ∀ c ∈ u, isJson c = true ∧ c ≠ '\\') := by
  rw [scalar] at h
  split at h
  · rename_i r hrest
    cases h
    have hweight : weight (.str (String.ofList r)) = r.length := by
      rw [weight, String.length_ofList]
    rw [hweight]
    rcases quotedRest_written follows_nil hrest with ⟨-, hle, heq⟩ | ⟨u', t', hafter, -⟩
    · exact ⟨hle, fun hsame => (heq hsame).2⟩
    · simp at hafter
  · cases h

theorem isFaithful_quoted {s : String} (hs : isQuoted s = true)
    (h : ∀ c ∈ s.toList, isJson c = true ∧ c ≠ '\\') : isFaithful s = true := by
  rw [isFaithful, if_pos hs]
  simpa [List.all_eq_true] using h

/-- **What a written text is read as** weighs no more than the text. -/
theorem flow_written {s : String} {v : Value} (h : flow P (encodeString s).toList = some v) :
    Bounded s (weight v) := by
  rw [toList_encodeString] at h
  split at h
  · rename_i hquoted
    rw [flow, strip_quoted, if_neg (by simp), if_neg (by simp)] at h
    obtain ⟨hle, heq⟩ := scalar_quoted h
    rw [String.length_toList] at hle heq
    exact ⟨hle, fun hsame => isFaithful_quoted hquoted (heq hsame)⟩
  · rename_i hquoted
    have hnot : isQuoted s = false := by simpa using hquoted
    exact (flow_plain (fun hc => ((chars_of_not_quoted hnot).2.1 _ hc).2.2.1 rfl) h).written hnot

/-! ## What a line says -/

theorem not_says_nil {m : Nat} : ¬Says P [] m := by
  intro h
  cases h with
  | dash hdash => cases hdash
  | item hdash => cases hdash
  | key hdash hcut => cases hcut
  | entry hdash hcut => cases hcut
  | scalar hdash hcut hflow => cases hflow

theorem dash_cons {cs : List Char} (h : isDash cs = true) : ∃ cs', cs = '-' :: cs' := by
  unfold isDash at h
  split at h
  · exact ⟨_, rfl⟩
  · cases h

theorem length_afterDash {cs : List Char} (h : isDash cs = true) :
    (afterDash cs).length < cs.length := by
  obtain ⟨cs', rfl⟩ := dash_cons h
  exact Nat.lt_succ_of_le (List.length_dropWhile_le _ _)

theorem mem_afterDash {cs : List Char} {c : Char} (h : c ∈ afterDash cs) : c ∈ cs :=
  List.mem_of_mem_drop ((List.dropWhile_suffix _).mem h)

/-- **A plain text** says less than its characters, or it is a scalar. -/
theorem says_plain {cs : List Char} {m : Nat} (h : Says P cs m) (hquote : '"' ∉ cs)
    (hcolon : ':' ∉ cs) : PlainBounded cs m := by
  have hcut : ∀ {cs key rest : List Char}, '"' ∉ cs → ':' ∉ cs → cutKey cs ≠ some (key, rest) := by
    intro cs key rest hquote hcolon hcut
    rw [cutKey] at hcut
    · exact hcolon (by rw [eq_of_cutColon hcut]; simp)
    · rintro rest rfl
      exact hquote List.mem_cons_self
  induction h with
  | dash hdash hblank => exact .of_lt (Nat.zero_lt_of_lt (length_afterDash hdash))
  | item hdash h ih =>
    have hless := length_afterDash hdash
    obtain ⟨hle, -⟩ := ih (fun hc => hquote (mem_afterDash hc)) fun hc => hcolon (mem_afterDash hc)
    exact .of_lt (by omega)
  | key hdash hkey => exact absurd hkey (hcut hquote hcolon)
  | entry hdash hkey => exact absurd hkey (hcut hquote hcolon)
  | scalar hdash hkey hflow => exact flow_plain hquote hflow

include ht in
/-- The key of a line that begins with a quote: the text between the quotes; or there is a
closing quote behind the key. -/
theorem cutKey_written {u key rest : List Char}
    (h : cutKey ('"' :: (esc u ++ '"' :: t)) = some (key, rest)) :
    (key = '"' :: (esc u ++ ['"']) ∧ ∃ gap, gap.all isBlank = true ∧
        cutColon t = some (gap, rest)) ∨
      ∃ u' t', rest = esc u' ++ '"' :: t' ∧ Follows t' := by
  rw [cutKey] at h
  split at h
  · rename_i r after hquoted
    split at h
    · rename_i gap value hcolon
      split at h
      · rename_i hblank
        obtain ⟨hkey, rfl⟩ := Prod.mk.inj (Option.some.inj h)
        rcases quotedRest_written ht hquoted with ⟨rfl, -⟩ | ⟨u', t', rfl, ht'⟩
        · refine .inl ⟨?_, gap, hblank, hcolon⟩
          have hlength : (esc u ++ '"' :: after).length - after.length + 1 =
              ('"' :: (esc u ++ ['"'])).length := by
            simp only [List.length_append, List.length_cons, List.length_nil]
            omega
          have hsplit : '"' :: (esc u ++ '"' :: after) = ('"' :: (esc u ++ ['"'])) ++ after := by
            simp
          rw [← hkey, hlength, hsplit, List.take_left]
        · have hgap : '"' ∉ gap := fun hc => by
            have hc := List.all_eq_true.mp hblank _ hc
            cases hc
          obtain ⟨u'', hrest⟩ := cutColon_open hcolon hgap
          exact .inr ⟨u'', t', hrest, ht'⟩
      · cases h
    · cases h
  · cases h

/-- **The row of a scalar** says no more than the scalar weighs. -/
theorem says_text (hquote : P.plain '"' = false) {n m : Nat} {s : String}
    (h : SaysAll P (linesOf (List.replicate n ' ' ++ (encodeString s).toList)) m) :
    Bounded s m := by
  rw [toList_encodeString] at h
  split at h
  · rename_i hquoted
    by_cases hnewline : '\n' ∈ s.toList
    · exact absurd h (not_says_newline hquote follows_nil hnewline (by simp))
    have hline : '\n' ∉ List.replicate n ' ' ++ '"' :: (esc s.toList ++ ['"']) := by
      simp [esc_line hnewline]
    have hsays := says_line hline h
    rw [dropWhile_replicate, List.dropWhile_cons_of_neg (by decide)] at hsays
    rcases hsays with ⟨hblank, -⟩ | hsays
    · cases hblank
    · have hopen : ∀ {key rest : List Char}, cutKey ('"' :: (esc s.toList ++ ['"'])) = some (key, rest) →
          ∃ u' t', rest = esc u' ++ '"' :: t' ∧ Follows t' := by
        intro key rest hcut
        rcases cutKey_written follows_nil hcut with ⟨-, gap, -, hcolon⟩ | hopen
        · cases hcolon
        · exact hopen
      cases hsays with
      | dash hdash => cases hdash
      | item hdash => cases hdash
      | key hdash hcut hkey hblank =>
        obtain ⟨u', t', rfl, -⟩ := hopen hcut
        rw [strip_open] at hblank
        simp at hblank
      | entry hdash hcut hkey hflow =>
        obtain ⟨u', t', rfl, ht'⟩ := hopen hcut
        rw [flow_open hquote ht'] at hflow
        cases hflow
      | scalar hdash hcut hflow =>
        refine flow_written (P := P) ?_
        rw [toList_encodeString, if_pos hquoted]
        exact hflow
  · rename_i hquoted
    have hnot : isQuoted s = false := by simpa using hquoted
    obtain ⟨hne, hchars, -⟩ := chars_of_not_quoted hnot
    have hsuffix : s.toList.dropWhile (· == ' ') <:+ s.toList := List.dropWhile_suffix _
    have hline : '\n' ∉ List.replicate n ' ' ++ s.toList := by
      simp only [List.mem_append, List.mem_replicate, not_or]
      exact ⟨by simp, fun hc => (hchars _ hc).2.2.2 rfl⟩
    have hsays := says_line hline h
    rw [dropWhile_replicate] at hsays
    rcases hsays with ⟨-, rfl⟩ | hsays
    · exact (PlainBounded.of_lt (List.length_pos_iff.mpr hne)).written hnot
    · have hbound := says_plain hsays (fun hc => (hchars _ (hsuffix.mem hc)).2.2.1 rfl) fun hc =>
        (hchars _ (hsuffix.mem hc)).1 rfl
      exact (hbound.of_suffix hsuffix).written hnot

/-! ## What a key says -/

/-- What follows a key on its line: a colon, and what is read behind it weighs no more than
`w`, or `K` holds. -/
structure IsTail (P : Profile) (t : List Char) (w : Nat) (K : Prop) : Prop where
  follows : Follows t
  line : '\n' ∉ t
  colon : ∃ rest, t = ':' :: rest ∧ followed rest = false ∧ (strip rest = [] → 0 = w → K) ∧
    ∀ v, flow P rest = some v → weight v ≤ w ∧ (weight v = w → K)

section
variable {w : Nat} {K : Prop} (hquote : P.plain '"' = false) (htail : IsTail P t w K)

theorem cutColon_colon {rest : List Char} (h : followed rest = false) :
    cutColon (':' :: rest) = some ([], rest) := by
  simp [cutColon, h]

theorem flow_key {u rest : List Char} (ht : Follows (':' :: rest)) :
    flow P ('"' :: (esc u ++ '"' :: ':' :: rest)) = none := by
  have hstrip : strip ('"' :: (esc u ++ '"' :: ':' :: rest)) =
      '"' :: (esc u ++ '"' :: (':' :: rest).rdropWhile isBlank) := by
    rw [strip, List.dropWhile_cons_of_neg (by decide), ← List.cons_append, rdropWhile_quote]
    rfl
  have hne : (':' :: rest).rdropWhile isBlank ≠ [] := fun hnil =>
    absurd (List.rdropWhile_eq_nil_iff.mp hnil ':' List.mem_cons_self) (by decide)
  rw [flow, hstrip, if_neg (by simp), if_neg (by simp), scalar]
  split
  · rename_i r hrest
    rcases quotedRest_written (follows_strip ht) hrest with ⟨hnil, -⟩ | ⟨u', t', hafter, -⟩
    · exact absurd hnil.symm hne
    · simp at hafter
  · rfl

include hquote htail in
/-- **A key between quotes**, with what follows it. -/
theorem says_quotedKey {u : List Char} {n m : Nat}
    (h : SaysAll P (linesOf (List.replicate n ' ' ++ '"' :: (esc u ++ '"' :: t))) m) :
    m ≤ u.length + w ∧ (m = u.length + w →
      (∀ c ∈ u, isJson c = true ∧ c ≠ '\\') ∧ (esc u).length + 2 ≤ 1024 ∧ K) := by
  obtain ⟨hfollows, htline, rest, rfl, hrest, hstrip, hflow⟩ := htail
  by_cases hnewline : '\n' ∈ u
  · exact absurd h (not_says_newline hquote hfollows hnewline htline)
  have hline : '\n' ∉ List.replicate n ' ' ++ '"' :: (esc u ++ '"' :: ':' :: rest) := by
    simp only [List.mem_append, List.mem_cons, List.mem_replicate, not_or]
    exact ⟨by simp, by decide, esc_line hnewline, by decide, by simpa using htline⟩
  have hsays := says_line hline h
  rw [dropWhile_replicate, List.dropWhile_cons_of_neg (by decide)] at hsays
  have hkey : ∀ {key value : List Char} {k : Value}, keyOf P key = some k →
      cutKey ('"' :: (esc u ++ '"' :: ':' :: rest)) = some (key, value) →
        (value = rest ∧ (esc u).length + 2 ≤ 1024 ∧ weight k ≤ u.length ∧
          (weight k = u.length → ∀ c ∈ u, isJson c = true ∧ c ≠ '\\')) ∨
        ∃ u' t', value = esc u' ++ '"' :: t' ∧ Follows t' := by
    intro key value k hkeyOf hcut
    rcases cutKey_written hfollows hcut with ⟨rfl, gap, hblank, hcolon⟩ | hopen
    · rw [cutColon_colon hrest] at hcolon
      obtain ⟨-, rfl⟩ := Prod.mk.inj (Option.some.inj hcolon)
      rw [keyOf] at hkeyOf
      split at hkeyOf
      · rename_i hlength
        rw [← List.cons_append, List.rdropWhile_concat_neg _ _ _ (by decide)] at hkeyOf
        simp only [List.length_cons, List.length_append, List.length_nil] at hlength
        exact .inl ⟨rfl, by omega, scalar_quoted hkeyOf⟩
      · cases hkeyOf
    · exact .inr hopen
  rcases hsays with ⟨hblank, -⟩ | hsays
  · cases hblank
  · cases hsays with
    | dash hdash => cases hdash
    | item hdash => cases hdash
    | key hdash hcut hkeyOf hblank =>
      rcases hkey hkeyOf hcut with ⟨rfl, hlength, hle, heq⟩ | ⟨u', t', rfl, -⟩
      · exact ⟨by omega, fun hsame => ⟨heq (by omega), hlength, hstrip hblank (by omega)⟩⟩
      · rw [strip_open] at hblank
        simp at hblank
    | entry hdash hcut hkeyOf hvalue =>
      rcases hkey hkeyOf hcut with ⟨rfl, hlength, hle, heq⟩ | ⟨u', t', rfl, ht'⟩
      · obtain ⟨hvle, hveq⟩ := hflow _ hvalue
        exact ⟨by omega, fun hsame => ⟨heq (by omega), hlength, hveq (by omega)⟩⟩
      · rw [flow_open hquote ht'] at hvalue
        cases hvalue
    | scalar hdash hcut hvalue =>
      rw [flow_key hfollows] at hvalue
      cases hvalue

theorem cutColon_first {p rest : List Char} (hp : ':' ∉ p) (hrest : followed rest = false) :
    cutColon (p ++ ':' :: rest) = some (p, rest) := by
  induction p with
  | nil => exact cutColon_colon hrest
  | cons c p ih =>
    rw [List.mem_cons, not_or] at hp
    rw [List.cons_append, cutColon, if_neg (by simp [Ne.symm hp.1]), ih hp.2]
    rfl

theorem keyOf_bounded {p : List Char} {k : Value} (hp : '"' ∉ p) (h : keyOf P p = some k) :
    PlainBounded p (weight k) ∧ p.length ≤ 1024 := by
  rw [keyOf] at h
  split at h
  · rename_i hlength
    have hstart : p.rdropWhile isBlank <+: p := List.rdropWhile_prefix isBlank p
    have hless := hstart.length_le
    obtain ⟨hplain, hle, heq⟩ := scalar_unquoted (fun hc => hp (hstart.mem hc)) h
    refine ⟨⟨by omega, fun hsame => ?_⟩, hlength⟩
    have hdrop : p.rdropWhile isBlank = p := hstart.eq_of_length_le (by omega)
    rw [hdrop] at hplain heq
    obtain ⟨c, cs, rfl, -, hblank, -⟩ := isPlain_cons hplain
    have hspace : (c :: cs).dropWhile (· == ' ') = c :: cs := by
      refine List.dropWhile_cons_of_neg ?_
      intro hc
      rw [eq_of_beq hc] at hblank
      cases hblank
    exact ⟨by rw [strip, hspace, hdrop], hplain, heq hsame⟩
  · cases h

include htail in
theorem says_plainKey_line {p : List Char} {m : Nat} (h : Says P (p ++ t) m) (hq : '"' ∉ p)
    (hc : ':' ∉ p) : m ≤ p.length + w ∧ (m = p.length + w →
      PlainBounded p p.length ∧ p.length ≤ 1024 ∧ K) := by
  obtain ⟨-, -, rest, rfl, hrest, hstrip, hflow⟩ := htail
  have hdash : ∀ {p}, isDash (p ++ ':' :: rest) = true → ∃ p', p = '-' :: p' := by
    intro p hdash
    cases p with
    | nil => cases hdash
    | cons c p =>
      obtain ⟨cs', hcs⟩ := dash_cons hdash
      exact ⟨p, by rw [(List.cons.inj hcs).1]⟩
  have hafter : ∀ p, afterDash ('-' :: p ++ ':' :: rest) =
      p.dropWhile (· == ' ') ++ ':' :: rest := by
    intro p
    exact dropWhile_append_cons (by decide) p rest
  have hcut : ∀ {p}, '"' ∉ p → ':' ∉ p → cutKey (p ++ ':' :: rest) = some (p, rest) := by
    intro p hq hc
    rw [cutKey]
    · exact cutColon_first hc hrest
    · intro x heq
      cases p with
      | nil => cases heq
      | cons c p =>
        obtain ⟨rfl, -⟩ := List.cons.inj heq
        exact hq List.mem_cons_self
  suffices hcs : ∀ cs, Says P cs m → ∀ p, '"' ∉ p → ':' ∉ p → cs = p ++ ':' :: rest →
      m ≤ p.length + w ∧ (m = p.length + w → PlainBounded p p.length ∧ p.length ≤ 1024 ∧ K) from
    hcs _ h p hq hc rfl
  clear h hq hc
  intro cs h
  induction h with
  | dash hd hblank =>
    rintro p - - rfl
    obtain ⟨p', rfl⟩ := hdash hd
    rw [hafter] at hblank
    simp at hblank
  | item hd h ih =>
    rintro p hq hc rfl
    obtain ⟨p', rfl⟩ := hdash hd
    have hsuffix : p'.dropWhile (· == ' ') <:+ p' := List.dropWhile_suffix _
    have hlength := hsuffix.length_le
    have hrec := ih (p'.dropWhile (· == ' ')) (fun hmem => hq (List.mem_cons_of_mem _ (hsuffix.mem hmem)))
      (fun hmem => hc (List.mem_cons_of_mem _ (hsuffix.mem hmem))) (hafter p')
    simp only [List.length_cons]
    exact ⟨by omega, by omega⟩
  | @key cs key value k hd hkey hkeyOf hblank =>
    rintro p hq hc rfl
    rw [hcut hq hc] at hkey
    obtain ⟨rfl, rfl⟩ := Prod.mk.inj (Option.some.inj hkey)
    obtain ⟨⟨hle, heq⟩, hlength⟩ := keyOf_bounded hq hkeyOf
    refine ⟨by omega, fun hsame => ?_⟩
    have hk : weight k = p.length := by omega
    exact ⟨⟨Nat.le_refl _, fun _ => heq hk⟩, hlength, hstrip hblank (by omega)⟩
  | @entry cs key value k v hd hkey hkeyOf hvalue =>
    rintro p hq hc rfl
    rw [hcut hq hc] at hkey
    obtain ⟨rfl, rfl⟩ := Prod.mk.inj (Option.some.inj hkey)
    obtain ⟨⟨hle, heq⟩, hlength⟩ := keyOf_bounded hq hkeyOf
    obtain ⟨hvle, hveq⟩ := hflow _ hvalue
    refine ⟨by omega, fun hsame => ?_⟩
    have hk : weight k = p.length := by omega
    exact ⟨⟨Nat.le_refl _, fun _ => heq hk⟩, hlength, hveq (by omega)⟩
  | scalar hd hkey hvalue =>
    rintro p hq hc rfl
    rw [hcut hq hc] at hkey
    cases hkey

include htail in
/-- **A plain key**, with what follows it. -/
theorem says_plainKey {p : List Char} {n m : Nat}
    (h : SaysAll P (linesOf (List.replicate n ' ' ++ (p ++ t))) m)
    (hp : ∀ c ∈ p, c ≠ ':' ∧ c ≠ '#' ∧ c ≠ '"' ∧ c ≠ '\n') :
    m ≤ p.length + w ∧
      (m = p.length + w → PlainBounded p p.length ∧ p.length ≤ 1024 ∧ K) := by
  have hsuffix : p.dropWhile (· == ' ') <:+ p := List.dropWhile_suffix _
  have hlength := hsuffix.length_le
  have hline : '\n' ∉ List.replicate n ' ' ++ (p ++ t) := by
    simp only [List.mem_append, List.mem_replicate, not_or]
    exact ⟨by simp, fun hc => (hp _ hc).2.2.2 rfl, htail.line⟩
  have hsays := says_line hline h
  obtain ⟨rest, hrest, -⟩ := htail.colon
  have hdrop : (p ++ t).dropWhile (· == ' ') = p.dropWhile (· == ' ') ++ t := by
    rw [hrest]
    exact dropWhile_append_cons (by decide) p rest
  rw [dropWhile_replicate, hdrop] at hsays
  rcases hsays with ⟨hblank, -⟩ | hsays
  · rw [hrest, List.all_append, List.all_cons, Bool.and_eq_true, Bool.and_eq_true] at hblank
    exact absurd hblank.2.1 (by decide)
  · obtain ⟨hle, heq⟩ := says_plainKey_line htail hsays
      (fun hc => (hp _ (hsuffix.mem hc)).2.2.1 rfl) fun hc => (hp _ (hsuffix.mem hc)).1 rfl
    refine ⟨by omega, fun hsame => ?_⟩
    rw [← hsuffix.eq_of_length_le (by omega)]
    exact heq (by omega)

theorem isKey_quoted {s : String} (hs : isQuoted s = true)
    (hchars : ∀ c ∈ s.toList, isJson c = true ∧ c ≠ '\\')
    (hlength : (esc s.toList).length + 2 ≤ 1024) : isKey (.str s) = true := by
  rw [length_esc, String.length_toList] at hlength
  simp [isKey, isFaithful_quoted hs hchars, writtenLength, hs, hlength]

theorem isKey_plain {s : String} (hs : isQuoted s = false)
    (h : PlainBounded s.toList s.toList.length) (hlength : s.toList.length ≤ 1024) :
    isKey (.str s) = true := by
  obtain ⟨-, hfaithful⟩ := h.written hs
  rw [String.length_toList] at hfaithful hlength
  simp [isKey, hfaithful rfl, writtenLength, hs, hlength]

include hquote htail in
/-- **The key of an entry** says no more than the key weighs. -/
theorem says_key {s : String} {n m : Nat}
    (h : SaysAll P (linesOf (List.replicate n ' ' ++ ((encodeString s).toList ++ t))) m) :
    m ≤ s.length + w ∧ (m = s.length + w → isKey (.str s) = true ∧ K) := by
  rw [toList_encodeString] at h
  split at h
  · rename_i hquoted
    have htext : '"' :: (esc s.toList ++ ['"']) ++ t = '"' :: (esc s.toList ++ '"' :: t) := by simp
    rw [htext] at h
    obtain ⟨hle, heq⟩ := says_quotedKey hquote htail h
    rw [String.length_toList] at hle heq
    refine ⟨hle, fun hsame => ?_⟩
    obtain ⟨hchars, hlength, hK⟩ := heq hsame
    exact ⟨isKey_quoted hquoted hchars hlength, hK⟩
  · rename_i hquoted
    have hnot : isQuoted s = false := by simpa using hquoted
    obtain ⟨hle, heq⟩ := says_plainKey htail h (chars_of_not_quoted hnot).2.1
    rw [String.length_toList] at hle heq
    refine ⟨hle, fun hsame => ?_⟩
    obtain ⟨hbound, hlength, hK⟩ := heq hsame
    rw [← String.length_toList] at hbound hlength
    exact ⟨isKey_plain hnot hbound hlength, hK⟩

include hquote htail in
theorem says_trimmedKey {s : String} {m : Nat}
    (h : SaysAll P (linesOf (((encodeString s).toList ++ t).dropWhile isSpace)) m) :
    m ≤ s.length + w ∧ (m = s.length + w → isKey (.str s) = true ∧
      (isQuoted s || !(s.toList.take 1).any isSpace) = true ∧ K) := by
  have hquotedText : isQuoted s = true →
      ((encodeString s).toList ++ t).dropWhile isSpace = (encodeString s).toList ++ t := by
    intro hquoted
    rw [toList_encodeString, if_pos hquoted]
    exact List.dropWhile_cons_of_neg (by decide)
  cases hquoted : isQuoted s with
  | true =>
    rw [hquotedText hquoted] at h
    obtain ⟨hle, heq⟩ := says_key (n := 0) hquote htail h
    exact ⟨hle, fun hsame => ⟨(heq hsame).1, rfl, (heq hsame).2⟩⟩
  | false =>
    obtain ⟨rest, hrest, -⟩ := htail.colon
    obtain ⟨hne, hchars, -⟩ := chars_of_not_quoted hquoted
    have hsuffix : s.toList.dropWhile isSpace <:+ s.toList := List.dropWhile_suffix _
    have hlength := hsuffix.length_le
    have hdrop : ((encodeString s).toList ++ t).dropWhile isSpace = s.toList.dropWhile isSpace ++ t := by
      rw [toList_encodeString, if_neg (by simp [hquoted]), hrest]
      exact dropWhile_append_cons (by decide) _ rest
    rw [hdrop] at h
    obtain ⟨hle, heq⟩ := says_plainKey (n := 0) htail h fun c hc => hchars c (hsuffix.mem hc)
    rw [String.length_toList] at hlength
    refine ⟨by omega, fun hsame => ?_⟩
    have hsame' : s.toList.dropWhile isSpace = s.toList :=
      hsuffix.eq_of_length_le (by rw [String.length_toList]; omega)
    rw [hsame'] at heq
    obtain ⟨hbound, hlength, hK⟩ := heq (by rw [String.length_toList]; omega)
    refine ⟨isKey_plain hquoted hbound hlength, ?_, hK⟩
    obtain ⟨c, cs, hcs⟩ := List.exists_cons_of_ne_nil hne
    rw [hcs, List.dropWhile_cons] at hsame'
    split at hsame'
    · have hless := congrArg List.length hsame'
      have hle := List.length_dropWhile_le isSpace cs
      rw [List.length_cons] at hless
      omega
    · rename_i hspace
      simpa [hcs] using hspace

end

end

end Writer
end Yaml
end Esr
