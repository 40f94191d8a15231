import Esr.YamlBulk

/-! # Lines with a key that is not quoted

What a line tells is no more than its characters.  Where a text stands as it is in front of a
colon, the line tells no more than the text and what stands behind the colon, and as much only
if the text is read as itself (`tellsAll_key`).
-/
namespace Esr
namespace Yaml
namespace Reader
open Writer (Follows esc follows_nil follows_strip flow_open cutColon_open strip_open dash_cons
  length_afterDash quotedRest_follows dropWhile_append_cons keyOf_quote isCoreText rdropWhile_visible)
open Cli (KeyOf keyOf_cases quoted_colon cutColon_cases isBare isBare_of_plain)

variable {P : Profile}

/-! ## Lengths -/

variable {cs key rest x t : List Char} {n m : Nat}

theorem length_quoted {w r : List Char} (h : Quoted cs w r) :
    w.length + r.length + 1 ≤ cs.length := by
  induction h with
  | close r => simp
  | long hx _ ih =>
    simp only [List.length_cons]
    omega
  | short hlong hc _ ih =>
    simp only [List.length_cons]
    omega
  | other hquote hescape hjson _ ih =>
    simp only [List.length_cons]
    omega

theorem bulk_resolve {s : String} (hne : s ≠ "") : bulk (resolve P s) ≤ s.length := by
  have hpos : 0 < s.length := Nat.pos_of_ne_zero fun hzero => hne (String.length_eq_zero_iff.mp hzero)
  unfold resolve
  split
  · exact Nat.zero_le _
  · split
    · exact Nat.zero_le _
    · split
      · exact Nat.zero_le _
      · split
        · exact hpos
        · split
          · exact Nat.zero_le _
          · exact Nat.le_refl _

theorem bulk_scalar {v : Value} (h : scalar P cs = some v) : bulk v ≤ cs.length := by
  unfold scalar at h
  split at h
  · split at h
    · rename_i w hread
      cases h
      have hlength := length_quoted (quotedRest_iff.mp hread)
      rw [bulk, String.length_ofList, List.length_cons]
      omega
    · cases h
  · split at h
    · rename_i hplain
      cases h
      obtain ⟨c, cs, rfl, -⟩ := isPlain_cons (Bool.and_eq_true_iff.mp hplain).1
      have hbulk := @bulk_resolve P (String.ofList (c :: cs)) (by simp)
      rwa [String.length_ofList] at hbulk
    · cases h

theorem bulk_flow {v : Value} (h : flow P cs = some v) : bulk v ≤ (strip cs).length := by
  rw [flow] at h
  split at h
  · cases h
    exact Nat.zero_le _
  · split at h
    · rename_i hstrip
      cases h
      rw [hstrip]
      decide
    · exact bulk_scalar h

theorem length_strip_le (cs : List Char) : (strip cs).length ≤ cs.length :=
  (List.rdropWhile_prefix isBlank _).length_le.trans (List.length_dropWhile_le _ _)

theorem bulk_behind {v : Value} (hblank : followed cs = false) (h : flow P cs = some v) :
    bulk v + 1 ≤ cs.length := by
  rcases cs with _ | ⟨c, cs⟩
  · cases h
  have hc : isBlank c = true := by simpa [followed] using hblank
  simp only [isBlank, Bool.or_eq_true, decide_eq_true_eq] at hc
  rcases hc with rfl | rfl
  · have hbulk := bulk_flow h
    have hstrip : strip (' ' :: cs) = strip cs := rfl
    have hlength := length_strip_le cs
    rw [hstrip] at hbulk
    rw [List.length_cons]
    omega
  · -- a tab is not skipped, and begins no scalar
    have hhead : ∀ x rest, strip ('\t' :: cs) = x :: rest → x = '\t' := by
      intro x rest hx
      have hprefix := List.rdropWhile_prefix isBlank ('\t' :: cs)
      have hdrop : ('\t' :: cs).dropWhile (· == ' ') = '\t' :: cs := rfl
      rw [strip, hdrop] at hx
      rw [hx] at hprefix
      exact (List.cons_prefix_cons.mp hprefix).1
    rw [flow] at h
    split at h
    · rename_i heq
      exact absurd (hhead _ _ heq) (by decide)
    · split at h
      · rename_i heq
        exact absurd (hhead _ _ heq) (by decide)
      · unfold scalar at h
        split at h
        · rename_i heq
          exact absurd (hhead _ _ heq) (by decide)
        · split at h
          · rename_i hplain
            obtain ⟨c, cs', heq, -, hnot, -⟩ := isPlain_cons (Bool.and_eq_true_iff.mp hplain).1
            rw [hhead _ _ heq] at hnot
            cases hnot
          · cases h

theorem followed_cutColon (h : cutColon cs = some (key, rest)) : followed rest = false := by
  induction cs generalizing key with
  | nil => cases h
  | cons c cs ih =>
    rcases cutColon_cons h with ⟨-, hrest, -, rfl⟩ | ⟨key, -, hkey⟩
    · exact hrest
    · exact ih hkey

theorem cutColon_isSome (x : List Char) (ht : followed t = false) :
    (cutColon (x ++ ':' :: t)).isSome = true := by
  induction x with
  | nil => simp [cutColon, ht]
  | cons c x ih =>
    rw [List.cons_append, cutColon]
    split
    · rfl
    · simpa using ih

theorem cutKey_quoted {w r : List Char} (hcut : cutKey ('"' :: cs) = some (key, rest))
    (h : Quoted cs w r) : ∃ gap, gap.all isBlank = true ∧ cutColon r = some (gap, rest) := by
  rw [cutKey, quotedRest_of_quoted h] at hcut
  dsimp only at hcut
  split at hcut
  · rename_i gap value hcolon
    split at hcut
    · rename_i hblank
      obtain ⟨-, rfl⟩ := Prod.mk.inj (Option.some.inj hcut)
      exact ⟨gap, hblank, hcolon⟩
    · cases hcut
  · cases hcut

theorem length_cutKey {k : String} (hcut : cutKey cs = some (key, rest))
    (hkey : keyOf P key = some (.str k)) :
    k.length + rest.length + 1 ≤ cs.length ∧
      ((∃ cs', cs = '"' :: cs') → k.length + rest.length + 2 ≤ cs.length) := by
  cases keyOf_cases hcut hkey with
  | quoted cs' r hcs h =>
    rw [hcs] at hcut
    obtain ⟨gap, -, hcolon⟩ := cutKey_quoted hcut h
    have hlength := length_quoted h
    rw [eq_of_cutColon hcolon, List.length_append, List.length_cons, String.length_toList] at hlength
    rw [hcs, List.length_cons]
    omega
  | plain hhead hcolon htext =>
    have hlength := (List.rdropWhile_prefix isBlank key).length_le
    rw [← htext, String.length_toList] at hlength
    rw [eq_of_cutColon hcolon, List.length_append, List.length_cons]
    refine ⟨by omega, ?_⟩
    rintro ⟨cs', hcs⟩
    exact absurd (by rw [eq_of_cutColon hcolon, hcs]) (hhead cs')

/-! ## What a line tells at most -/

theorem tells_le (h : Tells P cs n) : n ≤ cs.length := by
  induction h with
  | dash hdash => exact Nat.succ_le_of_lt (Nat.zero_lt_of_lt (length_afterDash hdash))
  | item hdash _ ih =>
    have hless := length_afterDash hdash
    omega
  | key hdash hcut hkey hblank =>
    have hlength := (length_cutKey hcut hkey).1
    omega
  | entry hdash hcut hkey hflow =>
    have hlength := (length_cutKey hcut hkey).1
    have hbulk := (bulk_flow hflow).trans (length_strip_le _)
    omega
  | scalar hdash hcut hflow => exact (bulk_flow hflow).trans (length_strip_le _)

theorem tellsAll_le {ls : List Line} (h : TellsAll P ls n) : n ≤ size ls := by
  induction h with
  | nil => exact Nat.le_refl _
  | cons h _ ih =>
    have hle := tells_le h
    rw [size_cons]
    omega

theorem tells_line (hline : '\n' ∉ cs) (h : TellsAll P (linesOf (List.replicate n ' ' ++ cs)) m) :
    (cs.dropWhile (· == ' ')).all isBlank = true ∧ m = 0 ∨ Tells P (cs.dropWhile (· == ' ')) m := by
  have hspaces : '\n' ∉ List.replicate n ' ' := fun hc =>
    absurd (List.eq_of_mem_replicate hc) (by decide)
  rw [linesOf_line (by simp [hspaces, hline]), lineOf, dropWhile_replicate] at h
  split at h
  · rename_i hblank
    cases h
    exact .inl ⟨hblank, rfl⟩
  · obtain ⟨a, b, ha, hb, rfl⟩ := tellsAll_cons h
    cases hb
    exact .inr ha

theorem tellsAll_text (h : TellsAll P (linesOf (List.replicate n ' ' ++ cs)) m) :
    m ≤ cs.length := by
  by_cases hnewline : '\n' ∈ cs
  · obtain ⟨a, b, rfl, ha⟩ := List.eq_append_cons_of_mem hnewline
    rw [← List.append_assoc, linesOf_append] at h
    obtain ⟨i, j, hi, hj, rfl⟩ := tellsAll_append.mp h
    have hrest := (tellsAll_le hj).trans (size_linesOf b)
    have hfirst : i ≤ a.length := by
      rcases tells_line ha hi with ⟨-, rfl⟩ | hi
      · exact Nat.zero_le _
      · exact (tells_le hi).trans (List.length_dropWhile_le _ _)
    rw [List.length_append, List.length_cons]
    omega
  · rcases tells_line hnewline h with ⟨-, rfl⟩ | h
    · exact Nat.zero_le _
    · exact (tells_le h).trans (List.length_dropWhile_le _ _)

theorem afterDash_colon (hdash : isDash (x ++ ':' :: t) = true) :
    ∃ x', x = '-' :: x' ∧ followed (x' ++ ':' :: t) = false ∧
      afterDash (x ++ ':' :: t) = x'.dropWhile (· == ' ') ++ ':' :: t := by
  rcases x with _ | ⟨c, x⟩
  · cases hdash
  obtain ⟨cs, hcs⟩ := dash_cons hdash
  obtain ⟨rfl, rfl⟩ := List.cons.inj hcs
  exact ⟨x, rfl, by simpa [isDash] using hdash, dropWhile_append_cons (by decide) x t⟩

theorem tells_colon {y : List Char} (h : Tells P (x ++ ':' :: ' ' :: y) m) :
    m ≤ x.length + y.length := by
  have ht : followed (' ' :: y) = false := rfl
  generalize hcs : x ++ ':' :: ' ' :: y = cs at h
  have hlength : cs.length = x.length + y.length + 2 := by
    rw [← hcs, List.length_append, List.length_cons, List.length_cons]
    omega
  induction h generalizing x with
  | dash hdash hblank =>
    rw [← hcs] at hdash hblank
    obtain ⟨x', -, -, hafter⟩ := afterDash_colon hdash
    rw [hafter] at hblank
    simp at hblank
  | @item cs n hdash h ih =>
    rw [← hcs] at hdash ih
    obtain ⟨x', rfl, -, hafter⟩ := afterDash_colon hdash
    have hdrop := List.length_dropWhile_le (· == ' ') x'
    have hle := ih hafter.symm (by rw [hafter, List.length_append, List.length_cons, List.length_cons]; omega)
    rw [List.length_cons]
    omega
  | @key cs key rest k hdash hcut hkey hblank =>
    obtain ⟨hle, hquoted⟩ := length_cutKey hcut hkey
    cases keyOf_cases hcut hkey with
    | quoted cs' r hquote =>
      have hless := hquoted ⟨cs', hquote⟩
      omega
    | plain hhead hcolon =>
      rw [← hcs] at hcolon
      have hpos : 0 < rest.length := by
        rcases cutColon_cases ht hcolon with ⟨-, rfl⟩ | ⟨x', -, rfl⟩ <;> simp
      omega
  | @entry cs key rest k v hdash hcut hkey hflow =>
    obtain ⟨hle, hquoted⟩ := length_cutKey hcut hkey
    cases keyOf_cases hcut hkey with
    | quoted cs' r hquote =>
      have hless := hquoted ⟨cs', hquote⟩
      have hbulk := (bulk_flow hflow).trans (length_strip_le _)
      omega
    | plain hhead hcolon =>
      have hbulk := bulk_behind (followed_cutColon hcolon) hflow
      omega
  | @scalar cs v hdash hcut hflow =>
    have hbulk := bulk_flow hflow
    have hstrip := length_strip_le cs
    unfold cutKey at hcut
    split at hcut
    · -- the whole line is one text between quotes
      rename_i rest
      have hquote : strip ('"' :: rest) = '"' :: (rest.rdropWhile isBlank) := by
        have hdrop : ('"' :: rest).dropWhile (· == ' ') = '"' :: rest := rfl
        rw [strip, hdrop]
        exact Writer.rdropWhile_quote [] rest
      rw [flow, hquote, if_neg (by simp), if_neg (by simp), scalar] at hflow
      split at hflow
      · rename_i w hread
        cases hflow
        have hquoted := length_quoted (quotedRest_iff.mp hread)
        have hprefix := (List.rdropWhile_prefix isBlank rest).length_le
        rw [bulk, String.length_ofList]
        rw [List.length_cons] at hlength
        omega
      · cases hflow
    · rw [← hcs] at hcut
      have hsome := cutColon_isSome x ht
      rw [hcut] at hsome
      cases hsome

/-! ## Where a quote is closed -/

/-- Behind a text and a colon: the quote is closed in the text, or the rest of another text
between quotes is left. -/
theorem quoted_closing {w r : List Char} (ht : Follows (':' :: t))
    (h : Quoted (x ++ ':' :: t) w r) :
    (∃ a b, x = a ++ '"' :: b ∧ r = b ++ ':' :: t ∧ w.length ≤ a.length) ∨
      ∃ u, r = esc u ++ ['"'] := by
  rcases quoted_colon h with ⟨a, b, rfl, rfl, hclosed⟩ | ⟨u, w', -, -, hrest⟩
  · have hlength := length_quoted hclosed
    rw [List.length_append, List.length_singleton, List.length_nil] at hlength
    exact .inl ⟨a, b, rfl, rfl, by omega⟩
  · -- from the colon on nothing is left of the text
    exact .inr (quotedRest_follows ht
      (quotedRest_of_quoted (.other (by decide) (by decide) (by decide) hrest)))

theorem strip_colon (x t : List Char) : strip (x ++ ':' :: t) =
    x.dropWhile (· == ' ') ++ ':' :: t.rdropWhile isBlank := by
  rw [strip, dropWhile_append_cons (by decide), rdropWhile_visible (by decide)]

theorem followed_strip (h : followed t = false) : followed (t.rdropWhile isBlank) = false := by
  rcases hdrop : t.rdropWhile isBlank with _ | ⟨c, cs⟩
  · rfl
  · obtain ⟨more, hmore⟩ := List.rdropWhile_prefix isBlank t
    rw [← hmore, hdrop] at h
    exact h

/-- **No scalar has a colon and a blank in it**, but between quotes. -/
theorem flow_colon (hfollows : Follows (':' :: t)) (ht : followed t = false) :
    flow P (x ++ ':' :: t) = none := by
  have hmem : ':' ∈ strip (x ++ ':' :: t) := by simp [strip_colon]
  have hfollows' : Follows (':' :: t.rdropWhile isBlank) := by
    have hdrop := rdropWhile_visible (c := ':') (by decide) [] t
    rw [List.nil_append, List.nil_append] at hdrop
    rw [← hdrop]
    exact follows_strip hfollows
  have hscalar : scalar P (strip (x ++ ':' :: t)) = none := by
    rw [Option.eq_none_iff_forall_not_mem]
    intro v hv
    rw [strip_colon] at hv
    by_cases hquote : ∃ cs, x.dropWhile (· == ' ') = '"' :: cs
    · obtain ⟨cs, hcs⟩ := hquote
      rw [hcs, List.cons_append, Option.mem_def, scalar] at hv
      split at hv
      · rename_i w hread
        rcases quoted_closing hfollows' (quotedRest_iff.mp hread) with ⟨a, b, -, hr, -⟩ | ⟨u, hr⟩
        · simp at hr
        · simp at hr
      · cases hv
    · have hcut : cutKey (x.dropWhile (· == ' ') ++ ':' :: t.rdropWhile isBlank ++ []) = none :=
        cutKey_of_scalar hv (by simp)
      rw [List.append_nil, cutKey] at hcut
      · have hsome := cutColon_isSome (x.dropWhile (· == ' ')) (followed_strip ht)
        rw [hcut] at hsome
        cases hsome
      · intro cs hcs
        rcases hx : x.dropWhile (· == ' ') with _ | ⟨c, x'⟩
        · rw [hx] at hcs
          exact absurd (List.cons.inj hcs).1 (by decide)
        · rw [hx] at hcs
          exact hquote ⟨x', by rw [hx, (List.cons.inj hcs).1]⟩
  rw [flow, if_neg, if_neg, hscalar]
  · intro heq
    rw [heq] at hmem
    revert hmem
    decide
  · intro heq
    rw [heq] at hmem
    revert hmem
    decide

/-! ## Keys -/

/-- A key that stands as it is and is read as itself, with no quote in it. -/
def isBareKey (s : String) : Bool := isBare s && s.length ≤ 1024 && !s.toList.contains '"'

/-- What stands behind the colon: what is read there counts for `w` at most, and for as much only
if `K` holds. -/
structure Tail (P : Profile) (t : List Char) (w : Nat) (K : Prop) : Prop where
  follows : Follows (':' :: t)
  line : '\n' ∉ t
  blank : followed t = false
  empty : strip t = [] → 0 = w → K
  value : ∀ v, flow P t = some v → bulk v ≤ w ∧ (bulk v = w → K)

section
variable (hquote : P.plain '"' = false) {t : List Char} {w : Nat} {K : Prop} (htail : Tail P t w K)

include hquote htail in
/-- **The key of a line** is no longer than the text in front of the colon, and as long only if it
is this text. -/
theorem key_found {x key rest : List Char} {k : String}
    (hcut : cutKey (x ++ ':' :: t) = some (key, rest)) (hkey : keyOf P key = some (.str k))
    (hread : strip rest = [] ∨ ∃ v, flow P rest = some v) :
    rest = t ∧ k.length ≤ x.length ∧ (k.length = x.length → isBareKey (String.ofList x) = true) := by
  have hcolon : ∀ y, rest ≠ y ++ ':' :: t := by
    rintro y rfl
    rcases hread with hblank | ⟨v, hv⟩
    · simp [strip_colon] at hblank
    · rw [flow_colon htail.follows htail.blank] at hv
      cases hv
  cases keyOf_cases hcut hkey with
  | quoted cs r hcs h =>
    rcases x with _ | ⟨c, x⟩
    · exact absurd (List.cons.inj hcs).1 (by decide)
    obtain ⟨rfl, rfl⟩ := List.cons.inj hcs
    obtain ⟨gap, hgap, hrest⟩ := cutKey_quoted hcut h
    rcases quoted_closing htail.follows h with ⟨a, b, rfl, rfl, hle⟩ | ⟨u, rfl⟩
    · rw [String.length_toList] at hle
      have hless : k.length < ('"' :: (a ++ '"' :: b)).length := by
        simp only [List.length_cons, List.length_append]
        omega
      rcases cutColon_cases htail.blank hrest with ⟨-, rfl⟩ | ⟨x', -, hx'⟩
      · exact ⟨rfl, Nat.le_of_lt hless, fun hsame => absurd hsame (Nat.ne_of_lt hless)⟩
      · exact absurd hx' (hcolon x')
    · -- the colon stands in the text behind it, whose closing quote is left over
      obtain ⟨u', rfl⟩ := cutColon_open hrest fun hc => by
        have hc := List.all_eq_true.mp hgap _ hc
        cases hc
      rcases hread with hblank | ⟨v, hv⟩
      · simp [strip_open] at hblank
      · rw [flow_open hquote follows_nil] at hv
        cases hv
  | plain hhead hfirst htext hplain hcore hlength =>
    rcases cutColon_cases htail.blank hfirst with ⟨rfl, rfl⟩ | ⟨x', -, hx'⟩
    · have hprefix := List.rdropWhile_prefix isBlank key
      have hle := hprefix.length_le
      rw [← htext, String.length_toList] at hle
      refine ⟨rfl, hle, fun hsame => ?_⟩
      have hlast : key.rdropWhile isBlank = key :=
        hprefix.eq_of_length_le (by rw [← htext, String.length_toList, hsame])
      rw [hlast] at htext
      have hnone : '"' ∉ key := by
        refine keyOf_quote hquote (fun cs hcs => ?_) hkey
        exact hhead (cs ++ ':' :: rest) (by rw [hcs, List.cons_append])
      have hk : String.ofList key = k := by rw [← htext, String.ofList_toList]
      have hbare : isBare k = true := isBare_of_plain hplain (by rw [htext, hlast]) hcore
      rw [isBareKey, hk, hbare, htext]
      simp [hsame, hlength, hnone]
    · exact absurd hx' (hcolon x')

include hquote htail in
/-- **A line** with the text in front of the colon. -/
theorem tells_key {x : List Char} {m : Nat} (h : Tells P (x ++ ':' :: t) m) :
    m ≤ x.length + w ∧ (m = x.length + w → isBareKey (String.ofList x) = true ∧ K) := by
  generalize hcs : x ++ ':' :: t = cs at h
  induction h generalizing x with
  | dash hdash hblank =>
    rw [← hcs] at hdash hblank
    obtain ⟨x', -, -, hafter⟩ := afterDash_colon hdash
    rw [hafter] at hblank
    simp at hblank
  | @item cs n hdash h ih =>
    rw [← hcs] at hdash ih
    obtain ⟨x', rfl, hnext, hafter⟩ := afterDash_colon hdash
    have hsuffix : x'.dropWhile (· == ' ') <:+ x' := List.dropWhile_suffix _
    have hlength := hsuffix.length_le
    obtain ⟨hle, heq⟩ := ih hafter.symm
    rw [List.length_cons]
    refine ⟨by omega, fun hsame => ?_⟩
    -- nothing was lost behind the dash, but what stands there begins no key
    rw [hsuffix.eq_of_length_le (by omega)] at heq
    obtain ⟨hbare, -⟩ := heq (by omega)
    simp only [isBareKey, isBare, Bool.and_eq_true, String.toList_ofList] at hbare
    obtain ⟨c, x, rfl, -, hvisible, -⟩ := isPlain_cons hbare.1.1.1.1
    rw [List.cons_append, followed, hvisible] at hnext
    cases hnext
  | @key cs key rest k hdash hcut hkey hblank =>
    rw [← hcs] at hcut
    obtain ⟨rfl, hle, heq⟩ := key_found hquote htail hcut hkey (.inl hblank)
    exact ⟨by omega, fun hsame => ⟨heq (by omega), htail.empty hblank (by omega)⟩⟩
  | @entry cs key rest k v hdash hcut hkey hflow =>
    rw [← hcs] at hcut
    obtain ⟨rfl, hle, heq⟩ := key_found hquote htail hcut hkey (.inr ⟨v, hflow⟩)
    obtain ⟨hvle, hveq⟩ := htail.value v hflow
    exact ⟨by omega, fun hsame => ⟨heq (by omega), hveq (by omega)⟩⟩
  | scalar hdash hcut hflow =>
    rw [← hcs, flow_colon htail.follows htail.blank] at hflow
    cases hflow

end

/-- What holds of one line holds of a text with newlines: what stands before them tells less than
it has characters. -/
theorem tellsAll_newlines {w : Nat} {C : List Char → Prop} (hline : '\n' ∉ t)
    (hone : ∀ {x m}, Tells P (x ++ ':' :: t) m → m ≤ x.length + w ∧ (m = x.length + w → C x))
    (h : TellsAll P (linesOf (List.replicate n ' ' ++ (x ++ ':' :: t))) m) :
    m ≤ x.length + w ∧ (m = x.length + w → C x) := by
  induction hlength : x.length using Nat.strong_induction_on generalizing x n m with
  | _ k ih =>
    subst hlength
    by_cases hnewline : '\n' ∈ x
    · obtain ⟨a, b, rfl, ha⟩ := List.eq_append_cons_of_mem hnewline
      have hsplit : List.replicate n ' ' ++ (a ++ '\n' :: b ++ ':' :: t) =
          (List.replicate n ' ' ++ a) ++ '\n' :: (List.replicate 0 ' ' ++ (b ++ ':' :: t)) := by
        simp
      rw [hsplit, linesOf_append] at h
      obtain ⟨i, j, hi, hj, rfl⟩ := tellsAll_append.mp h
      have hfirst := tellsAll_text hi
      obtain ⟨hrest, -⟩ := ih b.length (by simp; omega) hj rfl
      rw [List.length_append, List.length_cons]
      exact ⟨by omega, by omega⟩
    · have hnone : '\n' ∉ x ++ ':' :: t := by simp [hnewline, hline]
      have hsuffix : x.dropWhile (· == ' ') <:+ x := List.dropWhile_suffix _
      have hlength := hsuffix.length_le
      have hdrop : (x ++ ':' :: t).dropWhile (· == ' ') = x.dropWhile (· == ' ') ++ ':' :: t :=
        dropWhile_append_cons (by decide) x t
      have htells := tells_line hnone h
      rw [hdrop] at htells
      rcases htells with ⟨hblank, -⟩ | htells
      · simp [isBlank] at hblank
      · obtain ⟨hle, heq⟩ := hone htells
        refine ⟨by omega, fun hsame => ?_⟩
        rw [hsuffix.eq_of_length_le (by omega)] at heq
        exact heq (by omega)

/-- **A text in front of a colon**, on its lines. -/
theorem tellsAll_key (hquote : P.plain '"' = false) {w : Nat} {K : Prop} (htail : Tail P t w K)
    (h : TellsAll P (linesOf (List.replicate n ' ' ++ (x ++ ':' :: t))) m) :
    m ≤ x.length + w ∧ (m = x.length + w → isBareKey (String.ofList x) = true ∧ K) :=
  tellsAll_newlines htail.line (tells_key hquote htail) h

/-- **A text in front of a colon and a text behind it**, whatever they are. -/
theorem tellsAll_colon {y : List Char}
    (h : TellsAll P (linesOf (List.replicate n ' ' ++ (x ++ ':' :: ' ' :: y))) m) :
    m ≤ x.length + y.length := by
  have hbound : ∀ {y : List Char} {m : Nat}, '\n' ∉ y →
      TellsAll P (linesOf (List.replicate n ' ' ++ (x ++ ':' :: ' ' :: y))) m →
        m ≤ x.length + y.length := by
    intro y m hline h
    refine (tellsAll_newlines (C := fun _ => True) (by simp [hline]) (fun h => ?_) h).1
    exact ⟨tells_colon h, fun _ => trivial⟩
  by_cases hnewline : '\n' ∈ y
  · obtain ⟨a, b, rfl, ha⟩ := List.eq_append_cons_of_mem hnewline
    have hsplit : List.replicate n ' ' ++ (x ++ ':' :: ' ' :: (a ++ '\n' :: b)) =
        (List.replicate n ' ' ++ (x ++ ':' :: ' ' :: a)) ++ '\n' :: b := by
      simp
    rw [hsplit, linesOf_append] at h
    obtain ⟨i, j, hi, hj, rfl⟩ := tellsAll_append.mp h
    have hfirst := hbound ha hi
    have hrest := (tellsAll_le hj).trans (size_linesOf b)
    rw [List.length_append, List.length_cons]
    omega
  · exact hbound hnewline h

end Reader
end Yaml
end Esr
