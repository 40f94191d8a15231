import Mathlib.Data.List.DropRight
import Mathlib.Data.List.TakeWhile
import Esr.Strings

/-! # Words of a text

Facts about the cuts of `Esr.Strings` that any reader of a command line needs: the
words of a text that a separator, or the end of a word, divides in two, the words
of words put together again, and what trimming leaves at both ends.

The words of an append are the words of its parts exactly where the parts meet at
a separator; a word that runs over the border is in the words of neither part
(`wordsFrom_drop_ne`).
-/
namespace Esr

/-! ## Words -/

section
variable {p : Char → Bool}

/-- A text without separators that is not empty. -/
def IsWord (p : Char → Bool) (t : String) : Prop :=
  t.toList ≠ [] ∧ ∀ c ∈ t.toList, p c = false

theorem wordsFrom_append_sep {c : Char} (h : p c = true) (word a b : List Char) :
    wordsFrom p word (a ++ c :: b) = wordsFrom p word a ++ wordsFrom p [] b := by
  induction a generalizing word with
  | nil =>
    rw [List.nil_append, wordsFrom, wordsFrom, if_pos h]
    by_cases hw : word = []
    · rw [if_pos hw, if_pos hw, List.nil_append]
    · rw [if_neg hw, if_neg hw, List.singleton_append]
  | cons x a ih =>
    rw [List.cons_append, wordsFrom, wordsFrom]
    by_cases hx : p x = true
    · rw [if_pos hx, if_pos hx]
      by_cases hw : word = []
      · rw [if_pos hw, if_pos hw, ih]
      · rw [if_neg hw, if_neg hw, ih, List.cons_append]
    · rw [if_neg hx, if_neg hx, ih]

theorem wordsFrom_run {a : List Char} (h : ∀ c ∈ a, p c = false) (word b : List Char) :
    wordsFrom p word (a ++ b) = wordsFrom p (a.reverse ++ word) b := by
  induction a generalizing word with
  | nil => rfl
  | cons x a ih =>
    have hx : ¬p x = true := Bool.eq_false_iff.mp (h x List.mem_cons_self)
    rw [List.cons_append, wordsFrom, if_neg hx, ih fun c hc => h c (List.mem_cons_of_mem _ hc),
      List.reverse_cons, List.append_assoc, List.singleton_append]

theorem wordsFrom_begun {word : List Char} (h : word ≠ []) (b : List Char) :
    ∃ w rest, ∀ begun, wordsFrom p (word ++ begun) b =
      String.ofList (begun.reverse ++ w) :: rest := by
  induction b generalizing word with
  | nil =>
    refine ⟨word.reverse, [], fun begun => ?_⟩
    rw [wordsFrom, if_neg (List.append_ne_nil_of_left_ne_nil h _), List.reverse_append]
  | cons x b ih =>
    by_cases hx : p x = true
    · refine ⟨word.reverse, wordsFrom p [] b, fun begun => ?_⟩
      rw [wordsFrom, if_pos hx, if_neg (List.append_ne_nil_of_left_ne_nil h _),
        List.reverse_append]
    · obtain ⟨w, rest, hw⟩ := ih (List.cons_ne_nil x word)
      refine ⟨w, rest, fun begun => ?_⟩
      rw [wordsFrom, if_neg hx, ← hw begun, List.cons_append]

variable {t : String}

theorem isWord_of_mem_from {word b : List Char} (hw : ∀ c ∈ word, p c = false)
    (h : t ∈ wordsFrom p word b) : IsWord p t := by
  have hend : ∀ {word : List Char}, (∀ c ∈ word, p c = false) → word ≠ [] →
      IsWord p (String.ofList word.reverse) := by
    intro word hw hne
    refine ⟨?_, ?_⟩
    · simpa using hne
    · simpa using hw
  induction b generalizing word with
  | nil =>
    rw [wordsFrom] at h
    by_cases hne : word = []
    · rw [if_pos hne] at h
      cases h
    · rw [if_neg hne] at h
      obtain rfl := List.mem_singleton.mp h
      exact hend hw hne
  | cons x b ih =>
    rw [wordsFrom] at h
    by_cases hx : p x = true
    · rw [if_pos hx] at h
      by_cases hne : word = []
      · rw [if_pos hne] at h
        exact ih (List.forall_mem_nil _) h
      · rw [if_neg hne] at h
        rcases List.mem_cons.mp h with rfl | h
        · exact hend hw hne
        · exact ih (List.forall_mem_nil _) h
    · rw [if_neg hx] at h
      refine ih ?_ h
      intro c hc
      rcases List.mem_cons.mp hc with rfl | hc
      · exact Bool.eq_false_iff.mpr hx
      · exact hw c hc

theorem isWord_of_mem {b : List Char} (h : t ∈ wordsFrom p [] b) :
    IsWord p t := isWord_of_mem_from (List.forall_mem_nil _) h

theorem wordsFrom_word (h : IsWord p t) : wordsFrom p [] t.toList = [t] := by
  have hrun := wordsFrom_run h.2 [] []
  rw [List.append_nil, List.append_nil] at hrun
  rw [hrun, wordsFrom, if_neg (by simpa using h.1), List.reverse_reverse, String.ofList_toList]

theorem wordsFrom_intercalate (hspace : p ' ' = true) {ts : List String}
    (h : ∀ t ∈ ts, IsWord p t) : wordsFrom p [] (" ".intercalate ts).toList = ts := by
  induction ts with
  | nil => rfl
  | cons t ts ih =>
    have ht := h t List.mem_cons_self
    cases ts with
    | nil =>
      rw [String.intercalate_singleton]
      exact wordsFrom_word ht
    | cons u us =>
      have hjoin : (" ".intercalate (t :: u :: us)).toList =
          t.toList ++ ' ' :: (" ".intercalate (u :: us)).toList := by
        rw [String.intercalate_cons_cons, String.toList_append, String.toList_append,
          List.append_assoc]
        rfl
      rw [hjoin, wordsFrom_append_sep hspace, wordsFrom_word ht,
        ih fun v hv => h v (List.mem_cons_of_mem _ hv), List.singleton_append]

theorem exists_last_word {a : List Char} (hne : a ≠ [])
    (hlast : ∀ c, a.getLast? = some c → p c = false) :
    ∃ front last, a = front ++ last ∧ last ≠ [] ∧ (∀ c ∈ last, p c = false) ∧
      ∀ b, wordsFrom p [] (a ++ b) = wordsFrom p [] front ++ wordsFrom p last.reverse b := by
  refine ⟨a.rdropWhile (fun c => !p c), a.rtakeWhile (fun c => !p c),
    (List.rdropWhile_append_rtakeWhile).symm, ?_, ?_, ?_⟩
  · rw [Ne, List.rtakeWhile_eq_nil_iff]
    intro h
    have hl := hlast _ (List.getLast?_eq_some_getLast hne)
    exact h hne (by rw [hl]; rfl)
  · intro c hc
    simpa using List.mem_rtakeWhile_imp hc
  · intro b
    have hsplit : a ++ b = a.rdropWhile (fun c => !p c) ++
        (a.rtakeWhile (fun c => !p c) ++ b) := by
      rw [← List.append_assoc, List.rdropWhile_append_rtakeWhile]
    have hnosep : ∀ c ∈ a.rtakeWhile (fun c => !p c), p c = false := by
      intro c hc
      simpa using List.mem_rtakeWhile_imp hc
    rw [hsplit]
    generalize hfront : a.rdropWhile (fun c => !p c) = front
    rcases List.eq_nil_or_concat front with rfl | ⟨front', c, rfl⟩
    · rw [List.nil_append, wordsFrom_run hnosep, List.append_nil]
      rfl
    · have hc : p c = true := by
        have hnot := List.rdropWhile_last_not (fun c => !p c) a
          (by rw [hfront]; simp)
        simp only [hfront, List.concat_eq_append, List.getLast_append_singleton] at hnot
        simpa using hnot
      rw [List.concat_eq_append, List.append_assoc, List.singleton_append,
        wordsFrom_append_sep hc, wordsFrom_append_sep hc, wordsFrom_run hnosep, List.append_nil]
      simp [wordsFrom]

/-- **A word over the border**: the words of a text are never the last words of a
longer one that begins in the middle of a word. -/
theorem wordsFrom_drop_ne {a b : List Char} (ha : a ≠ [])
    (hlast : ∀ c, a.getLast? = some c → p c = false) (hb : b ≠ [])
    (hhead : ∀ c, b.head? = some c → p c = false) (n : Nat) :
    wordsFrom p [] b ≠ (wordsFrom p [] (a ++ b)).drop n := by
  obtain ⟨front, last, -, hne, -, hwords⟩ := exists_last_word ha hlast
  obtain ⟨x, b, rfl⟩ := List.exists_cons_of_ne_nil hb
  have hx : ¬p x = true := Bool.eq_false_iff.mp (hhead x rfl)
  obtain ⟨w, rest, hbegun⟩ := wordsFrom_begun (p := p) (List.cons_ne_nil x []) b
  have hown : wordsFrom p [] (x :: b) = String.ofList w :: rest := by
    rw [wordsFrom, if_neg hx]
    exact hbegun []
  have hover : wordsFrom p last.reverse (x :: b) = String.ofList (last ++ w) :: rest := by
    rw [wordsFrom, if_neg hx]
    have hb := hbegun last.reverse
    rwa [List.reverse_reverse] at hb
  rw [hwords, hown, hover]
  intro h
  have hlen := congrArg List.length h
  simp only [List.length_cons, List.length_drop, List.length_append] at hlen
  have hn : n = (wordsFrom p [] front).length := by omega
  rw [hn, List.drop_left] at h
  have hw : w = last ++ w := String.ofList_injective (List.cons.inj h).1
  exact hne (List.self_eq_append_left.mp hw)

theorem wordsFrom_cons {x : Char} (hx : p x = false) (b : List Char) :
    ∃ w rest, wordsFrom p [] (x :: b) = String.ofList (x :: w) :: rest := by
  have hword : ∀ word : List Char, word ≠ [] → ∃ w rest,
      wordsFrom p word b = String.ofList (word.reverse ++ w) :: rest := by
    induction b with
    | nil =>
      intro word hne
      exact ⟨[], [], by rw [wordsFrom, if_neg hne, List.append_nil]⟩
    | cons y b ih =>
      intro word hne
      by_cases hy : p y = true
      · exact ⟨[], wordsFrom p [] b, by
          rw [wordsFrom, if_pos hy, if_neg hne, List.append_nil]⟩
      · obtain ⟨w, rest, hw⟩ := ih (y :: word) (List.cons_ne_nil y word)
        refine ⟨y :: w, rest, ?_⟩
        rw [wordsFrom, if_neg hy, hw, List.reverse_cons, List.append_assoc, List.singleton_append]
  rw [wordsFrom, if_neg (Bool.eq_false_iff.mp hx)]
  exact hword [x] (List.cons_ne_nil x [])

theorem wordsFrom_concat {x : Char} (hx : p x = false) (a : List Char) :
    ∃ front w, wordsFrom p [] (a ++ [x]) = front ++ [String.ofList (w ++ [x])] := by
  obtain ⟨front, last, ha, hne, -, hwords⟩ := exists_last_word (p := p)
    (List.append_ne_nil_of_right_ne_nil a (List.cons_ne_nil x [])) (fun c hc => by
      rw [List.getLast?_concat] at hc
      exact Option.some.inj hc ▸ hx)
  have hlast : ∃ w, last = w ++ [x] := by
    obtain ⟨w, y, rfl⟩ := (List.eq_nil_or_concat last).resolve_left hne
    rw [List.concat_eq_append, ← List.append_assoc] at ha
    obtain ⟨-, hy⟩ := List.append_inj' ha rfl
    exact ⟨w, by rw [List.concat_eq_append, (List.cons.inj hy).1]⟩
  obtain ⟨w, rfl⟩ := hlast
  refine ⟨wordsFrom p [] front, w, ?_⟩
  have hend := hwords []
  rw [List.append_nil] at hend
  rw [hend, wordsFrom, if_neg (by simp), List.reverse_reverse]

theorem head?_intercalate {x : Char} (h : t.toList.head? = some x) (ts : List String) :
    (" ".intercalate (t :: ts)).toList.head? = some x := by
  cases ts with
  | nil =>
    rw [String.intercalate_singleton]
    exact h
  | cons u us =>
    rw [String.intercalate_cons_cons, String.toList_append, String.toList_append,
      List.append_assoc, List.head?_append, h]
    rfl

theorem getLast?_intercalate {x : Char} (h : t.toList.getLast? = some x) (ts : List String) :
    (" ".intercalate (ts ++ [t])).toList.getLast? = some x := by
  induction ts with
  | nil =>
    rw [List.nil_append, String.intercalate_singleton]
    exact h
  | cons u us ih =>
    rw [List.cons_append, String.intercalate_cons_of_ne_nil (by simp), String.toList_append,
      List.getLast?_append, ih]
    rfl

/-- The words of a text that begins and ends at a word, put together again, begin
and end as the text does. -/
theorem ends_intercalate {r : List Char} (hhead : ∀ c, r.head? = some c → p c = false)
    (hlast : ∀ c, r.getLast? = some c → p c = false) :
    (" ".intercalate (wordsFrom p [] r)).toList.head? = r.head? ∧
      (" ".intercalate (wordsFrom p [] r)).toList.getLast? = r.getLast? := by
  constructor
  · cases r with
    | nil => rfl
    | cons x r =>
      obtain ⟨w, rest, hw⟩ := wordsFrom_cons (hhead x rfl) r
      rw [hw]
      exact head?_intercalate (by rw [String.toList_ofList]; rfl) rest
  · rcases List.eq_nil_or_concat r with rfl | ⟨r, x, rfl⟩
    · rfl
    · rw [List.concat_eq_append] at hlast ⊢
      obtain ⟨front, w, hw⟩ := wordsFrom_concat (hlast x List.getLast?_concat) r
      rw [hw, List.getLast?_concat]
      exact getLast?_intercalate (by rw [String.toList_ofList, List.getLast?_concat]) front

end

/-! ## Command lines -/

/-- What separates the words of a command line. -/
def asciiSpace (c : Char) : Bool := c = ' ' || (9 ≤ c.toNat && c.toNat ≤ 13)

theorem words_eq (s : String) : words s = wordsFrom asciiSpace [] s.toList := rfl

theorem asciiSpace_of_not_isSpace {c : Char} (h : isSpace c = false) : asciiSpace c = false := by
  rw [isSpace, Bool.or_eq_false_iff, Bool.or_eq_false_iff] at h
  rw [asciiSpace, Bool.or_eq_false_iff]
  refine ⟨?_, h.1.1⟩
  refine decide_eq_false fun hc => ?_
  subst hc
  cases h.2

/-! ## Trimmed texts -/

/-- No white space at either end. -/
def Trimmed (cs : List Char) : Prop :=
  (∀ c, cs.head? = some c → isSpace c = false) ∧ ∀ c, cs.getLast? = some c → isSpace c = false

theorem trim_toList (s : String) :
    (trim s).toList = (s.toList.dropWhile isSpace).rdropWhile isSpace :=
  String.toList_ofList

variable {p : Char → Bool} {cs : List Char}

theorem head?_dropWhile {c : Char} (h : (cs.dropWhile p).head? = some c) : p c = false := by
  have hnot := List.head?_dropWhile_not p cs
  rw [h] at hnot
  simpa using hnot

theorem getLast?_rdropWhile {c : Char} (h : (cs.rdropWhile p).getLast? = some c) : p c = false := by
  have hne : cs.rdropWhile p ≠ [] := by
    intro he
    rw [he] at h
    cases h
  have hnot := List.rdropWhile_last_not p cs hne
  rw [List.getLast?_eq_some_getLast hne] at h
  rw [Option.some.inj h] at hnot
  exact Bool.eq_false_iff.mpr hnot

theorem trimmed_trim (s : String) : Trimmed (trim s).toList := by
  rw [trim_toList]
  refine ⟨fun c hc => ?_, fun c hc => getLast?_rdropWhile hc⟩
  obtain ⟨t, ht⟩ := List.rdropWhile_prefix isSpace (s.toList.dropWhile isSpace)
  have hhead : (s.toList.dropWhile isSpace).head? = some c := by
    rw [← ht, List.head?_append, hc]
    rfl
  exact head?_dropWhile hhead

theorem dropWhile_of_head (h : ∀ c, cs.head? = some c → p c = false) : cs.dropWhile p = cs := by
  cases cs with
  | nil => rfl
  | cons x cs => rw [List.dropWhile_cons_of_neg (Bool.eq_false_iff.mp (h x rfl))]

theorem rdropWhile_of_last (h : ∀ c, cs.getLast? = some c → p c = false) :
    cs.rdropWhile p = cs := by
  refine List.rdropWhile_eq_self_iff.mpr fun hne => ?_
  exact Bool.eq_false_iff.mp (h _ (List.getLast?_eq_some_getLast hne))

theorem trim_of_trimmed {s : String} (h : Trimmed s.toList) : trim s = s := by
  rw [← String.toList_inj, trim_toList, dropWhile_of_head h.1, rdropWhile_of_last h.2]

theorem trim_trim (s : String) : trim (trim s) = trim s := trim_of_trimmed (trimmed_trim s)

theorem trim_of_last {s : String} (h : ∀ c, s.toList.getLast? = some c → isSpace c = false) :
    (trim s).toList = s.toList.dropWhile isSpace := by
  rw [trim_toList]
  refine rdropWhile_of_last fun c hc => h c ?_
  obtain ⟨t, ht⟩ := List.dropWhile_suffix isSpace (l := s.toList)
  rw [← ht, List.getLast?_append, hc]
  rfl

end Esr
