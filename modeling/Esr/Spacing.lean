import Mathlib.Data.List.Basic
import Mathlib.Data.List.Infix
import Mathlib.Data.List.TakeWhile

/-! # Trimming a text, and its runs of spaces

A text is a list over any alphabet, with a predicate for white space and one letter, the
space, that satisfies it.  `trimBy` takes the white space off both ends and `squeeze`
makes one space of every run of spaces.  The two commute (`trimBy_squeeze`), and
squeezing changes a trimmed text exactly when it has two adjacent spaces in it, which is
when the text has two with something other than white space on either side
(`doubled_trimBy`).
-/
namespace Esr
namespace Spacing

variable {α : Type}

/-! ## Trimming -/

/-- The text without the white space at its ends. -/
def trimBy (white : α → Bool) (cs : List α) : List α :=
  ((cs.dropWhile white).reverse.dropWhile white).reverse

/-- The text is `core` between white space, and `core` neither begins nor ends with any. -/
structure Trims (white : α → Bool) (cs core : List α) : Prop where
  ends : ∃ left right, cs = left ++ core ++ right ∧ (∀ c ∈ left, white c = true) ∧
    ∀ c ∈ right, white c = true
  head : ∀ c ∈ core.head?, white c = false
  last : ∀ c ∈ core.getLast?, white c = false

section
variable {white : α → Bool}

theorem dropWhile_append_of_all {left cs : List α} (h : ∀ c ∈ left, white c = true) :
    (left ++ cs).dropWhile white = cs.dropWhile white := by
  induction left with
  | nil => rfl
  | cons c left ih =>
    obtain ⟨hc, hleft⟩ := List.forall_mem_cons.mp h
    rw [List.cons_append, List.dropWhile_cons_of_pos hc, ih hleft]

theorem dropWhile_of_head {cs : List α} (h : ∀ c ∈ cs.head?, white c = false) :
    cs.dropWhile white = cs := by
  rcases cs with _ | ⟨c, cs⟩
  · rfl
  · rw [List.dropWhile_cons_of_neg]
    rw [h c rfl]
    exact Bool.false_ne_true

theorem Trims.eq {cs core : List α} (h : Trims white cs core) : trimBy white cs = core := by
  obtain ⟨left, right, rfl, hleft, hright⟩ := h.ends
  rcases hcore : core with _ | ⟨c, rest⟩
  · have hall : ∀ c ∈ left ++ [] ++ right, white c = true := by
      intro c hc
      rw [List.append_nil] at hc
      exact (List.mem_append.mp hc).elim (hleft c) (hright c)
    have hdrop := @dropWhile_append_of_all _ _ _ [] hall
    rw [List.append_nil] at hdrop
    rw [trimBy, hdrop]
    rfl
  · rw [← hcore, trimBy, List.append_assoc, dropWhile_append_of_all hleft]
    have hfront : (core ++ right).dropWhile white = core ++ right := by
      refine dropWhile_of_head fun d hd => h.head d ?_
      rw [hcore] at hd ⊢
      exact hd
    have hback : ∀ c ∈ right.reverse, white c = true := fun c hc => hright c (List.mem_reverse.mp hc)
    rw [hfront, List.reverse_append, dropWhile_append_of_all hback, dropWhile_of_head,
      List.reverse_reverse]
    intro d hd
    rw [List.head?_reverse] at hd
    exact h.last d hd

theorem trims_dropWhile (white : α → Bool) (cs : List α) :
    ∃ left, cs = left ++ cs.dropWhile white ∧ (∀ c ∈ left, white c = true) ∧
      ∀ c ∈ (cs.dropWhile white).head?, white c = false := by
  refine ⟨cs.takeWhile white, List.takeWhile_append_dropWhile.symm,
    fun _ => List.mem_takeWhile_imp, fun c hc => ?_⟩
  have hnot := List.head?_dropWhile_not white cs
  rw [hc] at hnot
  exact hnot

theorem trims (white : α → Bool) (cs : List α) : Trims white cs (trimBy white cs) := by
  obtain ⟨left, hleft, hwhite, hhead⟩ := trims_dropWhile white cs
  obtain ⟨back, hback, hwhite', hlast⟩ := trims_dropWhile white (cs.dropWhile white).reverse
  have hfront : cs.dropWhile white = trimBy white cs ++ back.reverse := by
    rw [trimBy, ← List.reverse_append, ← hback, List.reverse_reverse]
  refine ⟨⟨left, back.reverse, ?_, hwhite, ?_⟩, ?_, ?_⟩
  · rw [List.append_assoc, ← hfront]
    exact hleft
  · intro c hc
    exact hwhite' c (List.mem_reverse.mp hc)
  · intro c hc
    refine hhead c ?_
    rw [hfront, List.head?_append, hc]
    rfl
  · intro c hc
    rw [trimBy, List.getLast?_reverse] at hc
    exact hlast c hc

end

/-! ## Runs of spaces -/

section
variable [DecidableEq α] {space : α}

/-- `squeeze` behind a text that ends with a space, or with none. -/
def squeezeFrom (space : α) (after : Bool) : List α → List α
  | [] => []
  | c :: cs =>
      if c = space then
        if after then squeezeFrom space true cs else c :: squeezeFrom space true cs
      else c :: squeezeFrom space false cs

/-- One space for every run of spaces. -/
def squeeze (space : α) (cs : List α) : List α := squeezeFrom space false cs

/-- The text ends with a space, if it is not empty. -/
def endsSpace (space : α) (after : Bool) : List α → Bool
  | [] => after
  | c :: cs => endsSpace space (decide (c = space)) cs

theorem squeezeFrom_append (after : Bool) (cs ds : List α) :
    squeezeFrom space after (cs ++ ds) =
      squeezeFrom space after cs ++ squeezeFrom space (endsSpace space after cs) ds := by
  induction cs generalizing after with
  | nil => rfl
  | cons c cs ih =>
    rw [List.cons_append, squeezeFrom, squeezeFrom, endsSpace, ih, ih]
    by_cases hc : c = space
    · rw [if_pos hc, if_pos hc, decide_eq_true hc]
      by_cases hafter : after = true
      · rw [if_pos hafter, if_pos hafter]
      · rw [if_neg hafter, if_neg hafter, List.cons_append]
    · rw [if_neg hc, if_neg hc, decide_eq_false hc, List.cons_append]

theorem squeezeFrom_subset (after : Bool) (cs : List α) : squeezeFrom space after cs ⊆ cs := by
  induction cs generalizing after with
  | nil => exact List.Subset.refl _
  | cons c cs ih =>
    rw [squeezeFrom]
    split
    · split
      · exact List.subset_cons_of_subset c (ih true)
      · exact List.cons_subset_cons c (ih true)
    · exact List.cons_subset_cons c (ih false)

theorem squeezeFrom_of_head {cs : List α} (h : cs.head? ≠ some space) (after : Bool) :
    squeezeFrom space after cs = squeeze space cs := by
  rcases cs with _ | ⟨c, cs⟩
  · rfl
  · have hc : c ≠ space := fun he => h (congrArg some he)
    rw [squeeze, squeezeFrom, squeezeFrom, if_neg hc, if_neg hc]

theorem head?_squeeze (cs : List α) : (squeeze space cs).head? = cs.head? := by
  rcases cs with _ | ⟨c, cs⟩
  · rfl
  · rw [squeeze, squeezeFrom]
    split <;> rfl

theorem getLast?_squeezeFrom {after : Bool} {cs : List α} {c : α} (h : cs.getLast? = some c)
    (hc : c ≠ space) : (squeezeFrom space after cs).getLast? = some c := by
  obtain ⟨front, rfl⟩ := List.getLast?_eq_some_iff.mp h
  rw [squeezeFrom_append, squeezeFrom, if_neg hc]
  exact List.getLast?_concat

/-- **Trimming and squeezing commute.** -/
theorem trimBy_squeeze {white : α → Bool} (hspace : white space = true) (cs : List α) :
    trimBy white (squeeze space cs) = squeeze space (trimBy white cs) := by
  have hne : ∀ c, white c = false → c ≠ space := by
    rintro c hc rfl
    rw [hspace] at hc
    cases hc
  have h := trims white cs
  obtain ⟨left, right, hcs, hleft, hright⟩ := h.ends
  have hhead : (trimBy white cs).head? ≠ some space := fun he =>
    hne space (h.head space he) rfl
  have hsqueeze : squeeze space cs = squeezeFrom space false left ++ squeeze space (trimBy white cs) ++
      squeezeFrom space (endsSpace space false (left ++ trimBy white cs)) right := by
    conv_lhs => rw [hcs]
    rw [squeeze, squeezeFrom_append, squeezeFrom_append, squeezeFrom_of_head hhead]
  refine Trims.eq ⟨⟨_, _, hsqueeze, ?_, ?_⟩, ?_, ?_⟩
  · exact fun c hc => hleft c (squeezeFrom_subset _ _ hc)
  · exact fun c hc => hright c (squeezeFrom_subset _ _ hc)
  · rw [head?_squeeze]
    exact h.head
  · intro c hc
    rcases hlast : (trimBy white cs).getLast? with _ | d
    · rw [List.getLast?_eq_none_iff.mp hlast] at hc
      cases hc
    · have hd := h.last d hlast
      rw [squeeze, getLast?_squeezeFrom hlast (hne d hd)] at hc
      rw [← Option.some.inj hc]
      exact hd

theorem squeeze_replicate (left right : List α) (n : Nat) :
    squeeze space (left ++ (List.replicate (n + 1) space ++ right)) =
      squeeze space (left ++ (space :: right)) := by
  have hrun : ∀ after, squeezeFrom space after (List.replicate (n + 1) space ++ right) =
      squeezeFrom space after (space :: right) := by
    induction n with
    | zero => exact fun _ => rfl
    | succ n ih =>
      intro after
      rw [List.replicate_succ, List.cons_append, squeezeFrom, if_pos rfl, ih true]
      cases after <;> simp [squeezeFrom]
  rw [squeeze, squeeze, squeezeFrom_append false left, squeezeFrom_append false left, hrun]

/-! ## Two adjacent spaces -/

omit [DecidableEq α] in
theorem doubled_cons {c : α} {cs : List α} :
    [space, space] <:+: c :: cs ↔ c = space ∧ cs.head? = some space ∨ [space, space] <:+: cs := by
  rw [List.infix_cons_iff]
  refine or_congr_left ?_
  rcases cs with _ | ⟨d, cs⟩
  · simp
  · simp [List.cons_prefix_cons, eq_comm]

theorem not_doubled_squeezeFrom (after : Bool) (cs : List α) :
    ¬ [space, space] <:+: squeezeFrom space after cs ∧
      (after = true → (squeezeFrom space after cs).head? ≠ some space) := by
  induction cs generalizing after with
  | nil => simp [squeezeFrom]
  | cons c cs ih =>
    rw [squeezeFrom]
    by_cases hc : c = space
    · obtain ⟨hnot, hhead⟩ := ih true
      rw [if_pos hc]
      by_cases hafter : after = true
      · rw [if_pos hafter]
        exact ⟨hnot, fun _ => hhead rfl⟩
      · rw [if_neg hafter, doubled_cons]
        refine ⟨?_, fun h => absurd h hafter⟩
        rintro (⟨-, hspace⟩ | hmem)
        · exact hhead rfl hspace
        · exact hnot hmem
    · obtain ⟨hnot, -⟩ := ih false
      rw [if_neg hc, doubled_cons]
      refine ⟨?_, fun _ he => hc (Option.some.inj he)⟩
      rintro (⟨he, -⟩ | hmem)
      · exact hc he
      · exact hnot hmem

theorem squeezeFrom_of_not_doubled {after : Bool} {cs : List α} (h : ¬ [space, space] <:+: cs)
    (hhead : after = true → cs.head? ≠ some space) : squeezeFrom space after cs = cs := by
  induction cs generalizing after with
  | nil => rfl
  | cons c cs ih =>
    rw [doubled_cons, not_or, not_and] at h
    obtain ⟨hnext, hrest⟩ := h
    rw [squeezeFrom]
    by_cases hc : c = space
    · have hafter : ¬ after = true := fun h => hhead h (congrArg some hc)
      rw [if_pos hc, if_neg hafter, ih hrest fun _ => hnext hc]
    · rw [if_neg hc, ih hrest (by simp)]

theorem squeeze_eq_self {cs : List α} : squeeze space cs = cs ↔ ¬ [space, space] <:+: cs := by
  constructor
  · intro h
    rw [← h]
    exact (not_doubled_squeezeFrom false cs).1
  · intro h
    exact squeezeFrom_of_not_doubled h (by simp)

end

/-- Two adjacent spaces with something other than white space before and after them. -/
def Inside (white : α → Bool) (space : α) (cs : List α) : Prop :=
  ∃ a b, cs = a ++ space :: space :: b ∧ (∃ c ∈ a, white c = false) ∧ ∃ c ∈ b, white c = false

/-- **The spaces that trimming leaves side by side.** -/
theorem doubled_trimBy {white : α → Bool} {space : α} (hspace : white space = true) (cs : List α) :
    [space, space] <:+: trimBy white cs ↔ Inside white space cs := by
  have h := trims white cs
  obtain ⟨left, right, hcs, hleft, hright⟩ := h.ends
  generalize trimBy white cs = core at h hcs
  constructor
  · rintro ⟨a, b, rfl⟩
    refine ⟨left ++ a, b ++ right, by simp [hcs], ?_, ?_⟩
    · -- The text that is left begins with no space, so something stands in front of the two.
      rcases a with _ | ⟨c, a⟩
      · have hwhite := h.head space rfl
        rw [hspace] at hwhite
        cases hwhite
      · exact ⟨c, by simp, h.head c rfl⟩
    · rcases List.eq_nil_or_concat b with rfl | ⟨b, d, rfl⟩
      · have hwhite := h.last space (by simp)
        rw [hspace] at hwhite
        cases hwhite
      · refine ⟨d, by simp, h.last d ?_⟩
        rw [List.concat_eq_append, ← List.append_assoc]
        exact List.getLast?_concat
  · rintro ⟨a, b, he, ⟨c, hca, hc⟩, d, hdb, hd⟩
    rw [he, List.append_assoc] at hcs
    rcases List.append_eq_append_iff.mp hcs with ⟨e, rfl, -⟩ | ⟨a', rfl, hcore⟩
    · have hwhite := hleft c (List.mem_append_left e hca)
      rw [hc] at hwhite
      cases hwhite
    · rw [show a' ++ space :: space :: b = (a' ++ [space, space]) ++ b by simp] at hcore
      rcases List.append_eq_append_iff.mp hcore with ⟨e, -, rfl⟩ | ⟨e, hcore, -⟩
      · have hwhite := hright d (List.mem_append_right e hdb)
        rw [hd] at hwhite
        cases hwhite
      · exact ⟨a', e, hcore.symm⟩

end Spacing
end Esr
