import Mathlib.Logic.Function.Basic

/-! # Stages, each with a row of its own

A procedure is a sequence of stages.  Each of them reads and writes one row, its own, and
may fail; the procedure ends at the first stage that fails, and nothing is undone.
-/
namespace Esr

/-- A piece of work on a row.  The row that it leaves counts also when it fails. -/
abbrev Stage (R E : Type) := R → Except E Unit × R

namespace Stage
variable {R E A : Type}

/-- `Enum.each/2`: the work for one element after the other. -/
def each (f : A → Stage R E) : List A → Stage R E
  | [], r => (.ok (), r)
  | a :: as, r =>
      match f a r with
      | (.ok (), r') => each f as r'
      | (.error e, r') => (.error e, r')

theorem each_error {f : A → Stage R E} {as : List A} {r : R} {e : E}
    (h : (each f as r).1 = .error e) : ∃ a ∈ as, ∃ r', (f a r').1 = .error e := by
  induction as generalizing r with
  | nil => cases h
  | cons a as ih =>
    rw [each] at h
    split at h
    · obtain ⟨b, hb, r', hr'⟩ := ih h
      exact ⟨b, List.mem_cons_of_mem _ hb, r', hr'⟩
    · rename_i e' r' hf
      exact ⟨a, List.mem_cons_self, r, by rw [hf]; exact h⟩

end Stage

namespace Stages
variable {P E : Type} [DecidableEq P] {Rows : P → Type}

/-- The stages in turn, up to the first one that fails. -/
def runAll (stage : ∀ p, Stage (Rows p) E) : List P → (∀ p, Rows p) → Except E Unit × ∀ p, Rows p
  | [], s => (.ok (), s)
  | p :: ps, s =>
      match stage p (s p) with
      | (.ok (), row) => runAll stage ps (Function.update s p row)
      | (.error e, row) => (.error e, Function.update s p row)

variable {stage : ∀ p, Stage (Rows p) E}

/-- The stage has run and succeeded. -/
structure Done (stage : ∀ p, Stage (Rows p) E) (s s' : ∀ p, Rows p) (p : P) : Prop where
  ok : (stage p (s p)).1 = .ok ()
  row : s' p = (stage p (s p)).2

/-- The first stage to fail: the ones before it are done, its own row is what it left
there, and the rows of the others are untouched. -/
structure FailedAt (stage : ∀ p, Stage (Rows p) E) (ps : List P) (s s' : ∀ p, Rows p) (p : P)
    (e : E) : Prop where
  error : (stage p (s p)).1 = .error e
  row : s' p = (stage p (s p)).2
  parts : ∃ before after, ps = before ++ p :: after ∧ (∀ q ∈ before, Done stage s s' q) ∧
    ∀ q, q ∉ before → q ≠ p → s' q = s q

/-- **A procedure** does all of its stages, or ends at the first that fails. -/
theorem runAll_cases (ps : List P) (hps : ps.Nodup) (s : ∀ p, Rows p) :
    (∃ s', runAll stage ps s = (.ok (), s') ∧ (∀ p ∈ ps, Done stage s s' p) ∧
      ∀ q, q ∉ ps → s' q = s q) ∨
    ∃ s' p e, runAll stage ps s = (.error e, s') ∧ FailedAt stage ps s s' p e := by
  induction ps generalizing s with
  | nil => exact .inl ⟨s, rfl, fun _ h => (nomatch h), fun _ _ => rfl⟩
  | cons p ps ih =>
    obtain ⟨hp, hnodup⟩ := List.nodup_cons.mp hps
    rw [runAll]
    rcases hrun : stage p (s p) with ⟨result, row⟩
    have hother : ∀ q, q ≠ p → Function.update s p row q = s q :=
      fun q hq => Function.update_of_ne hq row s
    have hmoved : ∀ q ∈ ps, Function.update s p row q = s q :=
      fun q hq => hother q fun he => hp (he ▸ hq)
    cases result with
    | error e =>
      refine .inr ⟨_, p, e, rfl, by rw [hrun], by rw [hrun, Function.update_self], [], ps, rfl,
        fun _ h => (nomatch h), fun q _ hq => hother q hq⟩
    | ok _ =>
      have hdone : ∀ {s' : ∀ p, Rows p}, s' p = Function.update s p row p → Done stage s s' p :=
        fun h => ⟨by rw [hrun], by rw [h, Function.update_self, hrun]⟩
      have hback : ∀ {s' : ∀ p, Rows p} {q : P}, q ∈ ps →
          Done stage (Function.update s p row) s' q → Done stage s s' q := by
        intro s' q hq h
        exact ⟨by rw [← hmoved q hq]; exact h.ok, by rw [← hmoved q hq]; exact h.row⟩
      rcases ih hnodup (Function.update s p row) with
        ⟨s', hall, hdones, hrest⟩ | ⟨s', q, e, hall, hfailed⟩
      · refine .inl ⟨s', hall, fun q hq => ?_, fun q hq => ?_⟩
        · rcases List.mem_cons.mp hq with rfl | hq
          · exact hdone (hrest _ hp)
          · exact hback hq (hdones q hq)
        · rw [hrest q fun h => hq (List.mem_cons_of_mem _ h),
            hother q fun h => hq (h ▸ List.mem_cons_self)]
      · obtain ⟨herror, hrow, before, after, rfl, hdones, hrest⟩ := hfailed
        have hq : q ∈ before ++ q :: after := List.mem_append_right _ List.mem_cons_self
        rw [hmoved q hq] at herror hrow
        refine .inr ⟨s', q, e, hall, herror, hrow, p :: before, after, rfl, fun t ht => ?_,
          fun t ht htq => ?_⟩
        · rcases List.mem_cons.mp ht with rfl | ht
          · exact hdone (hrest _ (fun h => hp (List.mem_append_left _ h)) fun h => hp (h ▸ hq))
          · exact hback (List.mem_append_left _ ht) (hdones t ht)
        · rw [hrest t (fun h => ht (List.mem_cons_of_mem _ h)) htq,
            hother t fun h => ht (h ▸ List.mem_cons_self)]

theorem FailedAt.untouched {ps : List P} {s s' : ∀ p, Rows p} {p : P} {e : E}
    (h : FailedAt stage ps s s' p e) (hps : ps.Nodup) {q : P}
    (hq : q ∉ ps.takeWhile fun t => t ≠ p) (hne : q ≠ p) : s' q = s q := by
  obtain ⟨before, after, rfl, -, hrest⟩ := h.parts
  refine hrest q (fun hmem => hq ?_) hne
  have hbefore : ∀ t ∈ before, decide (t ≠ p) = true := by
    intro t ht
    have hapart := (List.nodup_append.mp hps).2.2 t ht p List.mem_cons_self
    exact decide_eq_true hapart
  rw [List.takeWhile_append_of_pos hbefore]
  exact List.mem_append_left _ hmem

end Stages
end Esr
