import Mathlib.Logic.Basic

/-! # Runs of a labelled transition system

A component is a partial step function `step : S → A → Option S`: `step s a` is
the state after the action `a`, and `none` when `a` cannot happen in `s`.  A
`Run` is a finite sequence of actions, oldest first, with a side condition `ok`
that every step has to meet in the state it starts from; the condition `anyStep`
gives all runs.

The rule every client uses is `Run.invariant`: what every step preserves holds at
the end of every run.  `Run.iff_of_exact` is the rule for a condition that is exact.
`Run.of_exec` turns an executed list of actions into a run.
-/
namespace Esr

variable {S A : Type}

/-- `Run step ok s as t`: the actions `as` lead from `s` to `t`, and each of them
met `ok` in the state it was taken in. -/
inductive Run (step : S → A → Option S) (ok : S → A → Prop) (s : S) : List A → S → Prop
  | nil : Run step ok s [] s
  | snoc {as : List A} {t : S} {a : A} {u : S} :
      Run step ok s as t → ok t a → step t a = some u → Run step ok s (as ++ [a]) u

/-- The side condition that excludes nothing. -/
def anyStep : S → A → Prop := fun _ _ => True

/-- The states reached from `s` by runs whose steps all meet `ok`. -/
def Reaches (step : S → A → Option S) (ok : S → A → Prop) (s t : S) : Prop :=
  ∃ as, Run step ok s as t

instance (s : S) (a : A) : Decidable (anyStep s a) := isTrue trivial

theorem guard_eq_some {c : Prop} [Decidable c] {s t : S} :
    (if c then some s else none) = some t ↔ c ∧ s = t := by
  rw [Option.ite_none_right_eq_some, Option.some.injEq]

/-- Execute a list of actions, stopping at the first one that is impossible or
does not meet the side condition. -/
def exec (step : S → A → Option S) (ok : S → A → Prop) [∀ s a, Decidable (ok s a)] (s : S) :
    List A → Option S
  | [] => some s
  | a :: as => if ok s a then (step s a).bind fun t => exec step ok t as else none

namespace Run
variable {step : S → A → Option S} {ok ok' : S → A → Prop} {s t u : S} {as bs : List A}

/-- **The invariant rule.** -/
theorem invariant {Inv : S → Prop} (h0 : Inv s)
    (hstep : ∀ t a u, Inv t → ok t a → step t a = some u → Inv u)
    (hr : Run step ok s as t) : Inv t := by
  induction hr with
  | nil => exact h0
  | snoc _ hok hs ih => exact hstep _ _ _ ih hok hs

theorem append (hr : Run step ok s as t) (hr' : Run step ok t bs u) :
    Run step ok s (as ++ bs) u := by
  induction hr' with
  | nil => simpa using hr
  | snoc _ hok hs ih =>
    rw [← List.append_assoc]
    exact .snoc ih hok hs

theorem cons {a : A} (hok : ok s a) (hs : step s a = some t) (hr : Run step ok t as u) :
    Run step ok s (a :: as) u :=
  append (.snoc .nil hok hs) hr

theorem of_exec [∀ s a, Decidable (ok s a)] (h : exec step ok s as = some t) :
    Run step ok s as t := by
  induction as generalizing s with
  | nil =>
    obtain rfl := Option.some.inj h
    exact .nil
  | cons a as ih =>
    unfold exec at h
    split at h
    · rename_i hok
      obtain ⟨s', hs, h'⟩ := Option.bind_eq_some_iff.mp h
      exact .cons hok hs (ih h')
    · cases h

theorem unguarded (hr : Run step ok s as t) : Run step anyStep s as t := by
  induction hr with
  | nil => exact .nil
  | snoc _ _ hs ih => exact .snoc ih trivial hs

theorem last_step {a : A} (hr : Run step ok s (as ++ [a]) u) :
    ∃ t, Run step ok s as t ∧ ok t a ∧ step t a = some u := by
  generalize hbs : as ++ [a] = bs at hr
  rcases hr with _ | ⟨hr, hok, hs⟩
  · simp at hbs
  · obtain ⟨rfl, hlast⟩ := List.append_inj' hbs rfl
    obtain rfl := (List.cons.inj hlast).1
    exact ⟨_, hr, hok, hs⟩

/-- The actions determine where a run ends. -/
theorem functional (hr : Run step ok s as t) (hr' : Run step ok' s as u) : t = u := by
  induction hr generalizing u with
  | nil =>
    generalize hbs : [] = bs at hr'
    rcases hr' with _ | _
    · rfl
    · simp at hbs
  | snoc _ _ hs ih =>
    obtain ⟨t', hr', -, hs'⟩ := last_step hr'
    obtain rfl := ih hr'
    exact Option.some.inj (hs.symm.trans hs')

/-- **The exactness rule.**  Where a step keeps `Inv` exactly if it meets `ok`, the states
a run comes through all have `Inv` exactly if its steps all meet `ok`. -/
theorem iff_of_exact {Inv : S → Prop} (h0 : Inv s)
    (hstep : ∀ t a u, Reaches step anyStep s t → Inv t → step t a = some u → (Inv u ↔ ok t a))
    (hr : Run step anyStep s as t) :
    (∀ bs u, bs <+: as → Run step anyStep s bs u → Inv u) ↔ Run step ok s as t := by
  induction hr with
  | nil =>
    refine iff_of_true (fun bs u hbs hu => ?_) .nil
    obtain rfl := List.prefix_nil.mp hbs
    obtain rfl := functional hu (.nil : Run step anyStep s [] s)
    exact h0
  | @snoc as t a u hr _ hs ih =>
    have hexact := fun ht => hstep t a u ⟨as, hr⟩ ht hs
    have hlast : Run step anyStep s (as ++ [a]) u := .snoc hr trivial hs
    constructor
    · intro h
      have ht := h as t (List.prefix_append as [a]) hr
      have hu := h (as ++ [a]) u (List.prefix_refl _) hlast
      exact .snoc (ih.mp fun bs v hbs => h bs v (hbs.trans (List.prefix_append as [a])))
        ((hexact ht).mp hu) hs
    · intro h bs v hbs hv
      obtain ⟨t', hrun, hok, -⟩ := last_step h
      obtain rfl := functional hr hrun
      rcases List.prefix_concat_iff.mp hbs with rfl | hbs
      · obtain rfl := functional hlast hv
        exact (hexact (ih.mpr hrun as t (List.prefix_refl _) hr)).mpr hok
      · exact ih.mpr hrun bs v hbs hv
end Run

theorem Reaches.invariant {step : S → A → Option S} {ok : S → A → Prop} {s t : S}
    {Inv : S → Prop} (h : Reaches step ok s t) (h0 : Inv s)
    (hstep : ∀ t a u, Inv t → ok t a → step t a = some u → Inv u) : Inv t := by
  obtain ⟨_, hr⟩ := h
  exact hr.invariant h0 hstep

theorem Reaches.anyStep {step : S → A → Option S} {ok : S → A → Prop} {s t : S}
    (h : Reaches step ok s t) : Reaches step anyStep s t := by
  obtain ⟨as, hr⟩ := h
  exact ⟨as, hr.unguarded⟩

theorem Reaches.of_exec {step : S → A → Option S} {ok : S → A → Prop}
    [∀ s a, Decidable (ok s a)] {s t : S} {as : List A} (h : exec step ok s as = some t) :
    Reaches step ok s t := ⟨as, .of_exec h⟩

theorem snoc_eq_split {α : Type} {h before after : List α} {u t : α}
    (he : h ++ [u] = before ++ t :: after) :
    (after = [] ∧ u = t ∧ h = before) ∨
      ∃ after', after = after' ++ [u] ∧ h = before ++ t :: after' := by
  rcases List.eq_nil_or_concat after with rfl | ⟨after', last, rfl⟩
  · obtain ⟨hh, hu⟩ := List.append_inj' he rfl
    exact .inl ⟨rfl, (List.cons.inj hu).1, hh⟩
  · rw [List.concat_eq_append, ← List.cons_append, ← List.append_assoc] at he
    rw [List.concat_eq_append]
    obtain ⟨hh, hu⟩ := List.append_inj' he rfl
    obtain rfl := (List.cons.inj hu).1
    exact .inr ⟨after', rfl, hh⟩

end Esr
