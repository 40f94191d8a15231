import Mathlib.Data.List.Basic

/-! # Marks that are set and cleared

A mark with a value is set and cleared, in any order and any number of times.  `scan`
reads the sequence and fails at a clearing of what is not set, so a sequence that it
reads has at most one clearing for each setting.
-/
namespace Esr

/-- One event of a mark. -/
inductive Mark (E : Type) where
  | set (e : E)
  | clear (e : E)
deriving DecidableEq

namespace Mark
variable {E : Type} [DecidableEq E]

/-- What is set after these events, from what was set before. -/
def scan : Option E → List (Mark E) → Option (Option E)
  | r, [] => some r
  | _, .set e :: ms => scan (some e) ms
  | r, .clear e :: ms => if r = some e then scan none ms else none

omit [DecidableEq E] in
/-- The event sets the mark. -/
def isSet : Mark E → Bool
  | .set _ => true
  | .clear _ => false

@[simp] theorem scan_nil (r : Option E) : scan r [] = some r := rfl

theorem scan_append (r : Option E) (ms ns : List (Mark E)) :
    scan r (ms ++ ns) = (scan r ms).bind fun r' => scan r' ns := by
  induction ms generalizing r with
  | nil => rfl
  | cons a ms ih =>
    cases a with
    | set e => exact ih (some e)
    | clear e =>
      rw [List.cons_append, scan, scan]
      split
      · exact ih none
      · rfl

theorem count_clear_le {r r' : Option E} {ms : List (Mark E)} (h : scan r ms = some r') :
    ms.countP (fun a => !a.isSet) ≤ ms.countP isSet + r.toList.length := by
  induction ms generalizing r with
  | nil => simp
  | cons a ms ih =>
    cases a with
    | set e =>
      have hle := ih h
      rw [List.countP_cons_of_neg (by simp [isSet]), List.countP_cons_of_pos rfl]
      simp only [Option.toList_some, List.length_singleton] at hle
      omega
    | clear e =>
      rw [scan] at h
      split at h
      · rename_i hr
        have hle := ih h
        rw [List.countP_cons_of_pos rfl, List.countP_cons_of_neg (by simp [isSet]), hr]
        simp only [Option.toList_none, List.length_nil, Option.toList_some,
          List.length_singleton] at hle ⊢
        omega
      · cases h

theorem eq_nil_of_no_set {r : Option E} {ms : List (Mark E)} (h : scan none ms = some r)
    (hset : ∀ a ∈ ms, a.isSet = false) : ms = [] := by
  cases ms with
  | nil => rfl
  | cons a ms =>
    cases a with
    | set e => cases hset _ List.mem_cons_self
    | clear e => cases h

theorem scan_of_no_clear {e : E} {r : Option E} {ms : List (Mark E)} (hset : ∀ a ∈ ms, a = .set e) :
    scan r ms = some (if ms = [] then r else some e) := by
  induction ms generalizing r with
  | nil => rfl
  | cons a ms ih =>
    obtain rfl := hset a List.mem_cons_self
    rw [scan, ih fun a ha => hset a (List.mem_cons_of_mem _ ha)]
    split <;> simp

theorem eq_pair {ms : List (Mark E)} (h : scan none ms = some none)
    (hone : ms.countP isSet = 1) : ∃ e, ms = [.set e, .clear e] := by
  cases ms with
  | nil => cases hone
  | cons a ms =>
    cases a with
    | clear e => cases h
    | set e =>
      rw [List.countP_cons_of_pos rfl] at hone
      have hrest : ∀ a ∈ ms, a.isSet = false := by
        have hzero := List.countP_eq_zero.mp (Nat.succ.inj hone)
        exact fun a ha => Bool.eq_false_iff.mpr (hzero a ha)
      cases ms with
      | nil => cases h
      | cons a ms =>
        cases a with
        | set e' => cases hrest _ List.mem_cons_self
        | clear e' =>
          rw [scan, scan] at h
          split at h
          · rename_i he
            obtain rfl := Option.some.inj he
            obtain rfl := eq_nil_of_no_set h fun a ha => hrest a (List.mem_cons_of_mem _ ha)
            exact ⟨e, rfl⟩
          · cases h

end Mark
end Esr
