import Mathlib.Data.List.Basic

/-! # Insertion-ordered dictionaries

A Python `dict`: one value per key, in the order in which the keys were first set.
`set` of a key that is there keeps its place, `pop` takes it out, and `items` is
what iterating over the dictionary gives.
-/
namespace Esr

/-- The items in their order, with the proof that no key occurs twice. -/
structure Dict (K V : Type) where
  items : List (K × V)
  nodup : (items.map Prod.fst).Nodup

namespace Dict
variable {K V : Type}

/-- `{}`. -/
def empty : Dict K V := ⟨[], List.nodup_nil⟩

variable [DecidableEq K]

/-- The items after `d[k] = v`. -/
def setItems (k : K) (v : V) : List (K × V) → List (K × V)
  | [] => [(k, v)]
  | (a, w) :: rest => if a = k then (k, v) :: rest else (a, w) :: setItems k v rest

theorem mem_keys_setItems {k a : K} {v : V} (l : List (K × V)) :
    a ∈ (setItems k v l).map Prod.fst ↔ a = k ∨ a ∈ l.map Prod.fst := by
  induction l with
  | nil => simp [setItems]
  | cons r rest ih =>
    unfold setItems
    split
    · rename_i h
      simp [← h]
    · rw [List.map_cons, List.mem_cons, ih, List.map_cons, List.mem_cons]
      tauto

theorem nodup_setItems (k : K) (v : V) {l : List (K × V)} (h : (l.map Prod.fst).Nodup) :
    ((setItems k v l).map Prod.fst).Nodup := by
  induction l with
  | nil => simp [setItems]
  | cons r rest ih =>
    obtain ⟨hnot, hrest⟩ := List.nodup_cons.mp h
    unfold setItems
    split
    · rename_i he
      exact List.nodup_cons.mpr ⟨he ▸ hnot, hrest⟩
    · rename_i hne
      refine List.nodup_cons.mpr ⟨?_, ih hrest⟩
      intro hmem
      rcases (mem_keys_setItems rest).mp hmem with he | hin
      · exact hne he
      · exact hnot hin

/-- `d[k] = v`. -/
def set (d : Dict K V) (k : K) (v : V) : Dict K V :=
  ⟨setItems k v d.items, nodup_setItems k v d.nodup⟩

/-- `d.pop(k, None)`, without its value. -/
def pop (d : Dict K V) (k : K) : Dict K V where
  items := d.items.filter fun r => r.1 ≠ k
  nodup := d.nodup.sublist (List.filter_sublist.map Prod.fst)

/-- `d.get(k)`. -/
def get (d : Dict K V) (k : K) : Option V := (d.items.find? fun r => r.1 = k).map Prod.snd

/-! ## What each operation does to `get` -/

theorem get_eq_some {d : Dict K V} {k : K} {v : V} : d.get k = some v ↔ (k, v) ∈ d.items := by
  obtain ⟨l, hnodup⟩ := d
  show (l.find? fun r => r.1 = k).map Prod.snd = some v ↔ (k, v) ∈ l
  induction l with
  | nil => simp
  | cons r rest ih =>
    obtain ⟨hnot, hrest⟩ := List.nodup_cons.mp hnodup
    by_cases hk : r.1 = k
    · rw [List.find?_cons_of_pos (by simpa using hk), Option.map_some, Option.some.injEq,
        List.mem_cons]
      constructor
      · intro hv
        exact Or.inl (Prod.ext hk.symm hv.symm)
      · intro hmem
        rcases hmem with he | hin
        · exact congrArg Prod.snd he.symm
        · exact absurd (List.mem_map_of_mem hin) (hk ▸ hnot)
    · have hne : (k, v) ≠ r := fun he => hk (congrArg Prod.fst he).symm
      rw [List.find?_cons_of_neg (by simpa using hk), ih hrest, List.mem_cons, or_iff_right hne]

theorem get_set (d : Dict K V) (k k' : K) (v : V) :
    (d.set k v).get k' = if k' = k then some v else d.get k' := by
  obtain ⟨l, hnodup⟩ := d
  show ((setItems k v l).find? fun r => r.1 = k').map Prod.snd =
    if k' = k then some v else (l.find? fun r => r.1 = k').map Prod.snd
  clear hnodup
  induction l with
  | nil =>
    by_cases hk : k = k'
    · simp [setItems, hk]
    · simp [setItems, hk, Ne.symm hk]
  | cons r rest ih =>
    unfold setItems
    by_cases hr : r.1 = k
    · rw [if_pos hr]
      by_cases hk : k = k'
      · simp [hk]
      · have hrk : r.1 ≠ k' := hr ▸ hk
        simp [hk, Ne.symm hk, hrk]
    · rw [if_neg hr]
      by_cases hrk : r.1 = k'
      · have hk : k' ≠ k := hrk ▸ hr
        simp [hrk, hk]
      · simpa [hrk] using ih

@[simp] theorem get_set_self (d : Dict K V) (k : K) (v : V) : (d.set k v).get k = some v := by
  rw [get_set, if_pos rfl]

theorem get_set_of_ne (d : Dict K V) {k k' : K} (v : V) (h : k' ≠ k) :
    (d.set k v).get k' = d.get k' := by
  rw [get_set, if_neg h]

/-- `d[k] = v` for each pair of a list. -/
def setEach (d : Dict K V) (ps : List (K × V)) : Dict K V := ps.foldl (fun d p => d.set p.1 p.2) d

theorem get_setEach (d : Dict K V) (ps : List (K × V)) (k : K) :
    (d.setEach ps).get k = ((ps.reverse.find? fun p => p.1 = k).map Prod.snd).or (d.get k) := by
  induction ps generalizing d with
  | nil => rfl
  | cons p ps ih =>
    have hstep : d.setEach (p :: ps) = (d.set p.1 p.2).setEach ps := rfl
    rw [hstep, ih, get_set, List.reverse_cons, List.find?_append]
    cases ps.reverse.find? fun p => p.1 = k with
    | some q => rfl
    | none =>
      by_cases hk : k = p.1
      · simp [hk]
      · simp [hk, Ne.symm hk]

theorem get_setEach_append (d : Dict K V) (ps qs : List (K × V)) (k : K) :
    (d.setEach (ps ++ qs)).get k = ((Dict.empty.setEach qs).get k).or ((d.setEach ps).get k) := by
  have hempty : (Dict.empty : Dict K V).get k = none := rfl
  rw [get_setEach, get_setEach, get_setEach, hempty, List.reverse_append, List.find?_append]
  cases qs.reverse.find? fun p => p.1 = k <;> simp

theorem get_setEach_insert (d : Dict K V) (pre post : List (K × V)) (k : K) (v : V) (k' : K) :
    (d.setEach (pre ++ (k, v) :: post)).get k' =
      if k' = k then some (((Dict.empty.setEach post).get k).getD v)
      else (d.setEach (pre ++ post)).get k' := by
  have hcons : (Dict.empty.setEach ((k, v) :: post)).get k' =
      ((Dict.empty.setEach post).get k').or (((Dict.empty : Dict K V).set k v).get k') :=
    get_setEach_append Dict.empty [(k, v)] post k'
  have hempty : (Dict.empty : Dict K V).get k' = none := rfl
  rw [get_setEach_append, get_setEach_append, hcons, get_set, hempty]
  by_cases he : k' = k
  · subst he
    cases (Dict.empty.setEach post).get k' <;> simp
  · simp [he]

end Dict
end Esr
