import Mathlib.Data.List.AList

/-! # Tables of unique keys

The runtime keeps its shared state in ETS tables of type `:set`: at most one row
per key, an insert replaces the row of its key, and a lookup is one atomic read.
This module is that table and nothing else: `lookup`, `insert`, `delete`,
`deleteAllObjects` and `tab2list`, each with the one equation that says what it
does to `lookup`.  Loops over a table (`deleteEach`, `deleteWhere`, `insertEach`)
have the same kind of equation, so a client never looks at the rows themselves.
-/
namespace Esr

/-- An ETS `:set` table, as the list of its rows with the proof that no key
occurs twice. -/
structure Ets (K V : Type) where
  rows : AList fun _ : K => V

namespace Ets
variable {K V : Type}

/-- The table with no rows, as `:ets.new/2` creates it. -/
def empty : Ets K V := ⟨∅⟩

/-- `:ets.tab2list/1`. -/
def tab2list (t : Ets K V) : List (K × V) := t.rows.entries.map fun r => (r.1, r.2)

/-- The keys, in the order of `tab2list`. -/
def keys (t : Ets K V) : List K := t.rows.keys

variable [DecidableEq K]

/-- `:ets.lookup/2`, with `none` for the empty list. -/
def lookup (t : Ets K V) (k : K) : Option V := t.rows.lookup k

/-- `:ets.insert/2`: the row of `k` is replaced or created. -/
def insert (t : Ets K V) (k : K) (v : V) : Ets K V := ⟨t.rows.insert k v⟩

/-- `:ets.delete/2`. -/
def delete (t : Ets K V) (k : K) : Ets K V := ⟨t.rows.erase k⟩

/-- `Enum.each(ks, &:ets.delete(t, &1))`. -/
def deleteEach (t : Ets K V) (ks : List K) : Ets K V := ks.foldl delete t

/-- `Enum.each(:ets.tab2list(t), fn row -> if p.(row), do: :ets.delete(t, key) end)`. -/
def deleteWhere (t : Ets K V) (p : K → V → Bool) : Ets K V :=
  t.deleteEach ((t.tab2list.filter fun r => p r.1 r.2).map Prod.fst)

/-- `Enum.each(rows, fn {k, v} -> :ets.insert(t, {k, v}) end)`. -/
def insertEach (t : Ets K V) (rs : List (K × V)) : Ets K V :=
  rs.foldl (fun t r => t.insert r.1 r.2) t

/-! ## What each operation does to a lookup -/

@[simp] theorem lookup_empty (k : K) : (empty : Ets K V).lookup k = none :=
  AList.lookup_empty k

theorem lookup_insert (t : Ets K V) (k k' : K) (v : V) :
    (t.insert k v).lookup k' = if k' = k then some v else t.lookup k' := by
  unfold lookup insert
  split
  · rename_i h
    subst h
    exact AList.lookup_insert _
  · rename_i h
    exact AList.lookup_insert_ne h

@[simp] theorem lookup_insert_self (t : Ets K V) (k : K) (v : V) :
    (t.insert k v).lookup k = some v := by
  rw [lookup_insert, if_pos rfl]

theorem lookup_insert_of_ne (t : Ets K V) {k k' : K} (v : V) (h : k' ≠ k) :
    (t.insert k v).lookup k' = t.lookup k' := by
  rw [lookup_insert, if_neg h]

theorem lookup_delete (t : Ets K V) (k k' : K) :
    (t.delete k).lookup k' = if k' = k then none else t.lookup k' := by
  unfold lookup delete
  split
  · rename_i h
    subst h
    exact AList.lookup_erase _ _
  · rename_i h
    exact AList.lookup_erase_ne h

@[simp] theorem lookup_delete_self (t : Ets K V) (k : K) : (t.delete k).lookup k = none := by
  rw [lookup_delete, if_pos rfl]

theorem lookup_delete_of_ne (t : Ets K V) {k k' : K} (h : k' ≠ k) :
    (t.delete k).lookup k' = t.lookup k' := by
  rw [lookup_delete, if_neg h]

theorem lookup_deleteEach (ks : List K) (t : Ets K V) (k : K) :
    (t.deleteEach ks).lookup k = if k ∈ ks then none else t.lookup k := by
  induction ks generalizing t with
  | nil => simp [deleteEach]
  | cons a ks ih =>
    have hstep : t.deleteEach (a :: ks) = (t.delete a).deleteEach ks := rfl
    rw [hstep, ih, lookup_delete]
    by_cases hk : k ∈ ks
    · simp [hk]
    · by_cases ha : k = a <;> simp [hk, ha]

theorem mem_tab2list {t : Ets K V} {k : K} {v : V} :
    (k, v) ∈ t.tab2list ↔ t.lookup k = some v := by
  have hrow : (⟨k, v⟩ : (_ : K) × V) ∈ t.rows.entries ↔ t.lookup k = some v :=
    AList.mem_lookup_iff.symm
  rw [← hrow, tab2list, List.mem_map]
  constructor
  · rintro ⟨r, hr, he⟩
    obtain ⟨rfl, rfl⟩ := Prod.mk.inj he
    exact hr
  · intro h
    exact ⟨_, h, rfl⟩

theorem tab2list_insert_of_none {t : Ets K V} {k : K} (h : t.lookup k = none) (v : V) :
    (t.insert k v).tab2list = (k, v) :: t.tab2list := by
  unfold tab2list insert
  rw [AList.entries_insert_of_notMem (AList.lookup_eq_none.mp h), List.map_cons]

omit [DecidableEq K] in
theorem nodup_tab2list (t : Ets K V) : t.tab2list.Nodup := by
  refine List.Nodup.map ?_ (List.Nodup.of_map _ t.rows.keys_nodup)
  intro r r' h
  obtain ⟨hk, hv⟩ := Prod.mk.inj h
  exact Sigma.ext hk (heq_of_eq hv)

omit [DecidableEq K] in
theorem nodup_map_fst_tab2list (t : Ets K V) : (t.tab2list.map Prod.fst).Nodup := by
  have hfst : t.tab2list.map Prod.fst = t.rows.keys := by
    rw [tab2list, List.map_map]
    rfl
  rw [hfst]
  exact t.rows.keys_nodup

theorem mem_keys {t : Ets K V} {k : K} : k ∈ t.keys ↔ ∃ v, t.lookup k = some v := by
  rw [← Option.isSome_iff_exists]
  exact AList.lookup_isSome.symm

theorem lookup_deleteWhere (t : Ets K V) (p : K → V → Bool) (k : K) :
    (t.deleteWhere p).lookup k = (t.lookup k).filter fun v => !p k v := by
  have hmem : k ∈ (t.tab2list.filter fun r => p r.1 r.2).map Prod.fst ↔
      ∃ v, t.lookup k = some v ∧ p k v = true := by
    simp only [List.mem_map, List.mem_filter, Prod.exists, exists_and_right, exists_eq_right,
      mem_tab2list]
  rw [deleteWhere, lookup_deleteEach]
  cases hrow : t.lookup k with
  | none => simp
  | some v =>
    rw [hrow] at hmem
    by_cases hp : p k v = true
    · rw [if_pos (hmem.mpr ⟨v, rfl, hp⟩), Option.filter_some, hp]
      rfl
    · have hk : k ∉ (t.tab2list.filter fun r => p r.1 r.2).map Prod.fst := by
        intro h
        obtain ⟨w, hw, hpw⟩ := hmem.mp h
        exact hp (Option.some.inj hw ▸ hpw)
      rw [if_neg hk, Option.filter_some, Bool.eq_false_iff.mpr hp]
      rfl

theorem lookup_foldl_tab2list {g : Ets K V → K × V → Ets K V} {f : K → V → Option V}
    (hg : ∀ (t : Ets K V) k v k', t.lookup k = some v →
      (g t (k, v)).lookup k' = if k' = k then f k v else t.lookup k')
    (t : Ets K V) (k : K) : (t.tab2list.foldl g t).lookup k = (t.lookup k).bind (f k) := by
  have hloop : ∀ (rs : List (K × V)) (t : Ets K V), (rs.map Prod.fst).Nodup →
      (∀ r ∈ rs, t.lookup r.1 = some r.2) →
      (rs.foldl g t).lookup k = if k ∈ rs.map Prod.fst then (t.lookup k).bind (f k)
        else t.lookup k := by
    intro rs
    induction rs with
    | nil => exact fun t _ _ => rfl
    | cons r rs ih =>
      intro t hnodup hrows
      obtain ⟨hnot, hnodup⟩ := List.nodup_cons.mp hnodup
      have hrow := hrows r List.mem_cons_self
      have hother : ∀ k', k' ≠ r.1 → (g t r).lookup k' = t.lookup k' := by
        intro k' hk
        rw [show r = (r.1, r.2) from rfl, hg t r.1 r.2 k' hrow, if_neg hk]
      rw [List.foldl_cons, ih (g t r) hnodup]
      · by_cases hk : k = r.1
        · subst hk
          have hmem : r.1 ∈ (r :: rs).map Prod.fst := List.mem_cons_self
          rw [if_neg hnot, if_pos hmem, hrow, show r = (r.1, r.2) from rfl,
            hg t r.1 r.2 r.1 hrow, if_pos rfl]
          rfl
        · have hmem : k ∈ (r :: rs).map Prod.fst ↔ k ∈ rs.map Prod.fst := by
            rw [List.map_cons, List.mem_cons]
            exact or_iff_right hk
          simp only [hmem, hother k hk]
      · intro r' hr'
        have hne : r'.1 ≠ r.1 := fun he => hnot (he ▸ List.mem_map_of_mem hr')
        rw [hother _ hne]
        exact hrows r' (List.mem_cons_of_mem _ hr')
  rw [hloop t.tab2list t t.nodup_map_fst_tab2list fun r hr => mem_tab2list.mp hr]
  split
  · rfl
  · rename_i hnot
    cases hrow : t.lookup k with
    | none => rfl
    | some v => exact absurd (List.mem_map_of_mem (mem_tab2list.mpr hrow)) hnot

theorem lookup_insertEach (rs : List (K × V)) (t : Ets K V) (k : K) :
    (t.insertEach rs).lookup k =
      ((rs.reverse.find? fun r => decide (r.1 = k)).map Prod.snd).or (t.lookup k) := by
  induction rs generalizing t with
  | nil => simp [insertEach]
  | cons r rs ih =>
    have hstep : t.insertEach (r :: rs) = (t.insert r.1 r.2).insertEach rs := rfl
    rw [hstep, ih, List.reverse_cons, List.find?_append, lookup_insert]
    cases hf : rs.reverse.find? fun r => decide (r.1 = k) with
    | some s => simp
    | none =>
      by_cases hk : k = r.1
      · simp [hk]
      · simp [hk, Ne.symm hk]

theorem lookup_insertEach_empty {rs : List (K × V)} {k : K} {v : V} :
    ((empty : Ets K V).insertEach rs).lookup k = some v ↔
      ∃ before after, rs = before ++ (k, v) :: after ∧ ∀ r ∈ after, r.1 ≠ k := by
  rw [lookup_insertEach, lookup_empty, Option.or_none, Option.map_eq_some_iff]
  constructor
  · rintro ⟨⟨k', v'⟩, hfind, rfl⟩
    obtain ⟨hk, after, before, hsplit, hafter⟩ := List.find?_eq_some_iff_append.mp hfind
    obtain rfl : k' = k := by simpa using hk
    refine ⟨before.reverse, after.reverse, ?_, fun r hr => ?_⟩
    · rw [← List.reverse_reverse rs, hsplit]
      simp
    · simpa using hafter r (List.mem_reverse.mp hr)
  · rintro ⟨before, after, rfl, hafter⟩
    refine ⟨(k, v), List.find?_eq_some_iff_append.mpr ⟨by simp, after.reverse, before.reverse,
      by simp, fun r hr => ?_⟩, rfl⟩
    simpa using hafter r (List.mem_reverse.mp hr)

theorem lookup_insertEach_filter_map {W : Type} (p : K → Bool) (f : V → W) (rs : List (K × V))
    (k : K) : ((empty : Ets K W).insertEach
      ((rs.filter fun r => p r.1).map fun r => (r.1, f r.2))).lookup k =
      if p k then (((empty : Ets K V).insertEach rs).lookup k).map f else none := by
  have hloop : ∀ (rs : List (K × V)) (t : Ets K V) (t' : Ets K W),
      t'.lookup k = (if p k then (t.lookup k).map f else none) →
      (t'.insertEach ((rs.filter fun r => p r.1).map fun r => (r.1, f r.2))).lookup k =
        if p k then ((t.insertEach rs).lookup k).map f else none := by
    intro rs
    induction rs with
    | nil => exact fun _ _ h => h
    | cons r rs ih =>
      intro t t' h
      have hnext := lookup_insert t r.1 k r.2
      by_cases hr : p r.1 = true
      · have hfilter : ((r :: rs).filter fun r => p r.1) = r :: rs.filter fun r => p r.1 :=
          List.filter_cons_of_pos hr
        rw [hfilter]
        refine ih (t.insert r.1 r.2) (t'.insert r.1 (f r.2)) ?_
        rw [lookup_insert, hnext]
        by_cases hk : k = r.1
        · rw [if_pos hk, if_pos hk, hk, if_pos hr, Option.map_some]
        · rw [if_neg hk, if_neg hk, h]
      · have hfilter : ((r :: rs).filter fun r => p r.1) = rs.filter fun r => p r.1 :=
          List.filter_cons_of_neg hr
        rw [hfilter]
        refine ih (t.insert r.1 r.2) t' ?_
        have hk : p k = true → k ≠ r.1 := fun hp he => hr (he ▸ hp)
        rw [h, hnext]
        by_cases hp : p k = true
        · rw [if_pos hp, if_pos hp, if_neg (hk hp)]
        · rw [if_neg hp, if_neg hp]
  exact hloop rs empty empty (by simp)

theorem lookup_insertEach_eq_some {rs : List (K × V)} (h : (rs.map Prod.fst).Nodup)
    {t : Ets K V} {k : K} {v : V} :
    (t.insertEach rs).lookup k = some v ↔
      (k, v) ∈ rs ∨ k ∉ rs.map Prod.fst ∧ t.lookup k = some v := by
  induction rs generalizing t with
  | nil => simp [insertEach]
  | cons r rs ih =>
    obtain ⟨hnot, hrest⟩ := List.nodup_cons.mp h
    have hstep : t.insertEach (r :: rs) = (t.insert r.1 r.2).insertEach rs := rfl
    rw [hstep, ih hrest, lookup_insert]
    by_cases hk : k = r.1
    · subst hk
      have hout : (r.1, v) ∉ rs := fun hmem => hnot (List.mem_map.mpr ⟨_, hmem, rfl⟩)
      have hhead : (r.1, v) = r ↔ r.2 = v := by
        rw [show r = (r.1, r.2) from rfl, Prod.mk.injEq]
        simp [eq_comm]
      simp [hnot, hout, hhead]
    · have hne : (k, v) ≠ r := fun he => hk (congrArg Prod.fst he)
      simp [hk, hne]

theorem lookup_insertEach_tab2list (t : Ets K V) (k : K) :
    ((empty : Ets K V).insertEach t.tab2list).lookup k = t.lookup k := by
  rw [lookup_insertEach, lookup_empty, Option.or_none]
  cases hf : t.tab2list.reverse.find? fun r => decide (r.1 = k) with
  | some r =>
    obtain rfl : r.1 = k := by simpa using List.find?_some hf
    have hmem : r ∈ t.tab2list := List.mem_reverse.mp (List.mem_of_find?_eq_some hf)
    exact (mem_tab2list.mp hmem).symm
  | none =>
    refine (Option.eq_none_iff_forall_ne_some.mpr fun v hv => ?_).symm
    have hrow := List.find?_eq_none.mp hf (k, v) (List.mem_reverse.mpr (mem_tab2list.mpr hv))
    simp at hrow

end Ets
end Esr
