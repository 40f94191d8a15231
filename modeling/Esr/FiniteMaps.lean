import Mathlib.Data.Finmap

/-! # Unions of finite maps

A finite map is Mathlib's `Finmap`, so two maps with the same lookups are equal.  `ofRows`
is the map of a list of rows, and `unions` the union of a list of maps, in which the
earlier map wins.  Of maps that have no key in common, the union holds exactly what the
maps hold (`lookup_unions`), and their order does not matter (`unions_perm`).
-/
namespace Esr
namespace FiniteMaps

variable {K V : Type} [DecidableEq K]

abbrev Map (K V : Type) := Finmap fun _ : K => V

/-! ## The map of some rows -/

/-- The rows as a map; the first of two rows with one key wins. -/
def ofRows : List (K × V) → Map K V
  | [] => ∅
  | r :: rows => (ofRows rows).insert r.1 r.2

theorem mem_ofRows {rows : List (K × V)} {k : K} : k ∈ ofRows rows ↔ k ∈ rows.map Prod.fst := by
  induction rows with
  | nil => simp [ofRows, Finmap.notMem_empty]
  | cons r rows ih => rw [ofRows, Finmap.mem_insert, ih, List.map_cons, List.mem_cons]

theorem lookup_ofRows {rows : List (K × V)} (h : (rows.map Prod.fst).Nodup) {k : K} {v : V} :
    (ofRows rows).lookup k = some v ↔ (k, v) ∈ rows := by
  induction rows with
  | nil => simp [ofRows]
  | cons r rows ih =>
    obtain ⟨hnot, hrest⟩ := List.nodup_cons.mp h
    obtain ⟨a, w⟩ := r
    rw [ofRows, List.mem_cons]
    by_cases hk : k = a
    · subst hk
      have hout : (k, v) ∉ rows := fun hmem => hnot (List.mem_map.mpr ⟨_, hmem, rfl⟩)
      rw [Finmap.lookup_insert, or_iff_left hout]
      simp [eq_comm]
    · rw [Finmap.lookup_insert_of_ne _ hk, ih hrest]
      simp [hk]

theorem union_insert {m m' : Map K V} {k : K} (v : V) (h : k ∉ m) :
    m ∪ m'.insert k v = m.insert k v ∪ m' := by
  refine Finmap.ext_lookup fun a => ?_
  rw [← Finmap.insert_union]
  by_cases ha : a = k
  · subst ha
    rw [Finmap.lookup_union_right h, Finmap.lookup_insert, Finmap.lookup_insert]
  · rw [Finmap.lookup_insert_of_ne _ ha]
    by_cases hm : a ∈ m
    · rw [Finmap.lookup_union_left hm, Finmap.lookup_union_left hm]
    · rw [Finmap.lookup_union_right hm, Finmap.lookup_union_right hm,
        Finmap.lookup_insert_of_ne _ ha]

/-! ## The union of some maps -/

def unions : List (Map K V) → Map K V
  | [] => ∅
  | m :: ms => m ∪ unions ms

theorem lookup_unions {ms : List (Map K V)} (h : ms.Pairwise Finmap.Disjoint) {k : K} {v : V} :
    (unions ms).lookup k = some v ↔ ∃ m ∈ ms, m.lookup k = some v := by
  induction ms with
  | nil => simp [unions]
  | cons m ms ih =>
    obtain ⟨hm, hrest⟩ := List.pairwise_cons.mp h
    have hnot : ∀ m' ∈ ms, m'.lookup k = some v → k ∉ m := by
      intro m' hm' hv hk
      exact hm m' hm' k hk (Finmap.mem_of_lookup_eq_some hv)
    rw [unions, Finmap.mem_lookup_union', Option.mem_def, Option.mem_def, ih hrest]
    constructor
    · rintro (hv | ⟨-, m', hm', hv⟩)
      · exact ⟨m, List.mem_cons_self, hv⟩
      · exact ⟨m', List.mem_cons_of_mem m hm', hv⟩
    · rintro ⟨m', hm', hv⟩
      rcases List.mem_cons.mp hm' with rfl | hm'
      · exact .inl hv
      · exact .inr ⟨hnot m' hm' hv, m', hm', hv⟩

/-- **The order of maps that share no key does not matter.** -/
theorem unions_perm {ms ms' : List (Map K V)} (hp : ms.Perm ms')
    (h : ms.Pairwise Finmap.Disjoint) : unions ms = unions ms' := by
  have h' := hp.pairwise h fun {m m'} => Finmap.Disjoint.symm m m'
  refine Finmap.ext_lookup fun k => Option.ext fun v => ?_
  rw [lookup_unions h, lookup_unions h']
  exact exists_congr fun m => and_congr_left fun _ => hp.mem_iff

end FiniteMaps
end Esr
