import Mathlib.Data.Finset.Card
import Mathlib.Data.List.Sort
import Mathlib.Logic.Relation
import Mathlib.Order.WellFoundedSet

/-! # Kahn's algorithm

A graph is a list of nodes, each with the set of nodes it waits for.  The algorithm
places, again and again, the least node that waits for nothing and takes it out of the
sets of the others; it gives up when every node left still waits for one.  It places all
of them exactly when every node waited for is in the list and no node waits for itself
through others (`sort_eq_some_iff`), and the order it returns lists every node once, after
what it waits for (`sort_spec`).
-/
namespace Esr
namespace Kahn
variable {α : Type} [LinearOrder α]

/-- The nodes still to be placed, each with what it still waits for. -/
abbrev Remaining (α : Type) := List (α × Finset α)

/-- The nodes. -/
def nodes (r : Remaining α) : List α := r.map Prod.fst

/-- The nodes that wait for nothing. -/
def ready (r : Remaining α) : List α := (r.filter fun p => p.2.card = 0).map Prod.fst

/-- The least of them. -/
def next (r : Remaining α) : Option α := ((ready r).insertionSort (· ≤ ·)).head?

/-- `a` is placed: it is taken off the list, and nothing waits for it any more. -/
def place (a : α) (r : Remaining α) : Remaining α :=
  (r.filter fun p => p.1 ≠ a).map fun p => (p.1, p.2.erase a)

omit [LinearOrder α] in
theorem mem_ready {r : Remaining α} {a : α} : a ∈ ready r ↔ (a, ∅) ∈ r := by
  unfold ready
  constructor
  · intro h
    obtain ⟨⟨b, s⟩, hmem, rfl⟩ := List.mem_map.mp h
    obtain ⟨hr, hs⟩ := List.mem_filter.mp hmem
    obtain rfl := Finset.card_eq_zero.mp (of_decide_eq_true hs)
    exact hr
  · intro h
    exact List.mem_map.mpr ⟨(a, ∅), List.mem_filter.mpr ⟨h, by simp⟩, rfl⟩

variable {r : Remaining α} {a : α} {order : List α}

theorem mem_of_next (h : next r = some a) : (a, ∅) ∈ r :=
  mem_ready.mp ((List.mem_insertionSort _).mp (List.mem_of_head? h))

theorem next_eq_none (h : next r = none) (a : α) : (a, ∅) ∉ r := by
  have hsort : (ready r).insertionSort (· ≤ ·) = [] := List.head?_eq_none_iff.mp h
  intro hmem
  have hin := (List.mem_insertionSort (· ≤ ·)).mpr (mem_ready.mpr hmem)
  rw [hsort] at hin
  exact List.not_mem_nil hin

theorem mem_place {b : α} {s : Finset α} :
    (b, s) ∈ place a r ↔ ∃ s', (b, s') ∈ r ∧ b ≠ a ∧ s = s'.erase a := by
  simp only [place, List.mem_map, List.mem_filter, decide_eq_true_eq, Prod.exists, Prod.mk.injEq]
  constructor
  · rintro ⟨b', s', ⟨hr, hne⟩, rfl, rfl⟩
    exact ⟨s', hr, hne, rfl⟩
  · rintro ⟨s', hr, hne, rfl⟩
    exact ⟨b, s', ⟨hr, hne⟩, rfl, rfl⟩

theorem nodes_place (a : α) (r : Remaining α) :
    nodes (place a r) = (nodes r).filter fun b => b ≠ a := by
  rw [nodes, nodes, place, List.map_map, List.filter_map]
  rfl

theorem length_place_lt (h : next r = some a) : (place a r).length < r.length := by
  have hout : (a, (∅ : Finset α)) ∉ r.filter fun p => p.1 ≠ a := by simp
  rw [place, List.length_map]
  refine lt_of_le_of_ne (List.length_filter_le _ r) fun heq => hout ?_
  rw [List.filter_eq_self.mpr (List.length_filter_eq_length_iff.mp heq)]
  exact mem_of_next h

/-- The loop: `ordered` are the nodes placed so far, the last one first. -/
def loop (r : Remaining α) (ordered : List α) : Option (List α) :=
  if r.length = 0 then some ordered.reverse
  else match _h : next r with
    | none => none
    | some a => loop (place a r) (a :: ordered)
termination_by r.length
decreasing_by exact length_place_lt _h

/-- The whole order, `none` where the algorithm gives up. -/
def sort (G : Remaining α) : Option (List α) := loop G []

/-! ## What the order is -/

/-- `a` waits for `d`. -/
def Waits (G : Remaining α) (a d : α) : Prop := ∃ s, (a, s) ∈ G ∧ d ∈ s

/-- Every node stands after all it waits for. -/
def DepsFirst (G : Remaining α) (order : List α) : Prop :=
  ∀ l₁ a l₂, order = l₁ ++ a :: l₂ → ∀ d, Waits G a d → d ∈ l₁

/-- Everything waited for is a node. -/
def Closed (G : Remaining α) : Prop := ∀ a d, Waits G a d → d ∈ nodes G

/-- No node waits for itself, through however many others. -/
def Acyclic (G : Remaining α) : Prop := ∀ a, ¬Relation.TransGen (Waits G) a a

/-- What holds each time round the loop. -/
structure Inv (G r : Remaining α) (ordered : List α) : Prop where
  perm : (ordered ++ nodes r).Perm (nodes G)
  row : ∀ a s, (a, s) ∈ r → ∃ s', (a, s') ∈ G ∧ ∀ d, d ∈ s ↔ d ∈ s' ∧ d ∉ ordered
  placed : DepsFirst G ordered.reverse

variable {G r : Remaining α} {ordered : List α}

omit [LinearOrder α] in
theorem inv_start (G : Remaining α) : Inv G G [] where
  perm := List.Perm.refl _
  row a s h := ⟨s, h, fun d => by simp⟩
  placed l₁ a l₂ h := by simp at h

omit [LinearOrder α] in
theorem waits_iff (hG : (nodes G).Nodup) {d : α} {s : Finset α} (h : (a, s) ∈ G) :
    Waits G a d ↔ d ∈ s := by
  constructor
  · rintro ⟨s', hs', hd⟩
    have heq := List.inj_on_of_nodup_map hG hs' h rfl
    rwa [(Prod.mk.inj heq).2] at hd
  · exact fun hd => ⟨s, h, hd⟩

omit [LinearOrder α] in
theorem depsFirst_snoc {order : List α} {a : α} (h : DepsFirst G order)
    (ha : ∀ d, Waits G a d → d ∈ order) : DepsFirst G (order ++ [a]) := by
  intro l₁ b l₂ hsplit d hd
  rcases List.eq_nil_or_concat l₂ with rfl | ⟨l₂', z, rfl⟩
  · obtain ⟨rfl, hab⟩ := List.append_inj' hsplit rfl
    obtain rfl : a = b := by simpa using hab
    exact ha d hd
  · have hsplit' : order ++ [a] = (l₁ ++ b :: l₂') ++ [z] := by simpa using hsplit
    exact h l₁ b l₂' (List.append_inj' hsplit' rfl).1 d hd

theorem inv_place (hG : (nodes G).Nodup) (h : Inv G r ordered) (ha : next r = some a) :
    Inv G (place a r) (a :: ordered) where
  perm := by
    have hmem : a ∈ nodes r := List.mem_map_of_mem (mem_of_next ha)
    have hnodup : (nodes r).Nodup := (List.nodup_append.mp (h.perm.nodup_iff.mpr hG)).2.1
    have herase : (nodes r).filter (fun b => b ≠ a) = (nodes r).erase a := by
      rw [hnodup.erase_eq_filter]
      refine List.filter_congr fun b _ => ?_
      by_cases hb : b = a <;> simp [hb]
    have hmiddle : (a :: ordered ++ (nodes r).erase a).Perm (ordered ++ nodes r) :=
      List.perm_middle.symm.trans ((List.perm_cons_erase hmem).symm.append_left ordered)
    rw [nodes_place, herase]
    exact hmiddle.trans h.perm
  row b s hb := by
    obtain ⟨s₁, hs₁, -, rfl⟩ := mem_place.mp hb
    obtain ⟨s', hs', hmem⟩ := h.row b s₁ hs₁
    refine ⟨s', hs', fun d => ?_⟩
    rw [Finset.mem_erase, hmem, List.mem_cons, not_or]
    tauto
  placed := by
    rw [List.reverse_cons]
    refine depsFirst_snoc h.placed fun d hd => ?_
    obtain ⟨s', hs', hmem⟩ := h.row a ∅ (mem_of_next ha)
    have hempty := hmem d
    by_contra hnot
    exact Finset.notMem_empty d (hempty.mpr
      ⟨(waits_iff hG hs').mp hd, fun hin => hnot (List.mem_reverse.mpr hin)⟩)

/-- Nodes that were left over: each of them waits for another of them, or for something
that is not in the list. -/
def Stuck (G : Remaining α) : Prop :=
  ∃ left : List α, left ≠ [] ∧ ∀ a ∈ left, ∃ d, Waits G a d ∧ (d ∈ left ∨ d ∉ nodes G)

theorem stuck_of_next (h : Inv G r ordered) (hr : r ≠ []) (hn : next r = none) : Stuck G := by
  refine ⟨nodes r, fun h => hr (List.map_eq_nil_iff.mp h), fun a ha => ?_⟩
  obtain ⟨⟨b, s⟩, hb, rfl⟩ := List.mem_map.mp ha
  have hne : s ≠ ∅ := fun hs => next_eq_none hn b (hs ▸ hb)
  obtain ⟨d, hd⟩ := Finset.nonempty_iff_ne_empty.mpr hne
  obtain ⟨s', hs', hmem⟩ := h.row b s hb
  obtain ⟨hd', hnot⟩ := (hmem d).mp hd
  refine ⟨d, ⟨s', hs', hd'⟩, ?_⟩
  by_cases hin : d ∈ nodes G
  · rcases List.mem_append.mp (h.perm.mem_iff.mpr hin) with hplaced | hleft
    · exact absurd hplaced hnot
    · exact Or.inl hleft
  · exact Or.inr hin

theorem loop_spec (hG : (nodes G).Nodup) (h : Inv G r ordered) :
    (∃ order, loop r ordered = some order ∧ order.Perm (nodes G) ∧ DepsFirst G order) ∨
      (loop r ordered = none ∧ Stuck G) := by
  fun_induction loop r ordered with
  | case1 r ordered hr =>
    obtain rfl := List.length_eq_zero_iff.mp hr
    have hperm := h.perm
    rw [nodes, List.map_nil, List.append_nil] at hperm
    exact Or.inl ⟨_, rfl, (List.reverse_perm ordered).trans hperm, h.placed⟩
  | case2 r ordered hr hn =>
    exact Or.inr ⟨rfl, stuck_of_next h (fun he => hr (by rw [he]; rfl)) hn⟩
  | case3 r ordered hr a ha ih => exact ih (inv_place hG h ha)

/-- **The order lists every node once, after what it waits for.** -/
theorem sort_spec (hG : (nodes G).Nodup) (h : sort G = some order) :
    order.Perm (nodes G) ∧ DepsFirst G order := by
  rcases loop_spec hG (inv_start G) with ⟨order', hsome, hspec⟩ | ⟨hnone, -⟩
  · rw [sort, hsome] at h
    exact Option.some.inj h ▸ hspec
  · rw [sort, hnone] at h
    cases h

theorem idxOf_lt (hG : (nodes G).Nodup) (hperm : order.Perm (nodes G))
    (hfirst : DepsFirst G order) {d : α} (h : Waits G a d) :
    order.idxOf d < order.idxOf a := by
  have hnode : a ∈ nodes G := h.elim fun _ hs => List.mem_map_of_mem hs.1
  have hmem : a ∈ order := hperm.mem_iff.mpr hnode
  obtain ⟨l₁, l₂, rfl⟩ := List.append_of_mem hmem
  have hd : d ∈ l₁ := hfirst l₁ a l₂ rfl d h
  have hnodup := hperm.nodup_iff.mpr hG
  have ha : a ∉ l₁ := fun hin => (List.nodup_append.mp hnodup).2.2 a hin a List.mem_cons_self rfl
  rw [List.idxOf_append_of_mem hd, List.idxOf_append_of_notMem ha, List.idxOf_cons_self]
  exact Nat.lt_of_lt_of_le (List.idxOf_lt_length_of_mem hd) (Nat.le_add_right _ _)

theorem closed_and_acyclic (hG : (nodes G).Nodup) (hperm : order.Perm (nodes G))
    (hfirst : DepsFirst G order) : Closed G ∧ Acyclic G := by
  constructor
  · intro a d h
    have hlt := idxOf_lt hG hperm hfirst h
    have hmem : d ∈ order :=
      List.idxOf_lt_length_iff.mp (Nat.lt_of_lt_of_le hlt List.idxOf_le_length)
    exact hperm.mem_iff.mp hmem
  · intro a h
    have hlt : ∀ b, Relation.TransGen (Waits G) a b → order.idxOf b < order.idxOf a := by
      intro b hb
      induction hb with
      | single h => exact idxOf_lt hG hperm hfirst h
      | tail _ h ih => exact Nat.lt_trans (idxOf_lt hG hperm hfirst h) ih
    exact Nat.lt_irrefl _ (hlt a h)

omit [LinearOrder α] in
/-- Finitely many nodes that wait for one another in no circle: one of them waits for none
of the others. -/
theorem exists_last (hacyclic : Acyclic G) {left : List α} (hne : left ≠ []) :
    ∃ a ∈ left, ∀ d ∈ left, ¬Waits G a d := by
  have htrans : IsTrans α (fun d a => Relation.TransGen (Waits G) a d) :=
    ⟨fun _ _ _ h h' => h'.trans h⟩
  have hirrefl : Std.Irrefl (fun d a => Relation.TransGen (Waits G) a d) := ⟨hacyclic⟩
  have hstrict : IsStrictOrder α (fun d a => Relation.TransGen (Waits G) a d) := {}
  have hwf : {a | a ∈ left}.WellFoundedOn fun d a => Relation.TransGen (Waits G) a d :=
    (List.finite_toSet left).wellFoundedOn
  obtain ⟨b, hb⟩ := List.exists_mem_of_ne_nil left hne
  obtain ⟨a, ha, hmin⟩ := Set.wellFoundedOn_iff.mp hwf |>.has_min {a | a ∈ left} ⟨b, hb⟩
  exact ⟨a, ha, fun d hd hw => hmin d hd ⟨.single hw, hd, ha⟩⟩

omit [LinearOrder α] in
theorem not_stuck (hclosed : Closed G) (hacyclic : Acyclic G) : ¬Stuck G := by
  rintro ⟨left, hne, hwaits⟩
  obtain ⟨a, ha, hlast⟩ := exists_last hacyclic hne
  obtain ⟨d, hd, hin | hout⟩ := hwaits a ha
  · exact hlast d hin hd
  · exact hout (hclosed a d hd)

/-- **All nodes are placed exactly where everything waited for is a node and there is no
circle.** -/
theorem sort_eq_some_iff (hG : (nodes G).Nodup) :
    (∃ order, sort G = some order) ↔ Closed G ∧ Acyclic G := by
  constructor
  · rintro ⟨order, h⟩
    obtain ⟨hperm, hfirst⟩ := sort_spec hG h
    exact closed_and_acyclic hG hperm hfirst
  · rintro ⟨hclosed, hacyclic⟩
    rcases loop_spec hG (inv_start G) with ⟨order, hsome, -⟩ | ⟨-, hstuck⟩
    · exact ⟨order, hsome⟩
    · exact absurd hstuck (not_stuck hclosed hacyclic)

end Kahn
end Esr
