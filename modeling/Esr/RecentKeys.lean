import Mathlib.Data.Finset.Card

/-! # The keys recorded last

A set of keys beside a queue of the same keys, oldest first.  Recording a key adds
it to both; when there are then more than `limit` keys, the oldest one leaves both.
A key that is already there is never recorded.

`Valid` is what the pair keeps, and `Since` what becomes of one key: as long as fewer
than `limit` others have been recorded after it, the queue ends with it and them.
-/
namespace Esr
namespace RecentKeys

variable {K : Type} [DecidableEq K]

/-- Record a key. -/
def push (limit : Nat) (keys : Finset K) (order : List K) (k : K) : Finset K × List K :=
  if (insert k keys).card > limit then
    match order ++ [k] with
    | oldest :: trimmed => ((insert k keys).erase oldest, trimmed)
    | [] => (insert k keys, [])
  else (insert k keys, order ++ [k])

/-- The set and the queue have the same keys, each of them once, and at most
`limit`. -/
structure Valid (limit : Nat) (keys : Finset K) (order : List K) : Prop where
  nodup : order.Nodup
  sameKeys : order.toFinset = keys
  length_le : order.length ≤ limit

/-- After `k` the keys `later` have been recorded: the queue still ends with all of
them, or at least `limit` keys other than `k` are among them. -/
def Since (limit : Nat) (k : K) (later order : List K) : Prop :=
  limit ≤ (later.toFinset.erase k).card ∨ ∃ before, order = before ++ k :: later

variable {limit : Nat} {keys : Finset K} {order later : List K} {k a : K}

theorem valid_empty : Valid limit (∅ : Finset K) [] := ⟨List.nodup_nil, rfl, Nat.zero_le _⟩

namespace Valid

theorem mem_iff (h : Valid limit keys order) : k ∈ order ↔ k ∈ keys := by
  rw [← h.sameKeys, List.mem_toFinset]

theorem card_eq (h : Valid limit keys order) : keys.card = order.length := by
  rw [← h.sameKeys, List.toFinset_card_of_nodup h.nodup]

theorem card_insert (h : Valid limit keys order) (hk : k ∉ keys) :
    (insert k keys).card = order.length + 1 := by
  rw [Finset.card_insert_of_notMem hk, h.card_eq]

theorem nodup_snoc (h : Valid limit keys order) (hk : k ∉ keys) : (order ++ [k]).Nodup :=
  h.nodup.append (List.nodup_singleton k)
    (List.disjoint_singleton.mpr fun hmem => hk (h.mem_iff.mp hmem))

theorem toFinset_snoc (h : Valid limit keys order) : (order ++ [k]).toFinset = insert k keys := by
  rw [List.toFinset_append, h.sameKeys]
  ext x
  simp

theorem push_of_room (h : Valid limit keys order) (hk : k ∉ keys) (hroom : order.length < limit) :
    push limit keys order k = (insert k keys, order ++ [k]) := by
  have hcard := h.card_insert hk
  rw [push, if_neg (by omega)]

theorem push_of_full (h : Valid limit keys (a :: order)) (hk : k ∉ keys)
    (hfull : (a :: order).length = limit) :
    push limit keys (a :: order) k = ((insert k keys).erase a, order ++ [k]) := by
  have hcard := h.card_insert hk
  rw [push, if_pos (by omega)]
  rfl

theorem push (h : Valid limit keys order) (hk : k ∉ keys) :
    Valid limit (push limit keys order k).1 (push limit keys order k).2 := by
  have hnodup := h.nodup_snoc hk
  have hsame := h.toFinset_snoc (k := k)
  by_cases hroom : order.length < limit
  · rw [h.push_of_room hk hroom]
    exact ⟨hnodup, hsame, by rw [List.length_append]; exact hroom⟩
  · cases order with
    | nil =>
      have hcard := h.card_insert hk
      have hlimit : 0 = limit := by
        have hzero : ([] : List K).length = 0 := rfl
        omega
      rw [RecentKeys.push, if_pos (by omega)]
      refine ⟨List.nodup_nil, ?_, Nat.zero_le _⟩
      rw [← hsame]
      simp
    | cons a order =>
      have hfull : (a :: order).length = limit := by
        have hle := h.length_le
        omega
      rw [h.push_of_full hk hfull]
      rw [List.cons_append] at hnodup hsame
      obtain ⟨hnot, htail⟩ := List.nodup_cons.mp hnodup
      refine ⟨htail, ?_, ?_⟩
      · rw [← hsame, List.toFinset_cons, Finset.erase_insert]
        rwa [List.mem_toFinset]
      · rw [List.length_append, ← hfull]
        rfl

end Valid

namespace Since

theorem self (hv : Valid limit keys order) (hk : k ∉ keys) (hpos : 0 < limit) :
    Since limit k [] (RecentKeys.push limit keys order k).2 := by
  right
  by_cases hroom : order.length < limit
  · rw [hv.push_of_room hk hroom]
    exact ⟨order, rfl⟩
  · cases order with
    | nil => exact absurd hpos hroom
    | cons a order =>
      have hfull : (a :: order).length = limit := by
        have hle := hv.length_le
        omega
      rw [hv.push_of_full hk hfull]
      exact ⟨order, rfl⟩

theorem mem (h : Since limit k later order) (hfew : (later.toFinset.erase k).card < limit) :
    k ∈ order := by
  rcases h with hmany | ⟨before, rfl⟩
  · exact absurd hfew (Nat.not_lt.mpr hmany)
  · exact List.mem_append_right _ List.mem_cons_self

theorem many_mono (h : limit ≤ (later.toFinset.erase k).card) (k' : K) :
    limit ≤ ((later ++ [k']).toFinset.erase k).card := by
  refine h.trans (Finset.card_le_card (Finset.erase_subset_erase k ?_))
  rw [List.toFinset_append]
  exact Finset.subset_union_left

/-- Recording another key: `k` leaves only as the oldest of `limit` keys, and then
the other `limit - 1` and the new one are the keys recorded after it. -/
theorem push {k' : K} (h : Since limit k later order) (hv : Valid limit keys order)
    (hk : k' ∉ keys) : Since limit k (later ++ [k']) (push limit keys order k').2 := by
  rcases h with hmany | ⟨before, rfl⟩
  · exact .inl (many_mono hmany k')
  · by_cases hroom : (before ++ k :: later).length < limit
    · rw [hv.push_of_room hk hroom]
      exact .inr ⟨before, by simp⟩
    · have hfull : (before ++ k :: later).length = limit := by
        have hle := hv.length_le
        omega
      cases before with
      | cons a before =>
        rw [List.cons_append] at hv hfull ⊢
        rw [hv.push_of_full hk hfull]
        exact .inr ⟨before, by simp⟩
      | nil =>
        left
        have hnodup := hv.nodup_snoc hk
        rw [List.nil_append, List.cons_append] at hnodup
        obtain ⟨hnot, htail⟩ := List.nodup_cons.mp hnodup
        rw [Finset.erase_eq_of_notMem (by rwa [List.mem_toFinset]),
          List.toFinset_card_of_nodup htail, List.length_append, ← hfull]
        rfl

end Since

end RecentKeys
end Esr
