import Mathlib.Data.List.Basic

/-! # Pieces of a stream

A stream is cut behind every `mark`: into its complete pieces, each with the mark at its end,
and the rest, which has none.  A stream that comes in parts is cut part by part, the rest of
what came before in front of each (`pieces_append`), and the pieces and the rest are the only
way to write the stream so (`eq_of_cut`).
-/
namespace Esr
namespace Lines
variable {α : Type} [DecidableEq α] (mark : α)

/-- One more letter in front. -/
def push (x : α) : List (List α) × List α → List (List α) × List α
  | (piece :: more, rest) => ((x :: piece) :: more, rest)
  | ([], rest) => ([], x :: rest)

/-- The complete pieces, and the rest. -/
def cut : List α → List (List α) × List α
  | [] => ([], [])
  | x :: xs => if x = mark then ([x] :: (cut xs).1, (cut xs).2) else push x (cut xs)

def pieces (xs : List α) : List (List α) := (cut mark xs).1

def rest (xs : List α) : List α := (cut mark xs).2

/-- The piece has the mark at its end, and nowhere else. -/
def IsPiece (piece : List α) : Prop := ∃ body, mark ∉ body ∧ piece = body ++ [mark]

variable {mark}

theorem cut_of_not_mem {xs : List α} (h : mark ∉ xs) : cut mark xs = ([], xs) := by
  induction xs with
  | nil => rfl
  | cons x xs ih =>
    simp only [List.mem_cons, not_or] at h
    rw [cut, if_neg (Ne.symm h.1), ih h.2]
    rfl

theorem cut_append_mark {body : List α} (h : mark ∉ body) (xs : List α) :
    cut mark (body ++ mark :: xs) = ((body ++ [mark]) :: pieces mark xs, rest mark xs) := by
  induction body with
  | nil =>
    rw [List.nil_append, cut, if_pos rfl]
    rfl
  | cons x body ih =>
    simp only [List.mem_cons, not_or] at h
    rw [List.cons_append, cut, if_neg (Ne.symm h.1), ih h.2]
    rfl

/-- **A stream of pieces** is cut into them. -/
theorem cut_flatten {ps : List (List α)} (h : ∀ piece ∈ ps, IsPiece mark piece) (xs : List α) :
    cut mark (ps.flatten ++ xs) = (ps ++ pieces mark xs, rest mark xs) := by
  induction ps with
  | nil => rfl
  | cons piece ps ih =>
    obtain ⟨⟨body, hbody, rfl⟩, hrest⟩ := List.forall_mem_cons.mp h
    have htext : (body ++ [mark]) :: ps = [body ++ [mark]] ++ ps := rfl
    rw [List.flatten_cons, List.append_assoc, List.append_assoc, List.singleton_append,
      cut_append_mark hbody, pieces, rest, ih hrest, htext, List.append_assoc]
    rfl

/-- What a cut is. -/
structure IsCut (mark : α) (xs : List α) (ps : List (List α)) (tail : List α) : Prop where
  whole : ps.flatten ++ tail = xs
  complete : ∀ piece ∈ ps, IsPiece mark piece
  unmarked : mark ∉ tail

theorem isCut (xs : List α) : IsCut mark xs (pieces mark xs) (rest mark xs) := by
  induction hlength : xs.length using Nat.strongRecOn generalizing xs with
  | _ n ih =>
    subst hlength
    by_cases hmem : mark ∈ xs
    · obtain ⟨body, ys, rfl, hbody⟩ := List.eq_append_cons_of_mem hmem
      have hshort : ys.length < (body ++ mark :: ys).length := by
        rw [List.length_append, List.length_cons]
        omega
      obtain ⟨hwhole, hcomplete, hrest⟩ := ih ys.length hshort ys rfl
      rw [pieces, rest, cut_append_mark hbody]
      refine ⟨?_, List.forall_mem_cons.mpr ⟨⟨body, hbody, rfl⟩, hcomplete⟩, hrest⟩
      rw [List.flatten_cons, List.append_assoc, hwhole, List.append_assoc, List.singleton_append]
    · rw [pieces, rest, cut_of_not_mem hmem]
      exact ⟨rfl, nofun, hmem⟩

/-- **There is one cut.** -/
theorem eq_of_cut {xs : List α} {ps : List (List α)} {tail : List α} (h : IsCut mark xs ps tail) :
    ps = pieces mark xs ∧ tail = rest mark xs := by
  have hcut := cut_flatten h.complete tail
  rw [h.whole, pieces, rest, cut_of_not_mem h.unmarked, List.append_nil] at hcut
  exact ⟨by rw [pieces, hcut], by rw [rest, hcut]⟩

/-- **A stream in parts**: the rest of one is put in front of the next. -/
theorem cut_append (xs ys : List α) : cut mark (xs ++ ys) =
    (pieces mark xs ++ pieces mark (rest mark xs ++ ys), rest mark (rest mark xs ++ ys)) := by
  have h : IsCut mark xs (pieces mark xs) (rest mark xs) := isCut xs
  have hcut := cut_flatten h.complete (rest mark xs ++ ys)
  rwa [← List.append_assoc, h.whole] at hcut

theorem rest_eq_nil_iff {xs : List α} : rest mark xs = [] ↔ xs = [] ∨ xs.getLast? = some mark := by
  have h : IsCut mark xs (pieces mark xs) (rest mark xs) := isCut xs
  constructor
  · intro hrest
    have hwhole := h.whole
    rw [hrest, List.append_nil] at hwhole
    rcases List.eq_nil_or_concat (pieces mark xs) with hnil | ⟨more, piece, hps⟩
    · left
      rw [← hwhole, hnil]
      rfl
    · right
      rw [List.concat_eq_append] at hps
      have hlast : piece ∈ pieces mark xs := by simp [hps]
      obtain ⟨body, -, rfl⟩ := h.complete piece hlast
      rw [← hwhole, hps]
      simp
  · rintro (rfl | hlast)
    · rfl
    · by_contra hne
      have hsame : ((pieces mark xs).flatten ++ rest mark xs).getLast? = (rest mark xs).getLast? :=
        List.getLast?_append_of_ne_nil _ hne
      rw [h.whole, hlast] at hsame
      exact h.unmarked (List.mem_of_getLast? hsame.symm)

end Lines
end Esr
