import Esr.Runs
import Mathlib.Data.List.DropRight

/-! # The dead-letter queue

Events that could not be routed are kept in a queue of `max_entries` entries, oldest
first, beside a counter of them.  At the limit the oldest entry makes room for the new one.
`bounded_iff` says when this holds the queue within its limit: under a limit of 0 there is
no entry to make room, and the new one is put in all the same.
-/
namespace Esr
namespace DeadLetterQueue

variable {T : Type}

/-! ## The source -/

/-- A payload, of terms `T`: the keys `enqueue/2` looks at, where they are there. -/
structure Payload (T : Type) where
  reason : Option T
  target : Option T
  msg : Option T
  source : Option T
  metadata : Option T

/-- An entry; `none` stands for `nil`, and for the empty map in `metadata`. -/
structure Entry (T : Type) where
  id : String
  tsUnixMs : Int
  reason : Option T
  target : Option T
  msg : Option T
  source : Option T
  metadata : Option T
  deriving DecidableEq

structure State (T : Type) where
  maxEntries : Int
  entries : List (Entry T)
  size : Nat
  deriving DecidableEq

/-- What `[:esr, :deadletter, :event]` tells. -/
structure Telemetry (T : Type) where
  size : Nat
  reason : Option T
  target : Option T
  id : String

/-- `init/1`. -/
def init (maxEntries : Option Int) : State T := ⟨maxEntries.getD 10000, [], 0⟩

/-- `push_with_eviction/4`. -/
def pushWithEviction (queue : List (Entry T)) (size : Nat) (entry : Entry T) (maxEntries : Int) :
    List (Entry T) × Nat :=
  if (size : Int) < maxEntries then (queue ++ [entry], size + 1)
  else (queue.tail ++ [entry], size)

/-- The entry of a payload, with the id that is drawn and the time. -/
def entryOf (payload : Payload T) (id : String) (now : Int) : Entry T :=
  ⟨"dl-" ++ id, now, payload.reason, payload.target, payload.msg, payload.source, payload.metadata⟩

/-- `handle_cast/2`. -/
def handleEnqueue (payload : Payload T) (id : String) (now : Int) (s : State T) :
    State T × Telemetry T :=
  let entry := entryOf payload id now
  let pushed := pushWithEviction s.entries s.size entry s.maxEntries
  ({ s with entries := pushed.1, size := pushed.2 }, ⟨pushed.2, entry.reason, entry.target, entry.id⟩)

/-- `handle_call/3` on `:list`: the reply. -/
def handleList (s : State T) : List (Entry T) := s.entries

/-- `handle_call/3` on `:clear`. -/
def handleClear (s : State T) : State T := { s with entries := [], size := 0 }

inductive Op (T : Type) where
  | enqueue (payload : Payload T) (id : String) (now : Int)
  | list
  | clear

def step (s : State T) : Op T → Option (State T)
  | .enqueue payload id now => some (handleEnqueue payload id now s).1
  | .list => some s
  | .clear => some (handleClear s)

/-! ## What is claimed -/

/-- The entries enqueued since the last `clear`, oldest first. -/
def sinceClear (ops : List (Op T)) : List (Entry T) :=
  ops.foldl (fun entries op =>
    match op with
    | .enqueue payload id now => entries ++ [entryOf payload id now]
    | .list => entries
    | .clear => []) []

/-- After these operations the counter is the queue's length and within the limit, and
`list` gives the most recent entries. -/
structure Bounded (limit : Int) (ops : List (Op T)) (s : State T) : Prop where
  counted : s.size = s.entries.length
  withinLimit : (s.size : Int) ≤ limit
  listed : handleList s = (sinceClear ops).rtake (min limit.toNat (sinceClear ops).length)

/-! ## Under a positive limit -/

variable {limit : Int} {ops : List (Op T)} {s : State T}

@[simp] theorem sinceClear_enqueue (ops : List (Op T)) (payload : Payload T) (id : String) (now : Int) :
    sinceClear (ops ++ [.enqueue payload id now]) = sinceClear ops ++ [entryOf payload id now] :=
  List.foldl_append

@[simp] theorem sinceClear_list (ops : List (Op T)) : sinceClear (ops ++ [.list]) = sinceClear ops :=
  List.foldl_append

@[simp] theorem sinceClear_clear (ops : List (Op T)) : sinceClear (ops ++ [.clear]) = [] :=
  List.foldl_append

theorem length_rtake (l : List (Entry T)) (n : Nat) : (l.rtake n).length = min n l.length := by
  rw [List.rtake, List.length_drop]
  omega

theorem pushWithEviction_rtake {n : Nat} (hn : 0 < n) (l : List (Entry T)) (entry : Entry T) :
    pushWithEviction (l.rtake n) (l.rtake n).length entry n =
      ((l ++ [entry]).rtake n, ((l ++ [entry]).rtake n).length) := by
  obtain ⟨m, rfl⟩ : ∃ m, n = m + 1 := ⟨n - 1, by omega⟩
  have hlength := length_rtake l (m + 1)
  have hpushed : (l ++ [entry]).rtake (m + 1) = l.rtake m ++ [entry] := List.rtake_concat_succ _ _ _
  rw [hpushed, pushWithEviction]
  split
  · -- there is room, so that nothing of `l` was cut off
    rename_i hroom
    have hle : l.length ≤ m := by omega
    have hall : ∀ k, m ≤ k → l.rtake k = l := fun k hk => by
      rw [List.rtake, Nat.sub_eq_zero_of_le (Nat.le_trans hle hk), List.drop_zero]
    rw [hall m (Nat.le_refl m), hall (m + 1) (Nat.le_succ m), List.length_append]
    rfl
  · rename_i hfull
    have hlt : m < l.length := by omega
    have htail : (l.rtake (m + 1)).tail = l.rtake m := by
      rw [List.rtake, List.rtake, List.tail_drop]
      congr 1
      omega
    rw [htail, List.length_append, length_rtake, length_rtake, List.length_singleton]
    congr 1
    omega

/-- The queue of a positive limit. -/
structure Recent (limit : Int) (ops : List (Op T)) (s : State T) : Prop where
  atLimit : s.maxEntries = limit
  recent : s.entries = (sinceClear ops).rtake limit.toNat
  counted : s.size = s.entries.length

theorem recent_of_run (hlimit : 0 < limit) (h : Run step anyStep (init (some limit)) ops s) :
    Recent limit ops s := by
  induction h with
  | nil => exact ⟨rfl, List.rtake_nil _ |>.symm, rfl⟩
  | @snoc ops t op u _ _ hs ih =>
    cases op with
    | enqueue payload id now =>
      obtain rfl := Option.some.inj hs
      have hpush := pushWithEviction_rtake (show 0 < limit.toNat by omega) (sinceClear ops)
        (entryOf payload id now)
      rw [Int.toNat_of_nonneg (Int.le_of_lt hlimit), ← ih.recent, ← ih.counted] at hpush
      refine ⟨ih.atLimit, ?_, ?_⟩
      · rw [sinceClear_enqueue, handleEnqueue, ih.atLimit, hpush]
      · rw [handleEnqueue, ih.atLimit, hpush]
    | list =>
      obtain rfl := Option.some.inj hs
      exact ⟨ih.atLimit, by rw [sinceClear_list, ih.recent], ih.counted⟩
    | clear =>
      obtain rfl := Option.some.inj hs
      exact ⟨ih.atLimit, by rw [sinceClear_clear, List.rtake_nil]; rfl, rfl⟩

/-! ## Under another limit -/

/-- The queue of a limit that lets nothing in: it holds an entry from the first one on, and
the counter does not know of it. -/
structure Overfull (limit : Int) (ops : List (Op T)) (s : State T) : Prop where
  atLimit : s.maxEntries = limit
  size : s.size = 0
  empty_iff : s.entries = [] ↔ sinceClear ops = []

theorem overfull_of_run (hlimit : limit ≤ 0) (h : Run step anyStep (init (some limit)) ops s) :
    Overfull limit ops s := by
  induction h with
  | nil => exact ⟨rfl, rfl, Iff.rfl⟩
  | @snoc ops t op u _ _ hs ih =>
    cases op with
    | enqueue payload id now =>
      obtain rfl := Option.some.inj hs
      have hpush : pushWithEviction t.entries t.size (entryOf payload id now) t.maxEntries =
          (t.entries.tail ++ [entryOf payload id now], t.size) := by
        rw [pushWithEviction, ih.atLimit, ih.size]
        exact if_neg (by omega)
      refine ⟨ih.atLimit, ?_, ?_⟩
      · rw [handleEnqueue, hpush]
        exact ih.size
      · rw [handleEnqueue, hpush, sinceClear_enqueue]
        exact iff_of_false (List.concat_ne_nil _ _) (List.concat_ne_nil _ _)
    | list =>
      obtain rfl := Option.some.inj hs
      exact ⟨ih.atLimit, ih.size, by rw [sinceClear_list, ih.empty_iff]⟩
    | clear =>
      obtain rfl := Option.some.inj hs
      exact ⟨ih.atLimit, rfl, by rw [sinceClear_clear]; rfl⟩

/-- **The queue keeps within its limit** exactly where the limit is positive, or it is 0 and
nothing was put in since the last `clear`. -/
theorem bounded_iff (h : Run step anyStep (init (some limit)) ops s) :
    Bounded limit ops s ↔ 0 < limit ∨ limit = 0 ∧ sinceClear ops = [] := by
  by_cases hpos : 0 < limit
  · have hrecent := recent_of_run hpos h
    have hlength := length_rtake (sinceClear ops) limit.toNat
    refine iff_of_true ⟨hrecent.counted, ?_, ?_⟩ (.inl hpos)
    · rw [hrecent.counted, hrecent.recent]
      omega
    · rw [handleList, hrecent.recent, List.rtake, List.rtake]
      congr 1
      omega
  · have hover := overfull_of_run (Int.not_lt.mp hpos) h
    rw [or_iff_right (by omega)]
    constructor
    · intro hb
      have hwithin := hb.withinLimit
      have hcounted := hb.counted
      rw [hover.size] at hwithin hcounted
      exact ⟨by omega, hover.empty_iff.mp (List.length_eq_zero_iff.mp hcounted.symm)⟩
    · rintro ⟨rfl, hnone⟩
      have hempty := hover.empty_iff.mpr hnone
      refine ⟨?_, ?_, ?_⟩
      · rw [hover.size, hempty]
        rfl
      · rw [hover.size]
        exact Int.le_refl 0
      · rw [handleList, hempty, hnone, List.rtake_nil]

/-! ## Four events -/

def ghost (n : Nat) : Op Nat := .enqueue ⟨some 0, some n, none, none, none⟩ "aGVsbG8x" 1000

/-- A limit of 3, and four events. -/
theorem bounded_fourEvents : ∃ s : State Nat,
    Run step anyStep (init (some 3)) [ghost 1, ghost 2, ghost 3, ghost 4] s ∧
      Bounded 3 [ghost 1, ghost 2, ghost 3, ghost 4] s := by
  have hrun : Run step anyStep (init (some 3)) [ghost 1, ghost 2, ghost 3, ghost 4] _ :=
    Run.of_exec rfl
  exact ⟨_, hrun, (bounded_iff hrun).mpr (.inl (by decide))⟩

/-- A limit of 0, and one event. -/
theorem not_bounded_zero : ¬∀ (limit : Int) (ops : List (Op Nat)) (s : State Nat),
    Run step anyStep (init (some limit)) ops s → Bounded limit ops s := by
  intro h
  have hcounted := (h 0 [ghost 1] _ (Run.of_exec rfl)).counted
  exact absurd hcounted (by decide)

end DeadLetterQueue
end Esr
