import Esr.Runs
import Esr.Grants

/-! # Reading the grants while a snapshot is loaded

A reader beside the loader: `has?` is one lookup, `any_admin?` a traversal of the
table that visits each row at most once, and every row that stays in the table
throughout.  The loader clears the table before it fills it again, so a reader
can find neither snapshot there.

`reload_atomic_iff` says for which snapshots that shows: a reader always gets the
answer of the old or of the new snapshot exactly when they do not both say yes.
When both say yes, in particular when both hold an admin, some interleaving
answers no.
-/
namespace Esr
namespace GrantsReload
open Grants

/-- The two reads of the table. -/
inductive Query where
  | has (principalId permission : String)
  | anyAdmin

/-- The answer on a table nobody is writing. -/
def answer (t : Table) : Query → Bool
  | .has p r => Grants.has t p r
  | .anyAdmin => Grants.anyAdmin t

/-- Where the reader stands.  A traversal has a list of the keys visited and of
those it is bound to visit, because their rows have been there since it began. -/
inductive Reader where
  | idle
  | scanning (visited owed : List String) (acc : Bool)
  | answered (b : Bool)
  deriving DecidableEq

/-- The owner of the table, and one reader with its query. -/
structure State where
  owner : Loader
  query : Query
  reader : Reader

inductive Act where
  | owner (a : LoadAct)
  | lookup
  | scanStart
  | visit (principalId : String)
  | scanEnd

/-- The rows a traversal is still bound to visit after a step of the owner. -/
def Reader.after (t : Table) : Reader → Reader
  | .scanning visited owed acc => .scanning visited (owed.filter fun k => k ∈ t.keys) acc
  | r => r

/-- One step of the owner or of the reader. -/
def step (s : State) : Act → Option State
  | .owner act =>
      (s.owner.step act).map fun l => { s with owner := l, reader := s.reader.after l.table }
  | .lookup =>
      match s.query, s.reader with
      | .has p perm, .idle => some { s with reader := .answered (Grants.has s.owner.table p perm) }
      | _, _ => none
  | .scanStart =>
      match s.query, s.reader with
      | .anyAdmin, .idle => some { s with reader := .scanning [] s.owner.table.keys false }
      | _, _ => none
  | .visit k =>
      match s.query, s.reader with
      | .anyAdmin, .scanning visited owed acc =>
          if k ∈ visited then none
          else (s.owner.table.lookup k).map fun held =>
            { s with reader := .scanning (k :: visited) owed (acc || held.contains "*") }
      | _, _ => none
  | .scanEnd =>
      match s.query, s.reader with
      | .anyAdmin, .scanning visited owed acc =>
          if ∀ k ∈ owed, k ∈ visited then some { s with reader := .answered acc } else none
      | _, _ => none

/-- `load_snapshot(new)` has begun over the table `old`. -/
def start (old new : Table) (q : Query) : State :=
  ⟨⟨old, .diffed new (diffChanged old new)⟩, q, .idle⟩

/-- No other load begins. -/
def OneLoad (_ : State) (a : Act) : Prop := ∀ s, a ≠ .owner (.load s)

/-! ## A yes comes from one of the snapshots -/

/-- The row makes the answer yes. -/
def RowAdmits : Query → String → List String → Prop
  | .has p r, k, held => k = p ∧ ∃ h ∈ held, h = r ∨ Covers h r
  | .anyAdmin, _, held => "*" ∈ held

/-- Some row of the table makes the answer yes. -/
def Admits (t : Table) (q : Query) : Prop :=
  ∃ k held, t.lookup k = some held ∧ RowAdmits q k held

theorem answer_iff {t : Table} {q : Query} : answer t q = true ↔ Admits t q := by
  cases q with
  | has p r =>
    rw [answer, has_iff, Admits]
    constructor
    · rintro ⟨held, hrow, hh⟩
      exact ⟨p, held, hrow, rfl, hh⟩
    · rintro ⟨k, held, hrow, rfl, hh⟩
      exact ⟨held, hrow, hh⟩
  | anyAdmin => exact anyAdmin_iff

/-- The rows still to come are rows of `new`. -/
def PhaseFrom (new : Table) : LoadPhase → Prop
  | .idle => True
  | .diffed s _ | .broadcasting s _ => s = new
  | .inserting s _ rest => s = new ∧ ∀ row ∈ rest, new.lookup row.1 = some row.2

/-- Every row in sight is a row of one of the snapshots, and a reader that has
seen a yes has seen it in one of them. -/
structure FromSnapshots (old new : Table) (q : Query) (s : State) : Prop where
  query : s.query = q
  phase : PhaseFrom new s.owner.phase
  row : ∀ k held, s.owner.table.lookup k = some held →
    old.lookup k = some held ∨ new.lookup k = some held
  yes : match s.reader with
    | .idle => True
    | .scanning _ _ b | .answered b => b = true → Admits old q ∨ Admits new q

variable {old new : Table} {q : Query} {s s' : State}

theorem fromSnapshots_start : FromSnapshots old new q (start old new q) :=
  ⟨rfl, rfl, fun _ _ h => Or.inl h, trivial⟩

theorem FromSnapshots.admits (h : FromSnapshots old new q s) {k : String} {held : List String}
    (hrow : s.owner.table.lookup k = some held) (hy : RowAdmits q k held) :
    Admits old q ∨ Admits new q :=
  (h.row k held hrow).imp (fun ho => ⟨k, held, ho, hy⟩) fun hn => ⟨k, held, hn, hy⟩

theorem FromSnapshots.owner_step (h : FromSnapshots old new q s) {a : LoadAct} {l : Loader}
    (ha : ∀ t, a ≠ .load t) (hs : s.owner.step a = some l) :
    PhaseFrom new l.phase ∧ ∀ k held, l.table.lookup k = some held →
      old.lookup k = some held ∨ new.lookup k = some held := by
  have hphase := h.phase
  rcases Loader.step_cases hs with ⟨t, -, rfl, -⟩ | ⟨t, ch, hp, -, rfl⟩ |
    ⟨t, ch, row, rest, hp, -, rfl⟩ | ⟨t, ch, hp, -, rfl⟩ | ⟨t, rest, p, hp, -, -, rfl⟩ |
    ⟨t, hp, -, rfl⟩
  · exact absurd rfl (ha t)
  · rw [hp] at hphase
    obtain rfl : t = new := hphase
    exact ⟨⟨rfl, fun row hrow => Ets.mem_tab2list.mp hrow⟩, fun k held hk => by simp at hk⟩
  · -- an insertion: the row is one of `new`, and any other was there before
    rw [hp] at hphase
    obtain ⟨rfl, hrest⟩ := hphase
    refine ⟨⟨rfl, fun r hr => hrest r (List.mem_cons_of_mem _ hr)⟩, fun k held hk => ?_⟩
    rw [Ets.lookup_insert] at hk
    split at hk
    · rename_i hkey
      obtain rfl := Option.some.inj hk
      exact Or.inr (hkey ▸ hrest row List.mem_cons_self)
    · exact h.row k held hk
  · rw [hp] at hphase
    exact ⟨hphase.1, h.row⟩
  · rw [hp] at hphase
    exact ⟨hphase, h.row⟩
  · exact ⟨trivial, h.row⟩

theorem FromSnapshots.step {a : Act} (h : FromSnapshots old new q s) (hone : OneLoad s a)
    (hs : step s a = some s') : FromSnapshots old new q s' := by
  have hyes := h.yes
  cases a with
  | owner act =>
    obtain ⟨l, hl, rfl⟩ := Option.map_eq_some_iff.mp hs
    obtain ⟨hphase, hrow⟩ := h.owner_step (fun t he => hone t (by rw [he])) hl
    refine ⟨h.query, hphase, hrow, ?_⟩
    cases hr : s.reader <;> rw [hr] at hyes <;> exact hyes
  | lookup =>
    simp only [GrantsReload.step] at hs
    split at hs
    · rename_i p perm hq _
      obtain rfl := Option.some.inj hs
      refine ⟨h.query, h.phase, h.row, fun hb => ?_⟩
      obtain ⟨held, hrow, hh⟩ := has_iff.mp hb
      obtain rfl : Query.has p perm = q := hq ▸ h.query
      exact h.admits hrow ⟨rfl, hh⟩
    · cases hs
  | scanStart =>
    simp only [GrantsReload.step] at hs
    split at hs
    · obtain rfl := Option.some.inj hs
      exact ⟨h.query, h.phase, h.row, fun hb => by cases hb⟩
    · cases hs
  | visit k =>
    simp only [GrantsReload.step] at hs
    split at hs
    · rename_i visited owed acc hq hr
      split at hs
      · cases hs
      · obtain ⟨held, hrow, rfl⟩ := Option.map_eq_some_iff.mp hs
        refine ⟨h.query, h.phase, h.row, fun hb => ?_⟩
        rw [hr] at hyes
        -- the yes was seen before, or in this row
        rcases (Bool.or_eq_true _ _).mp hb with hacc | hstar
        · exact hyes hacc
        · obtain rfl : Query.anyAdmin = q := hq ▸ h.query
          exact h.admits hrow (List.contains_iff_mem.mp hstar)
    · cases hs
  | scanEnd =>
    simp only [GrantsReload.step] at hs
    split at hs
    · rename_i hr
      split at hs
      · obtain rfl := Option.some.inj hs
        rw [hr] at hyes
        exact ⟨h.query, h.phase, h.row, hyes⟩
      · cases hs
    · cases hs

theorem answered_true {as : List Act} (hr : Run step OneLoad (start old new q) as s)
    (hb : s.reader = .answered true) : Admits old q ∨ Admits new q := by
  have h : FromSnapshots old new q s :=
    hr.invariant fromSnapshots_start fun _ _ _ ht hok hs => ht.step hok hs
  have hyes := h.yes
  rw [hb] at hyes
  exact hyes rfl

/-! ## A no can come from neither -/

/-- The reader's whole read, done when the table has just been cleared. -/
def readWhenCleared : Query → List Act
  | .has _ _ => [.owner .deleteAllObjects, .lookup]
  | .anyAdmin => [.owner .deleteAllObjects, .scanStart, .scanEnd]

theorem run_readWhenCleared (old new : Table) (q : Query) :
    ∃ s, Run step OneLoad (start old new q) (readWhenCleared q) s ∧
      s.reader = .answered false := by
  have hclear : step (start old new q) (.owner .deleteAllObjects) = some
      ⟨⟨Ets.empty, .inserting new (diffChanged old new) new.tab2list⟩, q, .idle⟩ := rfl
  have hone : ∀ (s : State) (a : Act), (∀ t, a ≠ .owner (.load t)) → OneLoad s a :=
    fun _ _ h => h
  cases q with
  | has p r =>
    exact ⟨_, .cons (hone _ _ (by simp)) hclear
      (.cons (hone _ _ (by simp)) rfl .nil), rfl⟩
  | anyAdmin =>
    exact ⟨_, .cons (hone _ _ (by simp)) hclear
      (.cons (hone _ _ (by simp)) rfl (.cons (hone _ _ (by simp)) rfl .nil)), rfl⟩

/-- **When the replacement is atomic to a reader**: exactly when the old and the
new snapshot do not both answer yes. -/
theorem reload_atomic_iff (old new : Table) (q : Query) :
    (∀ as s b, Run step OneLoad (start old new q) as s → s.reader = .answered b →
      b = answer old q ∨ b = answer new q) ↔ ¬(Admits old q ∧ Admits new q) := by
  constructor
  · rintro hatomic ⟨hold, hnew⟩
    obtain ⟨s, hrun, hread⟩ := run_readWhenCleared old new q
    rcases hatomic _ s false hrun hread with h | h
    · rw [answer_iff.mpr hold] at h
      cases h
    · rw [answer_iff.mpr hnew] at h
      cases h
  · intro hnot as s b hrun hread
    cases b with
    | true =>
      rcases answered_true hrun hread with h | h
      · exact Or.inl (answer_iff.mpr h).symm
      · exact Or.inr (answer_iff.mpr h).symm
    | false =>
      by_cases hold : Admits old q
      · have hnew : answer new q ≠ true := fun h => hnot ⟨hold, answer_iff.mp h⟩
        exact Or.inr (Bool.eq_false_iff.mpr hnew).symm
      · have hold' : answer old q ≠ true := fun h => hold (answer_iff.mp h)
        exact Or.inl (Bool.eq_false_iff.mpr hold').symm

/-- The table in which `ou_admin` holds `*`. -/
def oneAdmin : Table := Ets.empty.insert "ou_admin" ["*"]

/-- Reloading an unchanged file can be read as "no admin": the condition of the
bootstrap bypass is seen true with an admin in both snapshots. -/
theorem reload_not_atomic :
    ¬∀ (old new : Table) (q : Query) (as : List Act) (s : State) (b : Bool),
      Run step OneLoad (start old new q) as s → s.reader = .answered b →
        b = answer old q ∨ b = answer new q := by
  intro h
  obtain ⟨s, hrun, hread⟩ := run_readWhenCleared oneAdmin oneAdmin .anyAdmin
  have hyes : answer oneAdmin .anyAdmin = true := by decide
  rcases h _ _ _ _ s false hrun hread with he | he <;> rw [hyes] at he <;> cases he

end GrantsReload
end Esr
