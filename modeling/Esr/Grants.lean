import Esr.Ets
import Esr.CapabilityMatch

/-! # The grants table

`Esr.Resource.Capability.Grants` keeps one row per principal: the list of the
capabilities it holds.  Callers read the table directly; only the owning process
writes it, in `load_snapshot`, which is several table operations and then one
broadcast per principal whose row has changed.

The loader is given here as a state machine, one step per table operation, so
that the two modules that put readers beside it (`GrantsReload`,
`SessionProjection`) interleave with the same loader.  Two functions of its state
carry their invariants: `target`, the table the loader will have left when it is
idle again, and `Owed p`, that the broadcast for `p` is still to come.
-/
namespace Esr
namespace Grants

/-- The contents of `:esr_capabilities_grants`, and also a snapshot handed to
`load_snapshot`: both map a principal to the list it holds. -/
abbrev Table := Ets String (List String)

/-- `has?/2` on a table nobody is writing. -/
def has (t : Table) (principalId permission : String) : Bool :=
  match t.lookup principalId with
  | none => false
  | some held => held.any fun h => capMatches h permission

/-- `any_admin?/0` on a table nobody is writing. -/
def anyAdmin (t : Table) : Bool :=
  t.tab2list.foldl (fun acc row => acc || row.2.contains "*") false

/-- The row `fetch_grants` and `has?` see: the empty list when there is none. -/
def heldBy (t : Table) (principalId : String) : List String :=
  (t.lookup principalId).getD []

theorem has_eq_any (t : Table) (p r : String) :
    has t p r = (heldBy t p).any fun h => capMatches h r := by
  unfold has heldBy
  cases t.lookup p <;> rfl

theorem has_iff {t : Table} {p r : String} :
    has t p r = true ↔ ∃ held, t.lookup p = some held ∧ ∃ h ∈ held, h = r ∨ Covers h r := by
  unfold has
  cases t.lookup p with
  | none => simp
  | some held => simp [capMatches_iff]

theorem has_iff_heldBy {t : Table} {p r : String} :
    has t p r = true ↔ ∃ h ∈ heldBy t p, capMatches h r = true := by
  rw [has_eq_any, List.any_eq_true]

theorem foldl_or (rows : List (String × List String)) (acc : Bool) :
    rows.foldl (fun acc row => acc || row.2.contains "*") acc =
      (acc || rows.any fun row => row.2.contains "*") := by
  induction rows generalizing acc with
  | nil => simp
  | cons row rows ih => rw [List.foldl_cons, ih, List.any_cons, Bool.or_assoc]

theorem anyAdmin_iff {t : Table} :
    anyAdmin t = true ↔ ∃ p held, t.lookup p = some held ∧ "*" ∈ held := by
  unfold anyAdmin
  rw [foldl_or, Bool.false_or, List.any_eq_true]
  simp only [Prod.exists, Ets.mem_tab2list, List.contains_iff_mem]

/-! ## Loading a snapshot -/

/-- `diff_changed/2`: the principals whose row differs. -/
def diffChanged (prior new : Table) : List String :=
  (prior.keys ++ new.keys.filter fun p => p ∉ prior.keys).filter fun p =>
    prior.lookup p ≠ new.lookup p

theorem mem_diffChanged {prior new : Table} {p : String} :
    p ∈ diffChanged prior new ↔ prior.lookup p ≠ new.lookup p := by
  unfold diffChanged
  rw [List.mem_filter, decide_eq_true_eq, and_iff_right_iff_imp]
  intro hne
  by_cases hp : p ∈ prior.keys
  · exact List.mem_append_left _ hp
  · refine List.mem_append_right _ (List.mem_filter.mpr ⟨?_, by simpa using hp⟩)
    by_contra hq
    have hnone : ∀ {t : Table}, p ∉ t.keys → t.lookup p = none := fun {t} h =>
      Option.eq_none_iff_forall_ne_some.mpr fun v hv => h (Ets.mem_keys.mpr ⟨v, hv⟩)
    exact hne (by rw [hnone hp, hnone hq])

/-- Where `handle_call({:load, snapshot}, …)` stands.  `diffed`: the changed
principals are known and the table is as before; `inserting`: the table has been
cleared and the `rest` of the snapshot's rows is to be inserted; `broadcasting`:
the table is the snapshot and the `rest` of the changed principals is to be told. -/
inductive LoadPhase where
  | idle
  | diffed (snapshot : Table) (changed : List String)
  | inserting (snapshot : Table) (changed : List String) (rest : List (String × List String))
  | broadcasting (snapshot : Table) (rest : List String)

/-- The principals still to be told. -/
def LoadPhase.owed : LoadPhase → List String
  | .idle => []
  | .diffed _ changed | .inserting _ changed _ => changed
  | .broadcasting _ rest => rest

/-- The table and its owner. -/
structure Loader where
  table : Table
  phase : LoadPhase

/-- A step of the owner.  The order in which a `MapSet` is enumerated is not
specified, so `broadcast` takes the principals in any order. -/
inductive LoadAct where
  | load (snapshot : Table)
  | deleteAllObjects
  | insert
  | inserted
  | broadcast (principalId : String)
  | done

namespace Loader

/-- One step of `handle_call({:load, snapshot}, …)`. -/
def step (l : Loader) (a : LoadAct) : Option Loader :=
  match l.phase, a with
  | .idle, .load snapshot =>
      some { l with phase := .diffed snapshot (diffChanged l.table snapshot) }
  | .diffed snapshot changed, .deleteAllObjects =>
      some { table := Ets.empty, phase := .inserting snapshot changed snapshot.tab2list }
  | .inserting snapshot changed (row :: rest), .insert =>
      some { table := l.table.insert row.1 row.2, phase := .inserting snapshot changed rest }
  | .inserting snapshot changed [], .inserted =>
      some { l with phase := .broadcasting snapshot changed }
  | .broadcasting snapshot rest, .broadcast p =>
      if p ∈ rest then some { l with phase := .broadcasting snapshot (rest.filter (· ≠ p)) }
      else none
  | .broadcasting _ [], .done => some { l with phase := .idle }
  | _, _ => none

/-- The table the load in progress will have left. -/
def target (l : Loader) : Table :=
  match l.phase with
  | .idle => l.table
  | .diffed snapshot _ | .inserting snapshot _ _ | .broadcasting snapshot _ => snapshot

/-- The broadcast for the principal is still to come. -/
def Owed (l : Loader) (p : String) : Prop := p ∈ l.phase.owed

instance (l : Loader) (p : String) : Decidable (l.Owed p) :=
  inferInstanceAs (Decidable (p ∈ l.phase.owed))

/-- What the table holds during the insertions and after them. -/
def Sound (l : Loader) : Prop :=
  match l.phase with
  | .idle | .diffed _ _ => True
  | .inserting snapshot _ rest => ∀ p, (l.table.insertEach rest).lookup p = snapshot.lookup p
  | .broadcasting snapshot _ => ∀ p, l.table.lookup p = snapshot.lookup p

variable {l l' : Loader} {a : LoadAct}

theorem step_cases (h : l.step a = some l') :
    (∃ s, l.phase = .idle ∧ a = .load s ∧
      l' = { l with phase := .diffed s (diffChanged l.table s) }) ∨
    (∃ s ch, l.phase = .diffed s ch ∧ a = .deleteAllObjects ∧
      l' = ⟨Ets.empty, .inserting s ch s.tab2list⟩) ∨
    (∃ s ch row rest, l.phase = .inserting s ch (row :: rest) ∧ a = .insert ∧
      l' = ⟨l.table.insert row.1 row.2, .inserting s ch rest⟩) ∨
    (∃ s ch, l.phase = .inserting s ch [] ∧ a = .inserted ∧
      l' = { l with phase := .broadcasting s ch }) ∨
    (∃ s rest p, l.phase = .broadcasting s rest ∧ a = .broadcast p ∧ p ∈ rest ∧
      l' = { l with phase := .broadcasting s (rest.filter (· ≠ p)) }) ∨
    (∃ s, l.phase = .broadcasting s [] ∧ a = .done ∧ l' = { l with phase := .idle }) := by
  unfold step at h
  split at h
  · exact Or.inl ⟨_, ‹_›, rfl, (Option.some.inj h).symm⟩
  · exact Or.inr (Or.inl ⟨_, _, ‹_›, rfl, (Option.some.inj h).symm⟩)
  · exact Or.inr (Or.inr (Or.inl ⟨_, _, _, _, ‹_›, rfl, (Option.some.inj h).symm⟩))
  · exact Or.inr (Or.inr (Or.inr (Or.inl ⟨_, _, ‹_›, rfl, (Option.some.inj h).symm⟩)))
  · split at h
    · exact Or.inr (Or.inr (Or.inr (Or.inr (Or.inl
        ⟨_, _, _, ‹_›, rfl, ‹_›, (Option.some.inj h).symm⟩))))
    · cases h
  · exact Or.inr (Or.inr (Or.inr (Or.inr (Or.inr ⟨_, ‹_›, rfl, (Option.some.inj h).symm⟩))))
  · cases h

theorem sound_step (h : l.step a = some l') (hs : l.Sound) : l'.Sound := by
  rcases step_cases h with ⟨s, -, -, rfl⟩ | ⟨s, ch, -, -, rfl⟩ | ⟨s, ch, row, rest, hp, -, rfl⟩ |
    ⟨s, ch, hp, -, rfl⟩ | ⟨s, rest, p, hp, -, -, rfl⟩ | ⟨s, -, -, rfl⟩
  · trivial
  · exact fun p => Ets.lookup_insertEach_tab2list s p
  · simp only [Sound, hp] at hs ⊢
    exact hs
  · simp only [Sound, hp] at hs ⊢
    exact hs
  · simp only [Sound, hp] at hs ⊢
    exact hs
  · trivial

/-- A copy of the principal's list that is what the load in progress will leave,
or that the owner has still to announce as out of date. -/
def Current (l : Loader) (p : String) (held : List String) : Prop :=
  held = heldBy l.target p ∨ l.Owed p

instance (l : Loader) (p : String) (held : List String) : Decidable (l.Current p held) :=
  inferInstanceAs (Decidable (_ ∨ _))

theorem Current.step {p : String} {held : List String} (hc : l.Current p held)
    (h : l.step a = some l') (hs : l.Sound) (hne : a ≠ .broadcast p) : l'.Current p held := by
  rcases step_cases h with ⟨s, hp, -, rfl⟩ | ⟨s, ch, hp, -, rfl⟩ | ⟨s, ch, row, rest, hp, -, rfl⟩ |
    ⟨s, ch, hp, -, rfl⟩ | ⟨s, rest, q, hp, rfl, -, rfl⟩ | ⟨s, hp, -, rfl⟩
  · -- a load begins: a row it changes is owed a broadcast
    simp only [Current, target, Owed, LoadPhase.owed, hp, List.not_mem_nil, or_false] at hc
    by_cases hrow : l.table.lookup p = s.lookup p
    · refine Or.inl ?_
      simp only [hc, target, heldBy, hrow]
    · exact Or.inr (mem_diffChanged.mpr hrow)
  · simpa only [Current, target, Owed, LoadPhase.owed, hp] using hc
  · simpa only [Current, target, Owed, LoadPhase.owed, hp] using hc
  · simpa only [Current, target, Owed, LoadPhase.owed, hp] using hc
  · have hpq : p ≠ q := fun he => hne (by rw [he])
    simpa only [Current, target, Owed, LoadPhase.owed, hp, List.mem_filter, decide_eq_true_eq,
      ne_eq, hpq, not_false_eq_true, and_true] using hc
  · -- a load ends: the table is the snapshot
    simp only [Sound, hp] at hs
    simp only [Current, target, Owed, LoadPhase.owed, hp, List.not_mem_nil, or_false] at hc
    refine Or.inl ?_
    simp only [hc, target, heldBy, hs p]

end Loader
end Grants

/-! ## The façade -/

namespace Capability

/-- `Capability.has?/2`.  `resolve` is `maybe_resolve_to_uuid`: the user an
open id is bound to in the URI store. -/
def has (resolve : String → Option String) (t : Grants.Table) (principalId permission : String) :
    Bool :=
  if Grants.has t principalId permission then true
  else
    match resolve principalId with
    | some uuid => if uuid ≠ principalId then Grants.has t uuid permission else false
    | none => false

theorem has_iff {resolve : String → Option String} {t : Grants.Table} {p r : String} :
    has resolve t p r = true ↔
      ∃ u, (u = p ∨ resolve p = some u) ∧ Grants.has t u r = true := by
  unfold has
  by_cases hown : Grants.has t p r = true
  · rw [if_pos hown]
    exact iff_of_true rfl ⟨p, Or.inl rfl, hown⟩
  · rw [if_neg hown]
    constructor
    · intro h
      split at h
      · rename_i u hu
        split at h
        · exact ⟨u, Or.inr hu, h⟩
        · cases h
      · cases h
    · rintro ⟨u, rfl | hu, hhas⟩
      · exact absurd hhas hown
      · have hne : u ≠ p := fun he => hown (he ▸ hhas)
        simp [hu, hne, hhas]

end Capability
end Esr
