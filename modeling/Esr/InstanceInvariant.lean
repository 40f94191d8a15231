import Esr.InstanceRegistry

/-! # The registry's tables describe one set of instances

Two parts of the representation hold in every state: a row of the reverse index
leads to an instance of that name attached to that session, and a primary row
names an indexed agent (`Sound`).  The converse, that every attached instance is
indexed under its name in each of its sessions (`Indexed`), is kept by every
request except two.  A rename asks whether the new name is free in one session and
then takes it in all of them, and a detach of an instance that lists the session
twice drops the index row and keeps the other occurrence.  `Careful` excludes just
these, and `represented_run_iff` shows that it excludes nothing else.
-/
namespace Esr
namespace InstanceRegistry

variable {Config : Type} {st st' : State Config} {op : Op Config}

/-- The instance `id` has the name `n` and is attached to the session `s`. -/
def Attached (t : Ets String (Instance Config)) (id s n : String) : Prop :=
  ∃ inst, t.lookup id = some inst ∧ inst.name = n ∧ s ∈ inst.sessionIds

/-- What holds of the tables in every state. -/
structure Sound (st : State Config) : Prop where
  row_id : ∀ id inst, st.table.lookup id = some inst → inst.id = id
  index_row : ∀ s n id, st.nameIndex.lookup (s, n) = some id → Attached st.table id s n
  primary_index : ∀ s n, st.primaryRows.lookup s = some n →
    ∃ id, st.nameIndex.lookup (s, n) = some id

/-- Every attached instance is found under its name in each of its sessions. -/
def Indexed (st : State Config) : Prop :=
  ∀ id s n, Attached st.table id s n → st.nameIndex.lookup (s, n) = some id

/-! ## What a request does to the tables -/

/-- What a request adds, and its uuid; nothing when its spawn failed. -/
def Op.adds : Op Config → Option (Attrs Config × String)
  | .addInstance attrs id | .addInstanceAndSpawn attrs id _ (some _) => some (attrs, id)
  | _ => none

variable {attrs : Attrs Config} {id s n name sid : String} {t : Ets String (Instance Config)}
  {inst : Instance Config}

theorem Op.adds_eq_some (h : op.adds = some (attrs, id)) :
    op = .addInstance attrs id ∨
      ∃ ptyId supPid, op = .addInstanceAndSpawn attrs id ptyId (some supPid) := by
  cases op with
  | addInstance attrs' id' =>
    obtain ⟨rfl, rfl⟩ := Prod.mk.inj (Option.some.inj h)
    exact Or.inl rfl
  | addInstanceAndSpawn attrs' ccId ptyId spawned =>
    cases spawned with
    | none => cases h
    | some supPid =>
      obtain ⟨rfl, rfl⟩ := Prod.mk.inj (Option.some.inj h)
      exact Or.inr ⟨ptyId, supPid, rfl⟩
  | _ => cases h

/-- The state once a new instance has been entered, with `head` the session that
is given a primary if it has none. -/
def State.enter (st : State Config) (inst : Instance Config) (head : String)
    (sup : Ets (String × String) Nat) : State Config where
  table := st.table.insert inst.id inst
  nameIndex := indexEach st.nameIndex inst.sessionIds inst.name inst.id
  supRows := sup
  primaryRows := promote st.primaryRows head inst.name

/-- The state once an instance has been renamed. -/
def State.rename (st : State Config) (inst : Instance Config) (name newName : String) :
    State Config where
  table := st.table.insert inst.id { inst with name := newName }
  nameIndex := renameIndex st.nameIndex inst.sessionIds name newName inst.id
  primaryRows := renamePrimary st.primaryRows inst.sessionIds name newName
  supRows := renameSup st.supRows inst.sessionIds name newName

/-- The state once an instance has been attached to one more session. -/
def State.attach (st : State Config) (inst : Instance Config) (name targetSid : String) :
    State Config :=
  { st with
    table := st.table.insert inst.id { inst with sessionIds := inst.sessionIds ++ [targetSid] }
    nameIndex := st.nameIndex.insert (targetSid, name) inst.id }

/-- The ways a request can go, over a sound state. -/
inductive Effect (st : State Config) : Op Config → State Config → Prop
  | unchanged (op : Op Config) : Effect st op st
  | enter {op : Op Config} {attrs : Attrs Config} {inst : Instance Config}
      {sup : Ets (String × String) Nat} (hadds : op.adds = some (attrs, inst.id))
      (hsids : inst.sessionIds = attrs.sessionIds) (hname : inst.name = attrs.name)
      (hfresh : st.table.lookup inst.id = none)
      (hfree : ∀ s ∈ inst.sessionIds, st.nameIndex.lookup (s, inst.name) = none) :
      Effect st op (st.enter inst attrs.primarySid sup)
  | detach {sid name : String} {inst : Instance Config}
      (hix : st.nameIndex.lookup (sid, name) = some inst.id)
      (hrow : st.table.lookup inst.id = some inst)
      (hprimary : st.primaryRows.lookup sid ≠ some name) :
      Effect st (.removeInstance sid name) (doDetach st inst.id sid name)
  | setPrimary {sid name id : String} (hix : st.nameIndex.lookup (sid, name) = some id) :
      Effect st (.setPrimary sid name)
        { st with primaryRows := st.primaryRows.insert sid name }
  | rename {sid name newName : String} {inst : Instance Config} (hne : name ≠ newName)
      (hfree : st.nameIndex.lookup (sid, newName) = none)
      (hix : st.nameIndex.lookup (sid, name) = some inst.id)
      (hrow : st.table.lookup inst.id = some inst) :
      Effect st (.renameInstance sid name newName) (st.rename inst name newName)
  | attach {name sourceSid targetSid : String} {inst : Instance Config}
      (hix : st.nameIndex.lookup (sourceSid, name) = some inst.id)
      (hrow : st.table.lookup inst.id = some inst) (hnew : targetSid ∉ inst.sessionIds)
      (hfree : st.nameIndex.lookup (targetSid, name) = none) :
      Effect st (.attachToSession name sourceSid targetSid) (st.attach inst name targetSid)

theorem Sound.row_of_index (hs : Sound st) (hix : st.nameIndex.lookup (s, n) = some id) :
    ∃ inst, st.table.lookup inst.id = some inst ∧ inst.id = id ∧ inst.name = n ∧
      s ∈ inst.sessionIds := by
  obtain ⟨inst, hrow, hname, hmem⟩ := hs.index_row s n id hix
  obtain rfl := hs.row_id id inst hrow
  exact ⟨inst, hrow, rfl, hname, hmem⟩

theorem free_of_find_none {sids : List String}
    (h : (sids.find? fun s => (st.nameIndex.lookup (s, name)).isSome) = none) :
    ∀ s ∈ sids, st.nameIndex.lookup (s, name) = none := by
  intro s hs
  simpa using List.find?_eq_none.mp h s hs

theorem effect_addInstance (hfresh : st.table.lookup id = none) :
    Effect st (.addInstance attrs id) (addInstance st attrs id).2 := by
  unfold addInstance
  split
  · exact .unchanged _
  · rename_i hfind
    have hfree := free_of_find_none hfind
    let inst : Instance Config :=
      ⟨id, attrs.sessionIds, attrs.type, attrs.name, attrs.config, attrs.actorIds⟩
    exact @Effect.enter _ st _ attrs inst _ rfl rfl rfl hfresh hfree

theorem effect_addInstanceAndSpawn {ccId ptyId : String} {spawned : Option Nat}
    (hfresh : st.table.lookup ccId = none) :
    Effect st (.addInstanceAndSpawn attrs ccId ptyId spawned)
      (addInstanceAndSpawn st attrs ccId ptyId spawned).2 := by
  unfold addInstanceAndSpawn
  split
  · exact .unchanged _
  · rename_i hfind
    split
    · have hfree := free_of_find_none hfind
      let inst : Instance Config :=
        ⟨ccId, attrs.sessionIds, attrs.type, attrs.name, attrs.config, some ⟨ccId, ptyId⟩⟩
      exact @Effect.enter _ st _ attrs inst _ rfl rfl rfl hfresh hfree
    · -- the spawn failed before anything was written
      exact .unchanged _

theorem Sound.effect_removeInstance (hs : Sound st) (sid name : String) :
    Effect st (.removeInstance sid name) (removeInstance st sid name).2 := by
  unfold removeInstance
  split
  · exact .unchanged _
  · rename_i id hix
    obtain ⟨inst, hrow, rfl, -, -⟩ := hs.row_of_index hix
    split
    · exact .unchanged _
    · rename_i hprimary
      exact .detach hix hrow hprimary

theorem effect_setPrimary (st : State Config) (sid name : String) :
    Effect st (.setPrimary sid name) (setPrimary st sid name).2 := by
  unfold setPrimary
  split
  · exact .unchanged _
  · rename_i id hix
    exact .setPrimary hix

theorem Sound.effect_renameInstance (hs : Sound st) (sid name newName : String) :
    Effect st (.renameInstance sid name newName) (renameInstance st sid name newName).2 := by
  unfold renameInstance
  by_cases hne : name = newName
  · rw [if_pos hne]
    exact .unchanged _
  by_cases hfree : st.nameIndex.lookup (sid, newName) = none
  · rw [if_neg hne, if_neg (not_not.mpr hfree)]
    cases hix : st.nameIndex.lookup (sid, name) with
    | none => exact .unchanged _
    | some id =>
      obtain ⟨inst, hrow, rfl, -, -⟩ := hs.row_of_index hix
      simp only [hrow]
      exact .rename hne hfree hix hrow
  · rw [if_neg hne, if_pos hfree]
    exact .unchanged _

theorem Sound.effect_attachToSession (hs : Sound st) (name sourceSid targetSid : String) :
    Effect st (.attachToSession name sourceSid targetSid)
      (attachToSession st name sourceSid targetSid).2 := by
  unfold attachToSession
  cases hix : st.nameIndex.lookup (sourceSid, name) with
  | none => exact .unchanged _
  | some id =>
    obtain ⟨inst, hrow, rfl, -, -⟩ := hs.row_of_index hix
    simp only [hrow]
    by_cases hnew : targetSid ∈ inst.sessionIds
    · -- already attached, which the source answers with `:ok`
      rw [if_pos hnew]
      exact .unchanged _
    by_cases hfree : st.nameIndex.lookup (targetSid, name) = none
    · rw [if_neg hnew, if_neg (not_not.mpr hfree)]
      exact .attach hix hrow hnew hfree
    · rw [if_neg hnew, if_pos hfree]
      exact .unchanged _

theorem Sound.step_effect (hs : Sound st) (h : step st op = some st') : Effect st op st' := by
  cases op with
  | addInstance attrs id =>
    simp only [step] at h
    split at h
    · rename_i hfresh
      obtain rfl := Option.some.inj h
      exact effect_addInstance hfresh
    · cases h
  | addInstanceAndSpawn attrs ccId ptyId spawned =>
    simp only [step] at h
    split at h
    · rename_i hfresh
      obtain rfl := Option.some.inj h
      exact effect_addInstanceAndSpawn hfresh
    · cases h
  | removeInstance sid name =>
    obtain rfl := Option.some.inj h
    exact hs.effect_removeInstance sid name
  | setPrimary sid name =>
    obtain rfl := Option.some.inj h
    exact effect_setPrimary st sid name
  | renameInstance sid name newName =>
    obtain rfl := Option.some.inj h
    exact hs.effect_renameInstance sid name newName
  | attachToSession name sourceSid targetSid =>
    obtain rfl := Option.some.inj h
    exact hs.effect_attachToSession name sourceSid targetSid

/-! ## Attachment after each request -/

theorem attached_of_row (hrow : t.lookup inst.id = some inst) :
    Attached t inst.id s n ↔ inst.name = n ∧ s ∈ inst.sessionIds := by
  constructor
  · rintro ⟨inst', hrow', h⟩
    obtain rfl := Option.some.inj (hrow.symm.trans hrow')
    exact h
  · exact fun h => ⟨inst, hrow, h⟩

theorem attached_insert {id₀ : String} :
    Attached (t.insert id₀ inst) id s n ↔
      if id = id₀ then inst.name = n ∧ s ∈ inst.sessionIds else Attached t id s n := by
  unfold Attached
  by_cases hid : id = id₀
  · simp [hid]
  · simp [hid, Ets.lookup_insert]

theorem detachRow_lookup_of_ne {id' : String} (hne : id' ≠ id) :
    (detachRow t id sid).lookup id' = t.lookup id' := by
  unfold detachRow
  split
  · split
    · exact Ets.lookup_delete_of_ne _ hne
    · exact Ets.lookup_insert_of_ne _ _ hne
  · rfl

theorem detachRow_lookup (hrow : t.lookup inst.id = some inst) :
    (detachRow t inst.id sid).lookup inst.id =
      if inst.sessionIds.erase sid = [] then none
      else some { inst with sessionIds := inst.sessionIds.erase sid } := by
  unfold detachRow
  simp only [hrow]
  split <;> simp

theorem attached_detachRow (hrow : t.lookup inst.id = some inst) :
    Attached (detachRow t inst.id sid) id s n ↔
      if id = inst.id then inst.name = n ∧ s ∈ inst.sessionIds.erase sid
      else Attached t id s n := by
  by_cases hid : id = inst.id
  · subst hid
    unfold Attached
    rw [detachRow_lookup hrow, if_pos rfl]
    split
    · rename_i hnil
      simp [hnil]
    · simp
  · rw [if_neg hid]
    unfold Attached
    rw [detachRow_lookup_of_ne hid]

/-! ## The part that holds in every state -/

theorem sound_init : Sound (init : State Config) :=
  ⟨fun _ _ h => by simp [init] at h, fun _ _ _ h => by simp [init] at h,
    fun _ _ h => by simp [init] at h⟩

theorem row_id_insert (hs : Sound st) {inst' inst'' : Instance Config}
    (h : (st.table.insert inst.id inst').lookup id = some inst'') (hid : inst'.id = inst.id) :
    inst''.id = id := by
  rw [Ets.lookup_insert] at h
  split at h
  · rename_i he
    obtain rfl := Option.some.inj h
    rw [hid, he]
  · exact hs.row_id _ _ h

theorem Sound.enter (hs : Sound st) {head : String} {sup : Ets (String × String) Nat}
    (hhead : head ∈ inst.sessionIds) (hfresh : st.table.lookup inst.id = none) :
    Sound (st.enter inst head sup) := by
  refine ⟨fun id inst' h => row_id_insert hs h rfl, fun s n id h => ?_, fun s n h => ?_⟩
  · rw [State.enter, lookup_indexEach] at h
    rw [State.enter, attached_insert]
    split at h
    · rename_i hmem
      obtain rfl := Option.some.inj h
      simp [hmem]
    · obtain ⟨inst', hrow, -⟩ := hs.index_row s n id h
      have hne : id ≠ inst.id := by
        rintro rfl
        rw [hfresh] at hrow
        cases hrow
      rw [if_neg hne]
      exact hs.index_row s n id h
  · simp only [State.enter, lookup_indexEach]
    by_cases hmem : s ∈ inst.sessionIds ∧ n = inst.name
    · exact ⟨inst.id, by rw [if_pos hmem]⟩
    rw [if_neg hmem]
    rw [State.enter, lookup_promote] at h
    split at h
    · rename_i hs'
      subst hs'
      cases hold : st.primaryRows.lookup s with
      | none =>
        rw [hold] at h
        exact absurd ⟨hhead, (Option.some.inj h).symm⟩ hmem
      | some m =>
        rw [hold] at h
        obtain rfl := Option.some.inj h
        exact hs.primary_index _ _ hold
    · exact hs.primary_index s n h

theorem Sound.detach (hs : Sound st) (hix : st.nameIndex.lookup (sid, name) = some inst.id)
    (hrow : st.table.lookup inst.id = some inst)
    (hprimary : st.primaryRows.lookup sid ≠ some name) :
    Sound (doDetach st inst.id sid name) := by
  refine ⟨fun id inst' h => ?_, fun s n id h => ?_, fun s n h => ?_⟩
  · by_cases hid : id = inst.id
    · subst hid
      rw [doDetach, detachRow_lookup hrow] at h
      split at h
      · cases h
      · obtain rfl := Option.some.inj h
        rfl
    · rw [doDetach, detachRow_lookup_of_ne hid] at h
      exact hs.row_id _ _ h
  · rw [doDetach, Ets.lookup_delete] at h
    split at h
    · cases h
    rename_i hkey
    rw [doDetach, attached_detachRow hrow]
    split
    · rename_i hid
      subst hid
      obtain ⟨hname, hmem⟩ := (attached_of_row hrow).mp (hs.index_row s n _ h)
      have hname' := ((attached_of_row hrow).mp (hs.index_row sid name _ hix)).1
      -- the instance has one name, so another of its rows is a row of another session
      have hsid : s ≠ sid := fun he => hkey (by rw [he, ← hname, hname'])
      exact ⟨hname, (List.mem_erase_of_ne hsid).mpr hmem⟩
    · exact hs.index_row s n id h
  · -- the index row that goes is not the primary's
    obtain ⟨id, hid⟩ := hs.primary_index s n h
    refine ⟨id, ?_⟩
    rw [doDetach, Ets.lookup_delete_of_ne _ ?_, hid]
    intro he
    obtain ⟨rfl, rfl⟩ := Prod.mk.inj he
    exact hprimary h

theorem Sound.setPrimary (hs : Sound st) (hix : st.nameIndex.lookup (sid, name) = some id) :
    Sound { st with primaryRows := st.primaryRows.insert sid name } := by
  refine ⟨hs.row_id, hs.index_row, fun s n h => ?_⟩
  rw [Ets.lookup_insert] at h
  split at h
  · rename_i he
    obtain rfl := Option.some.inj h
    exact ⟨id, he ▸ hix⟩
  · exact hs.primary_index s n h

theorem Sound.name_of_index (hs : Sound st) (hrow : st.table.lookup inst.id = some inst)
    (hix : st.nameIndex.lookup (s, n) = some inst.id) : inst.name = n :=
  ((attached_of_row hrow).mp (hs.index_row s n _ hix)).1

theorem Sound.rename (hs : Sound st) {newName : String} (hne : name ≠ newName)
    (hix : st.nameIndex.lookup (sid, name) = some inst.id)
    (hrow : st.table.lookup inst.id = some inst) : Sound (st.rename inst name newName) := by
  have hname := hs.name_of_index hrow hix
  refine ⟨fun id inst' h => row_id_insert hs h rfl, fun s n id h => ?_, fun s n h => ?_⟩
  · rw [State.rename, lookup_renameIndex hne] at h
    rw [State.rename, attached_insert]
    split at h
    · rename_i hmem
      split at h
      · rename_i hn
        obtain rfl := Option.some.inj h
        simp [hn, hmem]
      split at h
      · cases h
      rename_i hn
      -- a row of `s` under a third name is another instance's
      have hid : id ≠ inst.id := by
        rintro rfl
        exact hn ((hs.name_of_index hrow h).symm.trans hname)
      rw [if_neg hid]
      exact hs.index_row s n id h
    · rename_i hmem
      have hid : id ≠ inst.id := by
        rintro rfl
        exact hmem ((attached_of_row hrow).mp (hs.index_row s n _ h)).2
      rw [if_neg hid]
      exact hs.index_row s n id h
  · rw [State.rename, lookup_renamePrimary] at h
    simp only [State.rename, lookup_renameIndex hne]
    split at h
    · rename_i hmem
      obtain rfl := Option.some.inj h
      exact ⟨inst.id, by simp [hmem.1]⟩
    · rename_i hmem
      obtain ⟨id, hid⟩ := hs.primary_index s n h
      by_cases hs' : s ∈ inst.sessionIds
      · by_cases hn : n = newName
        · exact ⟨inst.id, by simp [hs', hn]⟩
        · have hn' : n ≠ name := fun he => hmem ⟨hs', by rw [h, he]⟩
          exact ⟨id, by simp [hs', hn, hn', hid]⟩
      · exact ⟨id, by simp [hs', hid]⟩

theorem Sound.attach (hs : Sound st) {targetSid : String}
    (hix : st.nameIndex.lookup (sid, name) = some inst.id)
    (hrow : st.table.lookup inst.id = some inst)
    (hfree : st.nameIndex.lookup (targetSid, name) = none) :
    Sound (st.attach inst name targetSid) := by
  have hname := hs.name_of_index hrow hix
  refine ⟨fun id inst' h => row_id_insert hs h rfl, fun s n id h => ?_, fun s n h => ?_⟩
  · rw [State.attach, Ets.lookup_insert] at h
    rw [State.attach, attached_insert]
    split at h
    · rename_i hkey
      obtain ⟨rfl, rfl⟩ := Prod.mk.inj hkey
      obtain rfl := Option.some.inj h
      simp [hname]
    · have hold := hs.index_row s n id h
      split
      · rename_i hid
        subst hid
        have hatt := (attached_of_row hrow).mp hold
        exact ⟨hatt.1, List.mem_append_left _ hatt.2⟩
      · exact hold
  · obtain ⟨id, hid⟩ := hs.primary_index s n h
    refine ⟨id, ?_⟩
    rw [State.attach, Ets.lookup_insert_of_ne _ _ ?_, hid]
    intro he
    obtain ⟨rfl, rfl⟩ := Prod.mk.inj he
    rw [hfree] at hid
    cases hid

theorem Sound.effect (hs : Sound st) (h : Effect st op st') : Sound st' := by
  cases h with
  | unchanged => exact hs
  | enter hadds hsids hname hfresh hfree =>
    exact hs.enter (hsids ▸ List.head_mem (Attrs.nonempty _)) hfresh
  | detach hix hrow hprimary => exact hs.detach hix hrow hprimary
  | setPrimary hix => exact hs.setPrimary hix
  | rename hne hfree hix hrow => exact hs.rename hne hix hrow
  | attach hix hrow hnew hfree => exact hs.attach hix hrow hfree

theorem Sound.step (hs : Sound st) (h : step st op = some st') : Sound st' :=
  hs.effect (hs.step_effect h)

theorem sound_reaches {ok : State Config → Op Config → Prop}
    (h : Reaches step ok init st) : Sound st :=
  h.invariant sound_init fun _ _ _ hs _ hstep => hs.step hstep

/-! ## The part that two requests can break -/

/-- A removal that goes through finds the session once in the instance's list, and
a rename that goes through finds the new name free in all of the instance's
sessions. -/
def Careful (st : State Config) : Op Config → Prop
  | .removeInstance sid name =>
      st.primaryRows.lookup sid ≠ some name →
        ∀ inst ∈ get st sid name, inst.sessionIds.count sid ≤ 1
  | .renameInstance sid name newName =>
      name ≠ newName → st.nameIndex.lookup (sid, newName) = none →
        ∀ inst ∈ get st sid name, ∀ s ∈ inst.sessionIds,
          st.nameIndex.lookup (s, newName) = none
  | _ => True

instance (st : State Config) : (op : Op Config) → Decidable (Careful st op)
  | .removeInstance sid name =>
      inferInstanceAs (Decidable (_ → ∀ inst ∈ get st sid name, _))
  | .renameInstance sid name _ =>
      inferInstanceAs (Decidable (_ → _ → ∀ inst ∈ get st sid name, ∀ s ∈ inst.sessionIds, _))
  | .addInstance _ _ | .addInstanceAndSpawn _ _ _ _ | .setPrimary _ _ |
    .attachToSession _ _ _ => isTrue trivial

theorem get_eq_some :
    get st s n = some inst ↔
      ∃ id, st.nameIndex.lookup (s, n) = some id ∧ st.table.lookup id = some inst := by
  unfold get
  cases st.nameIndex.lookup (s, n) <;> simp

theorem mem_list (hs : Sound st) (hi : Indexed st) :
    inst ∈ list st sid ↔ st.table.lookup inst.id = some inst ∧ sid ∈ inst.sessionIds := by
  unfold list
  simp only [List.mem_filterMap, List.mem_filter, decide_eq_true_eq, Prod.exists, Ets.mem_tab2list]
  constructor
  · rintro ⟨s, n, id, ⟨hix, rfl⟩, hrow⟩
    obtain rfl := hs.row_id id inst hrow
    exact ⟨hrow, ((attached_of_row hrow).mp (hs.index_row s n _ hix)).2⟩
  · rintro ⟨hrow, hmem⟩
    exact ⟨sid, inst.name, inst.id, ⟨hi _ _ _ ⟨inst, hrow, rfl, hmem⟩, rfl⟩, hrow⟩

theorem indexed_init : Indexed (init : State Config) := by
  rintro id s n ⟨inst, hrow, -⟩
  simp [init] at hrow

theorem Indexed.enter (hi : Indexed st) {head : String} {sup : Ets (String × String) Nat}
    (hfree : ∀ s ∈ inst.sessionIds, st.nameIndex.lookup (s, inst.name) = none) :
    Indexed (st.enter inst head sup) := by
  intro id s n hatt
  rw [State.enter, attached_insert] at hatt
  rw [State.enter, lookup_indexEach]
  split at hatt
  · rename_i hid
    rw [if_pos ⟨hatt.2, hatt.1.symm⟩, hid]
  · have hold := hi id s n hatt
    rw [if_neg ?_, hold]
    rintro ⟨hmem, rfl⟩
    rw [hfree s hmem] at hold
    cases hold

theorem Indexed.detach (hi : Indexed st) (hix : st.nameIndex.lookup (sid, name) = some inst.id)
    (hrow : st.table.lookup inst.id = some inst) (hcount : inst.sessionIds.count sid ≤ 1) :
    Indexed (doDetach st inst.id sid name) := by
  intro id s n hatt
  rw [doDetach, attached_detachRow hrow] at hatt
  rw [doDetach, Ets.lookup_delete]
  split at hatt
  · rename_i hid
    have hsid : s ≠ sid := by
      rintro rfl
      have hpos := List.count_pos_iff.mpr hatt.2
      rw [List.count_erase_self] at hpos
      omega
    rw [if_neg fun he => hsid (Prod.mk.inj he).1, hid]
    exact hi _ s n ((attached_of_row hrow).mpr ⟨hatt.1, List.mem_of_mem_erase hatt.2⟩)
  · rename_i hid
    have hold := hi id s n hatt
    rw [if_neg ?_, hold]
    intro he
    rw [he, hix] at hold
    exact hid (Option.some.inj hold).symm

theorem Indexed.rename (hi : Indexed st) {newName : String} (hne : name ≠ newName)
    (hrow : st.table.lookup inst.id = some inst) (hname : inst.name = name)
    (htaken : ∀ s ∈ inst.sessionIds, st.nameIndex.lookup (s, newName) = none) :
    Indexed (st.rename inst name newName) := by
  intro id s n hatt
  rw [State.rename, attached_insert] at hatt
  rw [State.rename, lookup_renameIndex hne]
  split at hatt
  · rename_i hid
    rw [if_pos hatt.2, if_pos hatt.1.symm, hid]
  · -- another instance: its row is neither the one taken nor the one given up
    rename_i hid
    have hold := hi id s n hatt
    by_cases hmem : s ∈ inst.sessionIds
    · have hn : n ≠ newName := by
        rintro rfl
        rw [htaken s hmem] at hold
        cases hold
      have hn' : n ≠ name := by
        rintro rfl
        have hown := hi _ s n ((attached_of_row hrow).mpr ⟨hname, hmem⟩)
        exact hid (Option.some.inj (hold.symm.trans hown))
      rw [if_pos hmem, if_neg hn, if_neg hn', hold]
    · rw [if_neg hmem, hold]

theorem Indexed.attach (hi : Indexed st) {targetSid : String}
    (hrow : st.table.lookup inst.id = some inst) (hname : inst.name = name)
    (hfree : st.nameIndex.lookup (targetSid, name) = none) :
    Indexed (st.attach inst name targetSid) := by
  intro id s n hatt
  rw [State.attach, attached_insert] at hatt
  rw [State.attach, Ets.lookup_insert]
  split at hatt
  · rename_i hid
    subst hid
    split
    · rfl
    · rename_i hkey
      obtain ⟨hn, hmem⟩ := hatt
      rcases List.mem_append.mp hmem with hold | hlast
      · exact hi _ s n ((attached_of_row hrow).mpr ⟨hn, hold⟩)
      · exact absurd (by rw [List.mem_singleton.mp hlast, ← hn, hname]) hkey
  · have hold := hi id s n hatt
    rw [if_neg ?_, hold]
    intro he
    rw [he, hfree] at hold
    cases hold

theorem Indexed.effect (hi : Indexed st) (hs : Sound st) (h : Effect st op st')
    (hcare : Careful st op) : Indexed st' := by
  cases h with
  | unchanged => exact hi
  | enter hadds hsids hname hfresh hfree => exact hi.enter hfree
  | detach hix hrow hprimary =>
    exact hi.detach hix hrow (hcare hprimary _ (get_eq_some.mpr ⟨_, hix, hrow⟩))
  | setPrimary hix => exact hi
  | rename hne hfree hix hrow =>
    exact hi.rename hne hrow (hs.name_of_index hrow hix)
      (hcare hne hfree _ (get_eq_some.mpr ⟨_, hix, hrow⟩))
  | attach hix hrow hnew hfree =>
    exact hi.attach hrow (hs.name_of_index hrow hix) hfree

theorem careful_of_indexed (hs : Sound st) (h : step st op = some st')
    (hi' : Indexed st') : Careful st op := by
  cases op with
  | removeInstance sid name =>
    intro hprimary inst hget
    obtain ⟨id, hix, hrow⟩ := get_eq_some.mp hget
    obtain rfl := hs.row_id id inst hrow
    obtain rfl : doDetach st inst.id sid name = st' := by
      simpa [step, removeInstance, hix, hprimary] using h
    by_contra hcount
    -- a second occurrence stays, and with it the attachment that is no longer indexed
    have hmem : sid ∈ inst.sessionIds.erase sid := by
      rw [← List.count_pos_iff, List.count_erase_self]
      omega
    have hname := hs.name_of_index hrow hix
    have hgone := hi' inst.id sid name (by
      rw [doDetach, attached_detachRow hrow, if_pos rfl]
      exact ⟨hname, hmem⟩)
    simp [doDetach] at hgone
  | renameInstance sid name newName =>
    intro hne hfree inst hget s hmem
    obtain ⟨id, hix, hrow⟩ := get_eq_some.mp hget
    obtain rfl := hs.row_id id inst hrow
    have hname := hs.name_of_index hrow hix
    obtain rfl := Option.some.inj h
    by_contra htaken
    obtain ⟨id, hid⟩ := Option.ne_none_iff_exists'.mp htaken
    have hatt := hs.index_row s newName id hid
    -- the row at `(s, newName)` is another instance's, and is overwritten
    have hother : id ≠ inst.id := by
      rintro rfl
      exact hne (hname.symm.trans ((attached_of_row hrow).mp hatt).1)
    have hclobbered := hi' id s newName (by
      simp only [renameInstance, if_neg hne, hfree, hix, hrow, ne_eq, not_true_eq_false,
        if_false, attached_insert, if_neg hother]
      exact hatt)
    simp only [renameInstance, if_neg hne, hfree, hix, hrow, ne_eq, not_true_eq_false, if_false,
      lookup_renameIndex hne, if_pos hmem, if_true] at hclobbered
    exact hother (Option.some.inj hclobbered).symm
  | addInstance attrs id => trivial
  | addInstanceAndSpawn attrs ccId ptyId spawned => trivial
  | setPrimary sid name => trivial
  | attachToSession name sourceSid targetSid => trivial

/-! ## The representation over whole histories -/

/-- The instance the request is about; none when it adds one. -/
def target (st : State Config) : Op Config → Option String
  | .addInstance _ _ | .addInstanceAndSpawn _ _ _ _ => none
  | .removeInstance sid name | .setPrimary sid name | .renameInstance sid name _ |
    .attachToSession name sid _ => st.nameIndex.lookup (sid, name)

theorem Effect.other_kept (h : Effect st op st') (hrow : st.table.lookup id = some inst)
    (hne : target st op ≠ some id) :
    st'.table.lookup id = some inst := by
  cases h with
  | unchanged => exact hrow
  | @enter _ attrs inst₀ sup hadds hsids hname hfresh hfree =>
    rw [State.enter, Ets.lookup_insert_of_ne _ _ ?_, hrow]
    rintro rfl
    rw [hfresh] at hrow
    cases hrow
  | @detach sid name inst₀ hix hrow₀ hprimary =>
    rw [doDetach, detachRow_lookup_of_ne ?_, hrow]
    rintro rfl
    exact hne hix
  | setPrimary hix => exact hrow
  | @rename sid name newName inst₀ hne' hfree hix hrow₀ =>
    rw [State.rename, Ets.lookup_insert_of_ne _ _ ?_, hrow]
    rintro rfl
    exact hne hix
  | @attach name sourceSid targetSid inst₀ hix hrow₀ hnew hfree =>
    rw [State.attach, Ets.lookup_insert_of_ne _ _ ?_, hrow]
    rintro rfl
    exact hne hix

/-- The reverse index and the primary rows say of the metadata table what they are
meant to. -/
structure Represented (st : State Config) : Prop where
  index_iff : ∀ s n id, st.nameIndex.lookup (s, n) = some id ↔ Attached st.table id s n
  unique : ∀ s n id id', Attached st.table id s n → Attached st.table id' s n → id = id'
  reachable : ∀ id inst, st.table.lookup id = some inst → ∀ s ∈ inst.sessionIds,
    get st s inst.name = some inst
  primary_attached : ∀ s n, primary st s = some n → ∃ id, Attached st.table id s n

theorem represented_iff_indexed (hs : Sound st) : Represented st ↔ Indexed st := by
  constructor
  · exact fun h id s n => (h.index_iff s n id).mpr
  · intro hi
    refine ⟨fun s n id => ⟨hs.index_row s n id, hi id s n⟩, fun s n id id' h h' => ?_,
      fun id inst hrow s hmem => ?_, fun s n h => ?_⟩
    · exact Option.some.inj ((hi id s n h).symm.trans (hi id' s n h'))
    · exact get_eq_some.mpr ⟨id, hi id s _ ⟨inst, hrow, rfl, hmem⟩, hrow⟩
    · obtain ⟨id, hid⟩ := hs.primary_index s n h
      exact ⟨id, hs.index_row s n id hid⟩

theorem indexed_reaches (h : Reaches step Careful (init : State Config) st) : Indexed st := by
  obtain ⟨_, hr⟩ := h
  induction hr with
  | nil => exact indexed_init
  | snoc hr hcare hstep ih =>
    have hs := sound_reaches ⟨_, hr⟩
    exact ih.effect hs (hs.step_effect hstep) hcare

/-- **The registry's representation**, in every state reached by careful requests:
the index is the inverse of the metadata table, names are unique in a session,
every instance is found in each of its sessions, primary rows name attached
agents; and a further careful request leaves every other instance as it was, and
found in each of its sessions. -/
theorem represented_of_careful (h : Reaches step Careful (init : State Config) st) :
    Represented st ∧ ∀ op st', Careful st op → step st op = some st' →
      ∀ id inst, st.table.lookup id = some inst → target st op ≠ some id →
        st'.table.lookup id = some inst ∧
          ∀ s ∈ inst.sessionIds, get st' s inst.name = some inst := by
  have hs := sound_reaches h
  refine ⟨(represented_iff_indexed hs).mpr (indexed_reaches h), ?_⟩
  intro op st' hcare hstep id inst hrow hne
  have hrow' := (hs.step_effect hstep).other_kept hrow hne
  have hi' := (indexed_reaches h).effect hs (hs.step_effect hstep) hcare
  exact ⟨hrow', ((represented_iff_indexed (hs.step hstep)).mpr hi').reachable id inst hrow'⟩

/-- **The condition is exact.**  The states a run comes through all represent their agents
exactly if none of its requests clobbers a row or leaves an attachment behind. -/
theorem represented_run_iff {ops : List (Op Config)} (h : Run step anyStep init ops st) :
    (∀ pre st', pre <+: ops → Run step anyStep init pre st' → Represented st') ↔
      Run step Careful init ops st := by
  refine Run.iff_of_exact ((represented_iff_indexed sound_init).mpr indexed_init) ?_ h
  intro st op st' hreach hr hstep
  have hs := sound_reaches hreach
  rw [represented_iff_indexed hs] at hr
  rw [represented_iff_indexed (hs.step hstep)]
  exact ⟨careful_of_indexed hs hstep, hr.effect hs (hs.step_effect hstep)⟩

/-- An agent `name` to be created in the session, with no plugin configuration. -/
def agentIn (sid name : String) : Attrs Unit := ⟨[sid], "cc", name, (), none, by simp⟩

theorem represented_after_attach : ∃ st : State Unit, Reaches step Careful init st ∧
    Represented st ∧ get st "B" "x" = some ⟨"id1", ["A", "B"], "cc", "x", (), none⟩ := by
  have hrun : ((exec step Careful (init : State Unit)
      [.addInstance (agentIn "A" "x") "id1", .addInstance (agentIn "B" "n") "id2",
        .attachToSession "x" "A" "B"]).map fun st => get st "B" "x") =
      some (some (.mk "id1" ["A", "B"] "cc" "x" () none)) := by decide
  obtain ⟨st, hst, hget⟩ := Option.map_eq_some_iff.mp hrun
  exact ⟨st, .of_exec hst, (represented_of_careful (.of_exec hst)).1, hget⟩

theorem represented_run_iff_twoAgents : ∃ st : State Unit,
    (∀ pre st', pre <+: [.addInstance (agentIn "A" "x") "id1", .addInstance (agentIn "B" "n") "id2"] →
      Run step anyStep init pre st' → Represented st') ∧
    get st "B" "n" = some ⟨"id2", ["B"], "cc", "n", (), none⟩ := by
  have hrun : ((exec step Careful (init : State Unit) [.addInstance (agentIn "A" "x") "id1",
      .addInstance (agentIn "B" "n") "id2"]).map fun st => get st "B" "n") =
      some (some ⟨"id2", ["B"], "cc", "n", (), none⟩) := by decide
  obtain ⟨st, hst, hget⟩ := Option.map_eq_some_iff.mp hrun
  have hr := Run.of_exec hst
  exact ⟨st, (represented_run_iff hr.unguarded).mpr hr, hget⟩

/-- Without the condition: `x` of session `A` is attached to `B`, where another
agent is called `n`, and then renamed to `n` in `A`. -/
theorem not_represented_rename_clobbers :
    ¬∀ st : State Unit, Reaches step anyStep init st → Represented st := by
  intro h
  have hrun : ((exec step anyStep (init : State Unit)
      [.addInstance (agentIn "A" "x") "id1", .addInstance (agentIn "B" "n") "id2",
        .attachToSession "x" "A" "B", .renameInstance "A" "x" "n"]).map fun st =>
          (st.table.lookup "id2", st.nameIndex.lookup ("B", "n"))) =
      some (some (.mk "id2" ["B"] "cc" "n" () none), some "id1") := by decide
  obtain ⟨st, hst, hrows⟩ := Option.map_eq_some_iff.mp hrun
  obtain ⟨hrow, hix⟩ := Prod.mk.inj hrows
  have hown := ((h st (.of_exec hst)).index_iff "B" "n" "id2").mpr ⟨_, hrow, rfl, by simp⟩
  rw [hix] at hown
  exact absurd hown (by decide)

end InstanceRegistry
end Esr
