import Esr.AgentUris

/-! # The store follows the registry

Each mirror function takes keys out of the set that is pending; each request to
the registry puts the keys whose ideal row it changes into it.  For all requests
but one the facade then mirrors every key it has to, so that nothing is pending
when it returns (`Agrees`).  The exception is a removal that goes through: the
instance it detaches is no longer listed in the session that is mirrored, and its
own row stays as it was.

`Mirrorable` excludes that, the renames that the registry itself gets wrong, and
session ids and names with a slash, which make two keys share a URI.
-/
namespace Esr
namespace UriCompat
open InstanceRegistry

variable {Config : Type} {reg : InstanceRegistry.State Config} {t t' : AgentStore Config}
  {E E' : Set Key} {inst : Instance Config}

/-! ## What the mirror functions settle -/

/-- The keys of one instance. -/
def keysOf (inst : Instance Config) : Set Key :=
  {k | k = .canonical inst.id ∨ ∃ s ∈ inst.sessionIds, k = .byName s inst.name}

/-- The keys that mirroring a session settles. -/
def touched (reg : InstanceRegistry.State Config) (sid : String) : Set Key :=
  {k | k = .primaryFor sid ∨ ∃ inst, reg.table.lookup inst.id = some inst ∧
    sid ∈ inst.sessionIds ∧ k ∈ keysOf inst}

theorem Pending.isEntity (h : Pending reg t E) (hr : Regular reg)
    (hrow : reg.table.lookup inst.id = some inst) (hcan : Key.canonical inst.id ∉ E) :
    UriStore.IsEntity t (canonicalUri inst.id) :=
  ⟨"agent", inst,
    (h.off _ (hr.clean_canonical hrow).asked hcan).trans (ideal_canonical hrow)⟩

theorem Pending.putEntity (h : Pending reg t E) (hr : Regular reg)
    (hrow : reg.table.lookup inst.id = some inst) :
    Pending reg (UriStore.putEntity t (canonicalUri inst.id) "agent" inst)
      (E \ {.canonical inst.id}) := by
  refine h.settle (hr.clean_canonical hrow) ?_ fun u hu => Ets.lookup_insert_of_ne _ _ hu
  rw [ideal_canonical hrow]
  exact Ets.lookup_insert_self _ _ _

theorem Pending.putAlias (h : Pending reg t E) (hr : Regular reg)
    (hrow : reg.table.lookup inst.id = some inst) (hcan : Key.canonical inst.id ∉ E)
    {s : String} (hs : s ∈ inst.sessionIds) :
    Pending reg (putOrIgnoreAgentAlias t (canonicalUri inst.id) (byNameUri s inst.name))
      (E \ {.byName s inst.name}) := by
  have hent := h.isEntity hr hrow hcan
  have hideal := hr.ideal_byName hrow hs
  refine h.settle (hr.clean_byName hrow hs) ?_ fun u hu => ?_
  · rw [putOrIgnoreAgentAlias, Key.uri, UriStore.lookup_putAlias hent, if_pos rfl, hideal]
    -- the alias is absent, or it is there already
    rcases h.aliases s inst.name (by rw [hideal]; exact Option.some_ne_none _) with hno | hyes
    · rw [hno]
      rfl
    · rw [hyes, hideal]
      rfl
  · rw [putOrIgnoreAgentAlias, UriStore.lookup_putAlias hent]
    exact if_neg hu

theorem Pending.putAliases (hr : Regular reg) (hrow : reg.table.lookup inst.id = some inst)
    {sids : List String} (hsids : ∀ s ∈ sids, s ∈ inst.sessionIds) (h : Pending reg t E)
    (hcan : Key.canonical inst.id ∉ E) :
    Pending reg
      (sids.foldl
        (fun t sid => putOrIgnoreAgentAlias t (canonicalUri inst.id) (byNameUri sid inst.name)) t)
      (E \ {k | ∃ s ∈ sids, k = .byName s inst.name}) := by
  induction sids generalizing t E with
  | nil => exact h.mono fun k hk => ⟨hk, by simp⟩
  | cons s sids ih =>
    have hs := h.putAlias hr hrow hcan (hsids s List.mem_cons_self)
    refine (ih (fun s' hs' => hsids s' (List.mem_cons_of_mem _ hs')) hs
      fun hin => hcan hin.1).mono ?_
    rintro k ⟨⟨hk, hne⟩, hrest⟩
    refine ⟨hk, ?_⟩
    rintro ⟨s', hs', rfl⟩
    rcases List.mem_cons.mp hs' with rfl | hs'
    · exact hne rfl
    · exact hrest ⟨s', hs', rfl⟩

theorem Pending.mirrorInstance (h : Pending reg t E) (hr : Regular reg)
    (hrow : reg.table.lookup inst.id = some inst) :
    Pending reg (UriCompat.mirrorInstance t inst) (E \ keysOf inst) := by
  refine (Pending.putAliases hr hrow (fun _ hs => hs) (h.putEntity hr hrow)
    fun hin => hin.2 rfl).mono ?_
  rintro k ⟨⟨hk, hcan⟩, hnames⟩
  refine ⟨hk, ?_⟩
  rintro (rfl | hname)
  · exact hcan rfl
  · exact hnames hname

theorem Pending.mirrorAll (hr : Regular reg) {insts : List (Instance Config)}
    (hrows : ∀ i ∈ insts, reg.table.lookup i.id = some i) (h : Pending reg t E) :
    Pending reg (insts.foldl UriCompat.mirrorInstance t) (E \ {k | ∃ i ∈ insts, k ∈ keysOf i}) := by
  induction insts generalizing t E with
  | nil => exact h.mono fun k hk => ⟨hk, by simp⟩
  | cons i insts ih =>
    have hi := h.mirrorInstance hr (hrows i List.mem_cons_self)
    refine (ih (fun j hj => hrows j (List.mem_cons_of_mem _ hj)) hi).mono ?_
    rintro k ⟨⟨hk, hne⟩, hrest⟩
    refine ⟨hk, ?_⟩
    rintro ⟨j, hj, hkey⟩
    rcases List.mem_cons.mp hj with rfl | hj
    · exact hne hkey
    · exact hrest ⟨j, hj, hkey⟩

theorem Pending.delete (h : Pending reg t E) {k : Key} (hk : k.Clean)
    (hideal : ideal reg k = none) :
    Pending reg (UriStore.delete t k.uri) (E \ {k}) := by
  refine h.settle hk ?_ fun u hu => Ets.lookup_delete_of_ne _ hu
  rw [hideal]
  exact Ets.lookup_delete_self _ _

theorem Pending.blank (h : Pending reg t E) {k : Key} (hk : k.Clean) :
    Pending reg (UriStore.delete t k.uri) (E ∪ {k}) := by
  refine ⟨fun k' hk' hne => ?_, fun sid name hin => ?_⟩
  · have hu : k'.uri ≠ k.uri := fun he => hne (Or.inr (Key.eq_of_uri_eq hk hk' he))
    rw [UriStore.delete, Ets.lookup_delete_of_ne _ hu]
    exact h.off k' hk' fun hE => hne (Or.inl hE)
  · rw [UriStore.delete, Ets.lookup_delete]
    split
    · exact Or.inl rfl
    · exact h.aliases sid name hin

theorem Pending.mirrorPrimaryAlias (h : Pending reg t E) (hr : Regular reg)
    (hrow : reg.table.lookup inst.id = some inst) (hcan : Key.canonical inst.id ∉ E)
    {sid : String} (hideal : ideal reg (.primaryFor sid) = some (.aliasTo (canonicalUri inst.id))) :
    Pending reg (UriCompat.mirrorPrimaryAlias t sid inst.id) (E \ {.primaryFor sid}) := by
  have hclean : (Key.primaryFor sid).Clean := trivial
  have hne : canonicalUri inst.id ≠ byPrimaryUri sid := fun hu => by
    have hkey := Key.eq_of_uri_eq hclean (hr.clean_canonical hrow).asked hu
    cases hkey
  have hent := UriStore.isEntity_delete (h.isEntity hr hrow hcan) hne
  refine h.settle hclean ?_ fun u hu => ?_
  · rw [UriCompat.mirrorPrimaryAlias, putOrIgnoreAgentAlias, Key.uri,
      UriStore.lookup_putAlias hent, if_pos rfl, hideal, UriStore.delete, Ets.lookup_delete_self]
    rfl
  · rw [UriCompat.mirrorPrimaryAlias, putOrIgnoreAgentAlias, UriStore.lookup_putAlias hent]
    exact (if_neg hu).trans (Ets.lookup_delete_of_ne _ hu)

theorem Regular.primary_cases (hr : Regular reg) (sid : String) :
    (InstanceRegistry.primary reg sid = none ∧ ideal reg (.primaryFor sid) = none) ∨
    ∃ name inst, InstanceRegistry.primary reg sid = some name ∧
      InstanceRegistry.get reg sid name = some inst ∧
      reg.table.lookup inst.id = some inst ∧ sid ∈ inst.sessionIds ∧
      ideal reg (.primaryFor sid) = some (.aliasTo (canonicalUri inst.id)) := by
  simp only [InstanceRegistry.primary, ideal]
  cases hp : reg.primaryRows.lookup sid with
  | none => exact Or.inl ⟨rfl, rfl⟩
  | some name =>
    obtain ⟨id, hix⟩ := hr.sound.primary_index sid name hp
    obtain ⟨inst, hrow, rfl, -, hmem⟩ := hr.sound.row_of_index hix
    refine Or.inr ⟨name, inst, rfl, get_eq_some.mpr ⟨_, hix, hrow⟩, hrow, hmem, ?_⟩
    rw [Option.bind_some, hix]
    rfl

/-- **Mirroring a session** settles its primary and every key of the instances
attached to it. -/
theorem Pending.mirrorSession (h : Pending reg t E) (hr : Regular reg) (sid : String) :
    Pending reg (UriCompat.mirrorSession reg t sid) (E \ touched reg sid) := by
  have hrows : ∀ i ∈ InstanceRegistry.list reg sid, reg.table.lookup i.id = some i :=
    fun i hi => (hr.mem_list.mp hi).1
  have hall := Pending.mirrorAll hr hrows h
  -- a key that no listed instance has and that is not the primary's is not touched
  have hsub : ∀ k, k ∈ (E \ {k | ∃ i ∈ InstanceRegistry.list reg sid, k ∈ keysOf i}) \
      {Key.primaryFor sid} → k ∈ E \ touched reg sid := by
    rintro k ⟨⟨hk, hlisted⟩, hprimary⟩
    refine ⟨hk, ?_⟩
    rintro (rfl | ⟨i, hrow, hmem, hkey⟩)
    · exact hprimary rfl
    · exact hlisted ⟨i, hr.mem_list.mpr ⟨hrow, hmem⟩, hkey⟩
  unfold UriCompat.mirrorSession
  rcases hr.primary_cases sid with ⟨hp, hideal⟩ | ⟨name, inst, hp, hget, hrow, hmem, hideal⟩
  · simp only [hp]
    exact (hall.delete (k := .primaryFor sid) trivial hideal).mono hsub
  · simp only [hp, hget]
    refine (hall.mirrorPrimaryAlias hr hrow ?_ hideal).mono hsub
    exact fun hin => hin.2 ⟨inst, hr.mem_list.mpr ⟨hrow, hmem⟩, Or.inl rfl⟩

/-! ## What a request to the registry puts into the pending set -/

theorem pending_enter (hr : Regular reg) (h : Pending reg t ∅) {head : String}
    {sup : Ets (String × String) Nat}
    (hfree : ∀ s ∈ inst.sessionIds, reg.nameIndex.lookup (s, inst.name) = none) :
    Pending (reg.enter inst head sup) t (keysOf inst ∪ {.primaryFor head}) := by
  refine ⟨fun k hk hne => ?_, fun s n hin => ?_⟩
  · rw [h.off k hk (Set.notMem_empty k)]
    cases k with
    | canonical id =>
      have hid : id ≠ inst.id := fun he => hne (Or.inl (Or.inl (by rw [he])))
      simp only [ideal, State.enter, Ets.lookup_insert_of_ne _ _ hid]
    | byName s n =>
      have hnew : ¬(s ∈ inst.sessionIds ∧ n = inst.name) := by
        rintro ⟨hs, hn⟩
        exact hne (Or.inl (Or.inr ⟨s, hs, by rw [hn]⟩))
      simp only [ideal, State.enter, lookup_indexEach, if_neg hnew]
    | primaryFor s =>
      have hs : s ≠ head := fun he => hne (Or.inr (by rw [he]; rfl))
      simp only [ideal, State.enter, lookup_promote, if_neg hs]
      cases hp : reg.primaryRows.lookup s with
      | none => rfl
      | some n =>
        -- the primary of `s` is indexed already, and the new instance's name was free
        have hnew : ¬(s ∈ inst.sessionIds ∧ n = inst.name) := by
          rintro ⟨hmem, rfl⟩
          obtain ⟨id, hid⟩ := hr.sound.primary_index s _ hp
          rw [hfree s hmem] at hid
          cases hid
        simp only [Option.bind_some, lookup_indexEach, if_neg hnew]
  · have hold := h.off (.byName s n) trivial (Set.notMem_empty _)
    by_cases hnew : s ∈ inst.sessionIds ∧ n = inst.name
    · refine Or.inl (hold.trans ?_)
      simp only [ideal, hnew.2, hfree s hnew.1, Option.map_none]
    · refine Or.inr (hold.trans ?_)
      simp only [ideal, State.enter, lookup_indexEach, if_neg hnew]

theorem pending_setPrimary (h : Pending reg t ∅) (sid name : String) :
    Pending { reg with primaryRows := reg.primaryRows.insert sid name } t {.primaryFor sid} := by
  refine ⟨fun k hk hne => ?_, fun s n hin => ?_⟩
  · rw [h.off k hk (Set.notMem_empty k)]
    cases k with
    | canonical id => rfl
    | byName s n => rfl
    | primaryFor s =>
      have hs : s ≠ sid := fun he => hne (by rw [he]; rfl)
      simp only [ideal, Ets.lookup_insert_of_ne _ _ hs]
  · exact Or.inr (h.off (.byName s n) trivial (Set.notMem_empty _))

theorem pending_attach (hr : Regular reg) (h : Pending reg t ∅) {sid name targetSid : String}
    (hix : reg.nameIndex.lookup (sid, name) = some inst.id)
    (hrow : reg.table.lookup inst.id = some inst)
    (hfree : reg.nameIndex.lookup (targetSid, name) = none) :
    Pending (reg.attach inst name targetSid) t
      {.canonical inst.id, .byName targetSid inst.name} := by
  have hname := hr.sound.name_of_index hrow hix
  refine ⟨fun k hk hne => ?_, fun s n hin => ?_⟩
  · rw [h.off k hk (Set.notMem_empty k)]
    cases k with
    | canonical id =>
      have hid : id ≠ inst.id := fun he => hne (Or.inl (by rw [he]))
      simp only [ideal, State.attach, Ets.lookup_insert_of_ne _ _ hid]
    | byName s n =>
      have hkey : (s, n) ≠ (targetSid, name) := fun he => hne (Or.inr (by
        rw [(Prod.mk.inj he).1, (Prod.mk.inj he).2, ← hname]; rfl))
      simp only [ideal, State.attach, Ets.lookup_insert_of_ne _ _ hkey]
    | primaryFor s =>
      simp only [ideal, State.attach]
      cases hp : reg.primaryRows.lookup s with
      | none => rfl
      | some n =>
        have hkey : (s, n) ≠ (targetSid, name) := by
          intro he
          obtain ⟨id, hid⟩ := hr.sound.primary_index s n hp
          rw [he, hfree] at hid
          cases hid
        simp only [Option.bind_some, Ets.lookup_insert_of_ne _ _ hkey]
  · have hold := h.off (.byName s n) trivial (Set.notMem_empty _)
    by_cases hkey : (s, n) = (targetSid, name)
    · refine Or.inl (hold.trans ?_)
      simp only [ideal, hkey, hfree, Option.map_none]
    · refine Or.inr (hold.trans ?_)
      simp only [ideal, State.attach, Ets.lookup_insert_of_ne _ _ hkey]

/-- The keys a rename concerns: the instance's row, and its old and new names. -/
def renamed (inst : Instance Config) (name newName : String) : Set Key :=
  {k | k = .canonical inst.id ∨
    ∃ s ∈ inst.sessionIds, k = .byName s name ∨ k = .byName s newName}

theorem pending_rename (hr : Regular reg) (h : Pending reg t ∅) {sid name newName : String}
    (hne : name ≠ newName) (hix : reg.nameIndex.lookup (sid, name) = some inst.id)
    (hrow : reg.table.lookup inst.id = some inst)
    (hfree : ∀ s ∈ inst.sessionIds, reg.nameIndex.lookup (s, newName) = none) :
    Pending (reg.rename inst name newName) t (renamed inst name newName) := by
  have hname := hr.sound.name_of_index hrow hix
  -- off the old and the new name the index is as before
  have hsame : ∀ s n, s ∉ inst.sessionIds ∨ (n ≠ name ∧ n ≠ newName) →
      (reg.rename inst name newName).nameIndex.lookup (s, n) = reg.nameIndex.lookup (s, n) := by
    intro s n hout
    rw [State.rename, lookup_renameIndex hne]
    by_cases hs : s ∈ inst.sessionIds
    · obtain ⟨hn, hn'⟩ := hout.resolve_left (not_not.mpr hs)
      rw [if_pos hs, if_neg hn', if_neg hn]
    · rw [if_neg hs]
  refine ⟨fun k hk hout => ?_, fun s n hin => ?_⟩
  · rw [h.off k hk (Set.notMem_empty k)]
    cases k with
    | canonical id =>
      have hid : id ≠ inst.id := fun he => hout (Or.inl (by rw [he]))
      simp only [ideal, State.rename, Ets.lookup_insert_of_ne _ _ hid]
    | byName s n =>
      have hkey : s ∉ inst.sessionIds ∨ (n ≠ name ∧ n ≠ newName) := by
        by_cases hs : s ∈ inst.sessionIds
        · exact Or.inr ⟨fun he => hout (Or.inr ⟨s, hs, Or.inl (by rw [he])⟩),
            fun he => hout (Or.inr ⟨s, hs, Or.inr (by rw [he])⟩)⟩
        · exact Or.inl hs
      simp only [ideal, hsame s n hkey]
    | primaryFor s =>
      have hrows : (reg.rename inst name newName).primaryRows.lookup s =
          if s ∈ inst.sessionIds ∧ reg.primaryRows.lookup s = some name then some newName
          else reg.primaryRows.lookup s := lookup_renamePrimary _ _ _
      simp only [ideal, hrows]
      cases hp : reg.primaryRows.lookup s with
      | none => simp
      | some n =>
        by_cases hs : s ∈ inst.sessionIds
        · by_cases hn : n = name
          · -- the primary of `s` is the renamed instance: its row has moved along
            have hold := hr.indexed inst.id s name ⟨inst, hrow, hname, hs⟩
            have hmoved : (reg.rename inst name newName).nameIndex.lookup (s, newName) =
                some inst.id := by
              rw [State.rename, lookup_renameIndex hne, if_pos hs, if_pos rfl]
            simp [hs, hn, hold, hmoved]
          · -- a primary of another name is not called `newName`, which is free in `s`
            have hn' : n ≠ newName := by
              rintro rfl
              obtain ⟨id, hid⟩ := hr.sound.primary_index s _ hp
              rw [hfree s hs] at hid
              cases hid
            simp [hn, hsame s n (Or.inr ⟨hn, hn'⟩)]
        · simp [hs, hsame s n (Or.inl hs)]
  · have hold := h.off (.byName s n) trivial (Set.notMem_empty _)
    by_cases hs : s ∈ inst.sessionIds
    · by_cases hn' : n = newName
      · -- under the new name there is no alias yet
        refine Or.inl (hold.trans ?_)
        simp only [ideal, hn', hfree s hs, Option.map_none]
      · -- the old name is no longer in use
        have hn : n ≠ name := by
          rintro rfl
          refine hin ?_
          simp only [ideal, State.rename, lookup_renameIndex hne, if_pos hs, if_neg hn', if_pos,
            Option.map_none]
        refine Or.inr (hold.trans ?_)
        simp only [ideal, hsame s n (Or.inr ⟨hn, hn'⟩)]
    · refine Or.inr (hold.trans ?_)
      simp only [ideal, hsame s n (Or.inl hs)]

end UriCompat
end Esr
