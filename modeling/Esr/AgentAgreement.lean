import Esr.AgentMirror

/-! # The facade answers as the registry does

`Follows` is the invariant: the registry is regular and nothing of it is pending
in the store.  `follows_step` keeps it over every mirrorable call, and under it
the three reads give what the registry gives (`agrees_of_mirrorable`).
-/
namespace Esr
namespace UriCompat
open InstanceRegistry

variable {Config : Type}

/-- The registry is regular and the store has every row it should have. -/
structure Follows (s : State Config) : Prop where
  regular : Regular s.reg
  store : Pending s.reg s.store ∅

/-! ## The condition on a call -/

/-- A creation that goes through has a name and sessions without slash. -/
def NamesOk (reg : InstanceRegistry.State Config) (attrs : Attrs Config) : Prop :=
  (∀ s ∈ attrs.sessionIds, reg.nameIndex.lookup (s, attrs.name) = none) →
    '/' ∉ attrs.name.toList ∧ ∀ s ∈ attrs.sessionIds, '/' ∉ s.toList

/-- No removal goes through; a rename that goes through finds its new name free in
all sessions of the instance; new names and sessions have no slash. -/
def Mirrorable (reg : InstanceRegistry.State Config) : Op Config → Prop
  | .addInstance attrs _ | .addInstanceAndSpawn attrs _ _ (some _) => NamesOk reg attrs
  | .addInstanceAndSpawn _ _ _ none | .setPrimary _ _ => True
  | .removeInstance sid name =>
      reg.nameIndex.lookup (sid, name) = none ∨ reg.primaryRows.lookup sid = some name
  | .renameInstance sid name newName =>
      name ≠ newName → reg.nameIndex.lookup (sid, newName) = none →
        ∀ inst ∈ InstanceRegistry.get reg sid name,
          '/' ∉ newName.toList ∧
            ∀ s ∈ inst.sessionIds, reg.nameIndex.lookup (s, newName) = none
  | .attachToSession name sourceSid targetSid =>
      reg.nameIndex.lookup (sourceSid, name) ≠ none →
        reg.nameIndex.lookup (targetSid, name) = none → '/' ∉ targetSid.toList

/-- The condition on a call of the facade: reads are free. -/
def MirrorableAct (s : State Config) : Act Config → Prop
  | .request op => Mirrorable s.reg op
  | _ => True

section Decidable

instance (reg : InstanceRegistry.State Config) (attrs : Attrs Config) :
    Decidable (NamesOk reg attrs) :=
  inferInstanceAs (Decidable ((∀ s ∈ attrs.sessionIds, _) → _ ∧ ∀ s ∈ attrs.sessionIds, _))

instance (reg : InstanceRegistry.State Config) : (op : Op Config) → Decidable (Mirrorable reg op)
  | .addInstance attrs _ | .addInstanceAndSpawn attrs _ _ (some _) =>
      inferInstanceAs (Decidable (NamesOk reg attrs))
  | .addInstanceAndSpawn _ _ _ none | .setPrimary _ _ => isTrue trivial
  | .removeInstance _ _ => inferInstanceAs (Decidable (_ ∨ _))
  | .renameInstance sid name _ =>
      inferInstanceAs (Decidable (_ → _ → ∀ inst ∈ InstanceRegistry.get reg sid name,
        _ ∧ ∀ s ∈ inst.sessionIds, _))
  | .attachToSession _ _ _ => inferInstanceAs (Decidable (_ → _ → _))

instance (s : State Config) : (a : Act Config) → Decidable (MirrorableAct s a)
  | .request op => inferInstanceAs (Decidable (Mirrorable s.reg op))
  | .agentInSession _ _ | .primaryAgentUuid _ | .listAgentsInSession _ => isTrue trivial

end Decidable

variable {s : State Config} {reg' : InstanceRegistry.State Config} {op : Op Config}

theorem Mirrorable.careful (h : Mirrorable s.reg op) : Careful s.reg op := by
  cases op with
  | removeInstance sid name =>
    intro hprimary inst hget
    obtain ⟨id, hix, -⟩ := get_eq_some.mp hget
    rcases h with hnone | hp
    · rw [hnone] at hix
      cases hix
    · exact absurd hp hprimary
  | renameInstance sid name newName =>
    exact fun hne hfree inst hget => (h hne hfree inst hget).2
  | _ => trivial

variable {attrs : Attrs Config} {id name : String}

theorem Mirrorable.names (h : Mirrorable s.reg op) (hadds : op.adds = some (attrs, id)) :
    NamesOk s.reg attrs := by
  rcases Op.adds_eq_some hadds with rfl | ⟨ptyId, supPid, rfl⟩
  · exact h
  · exact h

/-! ## The registry stays regular -/

theorem tidy_insert {rows : Ets String (Instance Config)} (ht : Tidy rows)
    (inst : Instance Config) (hid : '/' ∉ id.toList) (hname : '/' ∉ inst.name.toList)
    (hsids : ∀ sid ∈ inst.sessionIds, '/' ∉ sid.toList) : Tidy (rows.insert id inst) := by
  intro id' inst' h
  rw [Ets.lookup_insert] at h
  split at h
  · rename_i he
    obtain rfl := Option.some.inj h
    exact ⟨he ▸ hid, hname, hsids⟩
  · exact ht id' inst' h

theorem Regular.effect (hr : Regular s.reg) (h : Effect s.reg op reg') (hm : Mirrorable s.reg op)
    (huuid : ∀ attrs id, op.adds = some (attrs, id) → '/' ∉ id.toList) : Regular reg' := by
  refine ⟨hr.sound.effect h, hr.indexed.effect hr.sound h hm.careful, ?_⟩
  cases h with
  | unchanged => exact hr.tidy
  | @enter _ attrs inst sup hadds hsids hname hfresh hfree =>
    obtain ⟨hn, hs⟩ := hm.names hadds fun s hs => hname ▸ hfree s (hsids ▸ hs)
    exact tidy_insert hr.tidy inst (huuid _ _ hadds) (hname ▸ hn) (hsids ▸ hs)
  | @detach sid name inst hix hrow hprimary =>
    rcases hm with hnone | hp
    · rw [hnone] at hix
      cases hix
    · exact absurd hp hprimary
  | setPrimary hix => exact hr.tidy
  | @rename sid name newName inst hne hfree hix hrow =>
    obtain ⟨hid, -, hsids⟩ := hr.tidy _ _ hrow
    have hnew := (hm hne hfree inst (get_eq_some.mpr ⟨_, hix, hrow⟩)).1
    exact tidy_insert hr.tidy { inst with name := newName } hid hnew hsids
  | @attach name sourceSid targetSid inst hix hrow hnew hfree =>
    obtain ⟨hid, hname, hsids⟩ := hr.tidy _ _ hrow
    refine tidy_insert hr.tidy { inst with sessionIds := inst.sessionIds ++ [targetSid] } hid hname
      fun sid hmem => ?_
    rcases List.mem_append.mp hmem with hold | hlast
    · exact hsids sid hold
    · rw [List.mem_singleton.mp hlast]
      exact hm (by rw [hix]; exact Option.some_ne_none _) hfree

/-! ## The requests -/

theorem Follows.mirrorSession (h : Follows s) (sid : String) :
    Follows ⟨s.reg, UriCompat.mirrorSession s.reg s.store sid⟩ :=
  ⟨h.regular, (h.store.mirrorSession h.regular sid).mono fun _ hk => hk.1⟩

theorem Follows.add (h : Follows s) (hadds : op.adds = some (attrs, id)) (hid : '/' ∉ id.toList)
    (hm : Mirrorable s.reg op) (heff : Effect s.reg op reg') :
    Follows ⟨reg', UriCompat.mirrorSession reg' s.store attrs.primarySid⟩ := by
  have hr' : Regular reg' := h.regular.effect heff hm fun attrs' id' hadds' => by
    obtain ⟨-, rfl⟩ := Prod.mk.inj (Option.some.inj (hadds.symm.trans hadds'))
    exact hid
  cases heff with
  | unchanged => exact h.mirrorSession _
  | @enter _ attrs' inst sup hadds' hsids hname hfresh hfree =>
    obtain ⟨rfl, rfl⟩ := Prod.mk.inj (Option.some.inj (hadds.symm.trans hadds'))
    have hhead : attrs.primarySid ∈ inst.sessionIds := hsids ▸ List.head_mem attrs.nonempty
    refine ⟨hr', ((pending_enter h.regular h.store hfree).mirrorSession hr' _).mono ?_⟩
    -- what is pending is a key of the new instance, which its first session lists
    rintro k ⟨hk | hk, hout⟩
    · exact hout (Or.inr ⟨inst, Ets.lookup_insert_self _ _ _, hhead, hk⟩)
    · exact hout (Or.inl hk)
  | detach => cases hadds
  | setPrimary => cases hadds
  | rename => cases hadds
  | attach => cases hadds

theorem Follows.addInstance (h : Follows s) (hnew : NewUuid s id)
    (hm : Mirrorable s.reg (.addInstance attrs id)) :
    Follows (UriCompat.addInstance s attrs id) := by
  unfold UriCompat.addInstance
  have hstep : InstanceRegistry.step s.reg (.addInstance attrs id) =
      some (InstanceRegistry.addInstance s.reg attrs id).2 := if_pos hnew.1
  have heff := h.regular.sound.step_effect hstep
  cases hres : InstanceRegistry.addInstance s.reg attrs id with
  | mk r reg' =>
    rw [hres] at heff
    cases r with
    | ok _ => exact h.add rfl hnew.2 hm heff
    | error e =>
      obtain rfl : reg' = s.reg := by
        have hsame := addInstance_refused (congrArg Prod.fst hres)
        rwa [hres] at hsame
      exact h

theorem Follows.addInstanceAndSpawn (h : Follows s) {ccId ptyId : String} {spawned : Option Nat}
    (hnew : NewUuid s ccId)
    (hm : Mirrorable s.reg (.addInstanceAndSpawn attrs ccId ptyId spawned)) :
    Follows (UriCompat.addInstanceAndSpawn s attrs ccId ptyId spawned) := by
  unfold UriCompat.addInstanceAndSpawn
  have hstep : InstanceRegistry.step s.reg (.addInstanceAndSpawn attrs ccId ptyId spawned) =
      some (InstanceRegistry.addInstanceAndSpawn s.reg attrs ccId ptyId spawned).2 := if_pos hnew.1
  have heff := h.regular.sound.step_effect hstep
  cases hres : InstanceRegistry.addInstanceAndSpawn s.reg attrs ccId ptyId spawned with
  | mk r reg' =>
    rw [hres] at heff
    cases r with
    | ok _ =>
      cases spawned with
      | some pid => exact h.add rfl hnew.2 hm heff
      | none =>
        -- a failed spawn does not answer `:ok`
        unfold InstanceRegistry.addInstanceAndSpawn at hres
        split at hres <;> cases hres
    | error e =>
      obtain rfl : reg' = s.reg := by
        have hsame := addInstanceAndSpawn_refused (congrArg Prod.fst hres)
        rwa [hres] at hsame
      exact h

theorem Follows.attachToSession (h : Follows s) {sourceSid targetSid : String}
    (hm : Mirrorable s.reg (.attachToSession name sourceSid targetSid)) :
    Follows (UriCompat.attachToSession s name sourceSid targetSid) := by
  unfold UriCompat.attachToSession
  have heff := h.regular.sound.step_effect
    (rfl : InstanceRegistry.step s.reg (.attachToSession name sourceSid targetSid) = some _)
  cases hres : InstanceRegistry.attachToSession s.reg name sourceSid targetSid with
  | mk r reg' =>
    rw [hres] at heff
    cases r with
    | ok _ =>
      have hr' : Regular reg' := h.regular.effect heff hm fun _ _ hadds => by cases hadds
      have hsource : Follows ⟨reg', UriCompat.mirrorSession reg' s.store sourceSid⟩ := by
        cases heff with
        | unchanged => exact h.mirrorSession _
        | enter hadds => cases hadds
        | @attach _ _ _ inst hix hrow hnew hfree =>
          have hmem : sourceSid ∈ inst.sessionIds :=
            ((attached_of_row hrow).mp (h.regular.sound.index_row _ _ _ hix)).2
          refine ⟨hr', ((pending_attach h.regular h.store hix hrow hfree).mirrorSession hr'
            sourceSid).mono ?_⟩
          rintro k ⟨hk, hout⟩
          -- both pending keys are keys of the instance, which `sourceSid` lists
          refine hout (Or.inr ⟨{ inst with sessionIds := inst.sessionIds ++ [targetSid] },
            Ets.lookup_insert_self _ _ _, List.mem_append_left _ hmem, ?_⟩)
          rcases hk with rfl | hk
          · exact Or.inl rfl
          · exact Or.inr ⟨targetSid, by simp, hk⟩
      exact hsource.mirrorSession targetSid
    | error e =>
      obtain rfl : reg' = s.reg := by
        have hsame := attachToSession_refused (congrArg Prod.fst hres)
        rwa [hres] at hsame
      exact h

theorem Follows.removeInstance (h : Follows s) {sid : String}
    (hm : Mirrorable s.reg (.removeInstance sid name)) :
    Follows (UriCompat.removeInstance s sid name) := by
  unfold UriCompat.removeInstance InstanceRegistry.removeInstance
  cases hix : s.reg.nameIndex.lookup (sid, name) with
  | none => exact h
  | some id =>
    -- the agent is there, so by the condition it is the primary
    have hp : s.reg.primaryRows.lookup sid = some name :=
      hm.resolve_left (by rw [hix]; exact Option.some_ne_none _)
    simp only [hp, if_true]
    exact h

theorem Follows.setPrimary (h : Follows s) (sid name : String) :
    Follows (UriCompat.setPrimary s sid name) := by
  unfold UriCompat.setPrimary InstanceRegistry.setPrimary
  cases hix : s.reg.nameIndex.lookup (sid, name) with
  | none => exact h
  | some id =>
    obtain ⟨inst, hrow, rfl, -, -⟩ := h.regular.sound.row_of_index hix
    have hr' : Regular { s.reg with primaryRows := s.reg.primaryRows.insert sid name } :=
      ⟨h.regular.sound.setPrimary hix, h.regular.indexed, h.regular.tidy⟩
    have hget : InstanceRegistry.get
        { s.reg with primaryRows := s.reg.primaryRows.insert sid name } sid name = some inst :=
      get_eq_some.mpr ⟨_, hix, hrow⟩
    have hideal : ideal { s.reg with primaryRows := s.reg.primaryRows.insert sid name }
        (.primaryFor sid) = some (.aliasTo (canonicalUri inst.id)) := by
      simp only [ideal, Ets.lookup_insert_self, Option.bind_some, hix, Option.map_some]
    simp only [hget]
    refine ⟨hr', (((pending_setPrimary h.store sid name).mirrorInstance hr' hrow).mirrorPrimaryAlias
      hr' hrow (fun hin => hin.2 (Or.inl rfl)) hideal).mono ?_⟩
    rintro k ⟨⟨hk, -⟩, hout⟩
    exact hout hk

theorem Pending.mirrorRename {reg : InstanceRegistry.State Config} (hr : Regular reg)
    {sids : List String}
    (hgone : ∀ sid ∈ sids, (Key.byName sid name).Clean ∧ ideal reg (.byName sid name) = none)
    {t : AgentStore Config} {E : Set Key} (h : Pending reg t E) :
    Pending reg (UriCompat.mirrorRename reg t sids name)
      (E \ {k | ∃ sid ∈ sids, k = .byName sid name ∨ k ∈ touched reg sid}) := by
  induction sids generalizing t E with
  | nil => exact h.mono fun k hk => ⟨hk, by simp⟩
  | cons sid sids ih =>
    obtain ⟨hclean, hnone⟩ := hgone sid List.mem_cons_self
    have hone := (h.delete hclean hnone).mirrorSession hr sid
    refine (ih (fun sid' hs => hgone sid' (List.mem_cons_of_mem _ hs)) hone).mono ?_
    rintro k ⟨⟨⟨hk, hname⟩, htouched⟩, hrest⟩
    refine ⟨hk, ?_⟩
    rintro ⟨sid', hs, hkey⟩
    rcases List.mem_cons.mp hs with rfl | hs
    · exact hkey.elim hname htouched
    · exact hrest ⟨sid', hs, hkey⟩

theorem Follows.rename (h : Follows s) {inst : Instance Config} {sid newName : String}
    (hne : name ≠ newName) (hix : s.reg.nameIndex.lookup (sid, name) = some inst.id)
    (hrow : s.reg.table.lookup inst.id = some inst)
    (hfree : ∀ sid' ∈ inst.sessionIds, s.reg.nameIndex.lookup (sid', newName) = none)
    (hr' : Regular (s.reg.rename inst name newName)) :
    Follows ⟨s.reg.rename inst name newName,
      mirrorRename (s.reg.rename inst name newName) s.store inst.sessionIds name⟩ := by
  have hname := h.regular.sound.name_of_index hrow hix
  have hsid : sid ∈ inst.sessionIds :=
    ((attached_of_row hrow).mp (h.regular.sound.index_row _ _ _ hix)).2
  have hgone : ∀ sid' ∈ inst.sessionIds, (Key.byName sid' name).Clean ∧
      ideal (s.reg.rename inst name newName) (.byName sid' name) = none := by
    refine fun sid' hs => ⟨hname ▸ h.regular.clean_byName hrow hs, ?_⟩
    simp only [ideal, State.rename, lookup_renameIndex hne, if_pos hs, if_neg hne, if_pos,
      Option.map_none]
  refine ⟨hr', (Pending.mirrorRename hr' hgone
    (pending_rename h.regular h.store hne hix hrow hfree)).mono ?_⟩
  -- the instance is attached to `sid`, so mirroring that session settles its new keys
  have htouched : ∀ k ∈ keysOf { inst with name := newName },
      k ∈ touched (s.reg.rename inst name newName) sid := fun k hk =>
    Or.inr ⟨{ inst with name := newName }, Ets.lookup_insert_self _ _ _, hsid, hk⟩
  rintro k ⟨hk, hout⟩
  rcases hk with rfl | ⟨sid', hs, rfl | rfl⟩
  · exact hout ⟨sid, hsid, Or.inr (htouched _ (Or.inl rfl))⟩
  · exact hout ⟨sid', hs, Or.inl rfl⟩
  · exact hout ⟨sid, hsid, Or.inr (htouched _ (Or.inr ⟨sid', hs, rfl⟩))⟩

theorem Follows.renameSame (h : Follows s) {inst : Instance Config}
    (hrow : s.reg.table.lookup inst.id = some inst) {sids : List String}
    (hsids : ∀ sid ∈ sids, sid ∈ inst.sessionIds) :
    Follows ⟨s.reg, mirrorRename s.reg s.store sids inst.name⟩ := by
  refine ⟨h.regular, ?_⟩
  have hstore := h.store
  -- the store changes along the loop, the registry does not
  generalize s.store = t at hstore ⊢
  induction sids generalizing t with
  | nil => exact hstore
  | cons sid sids ih =>
    have hmem := hsids sid List.mem_cons_self
    have hclean := h.regular.clean_byName hrow hmem
    refine ih (fun sid' hs => hsids sid' (List.mem_cons_of_mem _ hs)) _
      (((hstore.blank hclean).mirrorSession h.regular sid).mono ?_)
    rintro k ⟨hk, hout⟩
    exact hout (Or.inr ⟨inst, hrow, hmem, Or.inr
      ⟨sid, hmem, hk.resolve_left (Set.notMem_empty k)⟩⟩)

theorem Follows.renameInstance (h : Follows s) {sid newName : String}
    (hm : Mirrorable s.reg (.renameInstance sid name newName)) :
    Follows (UriCompat.renameInstance s sid name newName) := by
  unfold UriCompat.renameInstance
  by_cases hne : name = newName
  · subst hne
    simp only [InstanceRegistry.renameInstance, if_true]
    cases hget : InstanceRegistry.get s.reg sid name with
    | none => exact h
    | some inst =>
      obtain ⟨id, hix, hrow⟩ := get_eq_some.mp hget
      obtain rfl := h.regular.sound.row_id id inst hrow
      have hname := h.regular.sound.name_of_index hrow hix
      exact hname ▸ h.renameSame hrow fun _ hs => hs
  by_cases hfree : s.reg.nameIndex.lookup (sid, newName) = none
  · cases hix : s.reg.nameIndex.lookup (sid, name) with
    | none =>
      simp only [InstanceRegistry.renameInstance, if_neg hne, hfree, hix, ne_eq, not_true_eq_false,
        if_false]
      exact h
    | some id =>
      obtain ⟨inst, hrow, rfl, -, hmem⟩ := h.regular.sound.row_of_index hix
      have hothers := (hm hne hfree inst (get_eq_some.mpr ⟨_, hix, hrow⟩)).2
      have hr' : Regular (s.reg.rename inst name newName) :=
        h.regular.effect (.rename hne hfree hix hrow) hm fun _ _ hadds => by cases hadds
      have hget : InstanceRegistry.get (s.reg.rename inst name newName) sid newName =
          some { inst with name := newName } := by
        refine get_eq_some.mpr ⟨inst.id, ?_, Ets.lookup_insert_self _ _ _⟩
        rw [State.rename, lookup_renameIndex hne, if_pos hmem, if_pos rfl]
      have hres : InstanceRegistry.renameInstance s.reg sid name newName =
          (.ok (), s.reg.rename inst name newName) := by
        simp only [InstanceRegistry.renameInstance, if_neg hne, hfree, hix, hrow, ne_eq,
          not_true_eq_false, if_false]
        rfl
      simp only [hres, hget]
      exact h.rename hne hix hrow hothers hr'
  · simp only [InstanceRegistry.renameInstance, if_neg hne, ne_eq, hfree, not_false_eq_true,
      if_true]
    exact h

/-! ## The reads -/

/-- No plugin has registered a handler below `agents`. -/
def NoAgentPlugin (dispatchToPlugin : String → Option String) : Prop :=
  ∀ path, dispatchToPlugin ("esr://localhost/agents/" ++ path) = none

/-- The facade's reads give what the registry holds. -/
structure Agrees (dispatchToPlugin : String → Option String) (s : State Config) : Prop where
  agent_in_session : ∀ sid name,
    (agentInSession dispatchToPlugin s sid name).1 = InstanceRegistry.get s.reg sid name
  agent_by_uuid : ∀ uuid, '/' ∉ uuid.toList →
    agentByUuid dispatchToPlugin s uuid = s.reg.table.lookup uuid
  primary_agent_uuid : ∀ sid, (primaryAgentUuid dispatchToPlugin s sid).1 =
    (InstanceRegistry.primary s.reg sid).bind fun name =>
      (InstanceRegistry.get s.reg sid name).map fun inst => inst.id

theorem Follows.resolve_alias (h : Follows s) (plugin : String → Option String) {k : Key}
    (hk : k.Asked) {c : String} (hideal : ideal s.reg k = some (.aliasTo c)) :
    UriStore.resolve plugin s.store k.uri = some c := by
  unfold UriStore.resolve
  rw [h.store.off k hk (Set.notMem_empty k), hideal]

section Reads
variable {plugin : String → Option String} (hplugin : NoAgentPlugin plugin) (h : Follows s)
include hplugin h

theorem Follows.resolve_none {k : Key} (hk : k.Asked) (hideal : ideal s.reg k = none) :
    UriStore.resolve plugin s.store k.uri = none := by
  unfold UriStore.resolve
  rw [h.store.off k hk (Set.notMem_empty k), hideal, Key.uri_eq]
  exact hplugin k.path

theorem Follows.agentInSession (sid name : String) :
    UriCompat.agentInSession plugin s sid name = (InstanceRegistry.get s.reg sid name, s) := by
  have hasked : (Key.byName sid name).Asked := trivial
  unfold UriCompat.agentInSession UriStore.getEntity
  cases hix : s.reg.nameIndex.lookup (sid, name) with
  | none =>
    have hres := h.resolve_none hplugin hasked (by rw [ideal, hix]; rfl)
    have hget : InstanceRegistry.get s.reg sid name = none := by
      rw [InstanceRegistry.get, hix]
    simp only [Key.uri] at hres
    simp only [hres, hget]
  | some id =>
    obtain ⟨inst, hrow, rfl, -, -⟩ := h.regular.sound.row_of_index hix
    have hres := h.resolve_alias plugin hasked (by rw [ideal, hix]; rfl)
    have hcan := h.store.off (.canonical inst.id) (h.regular.clean_canonical hrow).asked
      (Set.notMem_empty _)
    rw [ideal_canonical hrow] at hcan
    simp only [Key.uri] at hres hcan
    simp only [hres, hcan, get_eq_some.mpr ⟨_, hix, hrow⟩]

theorem Follows.agentByUuid {uuid : String} (hu : '/' ∉ uuid.toList) :
    UriCompat.agentByUuid plugin s uuid = s.reg.table.lookup uuid := by
  have hasked : (Key.canonical uuid).Asked := hu
  unfold UriCompat.agentByUuid UriStore.getEntity
  cases hrow : s.reg.table.lookup uuid with
  | none =>
    have hres := h.resolve_none hplugin hasked (by rw [ideal, hrow]; rfl)
    simp only [Key.uri] at hres
    simp only [hres]
  | some inst =>
    have hcan := h.store.off (.canonical uuid) hasked (Set.notMem_empty _)
    rw [ideal, hrow] at hcan
    simp only [Key.uri, Option.map_some] at hcan
    have hres : UriStore.resolve plugin s.store (canonicalUri uuid) = some (canonicalUri uuid) := by
      unfold UriStore.resolve
      rw [hcan]
    simp only [hres, hcan]

theorem Follows.primaryAgentUuid (sid : String) :
    UriCompat.primaryAgentUuid plugin s sid =
      ((InstanceRegistry.primary s.reg sid).bind fun name =>
        (InstanceRegistry.get s.reg sid name).map fun inst => inst.id, s) := by
  have hasked : (Key.primaryFor sid).Asked := trivial
  unfold UriCompat.primaryAgentUuid
  rcases h.regular.primary_cases sid with ⟨hp, hideal⟩ | ⟨name, inst, hp, hget, -, -, hideal⟩
  · have hres := h.resolve_none hplugin hasked hideal
    simp only [Key.uri] at hres
    simp only [hres, hp, Option.bind_none]
  · have hres := h.resolve_alias plugin hasked hideal
    simp only [Key.uri] at hres
    have hstrip : stripPrefix "esr://localhost/agents/" (canonicalUri inst.id) = some inst.id :=
      stripPrefix_eq_some.mpr rfl
    simp only [hres, Option.bind_some, hstrip, hp, hget, Option.map_some]

theorem Follows.agrees : Agrees plugin s where
  agent_in_session sid name := by rw [h.agentInSession hplugin]
  agent_by_uuid _ hu := h.agentByUuid hplugin hu
  primary_agent_uuid sid := by rw [h.primaryAgentUuid hplugin]

end Reads

theorem Follows.listAgentsInSession (h : Follows s) (sid : String) :
    Follows (UriCompat.listAgentsInSession s sid).2 :=
  ⟨h.regular, (Pending.mirrorAll h.regular (fun _ hi => (h.regular.mem_list.mp hi).1)
    h.store).mono fun _ hk => hk.1⟩

/-! ## The mirror over whole histories -/

theorem follows_start : Follows (start : State Config) := by
  have hnone : ∀ k : Key,
      ideal (InstanceRegistry.init : InstanceRegistry.State Config) k = none := by
    intro k
    cases k <;> simp [ideal, InstanceRegistry.init]
  refine ⟨⟨sound_init, indexed_init, fun id inst hrow => ?_⟩, fun k _ _ => ?_, fun s n hin => ?_⟩
  · simp [start, InstanceRegistry.init] at hrow
  · simp [start, hnone]
  · exact absurd (hnone _) hin

theorem follows_step {plugin : String → Option String} (hplugin : NoAgentPlugin plugin)
    {s s' : State Config} {a : Act Config} (h : Follows s) (hm : MirrorableAct s a)
    (hs : step plugin s a = some s') : Follows s' := by
  cases a with
  | request op =>
    cases op with
    | addInstance attrs id =>
      simp only [step] at hs
      split at hs
      · rename_i hnew
        obtain rfl := Option.some.inj hs
        exact h.addInstance hnew hm
      · cases hs
    | addInstanceAndSpawn attrs ccId ptyId spawned =>
      simp only [step] at hs
      split at hs
      · rename_i hnew
        obtain rfl := Option.some.inj hs
        exact h.addInstanceAndSpawn hnew hm
      · cases hs
    | removeInstance sid name =>
      obtain rfl := Option.some.inj hs
      exact h.removeInstance hm
    | setPrimary sid name =>
      obtain rfl := Option.some.inj hs
      exact h.setPrimary sid name
    | renameInstance sid name newName =>
      obtain rfl := Option.some.inj hs
      exact h.renameInstance hm
    | attachToSession name sourceSid targetSid =>
      obtain rfl := Option.some.inj hs
      exact h.attachToSession hm
  | agentInSession sid name =>
    obtain rfl := Option.some.inj hs
    rw [h.agentInSession hplugin]
    exact h
  | primaryAgentUuid sid =>
    obtain rfl := Option.some.inj hs
    rw [h.primaryAgentUuid hplugin]
    exact h
  | listAgentsInSession sid =>
    obtain rfl := Option.some.inj hs
    exact h.listAgentsInSession sid

/-- **The mirror agrees with the registry**, in every state reached by mirrorable
calls of the facade. -/
theorem agrees_of_mirrorable {plugin : String → Option String} (hplugin : NoAgentPlugin plugin)
    {s : State Config} (h : Reaches (step plugin) MirrorableAct start s) : Agrees plugin s :=
  (h.invariant follows_start fun _ _ _ ht hm hs => follows_step hplugin ht hm hs).agrees hplugin

/-- No plugin handles any URI. -/
def noPlugin : String → Option String := fun _ => none

theorem agrees_after_rename : ∃ s : State Unit, Reaches (step noPlugin) MirrorableAct start s ∧
    Agrees noPlugin s ∧
    InstanceRegistry.get s.reg "B" "z" = some (.mk "id1" ["A", "B"] "cc" "z" () none) := by
  have hrun : ((exec (step noPlugin) MirrorableAct (start : State Unit)
      [.request (.addInstance (agentIn "A" "x") "id1"),
        .request (.addInstance (agentIn "B" "n") "id2"),
        .request (.attachToSession "x" "A" "B"),
        .request (.renameInstance "A" "x" "z")]).map fun s =>
          InstanceRegistry.get s.reg "B" "z") =
      some (some (.mk "id1" ["A", "B"] "cc" "z" () none)) := by decide
  obtain ⟨s, hs, hget⟩ := Option.map_eq_some_iff.mp hrun
  exact ⟨s, .of_exec hs, agrees_of_mirrorable (fun _ => rfl) (.of_exec hs), hget⟩

/-- Without the condition: an agent that has been removed is still found by its
uuid. -/
theorem not_agrees_after_remove :
    ¬∀ s : State Unit, Reaches (step noPlugin) anyStep start s → Agrees noPlugin s := by
  intro h
  have hrun : ((exec (step noPlugin) anyStep (start : State Unit)
      [.request (.addInstance (agentIn "A" "x") "id1"),
        .request (.addInstance (agentIn "A" "y") "id2"), .request (.setPrimary "A" "y"),
        .request (.removeInstance "A" "x")]).map fun s =>
          (agentByUuid noPlugin s "id1", s.reg.table.lookup "id1")) =
      some (some (.mk "id1" ["A"] "cc" "x" () none), none) := by decide +kernel
  obtain ⟨s, hs, hreads⟩ := Option.map_eq_some_iff.mp hrun
  obtain ⟨hfound, hrow⟩ := Prod.mk.inj hreads
  have hagree := (h s (.of_exec hs)).agent_by_uuid "id1" (by decide)
  rw [hfound, hrow] at hagree
  cases hagree

end UriCompat
end Esr
