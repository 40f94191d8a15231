import Esr.WorkspaceShape

/-! # The names of workspaces

Sessions, capabilities and chats keep the uuid of a workspace; people name it.  A command
leaves the store or puts one struct (`leaves_run`), and none but a rename changes what a
name leads to: `name_kept_reaches`.
-/
namespace Esr
namespace WorkspaceCommands
open Yaml UriStore WorkspaceUris WorkspaceStruct

variable (env : Env)

/-- How a command leaves the store: as it was, or behind the put of a struct. -/
inductive Leaves (t : WorkspaceStore Struct) (c : Command) : WorkspaceStore Struct → Prop
  | same : Leaves t c t
  | updated (name : String) (old s : Struct) (hfound : lookupStructByName env t name = some old)
      (hid : s.id = old.id) (hname : s.name = old.name) : Leaves t c (put env t s .raised).2
  | created (uuid : String) (args : Entries) (s : Struct) (hc : c = .new uuid args)
      (hid : s.id = uuid) (hfree : lookupStructByName env t s.name = none) :
      Leaves t c (put env t s .raised).2
  | renamed (oldName : String) (args : Entries) (old s : Struct) (hc : c = .rename args)
      (hname : nonEmptyText (get "name" args) = some oldName)
      (hfound : lookupStructByName env t oldName = some old) (hid : s.id = old.id)
      (hfree : uuidForWorkspaceName env.dispatchToPlugin t s.name = none) :
      Leaves t c (put env t s .raised).2

variable {env} {t : WorkspaceStore Struct} {c : Command}

theorem leaves_put {s : Struct} (reply : Reply)
    (h : Leaves env t c (put env t s .raised).2) : Leaves env t c (put env t s reply).2 := by
  simpa only [put_snd] using h

theorem applyMutation_eq_some {s updated : Struct} {top : String} {sub : Option String} {value : Value}
    (h : Edit.applyMutation s top sub value = some updated) :
    updated.id = s.id ∧ updated.name = s.name := by
  unfold Edit.applyMutation at h
  repeat' split at h
  · obtain rfl := Option.some.inj h
    exact ⟨rfl, rfl⟩
  · obtain rfl := Option.some.inj h
    exact ⟨rfl, rfl⟩
  · obtain ⟨_, -, rfl⟩ := Option.map_eq_some_iff.mp h
    exact ⟨rfl, rfl⟩
  · obtain ⟨_, -, rfl⟩ := Option.map_eq_some_iff.mp h
    exact ⟨rfl, rfl⟩

theorem leaves_new (uuid : String) (args : Entries) :
    Leaves env t (.new uuid args) (New.execute env uuid args t).2 := by
  have hdo : ∀ name owner folder transient chat, Leaves env t (.new uuid args)
      (New.doCreateOrBind env uuid name owner folder transient chat t).2 := by
    intro name owner folder transient chat
    unfold New.doCreateOrBind
    split
    · rename_i hfound
      unfold New.handleExisting
      repeat' split
      all_goals first | exact .same | exact leaves_put _ (.updated name _ _ hfound rfl rfl)
    · rename_i hfree
      have hput := fun reply => leaves_put reply (.created uuid args
        (New.newStruct env uuid name owner folder transient chat) rfl rfl hfree)
      unfold New.createNew
      dsimp only
      repeat' split
      all_goals first | exact .same | exact hput _
  unfold New.execute
  dsimp only
  repeat' split
  all_goals first | exact .same | exact hdo ..

/-- **The inversion lemma** of the commands. -/
theorem leaves_run (c : Command) : Leaves env t c (run env c t).2 := by
  cases c with
  | new uuid args => exact leaves_new uuid args
  | edit args =>
    show Leaves env t _ (Edit.execute env args t).2
    unfold Edit.execute Edit.mutate
    repeat' split
    all_goals first
      | exact .same
      | have hfound := ‹lookupStructByName env t _ = some _›
        obtain ⟨hid, hname⟩ := applyMutation_eq_some ‹_›
        exact leaves_put _ (.updated _ _ _ hfound hid hname)
  | addFolder args | removeFolder args | bindChat args | unbindChat args =>
    dsimp only [run, AddFolder.execute, AddFolder.add, RemoveFolder.execute, BindChat.execute,
      UnbindChat.execute]
    repeat' split
    all_goals first
      | exact .same
      | have hfound := ‹lookupStructByName env t _ = some _›
        exact leaves_put _ (.updated _ _ _ hfound rfl rfl)
  | rename args =>
    show Leaves env t _ (Rename.execute env args t).2
    unfold Rename.execute Rename.workspaceRename
    dsimp only
    repeat' split
    all_goals first
      | exact .same
      | have hname := ‹nonEmptyText (get "name" args) = some _›
        have hfound := ‹lookupStructByName env t _ = some _›
        exact leaves_put _ (.renamed _ args _ _ rfl hname hfound rfl ‹_›)

/-! ## What a put keeps -/

theorem name_put {t : WorkspaceStore Struct} {ws : Workspace Struct} {name id : String}
    {dispatchToPlugin : String → Option String} (h : WellFormed t)
    (hplugin : NoPlugin dispatchToPlugin) (disk : JsonWriter.Disk) (hid : CleanId ws.id)
    (hname : uuidForWorkspaceName dispatchToPlugin t name = some id)
    (hdisplaced : displaced dispatchToPlugin t ws = none)
    (hformer : ∀ old, workspaceByUuid dispatchToPlugin t ws.id = some old → old.name ≠ ws.name →
      name ≠ old.name) :
    uuidForWorkspaceName dispatchToPlugin
      (WorkspaceUris.workspacePut dispatchToPlugin (JsonWriter.write disk) t ws).2 name = some id := by
  have huri : IsAlias (byNameUri name) := .inl ⟨name, rfl⟩
  have hrow := (h.uuidForWorkspaceName hplugin).mp hname
  have hkept : (cleared dispatchToPlugin t ws).lookup (byNameUri name) =
      some (.aliasTo (canonicalUri id)) := by
    refine (lookup_cleared h hplugin hid).mpr ⟨hrow, ?_, fun old hold hne he => ?_, fun _ => ?_⟩
    · rw [hdisplaced]
      exact nofun
    · exact hformer old hold hne (byNameUri_injective he)
    · refine Option.eq_none_iff_forall_ne_some.mpr fun rest hrest => ?_
      exact byNameUri_ne_byChat name rest (stripPrefix_eq_some.mp hrest)
  rw [(wellFormed_workspacePut h hplugin _ hid).uuidForWorkspaceName hplugin,
    lookup_put, if_neg (huri.ne_canonicalUri hid), hkept]
  split <;> rfl

/-- What holds of every store: it is well-formed, and a row is that of its struct. -/
structure Inv (t : WorkspaceStore Struct) : Prop where
  wellFormed : WellFormed t
  rowed : ∀ uri w, t.lookup uri = some (.entity "workspace" w) → w = w.rest.row

/-- A uuid that is drawn is new. -/
def Fresh (env : Env) (t : WorkspaceStore Struct) : Command → Prop
  | .new uuid _ => CleanId uuid ∧ workspaceByUuid env.dispatchToPlugin t uuid = none
  | _ => True

/-- The workspace of the name is to have another one. -/
def RenamesAway (name : String) : Command → Prop
  | .rename args => nonEmptyText (get "name" args) = some name
  | _ => False

variable {s : Struct} {name : String}

/-- The row behind a name. -/
theorem Inv.behind (h : Inv t) (hplugin : NoPlugin env.dispatchToPlugin) {id : String}
    (hname : uuidForWorkspaceName env.dispatchToPlugin t name = some id) :
    CleanId id ∧ ∃ s : Struct, s.id = id ∧ s.name = name ∧
      workspaceByUuid env.dispatchToPlugin t id = some s.row := by
  have hrow := (h.wellFormed.uuidForWorkspaceName hplugin).mp hname
  obtain ⟨w, hclean, he, hent, hmem⟩ := h.wellFormed.aliases _ _ (.inl ⟨name, rfl⟩) hrow
  obtain rfl := canonicalUri_injective (Row.aliasTo.inj he)
  have hw := h.rowed _ w hent
  have hfound := (h.wellFormed.workspaceByUuid hplugin hclean).mpr hent
  rw [Workspace.byNameUri_mem_aliases] at hmem
  exact ⟨hclean, w.rest, (congrArg Workspace.id hw).symm,
    (congrArg Workspace.name hw).symm.trans hmem.symm, hw ▸ hfound⟩

theorem Inv.found (h : Inv t) (hplugin : NoPlugin env.dispatchToPlugin)
    (hfound : lookupStructByName env t name = some s) :
    CleanId s.id ∧ s.name = name ∧ uuidForWorkspaceName env.dispatchToPlugin t name = some s.id ∧
      workspaceByUuid env.dispatchToPlugin t s.id = some s.row := by
  obtain ⟨w, hw, rfl⟩ := Option.map_eq_some_iff.mp hfound
  obtain ⟨id, hname, hid⟩ := Option.bind_eq_some_iff.mp hw
  obtain ⟨hclean, s, rfl, hs, hrow⟩ := h.behind hplugin hname
  obtain rfl := Option.some.inj (hrow.symm.trans hid)
  exact ⟨hclean, hs, hname, hrow⟩

theorem Inv.put (h : Inv t) (hplugin : NoPlugin env.dispatchToPlugin) (hid : CleanId s.id)
    (reply : Reply) : Inv (WorkspaceCommands.put env t s reply).2 := by
  rw [put_snd]
  refine ⟨wellFormed_workspacePut h.wellFormed hplugin _ hid, fun uri w hrow => ?_⟩
  rcases entity_of_lookup_put _ hrow with rfl | hold
  · rfl
  · exact h.rowed uri w hold

/-- **The step lemma.** -/
theorem Inv.leaves {t' : WorkspaceStore Struct} (h : Inv t) (hplugin : NoPlugin env.dispatchToPlugin)
    (hfresh : Fresh env t c) (hleaves : Leaves env t c t') :
    Inv t' ∧ ∀ name id, ¬RenamesAway name c →
      uuidForWorkspaceName env.dispatchToPlugin t name = some id →
        uuidForWorkspaceName env.dispatchToPlugin t' name = some id := by
  cases hleaves with
  | same => exact ⟨h, fun _ _ _ => id⟩
  | updated oldName old s hfound hid hname =>
    obtain ⟨hclean, rfl, huuid, hrow⟩ := h.found hplugin hfound
    rw [← hid] at hclean hrow
    refine ⟨h.put hplugin hclean _, fun name id _ hlookup => ?_⟩
    rw [put_snd]
    refine name_put h.wellFormed hplugin _ hclean hlookup ?_ fun w hw hne => absurd ?_ hne
    · simp [displaced, Struct.row, hname, hid, huuid]
    · obtain rfl := Option.some.inj (hrow.symm.trans hw)
      exact hname.symm
  | created uuid args s hc hid hfree =>
    subst hc hid
    -- Nothing was found under the name, and no row is a dangling one: the name was free.
    refine ⟨h.put hplugin hfresh.1 _, fun name id _ hlookup => ?_⟩
    rw [put_snd]
    refine name_put h.wellFormed hplugin _ hfresh.1 hlookup ?_ fun w hw => ?_
    · have hnone : uuidForWorkspaceName env.dispatchToPlugin t s.name = none := by
        refine Option.eq_none_iff_forall_ne_some.mpr fun id hsome => ?_
        obtain ⟨-, old, -, -, hrow⟩ := h.behind hplugin hsome
        simp [lookupStructByName, hsome, hrow] at hfree
      simp [displaced, Struct.row, hnone]
    · exact absurd (hfresh.2.symm.trans hw) nofun
  | renamed oldName args old s hc hargs hfound hid hfree =>
    obtain ⟨hclean, rfl, huuid, hrow⟩ := h.found hplugin hfound
    rw [← hid] at hclean hrow
    refine ⟨h.put hplugin hclean _, fun name id haway hlookup => ?_⟩
    rw [put_snd]
    refine name_put h.wellFormed hplugin _ hclean hlookup ?_ fun w hw _ => ?_
    · simp [displaced, Struct.row, hfree]
    · obtain rfl := Option.some.inj (hrow.symm.trans hw)
      rintro rfl
      exact haway (hc ▸ hargs)

/-- **A name stays.**  Through every run of commands that does not rename its workspace away,
whatever they reply, a name leads to the workspace it led to, and that has the name. -/
theorem name_kept_reaches {t₀ : WorkspaceStore Struct} {id : String} (h0 : Inv t₀)
    (hplugin : NoPlugin env.dispatchToPlugin)
    (hname : uuidForWorkspaceName env.dispatchToPlugin t₀ name = some id)
    (h : Reaches (step env) (fun t c => Fresh env t c ∧ ¬RenamesAway name c) t₀ t) :
    uuidForWorkspaceName env.dispatchToPlugin t name = some id ∧
      nameForWorkspaceUuid env.dispatchToPlugin t id = some name := by
  have hinv : Inv t ∧ uuidForWorkspaceName env.dispatchToPlugin t name = some id := by
    refine @Reaches.invariant _ _ _ _ _ _
      (fun t => Inv t ∧ uuidForWorkspaceName env.dispatchToPlugin t name = some id) h ⟨h0, hname⟩
      fun t c u ht hok hs => ?_
    obtain rfl := Option.some.inj hs
    obtain ⟨hnext, hkept⟩ := ht.1.leaves hplugin hok.1 (leaves_run c)
    exact ⟨hnext, hkept name id hok.2 ht.2⟩
  obtain ⟨-, s, -, hs, hrow⟩ := hinv.1.behind hplugin hinv.2
  exact ⟨hinv.2, by simp [nameForWorkspaceUuid, hrow, Struct.row, hs]⟩

/-- Another workspace is renamed, and its old name given to a third. -/
theorem name_kept_renamed : ∃ t : WorkspaceStore Struct,
    uuidForWorkspaceName (fun _ => none) t "web" = some "w1" ∧
      uuidForWorkspaceName (fun _ => none) t "site" = some "w2" := by
  have hempty : Inv (Ets.empty : WorkspaceStore Struct) := ⟨wellFormed_empty, fun _ _ h => by cases h⟩
  have hplugin : NoPlugin plainEnv.dispatchToPlugin := fun _ => rfl
  let new (name : String) : Entries := [(.str "name", .str name), (.str "owner", .str "ann")]
  let rename : Command := .rename [(.str "name", .str "dev"), (.str "new_name", .str "site")]
  have hfresh : Fresh plainEnv Ets.empty (.new "w1" (new "web")) := ⟨by decide, rfl⟩
  obtain ⟨h0, -⟩ := hempty.leaves hplugin hfresh (leaves_run _)
  refine ⟨_, (name_kept_reaches h0 hplugin (by decide +kernel) ⟨[.new "w2" (new "dev"), rename],
    .cons ⟨⟨by decide, rfl⟩, id⟩ rfl (.cons ⟨trivial, ?_⟩ rfl .nil)⟩).1, ?_⟩
  · exact fun he => absurd (Option.some.inj he) (by decide)
  · decide +kernel

end WorkspaceCommands
end Esr
