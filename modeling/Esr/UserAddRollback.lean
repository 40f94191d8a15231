import Esr.UserAddLoad

/-! # `user_add` is all or nothing

`allOrNothing_when`: of files that can be read back and loaded, the command either adds the
user or leaves everything as it was, exactly if `users.yaml` can be read, the users' rows
are those of the files, no other `user.json` gives the name an id, and neither a directory
nor a workspace has the name of the default workspace.  The rollback writes `users.yaml`
and loads it, and deletes the directory of that name, whoever made it; the put deletes the
workspace of that name; and the load takes the id of the file that is listed last.
-/
namespace Esr
namespace UserAdd
open Yaml UriStore BootFiles UserUris UserLoad

variable {rt : Runtime} {name : String} {w w' : World} {users doc : Entries} {faults : Faults}

/-! ## One step -/

variable {text : String} {t : UserStore} {default : Value}

theorem writeYaml_cases (henc : Writer.encode (.map doc) = .ok text) (fault : Option YamlFault) :
    writeYaml fault doc w =
        (.ok, { w with disk := { w.disk with usersYaml := some (.ok text.toUTF8) } }) ∨
      fault ≠ none ∧ ∃ reason file,
        writeYaml fault doc w =
          (.error reason, { w with disk := { w.disk with usersYaml := file } }) := by
  cases fault with
  | none =>
    refine Or.inl ?_
    unfold writeYaml
    rw [henc]
  | some fault =>
    refine Or.inr ⟨Option.some_ne_none _, ?_⟩
    cases fault with
    | mkdir reason => exact ⟨reason, w.disk.usersYaml, rfl⟩
    | openFile reason => exact ⟨reason, w.disk.usersYaml, by unfold writeYaml; rw [henc]⟩
    | write half reason => exact ⟨reason, some (.ok half), by unfold writeYaml; rw [henc]⟩

theorem writeUserJson_cases :
    writeUserJson rt faults name w =
        (.ok, { w with
          disk := withUserDir rt faults.position (.ok (rt.encodeJson (userJson rt name)))
            w.disk }) ∨
      faults.userJson ≠ none ∧ ∃ reason,
        writeUserJson rt faults name w = (.error reason, w) ∨
          writeUserJson rt faults name w = (.error reason, { w with
            disk := withUserDir rt faults.position (.error .enoent) w.disk }) := by
  unfold writeUserJson
  cases faults.userJson with
  | none => exact Or.inl rfl
  | some fault =>
    refine Or.inr ⟨Option.some_ne_none _, ?_⟩
    cases fault with
    | mkdir reason => exact ⟨reason, Or.inl rfl⟩
    | file reason => exact ⟨reason, Or.inr rfl⟩

theorem runSteps_cons_ok {step : Step} {rest : List Step} (h : step w = (.ok, w')) :
    runSteps (step :: rest) w = runSteps rest w' := by
  simp only [runSteps, h]

theorem runSteps_cons_error {step : Step} {rest : List Step} {reason : String}
    (h : step w = (.error reason, w')) : runSteps (step :: rest) w = (.error reason, w') := by
  simp only [runSteps, h]

/-! ## The default workspace -/

/-- What the put leaves of the workspaces' rows, whether the file is written or not. -/
def putDefault (rt : Runtime) (name : String)
    (t : WorkspaceUris.WorkspaceStore WorkspaceStruct.Struct) :
    WorkspaceUris.WorkspaceStore WorkspaceStruct.Struct :=
  WorkspaceUris.writeRows
    (WorkspaceUris.cleared rt.dispatchToPlugin t (defaultWorkspace rt name).row)
    (defaultWorkspace rt name).row

theorem aliases_defaultWorkspace : (defaultWorkspace rt name).row.aliases =
    [WorkspaceUris.byNameUri (wsName name)] := rfl

/-- The put of the default workspace returns as its write does. -/
def PutSucceeds (rt : Runtime) (name : String) (faults : Faults) : Prop :=
  WorkspaceUris.writeWorkspaceToDisk (WorkspaceStruct.JsonWriter.write faults.workspaceJson)
    (defaultWorkspace rt name).row = .ok ()

theorem createUserDefaultWorkspace_cases :
    ∃ dirs : Dirs, (∀ dir, dir ≠ wsName name → dirs.lookup dir = w.dirs.lookup dir) ∧
      (createUserDefaultWorkspace rt faults name w =
          (.ok, { w with workspaces := putDefault rt name w.workspaces, dirs := dirs }) ∨
        ¬(faults.workspaceDir = none ∧ PutSucceeds rt name faults) ∧ ∃ reason,
          createUserDefaultWorkspace rt faults name w = (.error reason, w) ∨
          createUserDefaultWorkspace rt faults name w =
            (.error reason, { w with workspaces := putDefault rt name w.workspaces,
                                     dirs := dirs })) := by
  cases hdir : faults.workspaceDir with
  | some reason =>
    refine ⟨w.dirs, fun _ _ => rfl, Or.inr ⟨fun h => Option.some_ne_none _ h.1, reason,
      Or.inl ?_⟩⟩
    unfold createUserDefaultWorkspace
    rw [hdir]
  | none =>
    have hput : (WorkspaceStruct.workspacePut rt.dispatchToPlugin faults.workspaceJson
        w.workspaces (defaultWorkspace rt name)).2 = putDefault rt name w.workspaces :=
      WorkspaceUris.workspacePut_eq _ _ _
    refine ⟨w.dirs.insert (wsName name) (afterWrite faults.workspaceJson
        (rt.workspacesDir ++ "/" ++ wsName name ++ "/workspace.json") (defaultWorkspace rt name)
        ((w.dirs.lookup (wsName name)).getD Ets.empty)),
      fun dir hne => Ets.lookup_insert_of_ne _ _ hne, ?_⟩
    unfold createUserDefaultWorkspace
    rw [hdir]
    dsimp only
    rw [hput]
    cases hwrite : (WorkspaceStruct.workspacePut rt.dispatchToPlugin faults.workspaceJson
        w.workspaces (defaultWorkspace rt name)).1 with
    | ok u => exact Or.inl rfl
    | error reason =>
      refine Or.inr ⟨fun h => ?_, reason, Or.inr rfl⟩
      have hok : (WorkspaceStruct.workspacePut rt.dispatchToPlugin faults.workspaceJson
        w.workspaces (defaultWorkspace rt name)).1 = .ok () := h.2
      rw [hok] at hwrite
      cases hwrite

section Workspaces
variable (hfresh : Fresh rt w) (hwf : WorkspaceUris.WellFormed w.workspaces)
  (hplugin : WorkspaceUris.NoPlugin rt.dispatchToPlugin)
include hfresh hwf hplugin

theorem sameRows_cleared (hvacant : Vacant rt name w) :
    SameRows (WorkspaceUris.cleared rt.dispatchToPlugin w.workspaces
      (defaultWorkspace rt name).row) w.workspaces := by
  intro uri
  refine Option.ext fun row => ?_
  rw [WorkspaceUris.lookup_cleared hwf hplugin hfresh.wsClean]
  refine ⟨And.left, fun hrow => ⟨hrow, ?_, ?_, ?_⟩⟩
  · intro id hdisp
    have hname : w.workspaces.lookup (WorkspaceUris.byNameUri (wsName name)) = _ :=
      ((hwf.displaced_eq_some hplugin).mp hdisp).1
    rw [hvacant.workspace] at hname
    cases hname
  · intro old hold
    have hent : w.workspaces.lookup (WorkspaceUris.canonicalUri rt.wsUuid) = _ :=
      (hwf.workspaceByUuid hplugin hfresh.wsClean).mp hold
    rw [hfresh.workspaceRow] at hent
    cases hent
  · intro he
    exact absurd (hrow.trans (congrArg some he)) (hfresh.workspaceAlias uri)

theorem lookup_putDefault (hvacant : Vacant rt name w) (uri : String) :
    (putDefault rt name w.workspaces).lookup uri =
      if uri = WorkspaceUris.byNameUri (wsName name) then
        some (.aliasTo (WorkspaceUris.canonicalUri rt.wsUuid))
      else if uri = WorkspaceUris.canonicalUri rt.wsUuid then
        some (.entity "workspace" (defaultWorkspace rt name).row)
      else w.workspaces.lookup uri := by
  have hsame := sameRows_cleared hfresh hwf hplugin hvacant
  unfold putDefault
  rw [WorkspaceUris.lookup_writeRows hfresh.wsClean, aliases_defaultWorkspace, hsame uri]
  by_cases hname : uri = WorkspaceUris.byNameUri (wsName name)
  · rw [if_pos (List.mem_singleton.mpr hname), if_pos hname, hname, hvacant.workspace]
    rfl
  · rw [if_neg fun hm => hname (List.mem_singleton.mp hm), if_neg hname]
    rfl

theorem putDefault_displaces {row : Row String (WorkspaceUris.Workspace WorkspaceStruct.Struct)}
    (hrow : w.workspaces.lookup (WorkspaceUris.byNameUri (wsName name)) = some row) :
    ∃ uri ∉ workspaceUris rt name, w.workspaces.lookup uri ≠ none ∧
      (putDefault rt name w.workspaces).lookup uri = none := by
  obtain ⟨other, hclean, rfl, hent, -⟩ := hwf.aliases _ row (Or.inl ⟨_, rfl⟩) hrow
  have hne : other.id ≠ rt.wsUuid := by
    intro he
    rw [he] at hrow
    exact hfresh.workspaceAlias _ hrow
  have hother : WorkspaceUris.canonicalUri other.id ≠ WorkspaceUris.canonicalUri rt.wsUuid :=
    fun he => hne (WorkspaceUris.canonicalUri_injective he)
  have hname : WorkspaceUris.canonicalUri other.id ≠ WorkspaceUris.byNameUri (wsName name) :=
    ((show WorkspaceUris.IsAlias _ from Or.inl ⟨wsName name, rfl⟩).ne_canonicalUri hclean).symm
  have hdisp : WorkspaceUris.displaced rt.dispatchToPlugin w.workspaces
      (defaultWorkspace rt name).row = some other.id :=
    (hwf.displaced_eq_some hplugin).mpr ⟨hrow, hne⟩
  refine ⟨WorkspaceUris.canonicalUri other.id, ?_, ?_, ?_⟩
  · intro hmem
    rcases List.mem_cons.mp hmem with he | hmem
    · exact hother he
    · exact hname (List.mem_singleton.mp hmem)
  · rw [hent]
    exact Option.some_ne_none _
  · unfold putDefault
    rw [WorkspaceUris.lookup_writeRows hfresh.wsClean, aliases_defaultWorkspace,
      if_neg fun hm => hname (List.mem_singleton.mp hm)]
    refine (if_neg hother).trans ?_
    rw [Option.eq_none_iff_forall_ne_some]
    intro left hleft
    have hs := ((WorkspaceUris.lookup_cleared hwf hplugin hfresh.wsClean).mp hleft).2
    exact (hs.displaced other.id hdisp).1 rfl

theorem sameRows_workspaceDeleteById (hvacant : Vacant rt name w)
    {t : WorkspaceUris.WorkspaceStore WorkspaceStruct.Struct}
    (ht : SameRows t w.workspaces ∨ SameRows t (putDefault rt name w.workspaces)) :
    SameRows (WorkspaceUris.workspaceDeleteById t rt.wsUuid) w.workspaces := by
  intro uri
  refine Option.ext fun row => ?_
  rw [WorkspaceUris.lookup_workspaceDeleteById]
  have hold : w.workspaces.lookup uri = some row →
      uri ≠ WorkspaceUris.canonicalUri rt.wsUuid ∧
        row ≠ .aliasTo (WorkspaceUris.canonicalUri rt.wsUuid) := by
    intro hrow
    constructor
    · rintro rfl
      rw [hfresh.workspaceRow] at hrow
      cases hrow
    · rintro rfl
      exact hfresh.workspaceAlias uri hrow
  rcases ht with h | h
  · rw [h uri]
    exact ⟨fun hl => hl.2.2, fun hrow => ⟨(hold hrow).1, (hold hrow).2, hrow⟩⟩
  · rw [h uri, lookup_putDefault hfresh hwf hplugin hvacant]
    constructor
    · rintro ⟨hne, hnot, hrow⟩
      rw [if_neg hne] at hrow
      split at hrow
      · exact absurd (Option.some.inj hrow).symm hnot
      · exact hrow
    · intro hrow
      refine ⟨(hold hrow).1, (hold hrow).2, ?_⟩
      have hname : uri ≠ WorkspaceUris.byNameUri (wsName name) := by
        rintro rfl
        rw [hvacant.workspace] at hrow
        cases hrow
      rw [if_neg hname, if_neg (hold hrow).1]
      exact hrow

end Workspaces

/-! ## What holds between the steps -/

/-- What a run of the steps leaves that is broken off anywhere: only what the rollback
takes back. -/
structure Between (rt : Runtime) (name : String) (w w' : World) : Prop where
  usersDir : entriesOf (removeUserDir rt w'.disk.users) = entriesOf w.disk.users
  userJson : ∀ e ∈ entriesOf w.disk.users, w'.disk.userJson e = w.disk.userJson e
  users : SameRows w'.users w.users ∨
    ∃ default, SameRows w'.users (register w.users (newRows rt name default))
  workspaces : SameRows w'.workspaces w.workspaces ∨
    SameRows w'.workspaces (putDefault rt name w.workspaces)
  dirs : ∀ dir, dir ≠ wsName name → w'.dirs.lookup dir = w.dirs.lookup dir

/-- What all steps together leave. -/
structure Done (rt : Runtime) (name : String) (users : Entries) (w w' : World) : Prop where
  usersYaml : ∃ text : String, w'.disk.usersYaml = some (.ok text.toUTF8) ∧
    rt.readers.yaml text.toUTF8 = .ok (.map (updatedDoc name users (readOrEmpty rt w.disk)))
  usersDir : ∀ e ∈ entriesOf w.disk.users, e ∈ entriesOf w'.disk.users
  users : SameRows w'.users (register w.users (newRows rt name (.str rt.wsUuid)))
  workspaces : SameRows w'.workspaces (putDefault rt name w.workspaces)

theorem entriesOf_removeUserDir (d : Dir) :
    entriesOf (removeUserDir rt d) = (entriesOf d).filter fun entry => entry ≠ rt.uuid := by
  cases d with
  | missing => rfl
  | listing entries => rfl
  | notListable => rfl

theorem filter_entries (hfresh : Fresh rt w) :
    ((entriesOf w.disk.users).filter fun entry => entry ≠ rt.uuid) = entriesOf w.disk.users := by
  rw [List.filter_eq_self]
  intro e he
  have hne : e ≠ rt.uuid := fun h => hfresh.userDir (h ▸ he)
  exact decide_eq_true hne

theorem between_self (hfresh : Fresh rt w) : Between rt name w w where
  usersDir := (entriesOf_removeUserDir _).trans (filter_entries hfresh)
  userJson _ _ := rfl
  users := Or.inl fun _ => rfl
  workspaces := Or.inl fun _ => rfl
  dirs _ _ := rfl

theorem Between.withYaml (h : Between rt name w w')
    (file : Option (Except String ByteArray)) :
    Between rt name w { w' with disk := { w'.disk with usersYaml := file } } :=
  ⟨h.usersDir, h.userJson, h.users, h.workspaces, h.dirs⟩

theorem between_withUserDir (hfresh : Fresh rt w) (hlist : w.disk.users ≠ .notListable)
    (yaml : Option (Except String ByteArray)) (i : Nat) (file : Except ReadError ByteArray) :
    Between rt name w
      { w with disk := withUserDir rt i file { w.disk with usersYaml := yaml } } where
  usersDir := by
    have hentries : entriesOf (makeUserDir rt i w.disk.users) = _ :=
      entriesOf_makeUserDir hlist hfresh.userDir i
    refine (entriesOf_removeUserDir _).trans ?_
    unfold withUserDir
    dsimp only
    rw [hentries, List.filter_append, List.filter_cons_of_neg (by simp), ← List.filter_append,
      List.take_append_drop, filter_entries hfresh]
  userJson := by
    intro e he
    have hne : e ≠ rt.uuid := fun h => hfresh.userDir (h ▸ he)
    unfold withUserDir
    simp only [if_neg hne]
  users := Or.inl fun _ => rfl
  workspaces := Or.inl fun _ => rfl
  dirs _ _ := rfl

/-! ## The new user in the store -/

theorem lookup_newRows :
    (register t (newRows rt name default)).lookup (canonicalUri rt.uuid) =
      some (.entity "user" (newUser name default)) := by
  have hcanonical : canonicalUri rt.uuid = (newRows rt name default).canonical := rfl
  rw [hcanonical, lookup_register, if_pos rfl]
  rfl

theorem found_newUser (hready : Ready rt name w users) (hfresh : Fresh rt w)
    (ht : SameRows t (register w.users (newRows rt name default))) :
    Found rt.dispatchToPlugin t rt.uuid (newUser name default) [] := by
  have hrow := (ht _).trans lookup_newRows
  refine (found_iff ⟨_, _, hrow⟩).mpr ⟨hrow, fun a ha => ?_⟩
  have hname : a = byNameUri name := List.mem_singleton.mp ha
  have halias : t.lookup a = some (.aliasTo (canonicalUri rt.uuid)) := by
    have hne : byNameUri name ≠ (newRows rt name default).canonical :=
      (canonicalUri_ne_byNameUri hfresh.slash name).symm
    have hmem : byNameUri name ∈ (newRows rt name default).aliases := List.mem_singleton.mpr rfl
    rw [ht, hname, lookup_register, if_neg hne, if_pos hmem, hready.nameFree]
    rfl
  unfold resolve
  rw [halias]
  rfl

theorem setDefault_eq (hready : Ready rt name w users) (hfresh : Fresh rt w)
    (ht : SameRows t (register w.users (newRows rt name default))) :
    ∃ t', (∀ w' : World, w'.users = t → setDefault rt name w' = (.ok, { w' with users := t' })) ∧
      SameRows t' (register w.users (newRows rt name (.str rt.wsUuid))) := by
  have hname := resolve_bind_eq_some.mp (found_newUser hready hfresh ht).byName
  have hset : setDefaultWorkspaceForUserName rt.dispatchToPlugin t name rt.wsUuid = _ :=
    setDefaultWorkspaceForUserName_eq hname ((ht _).trans lookup_newRows)
  refine ⟨_, fun w' hw' => by unfold setDefault; rw [hw', hset], fun uri => ?_⟩
  rw [putEntity, Ets.lookup_insert]
  split
  · rename_i he
    rw [he]
    exact lookup_newRows.symm
  · rename_i hne
    rw [ht uri, lookup_register, lookup_register]
    exact (if_neg hne).trans (if_neg hne).symm

/-! ## The steps, and the rollback -/

/-- Nothing fails before the end. -/
structure Smooth (rt : Runtime) (name : String) (faults : Faults) : Prop where
  usersYaml : faults.usersYaml = none
  userJson : faults.userJson = none
  workspaceDir : faults.workspaceDir = none
  put : PutSucceeds rt name faults

section Run
variable (hstarts : Starts rt name w users) (hready : Ready rt name w users)
  (hfresh : Fresh rt w)
include hstarts hready hfresh

theorem runSteps_steps (hjson : rt.readers.json (rt.encodeJson (userJson rt name)) =
      some (.map (userJson rt name))) (hsynced : Synced rt w)
    (hnone : (readUuidsFromDir rt.readers w.disk).get name = none) (faults : Faults) :
    (∃ reason w', runSteps (steps rt faults name users (readOrEmpty rt w.disk)) w =
        (.error reason, w') ∧ Between rt name w w' ∧ ¬Smooth rt name faults) ∨
      ∃ w', runSteps (steps rt faults name users (readOrEmpty rt w.disk)) w = (.ok, w') ∧
        Between rt name w w' ∧ Done rt name users w w' := by
  obtain ⟨c, hc⟩ := contentOf_isSome hready
  obtain ⟨text, htext, hread⟩ := hready.readBackNew
  have hself : Between rt name w w := between_self hfresh
  unfold steps
  -- users.yaml
  rcases writeYaml_cases htext faults.usersYaml with hstep | ⟨hfault, reason, file, hstep⟩
  swap
  · exact Or.inl ⟨reason, _, runSteps_cons_error hstep, hself.withYaml file,
      fun h => hfault h.usersYaml⟩
  rw [runSteps_cons_ok hstep]
  -- user.json
  have hyaml := hself.withYaml (some (.ok text.toUTF8))
  rcases @writeUserJson_cases rt name _ faults with hstep | ⟨hfault, reason, hstep | hstep⟩
  rotate_left
  · exact Or.inl ⟨reason, _, runSteps_cons_error hstep, hyaml, fun h => hfault h.userJson⟩
  · exact Or.inl ⟨reason, _, runSteps_cons_error hstep,
      between_withUserDir hfresh hready.listable _ _ _, fun h => hfault h.userJson⟩
  rw [runSteps_cons_ok hstep]
  -- the load, which does not fail
  have hmade : Between rt name w _ := between_withUserDir hfresh hready.listable
    (some (.ok text.toUTF8)) faults.position (.ok (rt.encodeJson (userJson rt name)))
  obtain ⟨t, default, hload, ht⟩ :=
    load_added hstarts hready hfresh hjson hc hsynced faults.position hread hnone
  have hstep : syncReloadUserRegistry rt { w with
      disk := withUserDir rt faults.position (.ok (rt.encodeJson (userJson rt name)))
        { w.disk with usersYaml := some (.ok text.toUTF8) } } = (.ok, { w with
      disk := withUserDir rt faults.position (.ok (rt.encodeJson (userJson rt name)))
        { w.disk with usersYaml := some (.ok text.toUTF8) }
      users := t }) := by
    unfold syncReloadUserRegistry
    rw [hload]
  rw [runSteps_cons_ok hstep]
  -- the workspace
  obtain ⟨dirs, hdirs, hstep | ⟨hfault, reason, hstep | hstep⟩⟩ :=
    @createUserDefaultWorkspace_cases rt name _ faults
  rotate_left
  · exact Or.inl ⟨reason, _, runSteps_cons_error hstep,
      ⟨hmade.usersDir, hmade.userJson, Or.inr ⟨default, ht⟩, hmade.workspaces, hmade.dirs⟩,
      fun h => hfault ⟨h.workspaceDir, h.put⟩⟩
  · exact Or.inl ⟨reason, _, runSteps_cons_error hstep,
      ⟨hmade.usersDir, hmade.userJson, Or.inr ⟨default, ht⟩, Or.inr fun _ => rfl, hdirs⟩,
      fun h => hfault ⟨h.workspaceDir, h.put⟩⟩
  rw [runSteps_cons_ok hstep]
  -- the default
  obtain ⟨t', hset, ht'⟩ := setDefault_eq hready hfresh ht
  rw [runSteps_cons_ok (hset _ rfl)]
  refine Or.inr ⟨_, rfl,
    ⟨hmade.usersDir, hmade.userJson, Or.inr ⟨_, ht'⟩, Or.inr fun _ => rfl, hdirs⟩,
    ⟨text, rfl, hread⟩, fun e he => ?_, ht', fun _ => rfl⟩
  have hentries : entriesOf (makeUserDir rt faults.position w.disk.users) = _ :=
    entriesOf_makeUserDir hready.listable hfresh.userDir faults.position
  change e ∈ entriesOf (makeUserDir rt faults.position w.disk.users)
  rw [hentries]
  rw [← List.take_append_drop faults.position (entriesOf w.disk.users)] at he
  rcases List.mem_append.mp he with hin | hin
  · exact List.mem_append_left _ hin
  · exact List.mem_append_right _ (List.mem_cons_of_mem _ hin)

end Run

/-! ## What the rollback leaves -/

theorem usersIn_eq (h : Starts rt name w users) (hlegible : Legible rt w) :
    usersIn rt w.disk = some users := by
  have hmap := h.isMap
  unfold readOrEmpty at hmap
  unfold Legible at hlegible
  unfold usersIn at hlegible ⊢
  cases hfile : w.disk.usersYaml with
  | none =>
    rw [hfile] at hmap
    exact congrArg some (Value.map.inj hmap)
  | some file =>
    rw [hfile] at hmap hlegible
    dsimp only at hmap hlegible ⊢
    split at hmap
    · rw [hmap]
    · rename_i hnot
      split at hlegible
      · rename_i m hread
        exact absurd hread (hnot m)
      · exact absurd rfl hlegible

theorem usersIn_of_read {disk : UserLoad.Disk} (hfile : disk.usersYaml = some (.ok text.toUTF8))
    (hread : rt.readers.yaml text.toUTF8 = .ok (.map doc))
    (hmap : getOr "users" (.map []) doc = .map users) :
    usersIn rt disk = some users := by
  have hyaml : (Except.ok text.toUTF8 : Except String ByteArray).bind rt.readers.yaml =
      .ok (.map doc) := hread
  unfold usersIn
  rw [hfile]
  dsimp only
  rw [hyaml]
  dsimp only
  rw [hmap]

/-- The disk after the rollback. -/
def reverted (rt : Runtime) (text : String) (disk : UserLoad.Disk) : UserLoad.Disk :=
  { disk with usersYaml := some (.ok text.toUTF8), users := removeUserDir rt disk.users }

theorem rollbackPartialAdd_eq (hundo : faults.Undoable)
    (htext : Writer.encode (.map doc) = .ok text) :
    rollbackPartialAdd rt faults name doc w =
      { disk := reverted rt text w.disk
        users := (load rt.readers rt.order (reverted rt text w.disk) w.users).2
        workspaces := WorkspaceUris.workspaceDeleteById w.workspaces rt.wsUuid
        dirs := w.dirs.delete (wsName name) } := by
  unfold rollbackPartialAdd
  rw [hundo.revertYaml, hundo.removeUserDir, hundo.removeWorkspaceDir]
  unfold writeYaml
  rw [htext]
  rfl

section Settle
variable (hstarts : Starts rt name w users) (hready : Ready rt name w users)
  (hfresh : Fresh rt w) (hwf : WorkspaceUris.WellFormed w.workspaces)
  (hplugin : WorkspaceUris.NoPlugin rt.dispatchToPlugin)
include hstarts hready hfresh hwf hplugin

theorem unchanged_rollback (hlegible : Legible rt w) (hsynced : Synced rt w)
    (hvacant : Vacant rt name w)
    (hundo : faults.Undoable) (h : Between rt name w w') :
    Unchanged rt w (rollbackPartialAdd rt faults name (readOrEmpty rt w.disk) w') := by
  obtain ⟨c, hc⟩ := contentOf_isSome hready
  obtain ⟨text, htext, hread⟩ := hready.readBack
  rw [rollbackPartialAdd_eq hundo htext]
  constructor
  · exact (usersIn_of_read rfl hread hstarts.isMap).trans (usersIn_eq hstarts hlegible).symm
  · exact h.usersDir
  · exact h.userJson
  · exact load_reverted hstarts hready hfresh hc hsynced hread rfl h.usersDir h.userJson h.users
  · exact sameRows_workspaceDeleteById hfresh hwf hplugin hvacant h.workspaces
  · intro dir
    by_cases hdir : dir = wsName name
    · rw [hdir, Ets.lookup_delete_self, hvacant.dir]
    · exact (Ets.lookup_delete_of_ne _ hdir).trans (h.dirs dir hdir)

theorem added_of_done (hlegible : Legible rt w) (hvacant : Vacant rt name w) (h : Between rt name w w')
    (hdone : Done rt name users w w') : Added rt name w w' := by
  obtain ⟨text, hfile, hread⟩ := hdone.usersYaml
  have hfound := found_newUser hready hfresh hdone.users
  constructor
  · intro other hne
    have hmap : getOr "users" (.map []) (updatedDoc name users (readOrEmpty rt w.disk)) =
        .map (put name (.map [(.str "feishu_ids", .list [])]) users) := by
      unfold updatedDoc getOr
      rw [get_put_self]
    rw [usersIn_of_read hfile hread hmap, usersIn_eq hstarts hlegible, Option.map_some,
      Option.map_some, get_put_of_ne _ _ hne]
  · exact fun e he => ⟨hdone.usersDir e he, h.userJson e he⟩
  · exact fun uri huri => (hdone.users uri).trans (lookup_register_of_not_mem huri)
  · intro uri huri
    have hnot := not_or.mp (mt List.mem_cons.mpr huri)
    rw [hdone.workspaces uri, lookup_putDefault hfresh hwf hplugin hvacant,
      if_neg (mt List.mem_singleton.mpr hnot.2), if_neg hnot.1]
  · exact h.dirs
  · exact hfound.byName
  · have hrow : userByName rt.dispatchToPlugin w'.users name = some (newUser name (.str rt.wsUuid)) :=
      hfound.rowByName
    rw [hrow]
    rfl
  · have halias : w'.workspaces.lookup (WorkspaceUris.byNameUri (wsName name)) =
        some (.aliasTo (WorkspaceUris.canonicalUri rt.wsUuid)) := by
      rw [hdone.workspaces, lookup_putDefault hfresh hwf hplugin hvacant, if_pos rfl]
    unfold WorkspaceUris.uuidForWorkspaceName resolve
    rw [halias]
    exact WorkspaceUris.stripPrefix_canonicalUri _

end Settle

/-! ## The command -/

theorem execute_of_starts (h : Starts rt name w users) (faults : Faults) :
    execute rt faults name w =
      match runSteps (steps rt faults name users (readOrEmpty rt w.disk)) w with
      | (.ok, w') => (.ok rt.uuid (wsName name) rt.wsUuid, w')
      | (.error reason, w') =>
          (.writeFailed reason, rollbackPartialAdd rt faults name (readOrEmpty rt w.disk) w')
      | (.raised, w') => (.raised, w') := by
  have hnew : (users.any fun e => e.1.isStr name) = false := by
    rw [List.any_eq_false]
    intro e he
    rw [h.new e he]
    exact Bool.false_ne_true
  unfold execute
  rw [if_neg (not_not_intro h.valid)]
  dsimp only
  rw [h.isMap]
  dsimp only
  rw [hnew]
  rfl

theorem execute_of_not_starts (h : ¬∃ users, Starts rt name w users) (faults : Faults) :
    execute rt faults name w = (.invalidArgs, w) ∨
      execute rt faults name w = (.alreadyExists, w) ∨
        execute rt faults name w = (.raised, w) := by
  unfold execute
  by_cases hvalid : usernameRegex name = true
  · rw [if_neg (not_not_intro hvalid)]
    dsimp only
    split
    · rename_i users hmap
      by_cases hany : (users.any fun e => e.1.isStr name) = true
      · rw [if_pos hany]
        exact Or.inr (Or.inl rfl)
      · refine absurd ⟨users, hvalid, hmap, fun e he => ?_⟩ h
        exact Bool.eq_false_of_not_eq_true (List.any_eq_false.mp (Bool.eq_false_of_not_eq_true hany) e he)
    · exact Or.inr (Or.inr rfl)
  · rw [if_pos hvalid]
    exact Or.inl rfl

theorem unchanged_self : Unchanged rt w w :=
  ⟨rfl, rfl, fun _ _ => rfl, fun _ => rfl, fun _ => rfl, fun _ => rfl⟩

/-- Nothing fails. -/
def noFaults : Faults where
  usersYaml := none
  userJson := none
  position := 0
  workspaceDir := none
  workspaceJson := ⟨fun _ => .ok (), fun _ => .ok "", fun _ _ => .ok (), fun _ _ => .ok ()⟩
  revertYaml := none
  removeUserDir := none
  removeWorkspaceDir := none

/-- The first write fails before it has changed anything. -/
def firstWriteFails : Faults := { noFaults with usersYaml := some (.mkdir "eacces") }

theorem undoable_noFaults : noFaults.Undoable := ⟨rfl, rfl, rfl⟩

theorem undoable_firstWriteFails : firstWriteFails.Undoable := ⟨rfl, rfl, rfl⟩

theorem smooth_noFaults : Smooth rt name noFaults := ⟨rfl, rfl, rfl, rfl⟩

theorem execute_firstWriteFails (h : Starts rt name w users) :
    execute rt firstWriteFails name w =
      (.writeFailed "eacces",
        rollbackPartialAdd rt firstWriteFails name (readOrEmpty rt w.disk) w) :=
  execute_of_starts h firstWriteFails

theorem runSteps_noFaults {t' : UserStore}
    (htext : Writer.encode (.map (updatedDoc name users doc)) = .ok text)
    (hload : load rt.readers rt.order (withUserDir rt 0 (.ok (rt.encodeJson (userJson rt name))) { w.disk with usersYaml := some (.ok text.toUTF8) }) w.users = (.ok, t))
    (hset : setDefaultWorkspaceForUserName rt.dispatchToPlugin t name rt.wsUuid = some t') :
    ∃ w', runSteps (steps rt noFaults name users doc) w = (.ok, w') ∧ w'.users = t' := by
  have hyaml : writeYaml noFaults.usersYaml (updatedDoc name users doc) w =
      (.ok, { w with disk := { w.disk with usersYaml := some (.ok text.toUTF8) } }) := by
    unfold writeYaml
    rw [htext]
    rfl
  have hloaded : syncReloadUserRegistry rt { w with
      disk := withUserDir rt 0 (.ok (rt.encodeJson (userJson rt name)))
        { w.disk with usersYaml := some (.ok text.toUTF8) } } = (.ok, { w with
      disk := withUserDir rt 0 (.ok (rt.encodeJson (userJson rt name)))
        { w.disk with usersYaml := some (.ok text.toUTF8) }
      users := t }) := by
    unfold syncReloadUserRegistry
    rw [hload]
  have hdefault : ∀ w' : World, w'.users = t →
      setDefault rt name w' = (.ok, { w' with users := t' }) := by
    intro w' hw'
    unfold setDefault
    rw [hw', hset]
  obtain ⟨dirs, -, hput | ⟨hfails, -⟩⟩ := @createUserDefaultWorkspace_cases rt name
    { w with
      disk := withUserDir rt 0 (.ok (rt.encodeJson (userJson rt name)))
        { w.disk with usersYaml := some (.ok text.toUTF8) }
      users := t } noFaults
  · have hjson : ∀ w : World, writeUserJson rt noFaults name w = (.ok, { w with
        disk := withUserDir rt 0 (.ok (rt.encodeJson (userJson rt name))) w.disk }) :=
      fun _ => rfl
    unfold steps
    rw [runSteps_cons_ok hyaml, runSteps_cons_ok (hjson _), runSteps_cons_ok hloaded,
      runSteps_cons_ok hput, runSteps_cons_ok (hdefault _ rfl)]
    exact ⟨_, rfl, rfl⟩
  · exact absurd ⟨rfl, rfl⟩ hfails

section AllOrNothing
variable (hfresh : Fresh rt w)
  (hjson : rt.readers.json (rt.encodeJson (userJson rt name)) = some (.map (userJson rt name)))
  (hwf : WorkspaceUris.WellFormed w.workspaces)
  (hplugin : WorkspaceUris.NoPlugin rt.dispatchToPlugin)
include hfresh

/-- A rollback that changes nothing finds a `users.yaml` that can be read, the users' rows
as the files have them, and no directory. -/
theorem synced_of_allOrNothing (h : AllOrNothing rt name w) (hstarts : Starts rt name w users)
    (hready : Ready rt name w users) :
    Legible rt w ∧ Synced rt w ∧ w.dirs.lookup (wsName name) = none := by
  obtain ⟨c, hc⟩ := contentOf_isSome hready
  obtain ⟨text, htext, hread⟩ := hready.readBack
  have hafter := h firstWriteFails undoable_firstWriteFails
  rw [execute_firstWriteFails hstarts, rollbackPartialAdd_eq undoable_firstWriteFails htext]
    at hafter
  have hunchanged : Unchanged rt w _ := hafter
  refine ⟨?_, ?_, ?_⟩
  · unfold Legible
    rw [← hunchanged.usersYaml, usersIn_of_read rfl hread hstarts.isMap]
    exact Option.some_ne_none _
  · intro text' htext'
    obtain rfl := Except.ok.inj (htext.symm.trans htext')
    have hrows := hunchanged.users
    dsimp only at hrows
    have hself : Between rt name w w := between_self hfresh
    have hback : load rt.readers rt.order (reverted rt text w.disk) w.users = _ :=
      load_original hstarts hready hc hread rfl hself.usersDir hself.userJson
    have hload : load rt.readers rt.order { w.disk with usersYaml := some (.ok text.toUTF8) }
        w.users = _ := load_original hstarts hready hc hread rfl rfl fun _ _ => rfl
    rw [hback, ← hload] at hrows
    exact hrows
  · have hdir := hunchanged.dirs (wsName name)
    dsimp only at hdir
    rw [← hdir, Ets.lookup_delete_self]

include hjson

/-- An id that another `user.json` gives the name is the one the name leads to, where that
file is listed after the new one. -/
theorem userJson_of_allOrNothing (h : AllOrNothing rt name w) (hstarts : Starts rt name w users)
    (hready : Ready rt name w users) (hsynced : Synced rt w) :
    (readUuidsFromDir rt.readers w.disk).get name = none := by
  rw [Option.eq_none_iff_forall_ne_some]
  intro old hold
  obtain ⟨c, hc⟩ := contentOf_isSome hready
  obtain ⟨text, htext, hread⟩ := hready.readBackNew
  obtain ⟨c', default, hload, hmem⟩ := load_files hstarts hready hfresh hjson hc 0 hread
  have hrows := hmem old (get_textsFromDir_first hjson hready.listable hfresh.userDir rfl hold)
  have hname : resolve rt.dispatchToPlugin
      (registerAll (deleteAllByKind w.users "user") (c'.registrations rt.order))
        (byNameUri name) = some (canonicalUri old) := by
    refine resolve_registerAll ((hrows _).mpr (Or.inl rfl))
      (List.mem_cons_of_mem _ List.mem_cons_self) ?_ ?_
    · intro r hr huri
      rcases (hrows r).mp hr with rfl | hr
      · rfl
      · exact absurd huri (not_mem_uris hstarts hready hc hsynced hready.nameFree r hr)
    · exact lookup_deleteAllByKind_of_none hready.nameFree
  obtain ⟨r, hr, -, hrow⟩ := lookup_registerAll_canonical
    (t := deleteAllByKind w.users "user") ((hrows _).mpr (Or.inl rfl))
  obtain ⟨uuid, user, -, rfl⟩ := mem_registrations.mp hr
  obtain ⟨t', hset, hname'⟩ : ∃ t', setDefaultWorkspaceForUserName rt.dispatchToPlugin
      (registerAll (deleteAllByKind w.users "user") (c'.registrations rt.order)) name rt.wsUuid =
        some t' ∧ resolve rt.dispatchToPlugin t' (byNameUri name) = some (canonicalUri old) :=
    ⟨_, setDefaultWorkspaceForUserName_eq hname hrow, resolve_putEntity_canonicalUri hname⟩
  obtain ⟨w', hrun, hw'⟩ := runSteps_noFaults htext hload hset
  have hafter := h noFaults undoable_noFaults
  rw [execute_of_starts hstarts, hrun] at hafter
  have hadded : Added rt name w w' := hafter.2.2.2
  have hby := hadded.byName
  unfold uuidForUserName at hby
  rw [hw', resolve_bind_eq_some.mpr hname'] at hby
  rw [Option.some.inj hby] at hold
  exact hfresh.userId name hold

include hwf hplugin

theorem workspace_of_allOrNothing (h : AllOrNothing rt name w)
    (hstarts : Starts rt name w users) (hready : Ready rt name w users)
    (hsynced : Synced rt w) (hnone : (readUuidsFromDir rt.readers w.disk).get name = none) :
    w.workspaces.lookup (WorkspaceUris.byNameUri (wsName name)) = none := by
  rcases runSteps_steps hstarts hready hfresh hjson hsynced hnone noFaults with
    ⟨reason, w', -, -, hnot⟩ | ⟨w', hrun, -, hdone⟩
  · exact absurd smooth_noFaults hnot
  · have hafter := h noFaults undoable_noFaults
    rw [execute_of_starts hstarts, hrun] at hafter
    have hadded : Added rt name w w' := hafter.2.2.2
    rw [Option.eq_none_iff_forall_ne_some]
    intro row hrow
    obtain ⟨uri, huri, hthere, hgone⟩ := putDefault_displaces hfresh hwf hplugin hrow
    have hkept := hadded.workspaces uri huri
    rw [hdone.workspaces uri, hgone] at hkept
    exact hthere hkept.symm

end AllOrNothing

/-! ## A first user -/

def emptyText : String := "users: \x7b\x7d\n"

def aliceText : String := "users:\n  alice:\n    feishu_ids: []\n"

def aliceJson : String := "\x7b\n" ++
  "  \"created_at\": \"2026-05-11T08:00:00Z\",\n" ++
  "  \"default_workspace_id\": \"9d8c7b6a-5f4e-4d3c-8b2a-1f0e9d8c7b6a\",\n" ++
  "  \"display_name\": \"\",\n" ++
  "  \"feishu_ids\": [],\n" ++
  "  \"id\": \"3f2b1c4d-5e6f-4a7b-8c9d-0e1f2a3b4c5d\",\n" ++
  "  \"schema_version\": 1,\n" ++
  "  \"username\": \"alice\"\n" ++ "\x7d"

def aliceDoc : Entries :=
  [(.str "created_at", .str "2026-05-11T08:00:00Z"),
   (.str "default_workspace_id", .str "9d8c7b6a-5f4e-4d3c-8b2a-1f0e9d8c7b6a"),
   (.str "display_name", .str ""), (.str "feishu_ids", .list []),
   (.str "id", .str "3f2b1c4d-5e6f-4a7b-8c9d-0e1f2a3b4c5d"),
   (.str "schema_version", .int 1), (.str "username", .str "alice")]

def installReaders : Readers where
  json bytes := if bytes = aliceJson.toUTF8 then some (.map aliceDoc) else none
  yaml bytes :=
    if bytes = emptyText.toUTF8 then .ok (.map [(.str "users", .map [])])
    else if bytes = aliceText.toUTF8 then
      .ok (.map [(.str "users", .map [(.str "alice", .map [(.str "feishu_ids", .list [])])])])
    else .error "malformed yaml"

def install : Runtime where
  readers := installReaders
  order := ⟨Dict.items, fun _ => .refl _⟩
  dispatchToPlugin _ := none
  encodeJson _ := aliceJson.toUTF8
  workspacesDir := "/home/esr/workspaces"
  utcNow := "2026-05-11T08:00:00Z"
  uuid := "3f2b1c4d-5e6f-4a7b-8c9d-0e1f2a3b4c5d"
  wsUuid := "9d8c7b6a-5f4e-4d3c-8b2a-1f0e9d8c7b6a"

/-- Nobody has been added yet; `dirs` are the directories of workspaces. -/
def nobody (dirs : Dirs) : World where
  disk := ⟨none, .missing, fun _ => .error .enoent⟩
  users := Ets.empty
  workspaces := Ets.empty
  dirs := dirs

variable {dirs : Dirs}

theorem encode_nobody :
    Writer.encode (.map (readOrEmpty install (nobody dirs).disk)) = .ok emptyText := rfl

theorem json_alice : install.readers.json (install.encodeJson (userJson install "alice")) =
    some (.map (userJson install "alice")) := by
  have hread : installReaders.json aliceJson.toUTF8 = some (.map aliceDoc) := by
    unfold installReaders
    dsimp only
    rw [if_pos rfl]
  exact hread

theorem starts_nobody : Starts install "alice" (nobody dirs) [] :=
  ⟨by decide +kernel, rfl, fun _ h => nomatch h⟩

theorem fresh_nobody : Fresh install (nobody dirs) where
  userDir h := nomatch h
  userId _ h := nomatch h
  slash := by decide
  userRow := rfl
  userAlias _ h := nomatch h
  wsClean := by unfold WorkspaceUris.CleanId; decide
  workspaceRow := rfl
  workspaceAlias _ h := nomatch h

theorem ready_nobody : Ready install "alice" (nobody dirs) [] where
  readBack := ⟨emptyText, rfl, rfl⟩
  readBackNew := by
    have hne : aliceText.toUTF8 ≠ emptyText.toUTF8 := by decide +kernel
    have hread : installReaders.yaml aliceText.toUTF8 = .ok (.map [(.str "users",
        .map [(.str "alice", .map [(.str "feishu_ids", .list [])])])]) := by
      unfold installReaders
      dsimp only
      rw [if_neg hne, if_pos rfl]
    exact ⟨aliceText, rfl, hread⟩
  names _ h := nomatch h
  listable h := nomatch h
  ids := by
    rintro c hc uuid user ⟨username, stored, hget, -, -⟩
    obtain rfl := Option.some.inj hc
    cases hget
  apart := by
    intro c hc r hr
    obtain rfl := Option.some.inj hc
    cases hr
  nameFree := rfl

theorem synced_nobody : Synced install (nobody dirs) := by
  intro text htext uri
  obtain rfl := Except.ok.inj (encode_nobody.symm.trans htext)
  rfl

end UserAdd
end Esr
