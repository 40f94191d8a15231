import Mathlib.Data.List.Perm.Basic
import Esr.WorkspacePut
import Esr.WorkspaceStruct

/-! # A workspace write that fails

`workspace_put/1` has changed the store before it writes the file, and nothing of
that is undone when the write fails.  `sameAnswers_iff` says which puts show
nothing of it: those of a workspace that the store has just so already.

The store is any here, also one that the facade never makes.
-/
namespace Esr
namespace WorkspaceUris
open UriStore

variable {Rest : Type}

section Answers
variable (dispatchToPlugin : String → Option String)

/-- The workspace of a row. -/
def workspaceOf : String × Row String (Workspace Rest) → Option (Workspace Rest)
  | (_, .entity kind data) => if kind = "workspace" then some data else none
  | (_, .aliasTo _) => none

/-- `list_workspaces/0`.  Workspaces of one name are in the order of the table,
which is not specified. -/
def listWorkspaces (t : WorkspaceStore Rest) : List (Workspace Rest) :=
  (t.tab2list.filterMap workspaceOf).insertionSort fun a b => a.name ≤ b.name

/-- Every lookup of a workspace answers in `t'` as it does in `t`. -/
structure SameAnswers (t t' : WorkspaceStore Rest) : Prop where
  byUuid : ∀ uuid, workspaceByUuid dispatchToPlugin t' uuid = workspaceByUuid dispatchToPlugin t uuid
  byName : ∀ name,
    uuidForWorkspaceName dispatchToPlugin t' name = uuidForWorkspaceName dispatchToPlugin t name
  byChat : ∀ key,
    workspaceNameForChat dispatchToPlugin t' key = workspaceNameForChat dispatchToPlugin t key
  listing : (listWorkspaces t').Perm (listWorkspaces t)

/-- The store has the workspace just as a put leaves it: its row is there, its
name and its chats are taken, its name is not another workspace's, and it is
aliased to no chat it does not have. -/
structure AlreadyStored (t : WorkspaceStore Rest) (ws : Workspace Rest) : Prop where
  entity : t.lookup (canonicalUri ws.id) = some (.entity "workspace" ws)
  aliases : ∀ uri ∈ ws.aliases, t.lookup uri ≠ none
  name : displaced dispatchToPlugin t ws = none
  chats : ∀ uri, (Esr.stripPrefix "esr://localhost/workspaces/by-chat/" uri).isSome →
    t.lookup uri = some (.aliasTo (canonicalUri ws.id)) → uri ∈ ws.aliases

end Answers

section Store
variable {t t' : WorkspaceStore Rest} {ws : Workspace Rest}
  {dispatchToPlugin : String → Option String}

/-! ## Stores with the same rows -/

theorem sameAnswers_of_lookup (h : ∀ uri, t'.lookup uri = t.lookup uri) :
    SameAnswers dispatchToPlugin t t' := by
  have hresolve : resolve dispatchToPlugin t' = resolve dispatchToPlugin t := by
    funext uri
    unfold resolve
    rw [h uri]
  have hentity : getEntity dispatchToPlugin t' = getEntity dispatchToPlugin t := by
    funext uri
    unfold getEntity
    simp only [hresolve, h]
  have huuid : workspaceByUuid dispatchToPlugin t' = workspaceByUuid dispatchToPlugin t := by
    funext uuid
    unfold workspaceByUuid
    rw [hentity]
  have hchat : uuidForChat dispatchToPlugin t' = uuidForChat dispatchToPlugin t := by
    funext key
    unfold uuidForChat
    rw [hresolve]
  refine ⟨fun uuid => by rw [huuid], fun name => ?_, fun key => ?_, ?_⟩
  · unfold uuidForWorkspaceName
    rw [hresolve]
  · unfold workspaceNameForChat nameForWorkspaceUuid
    rw [hchat, huuid]
  · have hrows : t'.tab2list.Perm t.tab2list := by
      refine (List.perm_ext_iff_of_nodup (Ets.nodup_tab2list t') (Ets.nodup_tab2list t)).mpr ?_
      rintro ⟨uri, row⟩
      rw [Ets.mem_tab2list, Ets.mem_tab2list, h uri]
    unfold listWorkspaces
    exact (List.perm_insertionSort _ _).trans
      ((hrows.filterMap _).trans (List.perm_insertionSort _ _).symm)

/-! ## A put over what is stored -/

variable {segment uri : String} {w : Workspace Rest}

theorem workspaceByUuid_of_entity
    (hrow : t.lookup (canonicalUri segment) = some (.entity "workspace" w)) :
    workspaceByUuid dispatchToPlugin t segment = some w := by
  simp [workspaceByUuid, getEntity, resolve, hrow]

/-- Where the workspace is found and its name is its own, the clearing takes away its
chats and nothing else. -/
theorem cleared_of_stored (hstored : workspaceByUuid dispatchToPlugin t ws.id = some ws)
    (hname : displaced dispatchToPlugin t ws = none) :
    cleared dispatchToPlugin t ws = dropByChatAliases t (canonicalUri ws.id) := by
  have hdisp : clearDisplaced dispatchToPlugin t ws = t := by
    unfold clearDisplaced
    rw [hname]
  have hformer : clearFormerName dispatchToPlugin t ws = t := by
    have hnow : nameForWorkspaceUuid dispatchToPlugin t ws.id = some ws.name := by
      rw [nameForWorkspaceUuid, hstored, Option.map_some]
    unfold clearFormerName
    simp only [hnow]
    exact if_neg fun hne => hne rfl
  unfold cleared
  rw [hdisp, hformer]

theorem lookup_dropByChatAliases_own {canonical : String}
    (hrow : t.lookup uri = some (.aliasTo canonical))
    (hchat : (Esr.stripPrefix "esr://localhost/workspaces/by-chat/" uri).isSome) :
    (dropByChatAliases t canonical).lookup uri = none := by
  rw [Option.eq_none_iff_forall_ne_some]
  intro row hkept
  obtain ⟨hrow', hnot⟩ := lookup_dropByChatAliases.mp hkept
  exact hnot ⟨Option.some.inj (hrow'.symm.trans hrow), hchat⟩

theorem lookup_dropByChatAliases_other {canonical : String}
    (h : ¬(t.lookup uri = some (.aliasTo canonical) ∧ (Esr.stripPrefix "esr://localhost/workspaces/by-chat/" uri).isSome)) :
    (dropByChatAliases t canonical).lookup uri = t.lookup uri := by
  refine Option.ext fun row => ?_
  rw [lookup_dropByChatAliases]
  exact ⟨And.left, fun hrow => ⟨hrow, fun ⟨he, hchat⟩ => h ⟨he ▸ hrow, hchat⟩⟩⟩

theorem lookup_put_of_stored (writeFile : String → Workspace Rest → Except String Unit)
    (h : AlreadyStored dispatchToPlugin t ws) (uri : String) :
    (workspacePut dispatchToPlugin writeFile t ws).2.lookup uri = t.lookup uri := by
  rw [lookup_put, cleared_of_stored (workspaceByUuid_of_entity h.entity) h.name]
  by_cases huri : uri = canonicalUri ws.id
  · rw [if_pos huri, huri, h.entity]
  · rw [if_neg huri]
    by_cases hown : t.lookup uri = some (.aliasTo (canonicalUri ws.id)) ∧
        (Esr.stripPrefix "esr://localhost/workspaces/by-chat/" uri).isSome
    · rw [lookup_dropByChatAliases_own hown.1 hown.2, if_pos (h.chats uri hown.2 hown.1),
        Option.none_or, hown.1]
    · rw [lookup_dropByChatAliases_other hown]
      split
      · rename_i hmem
        obtain ⟨row, hrow⟩ := Option.ne_none_iff_exists'.mp (h.aliases uri hmem)
        rw [hrow, Option.some_or]
      · rfl

/-! ## What a put shows -/

variable (writeFile : String → Workspace Rest → Except String Unit)

theorem lookup_put_entity :
    (workspacePut dispatchToPlugin writeFile t ws).2.lookup (canonicalUri ws.id) =
      some (.entity "workspace" ws) := by
  rw [lookup_put, if_pos rfl]

theorem workspaceByUuid_of_alias (hrow : t.lookup (canonicalUri segment) = some (.aliasTo uri))
    (hent : t.lookup uri = some (.entity "workspace" w)) :
    workspaceByUuid dispatchToPlugin t segment = some w := by
  simp [workspaceByUuid, getEntity, resolve, hrow, hent]

theorem workspaceByUuid_of_none (hplugin : NoPlugin dispatchToPlugin)
    (hrow : t.lookup (canonicalUri segment) = none) :
    workspaceByUuid dispatchToPlugin t segment = none := by
  have hnone : dispatchToPlugin (canonicalUri segment) = none := hplugin segment
  simp [workspaceByUuid, getEntity, resolve, hrow, hnone]

theorem displaced_of_sameAnswers
    (h : SameAnswers dispatchToPlugin t (workspacePut dispatchToPlugin writeFile t ws).2) :
    displaced dispatchToPlugin t ws = none := by
  rw [Option.eq_none_iff_forall_ne_some]
  intro oldId hdisp
  obtain ⟨hold, hne⟩ := Option.filter_eq_some_iff.mp hdisp
  have hne : oldId ≠ ws.id := by simpa using hne
  -- the row of the name leads to the namesake, and goes with it
  have hgone : (clearDisplaced dispatchToPlugin t ws).lookup (byNameUri ws.name) = none := by
    rw [Option.eq_none_iff_forall_ne_some]
    intro row hrow
    obtain ⟨hrow, hother⟩ := lookup_clearDisplaced.mp hrow
    obtain ⟨huri, hto⟩ := hother oldId hdisp
    obtain ⟨target, htarget, hstrip⟩ := Option.bind_eq_some_iff.mp hold
    have htarget' : target = canonicalUri oldId := stripPrefix_eq_some.mp hstrip
    unfold resolve at htarget
    rw [hrow] at htarget
    cases row with
    | entity kind data => exact huri ((Option.some.inj htarget).trans htarget')
    | aliasTo c => exact hto (by rw [Option.some.inj htarget, htarget'])
  have hcleared : (cleared dispatchToPlugin t ws).lookup (byNameUri ws.name) = none := by
    rw [Option.eq_none_iff_forall_ne_some]
    intro row hrow
    have hrow := (lookup_clearFormerName.mp (lookup_dropByChatAliases.mp hrow).1).1
    rw [hgone] at hrow
    cases hrow
  have hafter : uuidForWorkspaceName dispatchToPlugin
      (workspacePut dispatchToPlugin writeFile t ws).2 ws.name = some ws.id := by
    unfold uuidForWorkspaceName resolve
    rw [lookup_put]
    by_cases huri : byNameUri ws.name = canonicalUri ws.id
    · rw [if_pos huri]
      simp [huri, stripPrefix_canonicalUri]
    · have hmem : byNameUri ws.name ∈ ws.aliases := List.mem_cons_self
      rw [if_neg huri, if_pos hmem, hcleared]
      simp [stripPrefix_canonicalUri]
  rw [h.byName, hold] at hafter
  exact hne (Option.some.inj hafter)

/-- The rows of workspaces, which `list_workspaces/0` reads. -/
def workspaceRows (t : WorkspaceStore Rest) : List (String × Row String (Workspace Rest)) :=
  t.tab2list.filter fun r => (workspaceOf r).isSome

theorem length_listWorkspaces (t : WorkspaceStore Rest) :
    (listWorkspaces t).length = (workspaceRows t).length := by
  unfold listWorkspaces workspaceRows
  rw [(List.perm_insertionSort _ _).length_eq, List.length_filterMap_eq_countP,
    List.countP_eq_length_filter]

theorem mem_workspaceRows {row : Row String (Workspace Rest)} :
    (uri, row) ∈ workspaceRows t ↔ t.lookup uri = some row ∧ ∃ w, row = .entity "workspace" w := by
  unfold workspaceRows
  rw [List.mem_filter, Ets.mem_tab2list]
  refine and_congr_right fun _ => ?_
  cases row with
  | entity kind data =>
    by_cases hkind : kind = "workspace"
    · simp [workspaceOf, hkind]
    · simp [workspaceOf, hkind]
  | aliasTo c => simp [workspaceOf]

theorem lookup_put_entity_of_ne (hstored : workspaceByUuid dispatchToPlugin t ws.id = some ws)
    (hname : displaced dispatchToPlugin t ws = none) (hne : uri ≠ canonicalUri ws.id)
    {kind : String} :
    (workspacePut dispatchToPlugin writeFile t ws).2.lookup uri = some (.entity kind w) ↔
      t.lookup uri = some (.entity kind w) := by
  have hdrop : (dropByChatAliases t (canonicalUri ws.id)).lookup uri = some (.entity kind w) ↔
      t.lookup uri = some (.entity kind w) := by
    rw [lookup_dropByChatAliases]
    exact ⟨And.left, fun hrow => ⟨hrow, fun he => by cases he.1⟩⟩
  rw [lookup_put, cleared_of_stored hstored hname, if_neg hne]
  split
  · rw [← hdrop]
    cases (dropByChatAliases t (canonicalUri ws.id)).lookup uri <;> simp
  · exact hdrop

theorem entity_of_sameAnswers
    (h : SameAnswers dispatchToPlugin t (workspacePut dispatchToPlugin writeFile t ws).2) :
    t.lookup (canonicalUri ws.id) = some (.entity "workspace" ws) := by
  have hstored : workspaceByUuid dispatchToPlugin t ws.id = some ws := by
    rw [← h.byUuid]
    exact workspaceByUuid_of_entity (lookup_put_entity writeFile)
  by_contra hnone
  -- no row of a workspace is at its URI, else that row would be the one found
  have hfresh : ∀ w, t.lookup (canonicalUri ws.id) ≠ some (.entity "workspace" w) := by
    intro w hw
    have hfound : workspaceByUuid dispatchToPlugin t ws.id = some w := workspaceByUuid_of_entity hw
    rw [hstored, Option.some.injEq] at hfound
    exact hnone (hfound ▸ hw)
  have hrows : (workspaceRows (workspacePut dispatchToPlugin writeFile t ws).2).Perm
      ((canonicalUri ws.id, .entity "workspace" ws) :: workspaceRows t) := by
    refine (List.perm_ext_iff_of_nodup ((Ets.nodup_tab2list _).filter _)
      (List.nodup_cons.mpr ⟨?_, (Ets.nodup_tab2list _).filter _⟩)).mpr ?_
    · intro hmem
      exact hnone (mem_workspaceRows.mp hmem).1
    · rintro ⟨uri, row⟩
      change (uri, row) ∈ workspaceRows _ ↔ _
      rw [List.mem_cons, mem_workspaceRows, Prod.mk.injEq]
      change _ ↔ _ ∨ (uri, row) ∈ workspaceRows t
      rw [mem_workspaceRows]
      by_cases huri : uri = canonicalUri ws.id
      · subst huri
        rw [lookup_put_entity]
        constructor
        · rintro ⟨hrow, -⟩
          exact Or.inl ⟨rfl, (Option.some.inj hrow).symm⟩
        · rintro (⟨-, rfl⟩ | ⟨hrow, w, rfl⟩)
          · exact ⟨rfl, ws, rfl⟩
          · exact absurd hrow (hfresh w)
      · constructor
        · rintro ⟨hrow, w, rfl⟩
          exact Or.inr ⟨(lookup_put_entity_of_ne writeFile hstored
            (displaced_of_sameAnswers writeFile h) huri).mp hrow, w, rfl⟩
        · rintro (⟨he, -⟩ | ⟨hrow, w, rfl⟩)
          · exact absurd he huri
          · exact ⟨(lookup_put_entity_of_ne writeFile hstored
              (displaced_of_sameAnswers writeFile h) huri).mpr hrow, w, rfl⟩
  have hlength := h.listing.length_eq
  rw [length_listWorkspaces, length_listWorkspaces, hrows.length_eq, List.length_cons] at hlength
  omega

/-- **When a failed put shows.**  A put whose write fails leaves every lookup as it
was exactly where the store had the workspace already. -/
theorem sameAnswers_iff (hplugin : NoPlugin dispatchToPlugin) {reason : String}
    (_hfail : (workspacePut dispatchToPlugin writeFile t ws).1 = .error reason) :
    SameAnswers dispatchToPlugin t (workspacePut dispatchToPlugin writeFile t ws).2 ↔
      AlreadyStored dispatchToPlugin t ws := by
  refine ⟨fun h => ?_, fun h => sameAnswers_of_lookup (lookup_put_of_stored writeFile h)⟩
  have hent := entity_of_sameAnswers writeFile h
  have hname := displaced_of_sameAnswers writeFile h
  have hcleared : cleared dispatchToPlugin t ws = dropByChatAliases t (canonicalUri ws.id) :=
    cleared_of_stored (workspaceByUuid_of_entity hent) hname
  have hafter : (workspacePut dispatchToPlugin writeFile t ws).2.lookup (canonicalUri ws.id) =
      some (.entity "workspace" ws) := lookup_put_entity writeFile
  refine ⟨hent, ?_, hname, ?_⟩
  · -- an alias that is made leads to the workspace where nothing was found
    intro uri hmem hnone
    obtain ⟨segment, hsegment, -⟩ := (Workspace.isAlias hmem).stripPrefix
    obtain rfl : uri = canonicalUri segment := stripPrefix_eq_some.mp hsegment
    have hne : canonicalUri segment ≠ canonicalUri ws.id := by
      intro he
      rw [he, hent] at hnone
      cases hnone
    have hmade : (workspacePut dispatchToPlugin writeFile t ws).2.lookup (canonicalUri segment) =
        some (.aliasTo (canonicalUri ws.id)) := by
      rw [lookup_put, if_neg hne, if_pos hmem, hcleared,
        lookup_dropByChatAliases_other (by simp [hnone]), hnone, Option.none_or]
    have hfound : workspaceByUuid dispatchToPlugin
        (workspacePut dispatchToPlugin writeFile t ws).2 segment = some ws :=
      workspaceByUuid_of_alias hmade hafter
    rw [h.byUuid, workspaceByUuid_of_none hplugin hnone] at hfound
    cases hfound
  · -- an alias that goes led to the workspace
    intro uri hchat hrow
    by_contra hnot
    obtain ⟨rest, hrest⟩ := Option.isSome_iff_exists.mp hchat
    obtain ⟨segment, rfl⟩ : ∃ segment, uri = canonicalUri segment :=
      ⟨"by-chat/" ++ rest, (stripPrefix_eq_some.mp hrest).trans (byChatUri_head rest)⟩
    have hne : canonicalUri segment ≠ canonicalUri ws.id := by
      intro he
      rw [he, hent] at hrow
      cases hrow
    have hgone : (workspacePut dispatchToPlugin writeFile t ws).2.lookup (canonicalUri segment) =
        none := by
      rw [lookup_put, if_neg hne, if_neg hnot, hcleared, lookup_dropByChatAliases_own hrow hchat]
    have hlost := workspaceByUuid_of_none hplugin hgone
    rw [h.byUuid, workspaceByUuid_of_alias hrow hent] at hlost
    cases hlost

theorem alreadyStored_put (h : WellFormed t) (hplugin : NoPlugin dispatchToPlugin)
    (hid : CleanId ws.id) :
    AlreadyStored dispatchToPlugin (workspacePut dispatchToPlugin writeFile t ws).2 ws := by
  refine ⟨lookup_put_entity writeFile, ?_, ?_, ?_⟩
  · intro uri hmem
    rw [lookup_put, if_pos hmem]
    split
    · simp
    · cases (cleared dispatchToPlugin t ws).lookup uri <;> simp
  · -- the name is its own, or was that of the workspace displaced
    have hrow := lookup_put_of_yields h hplugin writeFile hid
      (List.mem_cons_self : byNameUri ws.name ∈ ws.aliases) fun row hrow => by
        obtain ⟨w, _, rfl, _, _⟩ := h.aliases _ row (Or.inl ⟨_, rfl⟩) hrow
        by_cases hsame : w.id = ws.id
        · exact Or.inl (by rw [hsame])
        · exact Or.inr ⟨w.id, (h.displaced_eq_some hplugin).mpr ⟨hrow, hsame⟩, rfl⟩
    rw [Option.eq_none_iff_forall_ne_some]
    intro id hdisp
    obtain ⟨hrow', hne⟩ :=
      ((wellFormed_workspacePut h hplugin writeFile hid).displaced_eq_some hplugin).mp hdisp
    rw [hrow, Option.some.injEq, Row.aliasTo.injEq] at hrow'
    exact hne (canonicalUri_injective hrow').symm
  · intro uri hchat hrow
    by_contra hnot
    have hne : uri ≠ canonicalUri ws.id := by
      rintro rfl
      rw [lookup_put_entity] at hrow
      cases hrow
    rw [lookup_put, if_neg hne, if_neg hnot] at hrow
    exact (lookup_dropByChatAliases.mp hrow).2 ⟨rfl, hchat⟩

end Store

/-! ## A full disk -/

section FullDisk
open WorkspaceStruct

/-- A disk that takes every file, or one that is full. -/
def diskOf (full : Bool) : JsonWriter.Disk where
  mkdirP := fun _ => .ok ()
  encode := fun _ => .ok "{}"
  write := fun _ _ => if full then .error "enospc" else .ok ()
  rename := fun _ _ => .ok ()

/-- A workspace of one folder and one chat, in the runtime's own directory. -/
def webWorkspace : Struct where
  id := "w1"
  name := "web"
  owner := .str "alice"
  folders := [⟨.str "/srv/web", .str "web"⟩]
  agent := .str "cc"
  settings := .map []
  env := .map []
  chats := [⟨.str "oc_dev", .str "cli_app", some (.str "dm")⟩]
  transient := .bool false
  location := some (.esrBound "/srv/web")

/-- Written again on a disk that is full, the workspace is still what was found. -/
theorem sameAnswers_again :
    SameAnswers (fun _ => none)
      (WorkspaceStruct.workspacePut (fun _ => none) (diskOf false) Ets.empty webWorkspace).2
      (WorkspaceStruct.workspacePut (fun _ => none) (diskOf true)
        (WorkspaceStruct.workspacePut (fun _ => none) (diskOf false) Ets.empty webWorkspace).2
        webWorkspace).2 := by
  have hplugin : NoPlugin fun _ => none := fun _ => rfl
  exact (sameAnswers_iff _ hplugin rfl).mpr
    (alreadyStored_put _ wellFormed_empty hplugin (by decide))

/-- Written for the first time on a disk that is full, the workspace has its name
although the put is an error. -/
theorem not_sameAnswers_new :
    (WorkspaceStruct.workspacePut (fun _ => none) (diskOf true) Ets.empty webWorkspace).1 =
        .error "enospc" ∧
      ¬ SameAnswers (fun _ => none) Ets.empty
        (WorkspaceStruct.workspacePut (fun _ => none) (diskOf true) Ets.empty webWorkspace).2 := by
  refine ⟨rfl, fun h => ?_⟩
  have hfound := h.byUuid "w1"
  have hput : workspaceByUuid (fun _ => none)
      (WorkspaceStruct.workspacePut (fun _ => none) (diskOf true) Ets.empty webWorkspace).2 "w1" =
      some webWorkspace.row := workspaceByUuid_of_entity (lookup_put_entity _)
  rw [hput] at hfound
  cases hfound

end FullDisk
end WorkspaceUris
end Esr
