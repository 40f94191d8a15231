import Esr.UriStore
import Esr.Runs
import Esr.Strings

/-! # The workspaces' part of the URI facade

A workspace has an entity row, an alias for its name and one for each of its
chats:

    esr://localhost/workspaces/<uuid>
    esr://localhost/workspaces/by-name/<name>
    esr://localhost/workspaces/by-chat/<chat id>/<app id>

`workspacePut` first makes room for the rows it writes: it removes the workspace
that has the name under another uuid, the alias of the workspace's own former name
and the aliases of its former chats.  It then writes its rows, and drops the
answers of the aliases it puts.

`wellFormed_reaches`: in every state that the facade and the loader at boot can
reach, an alias is one that the workspace it names has.
-/
namespace Esr
namespace WorkspaceUris
open UriStore

/-- `esr://localhost/workspaces/<uuid>`. -/
def canonicalUri (uuid : String) : String := "esr://localhost/workspaces/" ++ uuid

/-- `esr://localhost/workspaces/by-name/<name>`. -/
def byNameUri (name : String) : String := "esr://localhost/workspaces/by-name/" ++ name

/-- `esr://localhost/workspaces/by-chat/<chat id>/<app id>`. -/
def byChatUri (key : String × String) : String :=
  "esr://localhost/workspaces/by-chat/" ++ key.1 ++ "/" ++ key.2

/-- Where the workspace.json is. -/
inductive Location where
  | esrBound (dir : String)
  | repoBound (repo : String)
  deriving DecidableEq

/-- An entry of `chats`; an id that is not a binary is `none`. -/
structure Chat where
  chatId : Option String
  appId : Option String
  deriving DecidableEq

/-- `Esr.Resource.Workspace.Struct`, with the fields that the facade does not look
at in `rest`. -/
structure Workspace (Rest : Type) where
  id : String
  name : String
  folders : List String
  chats : List Chat
  location : Option Location
  rest : Rest
  deriving DecidableEq

variable {Rest : Type}

namespace Workspace

/-- The chats that get an alias. -/
def chatKeys (ws : Workspace Rest) : List (String × String) :=
  ws.chats.filterMap fun chat => do
    let cid ← chat.chatId
    let aid ← chat.appId
    some (cid, aid)

/-- The aliases of a workspace, in the order they are put. -/
def aliases (ws : Workspace Rest) : List String :=
  byNameUri ws.name :: ws.chatKeys.map byChatUri

end Workspace

/-- The rows of the store that the facade reads and writes. -/
abbrev WorkspaceStore (Rest : Type) := Store String (Workspace Rest)

section Facade

-- no plugin under src/ handles URIs of workspaces, but the facade asks all the same
variable (dispatchToPlugin : String → Option String)

/-- `uuid_for_workspace_name/1`. -/
def uuidForWorkspaceName (t : WorkspaceStore Rest) (name : String) : Option String :=
  (resolve dispatchToPlugin t (byNameUri name)).bind (stripPrefix "esr://localhost/workspaces/")

/-- `workspace_by_uuid/1`. -/
def workspaceByUuid (t : WorkspaceStore Rest) (uuid : String) : Option (Workspace Rest) :=
  match getEntity dispatchToPlugin t (canonicalUri uuid) with
  | some (kind, data) => if kind = "workspace" then some data else none
  | none => none

/-- `name_for_workspace_uuid/1`. -/
def nameForWorkspaceUuid (t : WorkspaceStore Rest) (uuid : String) : Option String :=
  (workspaceByUuid dispatchToPlugin t uuid).map Workspace.name

/-- The workspace that `workspace_name_for_chat/2` finds bound to a chat. -/
def uuidForChat (t : WorkspaceStore Rest) (key : String × String) : Option String :=
  (resolve dispatchToPlugin t (byChatUri key)).bind (stripPrefix "esr://localhost/workspaces/")

/-- `workspace_name_for_chat/2`. -/
def workspaceNameForChat (t : WorkspaceStore Rest) (key : String × String) : Option String :=
  (uuidForChat dispatchToPlugin t key).bind (nameForWorkspaceUuid dispatchToPlugin t)

/-- `workspace_delete_by_id/1`. -/
def workspaceDeleteById (t : WorkspaceStore Rest) (uuid : String) : WorkspaceStore Rest :=
  delete (Ets.deleteEach t (aliasesOf t (canonicalUri uuid))) (canonicalUri uuid)

/-- `drop_by_chat_aliases/1`. -/
def dropByChatAliases (t : WorkspaceStore Rest) (canonical : String) : WorkspaceStore Rest :=
  Ets.deleteEach t ((aliasesOf t canonical).filter fun uri =>
    (stripPrefix "esr://localhost/workspaces/by-chat/" uri).isSome)

/-- The workspace that `workspace_put/1` removes: another one under the same name. -/
def displaced (t : WorkspaceStore Rest) (ws : Workspace Rest) : Option String :=
  (uuidForWorkspaceName dispatchToPlugin t ws.name).filter fun oldId => oldId ≠ ws.id

/-- The first `case` of `workspace_put/1`. -/
def clearDisplaced (t : WorkspaceStore Rest) (ws : Workspace Rest) : WorkspaceStore Rest :=
  match displaced dispatchToPlugin t ws with
  | some oldId => workspaceDeleteById t oldId
  | none => t

/-- The second `case` of `workspace_put/1`. -/
def clearFormerName (t : WorkspaceStore Rest) (ws : Workspace Rest) : WorkspaceStore Rest :=
  match nameForWorkspaceUuid dispatchToPlugin t ws.id with
  | some oldName => if oldName ≠ ws.name then delete t (byNameUri oldName) else t
  | none => t

/-- The rows of a workspace, as `workspace_put/1` and the loader write them. -/
def writeRows (t : WorkspaceStore Rest) (ws : Workspace Rest) : WorkspaceStore Rest :=
  putAliases (putEntity t (canonicalUri ws.id) "workspace" ws) (canonicalUri ws.id) ws.aliases

/-- `write_workspace_to_disk/1`.  `JsonWriter.write/2` refuses a workspace without
folders; `writeFile` is what the file system says to the rest of it. -/
def writeWorkspaceToDisk (writeFile : String → Workspace Rest → Except String Unit)
    (ws : Workspace Rest) : Except String Unit :=
  let write (path : String) : Except String Unit :=
    if ws.folders = [] then .error "empty_folders" else writeFile path ws
  match ws.location with
  | some (.esrBound dir) => write (dir ++ "/workspace.json")
  | some (.repoBound repo) => write (repo ++ "/.esr/workspace.json")
  | none => .ok ()

/-- `workspace_put/1`. -/
def workspacePut (writeFile : String → Workspace Rest → Except String Unit)
    (t : WorkspaceStore Rest) (ws : Workspace Rest) : Except String Unit × WorkspaceStore Rest :=
  let t := clearDisplaced dispatchToPlugin t ws
  let t := clearFormerName dispatchToPlugin t ws
  let t := dropByChatAliases t (canonicalUri ws.id)
  (writeWorkspaceToDisk writeFile ws, writeRows t ws)

/-- `populate_uri_store/0`, for the workspaces found on disk. -/
def populateUriStore (t : WorkspaceStore Rest) (all : List (Workspace Rest)) :
    WorkspaceStore Rest :=
  all.foldl writeRows (deleteAllByKind t "workspace")

end Facade

/-! ## The URIs -/

/-- Uuids have no slash. -/
def CleanId (id : String) : Prop := '/' ∉ id.toList

instance (id : String) : Decidable (CleanId id) := inferInstanceAs (Decidable (¬_))

/-- A URI that a name or a chat is looked up under. -/
def IsAlias (uri : String) : Prop :=
  (∃ name, uri = byNameUri name) ∨ ∃ key, uri = byChatUri key

theorem stripPrefix_canonicalUri (id : String) :
    stripPrefix "esr://localhost/workspaces/" (canonicalUri id) = some id :=
  stripPrefix_eq_some.mpr rfl

theorem canonicalUri_injective {id id' : String} (h : canonicalUri id = canonicalUri id') :
    id = id' := by
  have hs := stripPrefix_canonicalUri id
  rw [h, stripPrefix_canonicalUri] at hs
  exact (Option.some.inj hs).symm

theorem byNameUri_eq (name : String) :
    byNameUri name = "esr://localhost/workspaces/" ++ ("by-name/" ++ name) := by
  have hlit : "esr://localhost/workspaces/by-name/" =
      "esr://localhost/workspaces/" ++ "by-name/" := rfl
  have happ := congrArg (fun p => p ++ name) hlit
  exact happ.trans String.append_assoc

theorem byChatUri_head (rest : String) :
    "esr://localhost/workspaces/by-chat/" ++ rest =
      "esr://localhost/workspaces/" ++ ("by-chat/" ++ rest) := by
  have hlit : "esr://localhost/workspaces/by-chat/" =
      "esr://localhost/workspaces/" ++ "by-chat/" := rfl
  have happ := congrArg (fun p => p ++ rest) hlit
  exact happ.trans String.append_assoc

theorem byChatUri_eq (key : String × String) :
    byChatUri key = "esr://localhost/workspaces/by-chat/" ++ (key.1 ++ "/" ++ key.2) := by
  have hgroup : ∀ p s : String, p ++ key.1 ++ s ++ key.2 = p ++ (key.1 ++ s ++ key.2) :=
    fun p s => by simp only [String.append_assoc]
  exact hgroup _ _

theorem byNameUri_injective {name name' : String} (h : byNameUri name = byNameUri name') :
    name = name' := by
  have hstrip : ∀ n, stripPrefix "esr://localhost/workspaces/by-name/" (byNameUri n) = some n :=
    fun n => stripPrefix_eq_some.mpr rfl
  have hs := hstrip name
  rw [h, hstrip] at hs
  exact (Option.some.inj hs).symm

theorem byChatUri_unique {key key' : String × String} (hcid : '/' ∉ key'.1.toList)
    (haid : '/' ∉ key'.2.toList) (h : byChatUri key = byChatUri key') : key = key' := by
  have hstrip : ∀ k, stripPrefix "esr://localhost/workspaces/by-chat/" (byChatUri k) = _ :=
    fun k => stripPrefix_eq_some.mpr (byChatUri_eq k)
  have hs := hstrip key
  rw [h, hstrip, Option.some.injEq, ← String.toList_inj] at hs
  simp only [String.toList_append, List.append_assoc] at hs
  obtain ⟨hc, ha⟩ := cut_unique hcid haid hs.symm
  exact Prod.ext (String.toList_inj.mp hc) (String.toList_inj.mp ha)

variable {uri : String} {ws : Workspace Rest}

theorem IsAlias.stripPrefix (h : IsAlias uri) :
    ∃ rest, Esr.stripPrefix "esr://localhost/workspaces/" uri = some rest ∧
      '/' ∈ rest.toList := by
  rcases h with ⟨name, rfl⟩ | ⟨key, rfl⟩
  · refine ⟨_, stripPrefix_eq_some.mpr (byNameUri_eq name), ?_⟩
    rw [String.toList_append]
    exact List.mem_append_left _ (by decide)
  · refine ⟨_, stripPrefix_eq_some.mpr ((byChatUri_eq key).trans (byChatUri_head _)), ?_⟩
    rw [String.toList_append]
    exact List.mem_append_left _ (by decide)

theorem IsAlias.ne_canonicalUri {id : String} (h : IsAlias uri) (hid : CleanId id) :
    uri ≠ canonicalUri id := by
  intro he
  obtain ⟨rest, hrest, hslash⟩ := h.stripPrefix
  rw [he, stripPrefix_canonicalUri, Option.some.injEq] at hrest
  rw [← hrest] at hslash
  exact hid hslash

theorem byNameUri_ne_byChat (name rest : String) :
    byNameUri name ≠ "esr://localhost/workspaces/by-chat/" ++ rest := by
  intro h
  have hs : Esr.stripPrefix "esr://localhost/workspaces/" (byNameUri name) = _ :=
    stripPrefix_eq_some.mpr (byNameUri_eq name)
  rw [h, stripPrefix_eq_some.mpr (byChatUri_head rest), Option.some.injEq] at hs
  have hfirst : ∀ p r : String, p.toList.length = 8 → (p ++ r).toList.take 8 = p.toList := by
    intro p r hp
    rw [String.toList_append, ← hp, List.take_left]
  have htake := congrArg (fun s => s.toList.take 8) hs
  rw [hfirst _ _ (by decide), hfirst _ _ (by decide)] at htake
  exact absurd htake (by decide)

theorem byNameUri_ne_byChatUri (name : String) (key : String × String) :
    byNameUri name ≠ byChatUri key := by
  rw [byChatUri_eq]
  exact byNameUri_ne_byChat name _

theorem Workspace.isAlias (h : uri ∈ ws.aliases) : IsAlias uri := by
  rcases List.mem_cons.mp h with rfl | h
  · exact Or.inl ⟨_, rfl⟩
  · obtain ⟨key, _, rfl⟩ := List.mem_map.mp h
    exact Or.inr ⟨key, rfl⟩

theorem Workspace.byNameUri_mem_aliases {name : String} :
    byNameUri name ∈ ws.aliases ↔ name = ws.name := by
  constructor
  · intro h
    rcases List.mem_cons.mp h with he | h
    · exact byNameUri_injective he
    · obtain ⟨key, _, he⟩ := List.mem_map.mp h
      exact absurd he.symm (byNameUri_ne_byChatUri name key)
  · intro h
    rw [h]
    exact List.mem_cons_self

theorem Workspace.byChatUri_mem_aliases {key : String × String} :
    byChatUri key ∈ ws.aliases ↔ byChatUri key ∈ ws.chatKeys.map byChatUri := by
  constructor
  · intro h
    rcases List.mem_cons.mp h with he | h
    · exact absurd he.symm (byNameUri_ne_byChatUri ws.name key)
    · exact h
  · exact List.mem_cons_of_mem _

/-! ## Well-formed stores -/

/-- Entity rows are under the id of their workspace, and a name or a chat is aliased
to a workspace that has it. -/
structure WellFormed (t : WorkspaceStore Rest) : Prop where
  entities : ∀ id row, CleanId id → t.lookup (canonicalUri id) = some row →
    ∃ ws, row = .entity "workspace" ws ∧ ws.id = id
  aliases : ∀ uri row, IsAlias uri → t.lookup uri = some row →
    ∃ ws, CleanId ws.id ∧ row = .aliasTo (canonicalUri ws.id) ∧
      t.lookup (canonicalUri ws.id) = some (.entity "workspace" ws) ∧ uri ∈ ws.aliases

/-- No plugin handles URIs of workspaces. -/
def NoPlugin (dispatchToPlugin : String → Option String) : Prop :=
  ∀ path, dispatchToPlugin ("esr://localhost/workspaces/" ++ path) = none

section Lookups
variable {t t' : WorkspaceStore Rest} {ws : Workspace Rest}
  {dispatchToPlugin : String → Option String}

variable {uri id : String} {row : Row String (Workspace Rest)} {w : Workspace Rest}

theorem WellFormed.resolve_alias (h : WellFormed t) (hplugin : NoPlugin dispatchToPlugin)
    (huri : IsAlias uri) :
    (resolve dispatchToPlugin t uri).bind
        (Esr.stripPrefix "esr://localhost/workspaces/") = some id ↔
      t.lookup uri = some (.aliasTo (canonicalUri id)) := by
  unfold resolve
  cases hrow : t.lookup uri with
  | none =>
    obtain ⟨rest, hrest, _⟩ := huri.stripPrefix
    rw [stripPrefix_eq_some.mp hrest, hplugin rest]
    simp
  | some row =>
    obtain ⟨ws, _, rfl, _, _⟩ := h.aliases uri row huri hrow
    simp only [Option.bind_some, stripPrefix_canonicalUri, Option.some.injEq, Row.aliasTo.injEq]
    exact ⟨fun he => by rw [he], canonicalUri_injective⟩

theorem WellFormed.uuidForWorkspaceName (h : WellFormed t) (hplugin : NoPlugin dispatchToPlugin)
    {name : String} :
    uuidForWorkspaceName dispatchToPlugin t name = some id ↔
      t.lookup (byNameUri name) = some (.aliasTo (canonicalUri id)) :=
  h.resolve_alias hplugin (Or.inl ⟨name, rfl⟩)

theorem WellFormed.uuidForChat (h : WellFormed t) (hplugin : NoPlugin dispatchToPlugin)
    {key : String × String} :
    uuidForChat dispatchToPlugin t key = some id ↔
      t.lookup (byChatUri key) = some (.aliasTo (canonicalUri id)) :=
  h.resolve_alias hplugin (Or.inr ⟨key, rfl⟩)

theorem WellFormed.workspaceByUuid (h : WellFormed t) (hplugin : NoPlugin dispatchToPlugin)
    (hid : CleanId id) :
    workspaceByUuid dispatchToPlugin t id = some ws ↔
      t.lookup (canonicalUri id) = some (.entity "workspace" ws) := by
  unfold WorkspaceUris.workspaceByUuid getEntity resolve
  cases hrow : t.lookup (canonicalUri id) with
  | none =>
    rw [show dispatchToPlugin (canonicalUri id) = none from hplugin id]
    simp
  | some row =>
    obtain ⟨ws', rfl, _⟩ := h.entities id row hid hrow
    simp [hrow]

/-! ## Writes keep the store well-formed -/

theorem WellFormed.removeAliases (h : WellFormed t)
    (hsub : ∀ uri row, t'.lookup uri = some row → t.lookup uri = some row)
    (hkeep : ∀ id, CleanId id → t'.lookup (canonicalUri id) = t.lookup (canonicalUri id)) :
    WellFormed t' := by
  constructor
  · intro id row hid hrow
    exact h.entities id row hid (hsub _ _ hrow)
  · intro uri row huri hrow
    obtain ⟨ws, hid, he, hent, hmem⟩ := h.aliases uri row huri (hsub _ _ hrow)
    exact ⟨ws, hid, he, (hkeep _ hid).trans hent, hmem⟩

theorem lookup_workspaceDeleteById :
    (workspaceDeleteById t id).lookup uri = some row ↔
      uri ≠ canonicalUri id ∧ row ≠ .aliasTo (canonicalUri id) ∧ t.lookup uri = some row := by
  unfold workspaceDeleteById delete
  rw [Ets.lookup_delete, Ets.lookup_deleteEach]
  by_cases huri : uri = canonicalUri id
  · simp [huri]
  · rw [if_neg huri]
    split
    · rename_i hmem
      rw [mem_aliasesOf] at hmem
      constructor
      · intro hrow
        cases hrow
      · rintro ⟨_, hne, hrow⟩
        exact absurd (Option.some.inj (hrow.symm.trans hmem)) hne
    · rename_i hmem
      refine ⟨fun hrow => ⟨huri, ?_, hrow⟩, fun hrow => hrow.2.2⟩
      intro he
      exact hmem (mem_aliasesOf.mpr (he ▸ hrow))

theorem wellFormed_deleteById (h : WellFormed t) (id : String) :
    WellFormed (workspaceDeleteById t id) := by
  constructor
  · intro id' row hid' hrow
    exact h.entities id' row hid' (lookup_workspaceDeleteById.mp hrow).2.2
  · intro uri row huri hrow
    obtain ⟨_, hne, hrow⟩ := lookup_workspaceDeleteById.mp hrow
    obtain ⟨ws, hid, he, hent, hmem⟩ := h.aliases uri row huri hrow
    refine ⟨ws, hid, he, lookup_workspaceDeleteById.mpr ⟨?_, by simp, hent⟩, hmem⟩
    intro hsame
    exact hne (hsame ▸ he)

theorem lookup_dropByChatAliases {canonical : String} :
    (dropByChatAliases t canonical).lookup uri = some row ↔
      t.lookup uri = some row ∧ ¬(row = .aliasTo canonical ∧
        (Esr.stripPrefix "esr://localhost/workspaces/by-chat/" uri).isSome) := by
  unfold dropByChatAliases
  rw [Ets.lookup_deleteEach]
  have hmem : uri ∈ (aliasesOf t canonical).filter (fun uri =>
      (Esr.stripPrefix "esr://localhost/workspaces/by-chat/" uri).isSome) ↔
      t.lookup uri = some (.aliasTo canonical) ∧
        (Esr.stripPrefix "esr://localhost/workspaces/by-chat/" uri).isSome := by
    rw [List.mem_filter, mem_aliasesOf]
  split
  · rename_i hin
    obtain ⟨halias, hprefix⟩ := hmem.mp hin
    constructor
    · intro hrow
      cases hrow
    · rintro ⟨hrow, hnot⟩
      exact absurd ⟨Option.some.inj (hrow.symm.trans halias), hprefix⟩ hnot
  · rename_i hin
    refine ⟨fun hrow => ⟨hrow, ?_⟩, And.left⟩
    rintro ⟨he, hprefix⟩
    exact hin (hmem.mpr ⟨he ▸ hrow, hprefix⟩)

theorem lookup_writeRows (hid : CleanId ws.id) (uri : String) :
    (writeRows t ws).lookup uri =
      if uri ∈ ws.aliases then (t.lookup uri).or (some (.aliasTo (canonicalUri ws.id)))
      else if uri = canonicalUri ws.id then some (.entity "workspace" ws) else t.lookup uri := by
  have hent : IsEntity (putEntity t (canonicalUri ws.id) "workspace" ws) (canonicalUri ws.id) := by
    refine ⟨"workspace", ws, ?_⟩
    rw [putEntity, Ets.lookup_insert_self]
  unfold writeRows
  rw [lookup_putAliases hent, putEntity, Ets.lookup_insert]
  split
  · rename_i hmem
    rw [if_neg (Workspace.isAlias hmem |>.ne_canonicalUri hid)]
  · rfl

theorem wellFormed_writeRows (h : WellFormed t) (hid : CleanId ws.id)
    (hown : ∀ uri, IsAlias uri → t.lookup uri = some (.aliasTo (canonicalUri ws.id)) →
      uri ∈ ws.aliases) : WellFormed (writeRows t ws) := by
  have hcanonical : ∀ id, CleanId id → (writeRows t ws).lookup (canonicalUri id) =
      if id = ws.id then some (.entity "workspace" ws) else t.lookup (canonicalUri id) := by
    intro id hclean
    rw [lookup_writeRows hid,
      if_neg fun hmem => (Workspace.isAlias hmem).ne_canonicalUri hclean rfl]
    by_cases he : id = ws.id
    · rw [if_pos (congrArg canonicalUri he), if_pos he]
    · rw [if_neg fun hc => he (canonicalUri_injective hc), if_neg he]
  -- an alias that was there before is right about its workspace still
  have hold : ∀ uri row, IsAlias uri → t.lookup uri = some row →
      ∃ w, CleanId w.id ∧ row = .aliasTo (canonicalUri w.id) ∧
        (writeRows t ws).lookup (canonicalUri w.id) = some (.entity "workspace" w) ∧
        uri ∈ w.aliases := by
    intro uri row huri hrow
    obtain ⟨w, hw, he, hent, hmem⟩ := h.aliases uri row huri hrow
    by_cases hsame : w.id = ws.id
    · refine ⟨ws, hid, hsame ▸ he, ?_, hown uri huri (by rw [hrow, he, hsame])⟩
      rw [hcanonical _ hid, if_pos rfl]
    · refine ⟨w, hw, he, ?_, hmem⟩
      rw [hcanonical _ hw, if_neg hsame]
      exact hent
  constructor
  · intro id row hclean hrow
    rw [hcanonical id hclean] at hrow
    split at hrow
    · rename_i he
      exact ⟨ws, (Option.some.inj hrow).symm, he.symm⟩
    · exact h.entities id row hclean hrow
  · intro uri row huri hrow
    rw [lookup_writeRows hid] at hrow
    split at hrow
    · rename_i hmem
      cases hbefore : t.lookup uri with
      | some r =>
        rw [hbefore, Option.some_or] at hrow
        obtain rfl := Option.some.inj hrow
        exact hold uri _ huri hbefore
      | none =>
        rw [hbefore, Option.none_or] at hrow
        refine ⟨ws, hid, (Option.some.inj hrow).symm, ?_, hmem⟩
        rw [hcanonical _ hid, if_pos rfl]
    · rw [if_neg (huri.ne_canonicalUri hid)] at hrow
      exact hold uri row huri hrow

/-! ## What the facade clears before it writes -/

theorem WellFormed.displaced_eq_some (h : WellFormed t) (hplugin : NoPlugin dispatchToPlugin) :
    displaced dispatchToPlugin t ws = some id ↔
      t.lookup (byNameUri ws.name) = some (.aliasTo (canonicalUri id)) ∧ id ≠ ws.id := by
  unfold displaced
  rw [Option.filter_eq_some_iff, h.uuidForWorkspaceName hplugin, decide_eq_true_eq]

theorem lookup_clearDisplaced :
    (clearDisplaced dispatchToPlugin t ws).lookup uri = some row ↔
      t.lookup uri = some row ∧ ∀ id, displaced dispatchToPlugin t ws = some id →
        uri ≠ canonicalUri id ∧ row ≠ .aliasTo (canonicalUri id) := by
  unfold clearDisplaced
  cases displaced dispatchToPlugin t ws with
  | none => simp
  | some id =>
    simp only [lookup_workspaceDeleteById, Option.some.injEq, forall_eq']
    tauto

theorem wellFormed_clearDisplaced (h : WellFormed t) :
    WellFormed (clearDisplaced dispatchToPlugin t ws) := by
  unfold clearDisplaced
  split
  · exact wellFormed_deleteById h _
  · exact h

/-- The store that `workspace_put/1` writes its rows into. -/
def cleared (dispatchToPlugin : String → Option String) (t : WorkspaceStore Rest)
    (ws : Workspace Rest) : WorkspaceStore Rest :=
  dropByChatAliases
    (clearFormerName dispatchToPlugin (clearDisplaced dispatchToPlugin t ws) ws)
    (canonicalUri ws.id)

/-- What a row has to be to be left when `workspace_put/1` has cleared: not of the
workspace displaced, not the former name, not a former chat. -/
structure Survives (dispatchToPlugin : String → Option String) (t : WorkspaceStore Rest)
    (ws : Workspace Rest) (uri : String) (row : Row String (Workspace Rest)) : Prop where
  displaced : ∀ id, displaced dispatchToPlugin t ws = some id →
    uri ≠ canonicalUri id ∧ row ≠ .aliasTo (canonicalUri id)
  formerName : ∀ old, WorkspaceUris.workspaceByUuid dispatchToPlugin t ws.id = some old →
    old.name ≠ ws.name → uri ≠ byNameUri old.name
  formerChat : row = .aliasTo (canonicalUri ws.id) →
    Esr.stripPrefix "esr://localhost/workspaces/by-chat/" uri = none

theorem lookup_clearFormerName :
    (clearFormerName dispatchToPlugin t ws).lookup uri = some row ↔
      t.lookup uri = some row ∧
        ∀ old, WorkspaceUris.workspaceByUuid dispatchToPlugin t ws.id = some old →
          old.name ≠ ws.name → uri ≠ byNameUri old.name := by
  unfold clearFormerName nameForWorkspaceUuid
  cases WorkspaceUris.workspaceByUuid dispatchToPlugin t ws.id with
  | none => simp
  | some old =>
    simp only [Option.map_some, Option.some.injEq, forall_eq']
    by_cases hname : old.name = ws.name
    · simp [hname]
    · rw [if_pos hname, delete, Ets.lookup_delete]
      by_cases huri : uri = byNameUri old.name
      · simp [huri, hname]
      · simp [huri]

theorem workspaceByUuid_clearDisplaced (h : WellFormed t) (hplugin : NoPlugin dispatchToPlugin)
    (hid : CleanId ws.id) :
    WorkspaceUris.workspaceByUuid dispatchToPlugin (clearDisplaced dispatchToPlugin t ws) ws.id =
        some w ↔
      WorkspaceUris.workspaceByUuid dispatchToPlugin t ws.id = some w := by
  rw [(wellFormed_clearDisplaced h).workspaceByUuid hplugin hid, h.workspaceByUuid hplugin hid,
    lookup_clearDisplaced]
  refine ⟨And.left, fun hrow => ⟨hrow, ?_⟩⟩
  intro id hdisp
  refine ⟨fun he => ?_, by simp⟩
  exact ((h.displaced_eq_some hplugin).mp hdisp).2 (canonicalUri_injective he).symm

theorem lookup_cleared (h : WellFormed t) (hplugin : NoPlugin dispatchToPlugin)
    (hid : CleanId ws.id) :
    (cleared dispatchToPlugin t ws).lookup uri = some row ↔
      t.lookup uri = some row ∧ Survives dispatchToPlugin t ws uri row := by
  unfold cleared
  rw [lookup_dropByChatAliases, lookup_clearFormerName, lookup_clearDisplaced]
  simp only [workspaceByUuid_clearDisplaced h hplugin hid]
  constructor
  · rintro ⟨⟨⟨hrow, hdisp⟩, hname⟩, hchat⟩
    refine ⟨hrow, hdisp, hname, ?_⟩
    intro he
    rw [Option.eq_none_iff_forall_ne_some]
    intro rest hrest
    exact hchat ⟨he, by rw [hrest]; rfl⟩
  · rintro ⟨hrow, hs⟩
    refine ⟨⟨⟨hrow, hs.displaced⟩, hs.formerName⟩, ?_⟩
    rintro ⟨he, hprefix⟩
    rw [hs.formerChat he] at hprefix
    cases hprefix

theorem wellFormed_cleared (h : WellFormed t) : WellFormed (cleared dispatchToPlugin t ws) := by
  have h1 : WellFormed (clearFormerName dispatchToPlugin (clearDisplaced dispatchToPlugin t ws) ws)
      := by
    refine (wellFormed_clearDisplaced h).removeAliases
      (fun uri row hrow => (lookup_clearFormerName.mp hrow).1) ?_
    intro id hclean
    refine Option.ext fun row => ?_
    rw [lookup_clearFormerName]
    refine ⟨And.left, fun hrow => ⟨hrow, fun old _ _ he => ?_⟩⟩
    exact (show IsAlias (byNameUri old.name) from Or.inl ⟨_, rfl⟩).ne_canonicalUri hclean he.symm
  unfold cleared
  refine h1.removeAliases (fun uri row hrow => (lookup_dropByChatAliases.mp hrow).1) ?_
  intro id hclean
  refine Option.ext fun row => ?_
  rw [lookup_dropByChatAliases]
  refine ⟨And.left, fun hrow => ⟨hrow, fun ⟨he, _⟩ => ?_⟩⟩
  obtain ⟨w, hent, _⟩ := h1.entities id row hclean hrow
  rw [hent] at he
  cases he

theorem own_alias_of_cleared (h : WellFormed t) (hplugin : NoPlugin dispatchToPlugin)
    (hid : CleanId ws.id) (huri : IsAlias uri)
    (hrow : (cleared dispatchToPlugin t ws).lookup uri = some (.aliasTo (canonicalUri ws.id))) :
    uri ∈ ws.aliases := by
  obtain ⟨hrow, hs⟩ := (lookup_cleared h hplugin hid).mp hrow
  obtain ⟨w, _, he, hent, hmem⟩ := h.aliases uri _ huri hrow
  have hwid : ws.id = w.id := canonicalUri_injective (Row.aliasTo.inj he)
  rcases List.mem_cons.mp hmem with rfl | hchat
  · by_cases hname : w.name = ws.name
    · rw [hname]
      exact List.mem_cons_self
    · refine absurd rfl (hs.formerName w ?_ hname)
      rw [h.workspaceByUuid hplugin hid, hwid]
      exact hent
  · obtain ⟨key, _, rfl⟩ := List.mem_map.mp hchat
    have hnone := hs.formerChat rfl
    rw [stripPrefix_eq_some.mpr (byChatUri_eq key)] at hnone
    cases hnone

theorem workspacePut_eq (writeFile : String → Workspace Rest → Except String Unit)
    (t : WorkspaceStore Rest) (ws : Workspace Rest) :
    (workspacePut dispatchToPlugin writeFile t ws).2 =
      writeRows (cleared dispatchToPlugin t ws) ws := rfl

theorem lookup_put (writeFile : String → Workspace Rest → Except String Unit) (uri : String) :
    (workspacePut dispatchToPlugin writeFile t ws).2.lookup uri =
      if uri = canonicalUri ws.id then some (.entity "workspace" ws)
      else if uri ∈ ws.aliases then
        ((cleared dispatchToPlugin t ws).lookup uri).or (some (.aliasTo (canonicalUri ws.id)))
      else (cleared dispatchToPlugin t ws).lookup uri := by
  have hent : IsEntity (putEntity (cleared dispatchToPlugin t ws) (canonicalUri ws.id)
      "workspace" ws) (canonicalUri ws.id) := by
    refine ⟨"workspace", ws, ?_⟩
    rw [putEntity, Ets.lookup_insert_self]
  rw [workspacePut_eq, writeRows, lookup_putAliases hent, putEntity, Ets.lookup_insert]
  by_cases huri : uri = canonicalUri ws.id
  · simp [huri]
  · simp [huri]

theorem of_lookup_cleared (h : (cleared dispatchToPlugin t ws).lookup uri = some row) :
    t.lookup uri = some row :=
  (lookup_clearDisplaced.mp (lookup_clearFormerName.mp (lookup_dropByChatAliases.mp h).1).1).1

theorem entity_of_lookup_put (writeFile : String → Workspace Rest → Except String Unit)
    {kind : String}
    (h : (workspacePut dispatchToPlugin writeFile t ws).2.lookup uri = some (.entity kind w)) :
    w = ws ∨ t.lookup uri = some (.entity kind w) := by
  rw [lookup_put] at h
  split at h
  · exact Or.inl (Row.entity.inj (Option.some.inj h)).2.symm
  · split at h
    · cases hrow : (cleared dispatchToPlugin t ws).lookup uri with
      | none =>
        rw [hrow] at h
        cases h
      | some row =>
        rw [hrow, Option.some_or] at h
        exact Or.inr (of_lookup_cleared (hrow.trans h))
    · exact Or.inr (of_lookup_cleared h)

theorem exists_row_of_workspaceByUuid {uuid : String}
    (h : WorkspaceUris.workspaceByUuid dispatchToPlugin t uuid = some w) :
    ∃ uri, t.lookup uri = some (.entity "workspace" w) := by
  unfold WorkspaceUris.workspaceByUuid getEntity at h
  split at h
  · rename_i kind data hent
    split at h
    · rename_i hkind
      split at hent
      · rename_i canonical _
        split at hent
        · rename_i k d hrow
          obtain ⟨rfl, rfl⟩ := Prod.mk.inj (Option.some.inj hent)
          obtain rfl := Option.some.inj h
          exact ⟨canonical, hkind ▸ hrow⟩
        · cases hent
      · cases hent
    · cases h
  · cases h

theorem wellFormed_workspacePut (h : WellFormed t) (hplugin : NoPlugin dispatchToPlugin)
    (writeFile : String → Workspace Rest → Except String Unit) (hid : CleanId ws.id) :
    WellFormed (workspacePut dispatchToPlugin writeFile t ws).2 := by
  rw [workspacePut_eq]
  exact wellFormed_writeRows (wellFormed_cleared h) hid fun uri huri hrow =>
    own_alias_of_cleared h hplugin hid huri hrow

theorem of_lookup_deleteAllByKind (hrow : (deleteAllByKind t "workspace").lookup uri = some row) :
    t.lookup uri = some row ∧ (∀ w, row ≠ .entity "workspace" w) ∧
      ∀ w c, t.lookup c = some (.entity "workspace" w) → row ≠ .aliasTo c := by
  unfold deleteAllByKind at hrow
  rw [Ets.lookup_deleteWhere, Option.filter_eq_some_iff] at hrow
  obtain ⟨hrow, hkept⟩ := hrow
  refine ⟨hrow, ?_, ?_⟩
  · intro w he
    rw [he] at hkept
    simp at hkept
  · intro w c hc he
    rw [he] at hkept
    simp [isOfKind, hc] at hkept

theorem lookup_deleteAllByKind_eq_none (h : WellFormed t)
    (huri : IsAlias uri ∨ ∃ id, CleanId id ∧ uri = canonicalUri id) :
    (deleteAllByKind t "workspace").lookup uri = none := by
  rw [Option.eq_none_iff_forall_ne_some]
  intro row hrow
  obtain ⟨hrow, hent, halias⟩ := of_lookup_deleteAllByKind hrow
  rcases huri with huri | ⟨id, hid, rfl⟩
  · obtain ⟨w, _, he, hw, _⟩ := h.aliases uri row huri hrow
    exact halias w _ hw he
  · obtain ⟨w, he, _⟩ := h.entities id row hid hrow
    exact hent w he

theorem wellFormed_populateUriStore (h : WellFormed t) {all : List (Workspace Rest)}
    (hclean : ∀ ws ∈ all, CleanId ws.id) (hnodup : (all.map Workspace.id).Nodup) :
    WellFormed (populateUriStore t all) := by
  have hloop : ∀ (ws : List (Workspace Rest)) (t : WorkspaceStore Rest), WellFormed t →
      (∀ w ∈ ws, CleanId w.id ∧ t.lookup (canonicalUri w.id) = none) →
      (ws.map Workspace.id).Nodup → WellFormed (ws.foldl writeRows t) := by
    intro ws
    induction ws with
    | nil => exact fun t ht _ _ => ht
    | cons w ws ih =>
      intro t ht hfresh hnd
      obtain ⟨hnot, hnd⟩ := List.nodup_cons.mp hnd
      obtain ⟨hid, hnone⟩ := hfresh w List.mem_cons_self
      refine ih (writeRows t w) (wellFormed_writeRows ht hid ?_) ?_ hnd
      · -- an alias has its workspace in the store
        intro uri huri hrow
        obtain ⟨w', _, he, hent, _⟩ := ht.aliases uri _ huri hrow
        rw [← Row.aliasTo.inj he, hnone] at hent
        cases hent
      · intro w' hw'
        obtain ⟨hid', hnone'⟩ := hfresh w' (List.mem_cons_of_mem _ hw')
        refine ⟨hid', ?_⟩
        rw [lookup_writeRows hid, if_neg fun hm => (Workspace.isAlias hm).ne_canonicalUri hid' rfl,
          if_neg ?_, hnone']
        intro he
        exact hnot (canonicalUri_injective he ▸ List.mem_map_of_mem hw')
  refine hloop all _ ?_ ?_ hnodup
  · constructor
    · intro id row hid hrow
      rw [lookup_deleteAllByKind_eq_none h (Or.inr ⟨id, hid, rfl⟩)] at hrow
      cases hrow
    · intro uri row huri hrow
      rw [lookup_deleteAllByKind_eq_none h (Or.inl huri)] at hrow
      cases hrow
  · intro w hw
    exact ⟨hclean w hw, lookup_deleteAllByKind_eq_none h (Or.inr ⟨_, hclean w hw, rfl⟩)⟩

end Lookups

/-! ## Reachable stores -/

/-- What writes the workspaces' part of the store, and any other write. -/
inductive Act (Rest : Type) where
  | put (ws : Workspace Rest)
  | deleteById (uuid : String)
  | populate (all : List (Workspace Rest))
  | foreign (uri : String) (row : Option (Row String (Workspace Rest)))

def step (dispatchToPlugin : String → Option String)
    (writeFile : String → Workspace Rest → Except String Unit) (t : WorkspaceStore Rest) :
    Act Rest → Option (WorkspaceStore Rest)
  | .put ws =>
      if CleanId ws.id then some (workspacePut dispatchToPlugin writeFile t ws).2 else none
  | .deleteById uuid => some (workspaceDeleteById t uuid)
  | .populate all =>
      if (∀ ws ∈ all, CleanId ws.id) ∧ (all.map Workspace.id).Nodup then
        some (populateUriStore t all)
      else none
  | .foreign uri row =>
      if stripPrefix "esr://localhost/workspaces/" uri = none then
        match row with
        | some row => some (Ets.insert t uri row)
        | none => some (delete t uri)
      else none

theorem wellFormed_foreign {t t' : WorkspaceStore Rest} (h : WellFormed t)
    (huri : stripPrefix "esr://localhost/workspaces/" uri = none)
    (hother : ∀ u, u ≠ uri → t'.lookup u = t.lookup u) : WellFormed t' := by
  have hcanonical : ∀ id, t'.lookup (canonicalUri id) = t.lookup (canonicalUri id) := by
    intro id
    refine hother _ fun he => ?_
    rw [← he, stripPrefix_canonicalUri] at huri
    cases huri
  constructor
  · intro id row hid hrow
    exact h.entities id row hid ((hcanonical id).symm.trans hrow)
  · intro u row hu hrow
    have hne : u ≠ uri := by
      intro he
      obtain ⟨rest, hrest, _⟩ := hu.stripPrefix
      rw [he, huri] at hrest
      cases hrest
    obtain ⟨w, hid, he, hent, hmem⟩ := h.aliases u row hu ((hother u hne).symm.trans hrow)
    exact ⟨w, hid, he, (hcanonical _).trans hent, hmem⟩

theorem wellFormed_empty : WellFormed (Ets.empty : WorkspaceStore Rest) := by
  constructor
  · intro _ _ _ hrow
    cases hrow
  · intro _ _ _ hrow
    cases hrow

/-- **Reachable stores are well-formed.** -/
theorem wellFormed_reaches {dispatchToPlugin : String → Option String}
    {writeFile : String → Workspace Rest → Except String Unit} {t : WorkspaceStore Rest}
    (hplugin : NoPlugin dispatchToPlugin)
    (h : Reaches (step dispatchToPlugin writeFile) anyStep Ets.empty t) : WellFormed t := by
  refine h.invariant wellFormed_empty ?_
  intro t a u ht _ hs
  cases a with
  | put ws =>
    obtain ⟨hid, rfl⟩ := guard_eq_some.mp hs
    exact wellFormed_workspacePut ht hplugin writeFile hid
  | deleteById uuid =>
    obtain rfl := Option.some.inj hs
    exact wellFormed_deleteById ht uuid
  | populate all =>
    obtain ⟨⟨hclean, hnodup⟩, rfl⟩ := guard_eq_some.mp hs
    exact wellFormed_populateUriStore ht hclean hnodup
  | foreign uri row =>
    simp only [step] at hs
    split at hs
    · rename_i huri
      cases row with
      | some row =>
        obtain rfl := Option.some.inj hs
        exact wellFormed_foreign ht huri fun u hu => Ets.lookup_insert_of_ne _ _ hu
      | none =>
        obtain rfl := Option.some.inj hs
        exact wellFormed_foreign ht huri fun u hu => Ets.lookup_delete_of_ne _ hu
    · cases hs

end WorkspaceUris
end Esr
