import Esr.BootFiles
import Esr.WorkspaceStruct

/-! # Loading the workspaces at boot

`Workspace.FileLoader.populate_uri_store/0` loads every `workspace.json` below the
workspaces' directory and below the repositories of `registered_repos.yaml`, skips the
files that fail a check, and writes the rows of the rest.  The URI store is up when it
runs; the supervisor starts it first.

`faithful_iff` says for which contents of the disk that goes well: the directory can be
listed, the registry's entries have paths, a file that passes the checks has folders and
chats of the right form, and either two files have one uuid, which is refused, or every
name is a text and no name or chat is two workspaces'.
-/
namespace Esr
namespace WorkspaceLoad
open Yaml UriStore BootFiles WorkspaceUris WorkspaceStruct

/-- The workspaces' directory, `registered_repos.yaml`, and the other files. -/
structure Disk where
  workspacesDir : String
  workspaces : Dir
  registry : Except ReadError ByteArray
  read : String → Except ReadError ByteArray

section Load
variable (rd : Readers)

/-- `check_location_invariants/2`. -/
def checkLocationInvariants (doc : Entries) : Location → Except LoadError Unit
  | .esrBound dir =>
      if (field "name" doc).isStr (Path.basename dir) then .ok ()
      else .error (.nameMismatch (field "name" doc) (Path.basename dir))
  | .repoBound _ =>
      match field "transient" doc with
      | .bool true => .error .transientRepoBoundForbidden
      | _ => .ok ()

/-- The steps of `load/2` before the struct is built. -/
def check (location : Location) (file : Except ReadError ByteArray) :
    Except LoadError Entries := do
  let body ← readFile file
  let doc ← decodeJson rd body
  checkSchemaVersion 1 doc
  checkRequired ["id", "name", "owner"] doc
  checkUuid (field "id" doc)
  checkLocationInvariants doc location
  return doc

/-- `normalize_folder/1`. -/
def normalizeFolder : Value → Option Folder
  | .map m => (get "path" m).map fun path => ⟨path, field "name" m⟩
  | _ => none

/-- `normalize_chat/1`. -/
def normalizeChat : Value → Option ChatEntry
  | .map m => do
      let chatId ← get "chat_id" m
      let appId ← get "app_id" m
      return ⟨chatId, appId, some (getOr "kind" (.str "dm") m)⟩
  | _ => none

/-- `build_struct/2`.  A name that is no text is not in the struct. -/
def buildStruct (doc : Entries) (location : Location) : Option Struct := do
  let folders ← mapField normalizeFolder (getOr "folders" (.list []) doc)
  let chats ← mapField normalizeChat (getOr "chats" (.list []) doc)
  return {
    id := uuidOf doc
    name := (text? (field "name" doc)).getD ""
    owner := field "owner" doc
    folders := folders
    agent := getOr "agent" (.str "cc") doc
    settings := getOr "settings" (.map []) doc
    env := getOr "env" (.map []) doc
    chats := chats
    transient := getOr "transient" (.bool false) doc
    location := some location }

/-- A struct, with the name its document has. -/
structure Loaded where
  name : Value
  struct : Struct

/-- The struct of a document that has passed the checks. -/
def build (p : Entries × Location) : Option Loaded :=
  (buildStruct p.1 p.2).map fun s => ⟨field "name" p.1, s⟩

/-- `load/2`, with `none` where it raises. -/
def load (location : Location) (file : Except ReadError ByteArray) :
    Option (Except LoadError Loaded) :=
  match check rd location file with
  | .error e => some (.error e)
  | .ok doc => (build (doc, location)).map .ok

/-- The file of a workspace. -/
def jsonPath : Location → String
  | .esrBound dir => dir ++ "/workspace.json"
  | .repoBound repo => repo ++ "/.esr/workspace.json"

/-- The `flat_map` of both scans. -/
def scan (disk : Disk) : List Location → Option (List Loaded)
  | [] => some []
  | location :: rest =>
      match load rd location (disk.read (jsonPath location)) with
      | none => none
      | some (.error _) => scan disk rest
      | some (.ok ws) => (scan disk rest).map fun all => ws :: all

/-- `RepoRegistry.to_entry/1`: the path. -/
def toEntry : Value → Option Value
  | .map m => get "path" m
  | _ => none

/-- The elements of `repos` in `registered_repos.yaml`. -/
def registered (disk : Disk) : List Value :=
  match disk.registry with
  | .error _ => []
  | .ok bytes =>
      match rd.yaml bytes with
      | .ok (.map m) =>
          match get "repos" m with
          | some (.list repos) => repos
          | _ => []
      | _ => []

/-- `Paths.workspace_json_repo/1` has a clause for texts. -/
def repoLocation (entry : Value) : Option Location :=
  match toEntry entry with
  | some (.str path) => some (.repoBound path)
  | _ => none

/-- Where `scan_esr_bound/0` and `scan_repo_bound/0` look, with `none` where one of them
raises. -/
def locations (disk : Disk) : Option (List Location) := do
  let names ← disk.workspaces.entries
  let repos ← (registered rd disk).mapM repoLocation
  return names.map (fun name => .esrBound (disk.workspacesDir ++ "/" ++ name)) ++ repos

/-- `duplicate_uuid/1`.  Of several the first one in the list is given. -/
def duplicateUuid (all : List Loaded) : Option (String × List (Option Location)) :=
  ((all.map fun ws => ws.struct.id).find? fun id =>
    1 < (all.map fun ws => ws.struct.id).count id).map fun id =>
      (id, (all.filter fun ws => ws.struct.id = id).map fun ws => ws.struct.location)

inductive Result where
  | ok
  | duplicateUuid (id : String) (locations : List (Option Location))
  | raised
  deriving DecidableEq

/-- The `Enum.each` that writes the rows, and whether it returns: the alias of a name
that is no text raises, once the workspace's own row is there. -/
def writeEach (t : WorkspaceStore Struct) : List Loaded → Bool × WorkspaceStore Struct
  | [] => (true, t)
  | ws :: rest =>
      if isText ws.name then writeEach (writeRows t ws.struct.row) rest
      else (false, putEntity t (canonicalUri ws.struct.id) "workspace" ws.struct.row)

/-- `populate_uri_store/0`. -/
def populate (disk : Disk) (t : WorkspaceStore Struct) : Result × WorkspaceStore Struct :=
  match (locations rd disk).bind (scan rd disk) with
  | none => (.raised, t)
  | some all =>
      match duplicateUuid all with
      | some (id, locations) => (.duplicateUuid id locations, t)
      | none =>
          let written := writeEach (deleteAllByKind t "workspace") all
          (if written.1 then .ok else .raised, written.2)

/-! ## What is claimed -/

/-- Where a `workspace.json` is looked for, whatever else the directory and the registry
hold. -/
def places (disk : Disk) : List Location :=
  (disk.workspaces.entries.getD []).map (fun name => .esrBound (disk.workspacesDir ++ "/" ++ name)) ++
    (registered rd disk).filterMap repoLocation

/-- The documents that pass the checks. -/
def passing (disk : Disk) (at' : List Location) : List (Entries × Location) :=
  at'.filterMap fun location =>
    match check rd location (disk.read (jsonPath location)) with
    | .ok doc => some (doc, location)
    | .error _ => none

/-- The valid workspaces: the document passes the checks, its folders and chats have the
form they should have, and its name is a text. -/
def valid (disk : Disk) : List Struct :=
  (passing rd disk (places rd disk)).filterMap fun p =>
    if isText (field "name" p.1) then buildStruct p.1 p.2 else none

/-- It returns, and unless it refuses to load anything the workspaces in the store are the
valid ones, each found by its uuid, its name and its chats. -/
structure Faithful (dispatchToPlugin : String → Option String) (disk : Disk)
    (t : WorkspaceStore Struct) : Prop where
  returns : (populate rd disk t).1 ≠ .raised
  exact : (populate rd disk t).1 = .ok → ∀ uri ws,
    (populate rd disk t).2.lookup uri = some (.entity "workspace" ws) ↔
      ∃ s ∈ valid rd disk, uri = canonicalUri s.id ∧ ws = s.row
  byUuid : (populate rd disk t).1 = .ok → ∀ s ∈ valid rd disk,
    workspaceByUuid dispatchToPlugin (populate rd disk t).2 s.id = some s.row
  byName : (populate rd disk t).1 = .ok → ∀ s ∈ valid rd disk,
    uuidForWorkspaceName dispatchToPlugin (populate rd disk t).2 s.name = some s.id
  byChat : (populate rd disk t).1 = .ok → ∀ s ∈ valid rd disk, ∀ key ∈ s.row.chatKeys,
    uuidForChat dispatchToPlugin (populate rd disk t).2 key = some s.id

/-- The loader can take in all that it looks at. -/
structure Readable (disk : Disk) : Prop where
  listable : disk.workspaces.entries ≠ none
  registry : ∀ entry ∈ registered rd disk, repoLocation entry ≠ none
  wellFormed : ∀ p ∈ passing rd disk (places rd disk),
    entriesHave ["path"] (field "folders" p.1) = true ∧
      entriesHave ["chat_id", "app_id"] (field "chats" p.1) = true

/-- The contents of the disk that do no harm. -/
structure Harmless (disk : Disk) : Prop where
  readable : Readable rd disk
  compatible : ((passing rd disk (places rd disk)).map fun p => uuidOf p.1).Nodup →
    (∀ p ∈ passing rd disk (places rd disk), isText (field "name" p.1) = true) ∧
      ∀ s ∈ valid rd disk, ∀ s' ∈ valid rd disk, ∀ uri ∈ s.row.aliases,
        uri ∈ s'.row.aliases → s.id = s'.id

end Load

variable {rd : Readers} {disk : Disk} {location : Location} {t : WorkspaceStore Struct}
  {all : List Loaded}

/-! ## What is loaded -/

theorem check_uuid {doc : Entries} {file : Except ReadError ByteArray}
    (h : check rd location file = .ok doc) : UuidTranslator.uuidShape (uuidOf doc) = true := by
  unfold check at h
  obtain ⟨body, -, h⟩ := bind_eq_ok.mp h
  obtain ⟨doc', -, h⟩ := bind_eq_ok.mp h
  obtain ⟨_, -, h⟩ := bind_eq_ok.mp h
  obtain ⟨_, -, h⟩ := bind_eq_ok.mp h
  obtain ⟨_, huuid, h⟩ := bind_eq_ok.mp h
  obtain ⟨_, -, h⟩ := bind_eq_ok.mp h
  obtain rfl := Except.ok.inj h
  obtain ⟨uuid, hid, hshape⟩ := checkUuid_eq_ok.mp huuid
  unfold uuidOf
  rw [hid]
  exact hshape

theorem scan_eq (locs : List Location) :
    scan rd disk locs = (passing rd disk locs).mapM build := by
  induction locs with
  | nil => rfl
  | cons location locs ih =>
    unfold scan load passing
    cases hcheck : check rd location (disk.read (jsonPath location)) with
    | error e =>
      rw [List.filterMap_cons_none (by rw [hcheck])]
      exact ih
    | ok doc =>
      rw [List.filterMap_cons_some (by rw [hcheck]), List.mapM_cons]
      cases hbuild : build (doc, location) with
      | none =>
        simp only [hbuild, Option.map_none]
        rfl
      | some ws =>
        simp only [hbuild, Option.map_some, ih]
        cases hrest : (passing rd disk locs).mapM build with
        | none =>
          unfold passing at hrest
          simp only [hrest]
          rfl
        | some rest =>
          unfold passing at hrest
          simp only [hrest]
          rfl

theorem buildStruct_ne_none_iff {doc : Entries} : buildStruct doc location ≠ none ↔
    entriesHave ["path"] (field "folders" doc) = true ∧
      entriesHave ["chat_id", "app_id"] (field "chats" doc) = true := by
  have hfolder : ∀ v, normalizeFolder v ≠ none ↔ hasKeys ["path"] v = true := by
    intro v
    cases v with
    | map m => cases hpath : get "path" m <;> simp [normalizeFolder, hasKeys, hpath]
    | null | bool | int | float | str | list => simp [normalizeFolder, hasKeys]
  have hchat : ∀ v, normalizeChat v ≠ none ↔ hasKeys ["chat_id", "app_id"] v = true := by
    intro v
    cases v with
    | map m =>
      cases hcid : get "chat_id" m <;> cases haid : get "app_id" m <;>
        simp [normalizeChat, hasKeys, hcid, haid]
    | null | bool | int | float | str | list => simp [normalizeChat, hasKeys]
  rw [← mapField_ne_none_iff hfolder, ← mapField_ne_none_iff hchat]
  unfold buildStruct
  cases mapField normalizeFolder (getOr "folders" (.list []) doc) with
  | none => simp
  | some folders =>
    cases mapField normalizeChat (getOr "chats" (.list []) doc) with
    | none => simp
    | some chats => simp

theorem locations_eq_none_iff : locations rd disk = none ↔
    disk.workspaces.entries = none ∨ ∃ entry ∈ registered rd disk, repoLocation entry = none := by
  unfold locations
  cases disk.workspaces.entries with
  | none => simp
  | some names =>
    rw [← mapM_eq_none_iff]
    cases (registered rd disk).mapM repoLocation with
    | none => simp
    | some repos => simp

theorem locations_eq_some {locs : List Location} (h : locations rd disk = some locs) :
    locs = places rd disk := by
  unfold locations at h
  obtain ⟨names, hnames, h⟩ := Option.bind_eq_some_iff.mp h
  obtain ⟨repos, hrepos, h⟩ := Option.bind_eq_some_iff.mp h
  obtain rfl := Option.some.inj h
  unfold places
  rw [hnames, filterMap_of_mapM hrepos]
  rfl

theorem bind_scan_eq_some (h : (locations rd disk).bind (scan rd disk) = some all) :
    (passing rd disk (places rd disk)).mapM build = some all := by
  obtain ⟨locs, hlocs, hscan⟩ := Option.bind_eq_some_iff.mp h
  rw [scan_eq, locations_eq_some hlocs] at hscan
  exact hscan

theorem build_eq_none_iff {p : Entries × Location} :
    build p = none ↔ buildStruct p.1 p.2 = none := Option.map_eq_none_iff

theorem bind_scan_eq_none_iff :
    (locations rd disk).bind (scan rd disk) = none ↔ ¬Readable rd disk := by
  cases hlocs : locations rd disk with
  | none =>
    rw [Option.bind_none]
    refine iff_of_true rfl fun hr => ?_
    rcases locations_eq_none_iff.mp hlocs with hnone | ⟨entry, hmem, hnone⟩
    · exact hr.listable hnone
    · exact hr.registry entry hmem hnone
  | some locs =>
    obtain rfl := locations_eq_some hlocs
    have hread : ¬(disk.workspaces.entries = none ∨
        ∃ entry ∈ registered rd disk, repoLocation entry = none) := by
      intro h
      rw [locations_eq_none_iff.mpr h] at hlocs
      cases hlocs
    rw [Option.bind_some, scan_eq, mapM_eq_none_iff]
    constructor
    · rintro ⟨p, hp, hnone⟩ hr
      exact buildStruct_ne_none_iff.mpr (hr.wellFormed p hp) (build_eq_none_iff.mp hnone)
    · intro h
      by_contra hno
      refine h ⟨fun hn => hread (.inl hn), fun entry hm hn => hread (.inr ⟨entry, hm, hn⟩), ?_⟩
      intro p hp
      have hbuild : build p ≠ none := fun hnone => hno ⟨p, hp, hnone⟩
      exact buildStruct_ne_none_iff.mp fun hnone => hbuild (build_eq_none_iff.mpr hnone)

/-! ## What was read, in terms of the documents -/

section Read
variable (h : (passing rd disk (places rd disk)).mapM build = some all)

theorem id_of_buildStruct {doc : Entries} {s : Struct} (hs : buildStruct doc location = some s) :
    s.id = uuidOf doc := by
  unfold buildStruct at hs
  obtain ⟨folders, -, hs⟩ := Option.bind_eq_some_iff.mp hs
  obtain ⟨chats, -, hs⟩ := Option.bind_eq_some_iff.mp hs
  obtain rfl := Option.some.inj hs
  rfl

include h

theorem ids_eq : all.map (fun ws => ws.struct.id) =
    (passing rd disk (places rd disk)).map fun p => uuidOf p.1 := by
  refine map_of_mapM h fun p ws hws => ?_
  obtain ⟨s, hs, rfl⟩ := Option.map_eq_some_iff.mp hws
  exact id_of_buildStruct hs

theorem names_eq : all.map Loaded.name =
    (passing rd disk (places rd disk)).map fun p => field "name" p.1 := by
  refine map_of_mapM h fun p ws hws => ?_
  obtain ⟨s, hs, rfl⟩ := Option.map_eq_some_iff.mp hws
  rfl

theorem forall_isText_iff : (∀ ws ∈ all, isText ws.name = true) ↔
    ∀ p ∈ passing rd disk (places rd disk), isText (field "name" p.1) = true := by
  have hnames := names_eq h
  rw [← List.forall_mem_map (f := Loaded.name) (P := fun v => isText v = true), hnames,
    List.forall_mem_map]

theorem cleanId_of_mem {ws : Loaded} (hws : ws ∈ all) : CleanId ws.struct.id := by
  have hid : ws.struct.id ∈ all.map fun ws => ws.struct.id := List.mem_map_of_mem hws
  rw [ids_eq h] at hid
  obtain ⟨⟨doc, location⟩, hp, he⟩ := List.mem_map.mp hid
  rw [← he]
  obtain ⟨location', -, hcheck⟩ := List.mem_filterMap.mp hp
  split at hcheck
  · rename_i doc' hok
    obtain ⟨rfl, rfl⟩ := Prod.mk.inj (Option.some.inj hcheck)
    exact no_slash_of_uuidShape (check_uuid hok)
  · cases hcheck

theorem valid_eq (htext : ∀ ws ∈ all, isText ws.name = true) :
    valid rd disk = all.map Loaded.struct := by
  have hall := filterMap_of_mapM h
  have hone : (fun p : Entries × Location =>
      if isText (field "name" p.1) then buildStruct p.1 p.2 else none) =
      fun p => (build p).bind fun ws => if isText ws.name then some ws.struct else none := by
    funext p
    unfold build
    cases buildStruct p.1 p.2 with
    | none => simp
    | some s => rfl
  unfold valid
  rw [hone, ← List.filterMap_filterMap, hall]
  rw [← List.filterMap_eq_map]
  refine List.filterMap_congr fun ws hws => ?_
  rw [if_pos (htext ws hws)]
  rfl

end Read

/-! ## What is written -/

section Rows
variable {Rest : Type} {t : WorkspaceStore Rest} {all : List (Workspace Rest)}

theorem lookup_foldl_writeRows (hclean : ∀ ws ∈ all, CleanId ws.id) {uri : String}
    (huri : IsAlias uri) :
    (all.foldl writeRows t).lookup uri = (t.lookup uri).or
      ((all.find? fun ws => uri ∈ ws.aliases).map fun ws => .aliasTo (canonicalUri ws.id)) := by
  induction all generalizing t with
  | nil => simp
  | cons ws all ih =>
    obtain ⟨hws, hrest⟩ := List.forall_mem_cons.mp hclean
    rw [List.foldl_cons, ih hrest, lookup_writeRows hws, List.find?_cons]
    by_cases hmem : uri ∈ ws.aliases
    · rw [if_pos hmem]
      cases t.lookup uri with
      | none => simp [hmem]
      | some row => simp
    · rw [if_neg hmem, if_neg (huri.ne_canonicalUri hws)]
      simp [hmem]

theorem entity_foldl_writeRows (hclean : ∀ ws ∈ all, CleanId ws.id)
    (hnodup : (all.map Workspace.id).Nodup)
    (hfree : ∀ ws ∈ all, t.lookup (canonicalUri ws.id) = none) {uri : String}
    {w : Workspace Rest} :
    (all.foldl writeRows t).lookup uri = some (.entity "workspace" w) ↔
      t.lookup uri = some (.entity "workspace" w) ∨ (w ∈ all ∧ uri = canonicalUri w.id) := by
  induction all generalizing t with
  | nil => simp
  | cons ws all ih =>
    obtain ⟨hws, hrest⟩ := List.forall_mem_cons.mp hclean
    obtain ⟨hnone, hfree'⟩ := List.forall_mem_cons.mp hfree
    obtain ⟨hnot, hnodup'⟩ := List.nodup_cons.mp hnodup
    have hone : (writeRows t ws).lookup uri = some (.entity "workspace" w) ↔
        t.lookup uri = some (.entity "workspace" w) ∨ (w = ws ∧ uri = canonicalUri w.id) := by
      rw [lookup_writeRows hws]
      by_cases hmem : uri ∈ ws.aliases
      · rw [if_pos hmem]
        have hne := (Workspace.isAlias hmem).ne_canonicalUri hws
        constructor
        · intro h
          cases hrow : t.lookup uri with
          | none =>
            rw [hrow] at h
            cases h
          | some row =>
            rw [hrow, Option.some_or] at h
            exact Or.inl h
        · rintro (h | ⟨rfl, he⟩)
          · rw [h]
            rfl
          · exact (hne he).elim
      · rw [if_neg hmem]
        by_cases hcan : uri = canonicalUri ws.id
        · rw [if_pos hcan, hcan, hnone]
          constructor
          · intro h
            obtain ⟨-, rfl⟩ := Row.entity.inj (Option.some.inj h)
            exact Or.inr ⟨rfl, rfl⟩
          · rintro (h | ⟨rfl, -⟩)
            · cases h
            · rfl
        · rw [if_neg hcan]
          refine ⟨Or.inl, ?_⟩
          rintro (h | ⟨rfl, he⟩)
          · exact h
          · exact (hcan he).elim
    have hstill : ∀ ws' ∈ all, (writeRows t ws).lookup (canonicalUri ws'.id) = none := by
      intro ws' hws'
      have hne : canonicalUri ws'.id ≠ canonicalUri ws.id := by
        intro he
        apply hnot
        rw [← canonicalUri_injective he]
        exact List.mem_map_of_mem hws'
      rw [lookup_writeRows hws,
        if_neg fun hm => (Workspace.isAlias hm).ne_canonicalUri (hrest ws' hws') rfl, if_neg hne]
      exact hfree' ws' hws'
    rw [List.foldl_cons, ih hrest hnodup' hstill, hone, List.mem_cons, or_and_right, or_assoc]

theorem aliases_found_iff (ht : WellFormed t) (hclean : ∀ ws ∈ all, CleanId ws.id) :
    (∀ ws ∈ all, ∀ uri ∈ ws.aliases,
      (populateUriStore t all).lookup uri = some (.aliasTo (canonicalUri ws.id))) ↔
    ∀ ws ∈ all, ∀ ws' ∈ all, ∀ uri ∈ ws.aliases, uri ∈ ws'.aliases → ws.id = ws'.id := by
  have hfound : ∀ ws ∈ all, ∀ uri ∈ ws.aliases, ∃ first ∈ all, uri ∈ first.aliases ∧
      (populateUriStore t all).lookup uri = some (.aliasTo (canonicalUri first.id)) := by
    intro ws hws uri huri
    have halias := Workspace.isAlias huri
    unfold populateUriStore
    rw [lookup_foldl_writeRows hclean halias, lookup_deleteAllByKind_eq_none ht (Or.inl halias)]
    cases hfirst : all.find? fun ws => uri ∈ ws.aliases with
    | none => exact absurd (decide_eq_true huri) (List.find?_eq_none.mp hfirst ws hws)
    | some first =>
      have hhas := List.find?_some hfirst
      exact ⟨first, List.mem_of_find?_eq_some hfirst, of_decide_eq_true hhas, rfl⟩
  constructor
  · intro h ws hws ws' hws' uri huri huri'
    have hrow := h ws hws uri huri
    rw [h ws' hws' uri huri'] at hrow
    exact (canonicalUri_injective (Row.aliasTo.inj (Option.some.inj hrow))).symm
  · intro h ws hws uri huri
    obtain ⟨first, hmem, huri', hrow⟩ := hfound ws hws uri huri
    rw [hrow, h ws hws first hmem uri huri huri']

end Rows

theorem writeEach_eq (htext : ∀ ws ∈ all, isText ws.name = true) :
    writeEach t all = (true, (all.map fun ws => ws.struct.row).foldl writeRows t) := by
  induction all generalizing t with
  | nil => rfl
  | cons ws all ih =>
    obtain ⟨hws, hrest⟩ := List.forall_mem_cons.mp htext
    unfold writeEach
    rw [if_pos hws, ih hrest]
    rfl

theorem writeEach_fst_iff : (writeEach t all).1 = true ↔ ∀ ws ∈ all, isText ws.name = true := by
  induction all generalizing t with
  | nil => simp [writeEach]
  | cons ws all ih =>
    unfold writeEach
    rw [List.forall_mem_cons]
    split
    · rename_i hws
      rw [ih]
      exact (and_iff_right hws).symm
    · rename_i hws
      exact ⟨fun h => absurd h Bool.false_ne_true, fun h => (hws h.1).elim⟩

theorem duplicateUuid_eq_none_iff :
    duplicateUuid all = none ↔ (all.map fun ws => ws.struct.id).Nodup := by
  unfold duplicateUuid
  rw [Option.map_eq_none_iff, List.find?_eq_none, List.nodup_iff_count_le_one]
  constructor
  · intro h id
    by_cases hmem : id ∈ all.map fun ws => ws.struct.id
    · have hle := h id hmem
      rw [decide_eq_true_eq] at hle
      omega
    · rw [List.count_eq_zero_of_not_mem hmem]
      omega
  · intro h id _
    have hle := h id
    rw [decide_eq_true_eq]
    omega

/-! ## What the loader does -/

section Populate
variable (h : (locations rd disk).bind (scan rd disk) = some all)
include h

theorem nodup_iff : (all.map fun ws => ws.struct.id).Nodup ↔
    ((passing rd disk (places rd disk)).map fun p => uuidOf p.1).Nodup := by
  rw [ids_eq (bind_scan_eq_some h)]

theorem populate_of_duplicate {dup : String × List (Option Location)}
    (hdup : duplicateUuid all = some dup) :
    populate rd disk t = (.duplicateUuid dup.1 dup.2, t) := by
  unfold populate
  rw [h]
  simp only [hdup]

theorem populate_fst_of_not_text (hdup : duplicateUuid all = none)
    (htext : ¬∀ ws ∈ all, isText ws.name = true) : (populate rd disk t).1 = .raised := by
  have hfalse : (writeEach (deleteAllByKind t "workspace") all).1 ≠ true :=
    fun hb => htext (writeEach_fst_iff.mp hb)
  unfold populate
  rw [h]
  simp only [hdup, if_neg hfalse]

theorem populate_of_text (hdup : duplicateUuid all = none)
    (htext : ∀ ws ∈ all, isText ws.name = true) :
    populate rd disk t = (.ok, populateUriStore t ((valid rd disk).map Struct.row)) := by
  rw [valid_eq (bind_scan_eq_some h) htext]
  unfold populate populateUriStore
  rw [h]
  simp only [hdup, writeEach_eq htext, if_pos, List.map_map]
  rfl

theorem clean_and_nodup (hdup : duplicateUuid all = none)
    (htext : ∀ ws ∈ all, isText ws.name = true) :
    (∀ ws ∈ (valid rd disk).map Struct.row, CleanId ws.id) ∧
      (((valid rd disk).map Struct.row).map Workspace.id).Nodup := by
  have hread := bind_scan_eq_some h
  rw [valid_eq hread htext]
  constructor
  · intro w hw
    obtain ⟨s, hs, rfl⟩ := List.mem_map.mp hw
    obtain ⟨ws, hws, rfl⟩ := List.mem_map.mp hs
    exact cleanId_of_mem hread hws
  · rw [List.map_map, List.map_map]
    exact duplicateUuid_eq_none_iff.mp hdup

end Populate

theorem found_iff {dispatchToPlugin : String → Option String}
    (hplugin : NoPlugin dispatchToPlugin) (ht : WellFormed t) {ws : Workspace Struct} :
    (uuidForWorkspaceName dispatchToPlugin t ws.name = some ws.id ∧
      ∀ key ∈ ws.chatKeys, uuidForChat dispatchToPlugin t key = some ws.id) ↔
    ∀ uri ∈ ws.aliases, t.lookup uri = some (.aliasTo (canonicalUri ws.id)) := by
  unfold Workspace.aliases
  rw [List.forall_mem_cons, List.forall_mem_map, ht.uuidForWorkspaceName hplugin]
  simp only [ht.uuidForChat hplugin]

/-- When the loader writes its rows, they are what is claimed unless two workspaces share
a name or a chat. -/
theorem faithful_iff_of_ok {dispatchToPlugin : String → Option String}
    (hplugin : NoPlugin dispatchToPlugin) (ht : WellFormed t)
    (hpop : populate rd disk t = (.ok, populateUriStore t ((valid rd disk).map Struct.row)))
    (hclean : ∀ ws ∈ (valid rd disk).map Struct.row, CleanId ws.id)
    (hnodup : (((valid rd disk).map Struct.row).map Workspace.id).Nodup) :
    Faithful rd dispatchToPlugin disk t ↔
      ∀ s ∈ valid rd disk, ∀ s' ∈ valid rd disk, ∀ uri ∈ s.row.aliases,
        uri ∈ s'.row.aliases → s.id = s'.id := by
  have hwf := wellFormed_populateUriStore ht hclean hnodup
  have hrows := aliases_found_iff ht hclean
  simp only [List.forall_mem_map] at hrows
  have hentity : ∀ uri ws, (populateUriStore t ((valid rd disk).map Struct.row)).lookup uri =
      some (.entity "workspace" ws) ↔
        ws ∈ (valid rd disk).map Struct.row ∧ uri = canonicalUri ws.id := by
    intro uri ws
    have hnone : (deleteAllByKind t "workspace").lookup uri ≠ some (.entity "workspace" ws) :=
      fun hrow => (of_lookup_deleteAllByKind hrow).2.1 ws rfl
    have hfree : ∀ ws ∈ (valid rd disk).map Struct.row,
        (deleteAllByKind t "workspace").lookup (canonicalUri ws.id) = none :=
      fun ws hws => lookup_deleteAllByKind_eq_none ht (.inr ⟨_, hclean ws hws, rfl⟩)
    unfold populateUriStore
    rw [entity_foldl_writeRows hclean hnodup hfree]
    exact or_iff_right hnone
  constructor
  · intro hf
    refine hrows.mp fun s hs => ?_
    have hname := hf.byName (by rw [hpop]) s hs
    have hchat := hf.byChat (by rw [hpop]) s hs
    rw [hpop] at hname hchat
    exact (found_iff hplugin hwf).mp ⟨hname, hchat⟩
  · intro hdisjoint
    have hfound := fun s hs => (found_iff hplugin hwf).mpr (hrows.mpr hdisjoint s hs)
    constructor
    · rw [hpop]
      exact Result.noConfusion
    · intro _ uri ws
      rw [hpop, hentity]
      constructor
      · rintro ⟨hws, rfl⟩
        obtain ⟨s, hs, rfl⟩ := List.mem_map.mp hws
        exact ⟨s, hs, rfl, rfl⟩
      · rintro ⟨s, hs, rfl, rfl⟩
        exact ⟨List.mem_map_of_mem hs, rfl⟩
    · intro _ s hs
      have hrow : s.row ∈ (valid rd disk).map Struct.row := List.mem_map_of_mem hs
      rw [hpop]
      exact (hwf.workspaceByUuid hplugin (hclean _ hrow)).mpr ((hentity _ _).mpr ⟨hrow, rfl⟩)
    · intro _ s hs
      rw [hpop]
      exact (hfound s hs).1
    · intro _ s hs
      rw [hpop]
      exact (hfound s hs).2

/-- The workspaces are loaded as they should be, for every content of the disk that does
no harm and for no other. -/
theorem faithful_iff {dispatchToPlugin : String → Option String}
    (hplugin : NoPlugin dispatchToPlugin) (ht : WellFormed t) :
    Faithful rd dispatchToPlugin disk t ↔ Harmless rd disk := by
  cases hread : (locations rd disk).bind (scan rd disk) with
  | none =>
    have hraised : (populate rd disk t).1 = .raised := by
      unfold populate
      rw [hread]
    refine iff_of_false (fun hf => hf.returns hraised) fun hh => ?_
    exact bind_scan_eq_none_iff.mp hread hh.readable
  | some all =>
    have hreadable : Readable rd disk := by
      by_contra hno
      rw [bind_scan_eq_none_iff.mpr hno] at hread
      cases hread
    cases hdup : duplicateUuid all with
    | some dup =>
      -- the loader refuses, and nothing is promised
      have hpop := populate_of_duplicate (t := t) hread hdup
      have hnot : ¬((passing rd disk (places rd disk)).map fun p => uuidOf p.1).Nodup := by
        rw [← nodup_iff hread, ← duplicateUuid_eq_none_iff, hdup]
        exact Option.some_ne_none dup
      refine iff_of_true ?_ ⟨hreadable, fun hnd => (hnot hnd).elim⟩
      have hne : (populate rd disk t).1 ≠ .ok := by
        rw [hpop]
        exact Result.noConfusion
      refine ⟨?_, fun hok => (hne hok).elim, fun hok => (hne hok).elim,
        fun hok => (hne hok).elim, fun hok => (hne hok).elim⟩
      rw [hpop]
      exact Result.noConfusion
    | none =>
      have hnd := (nodup_iff hread).mp (duplicateUuid_eq_none_iff.mp hdup)
      have htext_iff := forall_isText_iff (bind_scan_eq_some hread)
      by_cases htext : ∀ ws ∈ all, isText ws.name = true
      · have hpop := populate_of_text (t := t) hread hdup htext
        obtain ⟨hclean, hnodup⟩ := clean_and_nodup hread hdup htext
        rw [faithful_iff_of_ok hplugin ht hpop hclean hnodup]
        constructor
        · exact fun hdisjoint => ⟨hreadable, fun _ => ⟨htext_iff.mp htext, hdisjoint⟩⟩
        · exact fun hh => (hh.compatible hnd).2
      · refine iff_of_false (fun hf => ?_) fun hh => ?_
        · exact hf.returns (populate_fst_of_not_text hread hdup htext)
        · exact htext (htext_iff.mpr (hh.compatible hnd).1)

end WorkspaceLoad
end Esr
