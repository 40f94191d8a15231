import Mathlib
import Esr.SessionPlaces
import Esr.WorkspaceLoad

/-! # Loading the sessions at boot

`Session.FileLoader.populate_uri_store/0` loads every `session.json` below the sessions'
directory and writes the row of each, under its uuid.  No two files are compared: of
several with one uuid the last row stays.

`boot_iff` is about both loaders of the boot.
-/
namespace Esr
namespace SessionLoad
open Yaml UriStore BootFiles SessionUris SessionPlaces

/-- The sessions' directory, and the files. -/
structure Disk where
  sessionsDir : String
  sessions : Dir
  read : String → Except ReadError ByteArray

section Load
variable (rd : Readers)

/-- `check_nonempty/2`. -/
def checkNonempty (key : String) (doc : Entries) : Except LoadError Unit :=
  match get key doc with
  | some (.str v) => if v = "" then .error (.missingField key) else .ok ()
  | _ => .error (.missingField key)

/-- The steps of `load/2` before the struct is built. -/
def check (file : Except ReadError ByteArray) : Except LoadError Entries := do
  let body ← readFile file
  let doc ← decodeJson rd body
  checkSchemaVersion 2 doc
  checkRequired ["id", "name", "owner_user", "workspace_id"] doc
  checkNonempty "owner_user" doc
  checkUuid (field "id" doc)
  return doc

/-- `normalize_chat/1`. -/
def normalizeChat : Value → Option SessionPlaces.ChatEntry
  | .map m => do
      let chatId ← get "chat_id" m
      let appId ← get "app_id" m
      let attachedBy ← get "attached_by" m
      let attachedAt ← get "attached_at" m
      return ⟨chatId, appId, attachedBy, attachedAt⟩
  | _ => none

/-- `build_struct/1`. -/
def buildStruct (doc : Entries) : Option SessionPlaces.Struct := do
  let chats ← mapField normalizeChat (getOr "attached_chats" (.list []) doc)
  return {
    id := uuidOf doc
    name := field "name" doc
    ownerUser := field "owner_user" doc
    workspaceId := field "workspace_id" doc
    agentIds := getOr "agent_ids" (.list []) doc
    primaryAgent := field "primary_agent" doc
    attachedChats := chats
    createdAt := field "created_at" doc
    transient := getOr "transient" (.bool false) doc }

/-- `load/2`, with `none` where it raises. -/
def load (file : Except ReadError ByteArray) :
    Option (Except LoadError SessionPlaces.Struct) :=
  match check rd file with
  | .error e => some (.error e)
  | .ok doc => (buildStruct doc).map .ok

/-- `Path.join([base, entry, "session.json"])`. -/
def jsonPath (disk : Disk) (entry : String) : String :=
  disk.sessionsDir ++ "/" ++ entry ++ "/session.json"

/-- The `flat_map` of `scan_sessions_dir/0`. -/
def scan (disk : Disk) : List String → Option (List SessionPlaces.Struct)
  | [] => some []
  | entry :: rest =>
      match load rd (disk.read (jsonPath disk entry)) with
      | none => none
      | some (.error _) => scan disk rest
      | some (.ok s) => (scan disk rest).map fun all => s :: all

/-- The row that is written for a session. -/
def writeRow (t : SessionStore) (s : SessionPlaces.Struct) : SessionStore :=
  putEntity t (canonicalUri s.id) "session" s

/-- `populate_uri_store/0`, with `none` where it raises, which is before it deletes
anything.  When it returns, it returns `:ok`. -/
def populate (disk : Disk) (t : SessionStore) : Option SessionStore := do
  let entries ← disk.sessions.entries
  let all ← scan rd disk entries
  return all.foldl writeRow (deleteAllByKind t "session")

/-! ## What is claimed -/

/-- The documents that pass the checks. -/
def passing (disk : Disk) (entries : List String) : List Entries :=
  entries.filterMap fun entry => (check rd (disk.read (jsonPath disk entry))).toOption

/-- The valid sessions: the document passes the checks and its chats have the form they
should have. -/
def valid (disk : Disk) : List SessionPlaces.Struct :=
  (passing rd disk (disk.sessions.entries.getD [])).filterMap buildStruct

/-- It returns, and the sessions in the store are the valid ones, each under its uuid. -/
structure Faithful (disk : Disk) (t : SessionStore) : Prop where
  returns : populate rd disk t ≠ none
  exact : ∀ t', populate rd disk t = some t' → ∀ uri s,
    t'.lookup uri = some (.entity "session" s) ↔ s ∈ valid rd disk ∧ uri = canonicalUri s.id

/-- The contents of the disk that do no harm. -/
structure Harmless (disk : Disk) : Prop where
  listable : disk.sessions.entries ≠ none
  wellFormed : ∀ doc ∈ passing rd disk (disk.sessions.entries.getD []),
    entriesHave ["chat_id", "app_id", "attached_by", "attached_at"]
      (field "attached_chats" doc) = true
  compatible : ∀ s ∈ valid rd disk, ∀ s' ∈ valid rd disk, s.id = s'.id → s = s'

end Load

variable {rd : Readers} {disk : Disk} {t : SessionStore} {all : List SessionPlaces.Struct}

/-! ## What is loaded -/

theorem scan_eq (entries : List String) :
    scan rd disk entries = (passing rd disk entries).mapM buildStruct := by
  induction entries with
  | nil => rfl
  | cons entry entries ih =>
    unfold scan load passing
    cases hcheck : check rd (disk.read (jsonPath disk entry)) with
    | error e =>
      rw [List.filterMap_cons_none (by rw [hcheck]; rfl)]
      exact ih
    | ok doc =>
      rw [List.filterMap_cons_some (by rw [hcheck]; rfl), List.mapM_cons]
      cases hbuild : buildStruct doc with
      | none =>
        simp only [hbuild, Option.map_none]
        rfl
      | some s =>
        simp only [hbuild, Option.map_some, ih]
        unfold passing
        cases List.mapM buildStruct (entries.filterMap fun entry =>
          (check rd (disk.read (jsonPath disk entry))).toOption) with
        | none => rfl
        | some rest => rfl

theorem buildStruct_ne_none_iff {doc : Entries} : buildStruct doc ≠ none ↔
    entriesHave ["chat_id", "app_id", "attached_by", "attached_at"]
      (field "attached_chats" doc) = true := by
  have hchat : ∀ v, normalizeChat v ≠ none ↔
      hasKeys ["chat_id", "app_id", "attached_by", "attached_at"] v = true := by
    intro v
    cases v with
    | map m =>
      cases hcid : get "chat_id" m <;> cases haid : get "app_id" m <;>
        cases hby : get "attached_by" m <;> cases hat : get "attached_at" m <;>
        simp [normalizeChat, hasKeys, hcid, haid, hby, hat]
    | null | bool | int | float | str | list => simp [normalizeChat, hasKeys]
  rw [← mapField_ne_none_iff hchat]
  unfold buildStruct
  cases mapField normalizeChat (getOr "attached_chats" (.list []) doc) with
  | none => simp
  | some chats => simp

theorem populate_eq_none_iff : populate rd disk t = none ↔
    disk.sessions.entries = none ∨ ∃ doc ∈ passing rd disk (disk.sessions.entries.getD []),
      buildStruct doc = none := by
  unfold populate
  cases disk.sessions.entries with
  | none => simp
  | some entries =>
    rw [Option.getD_some, ← mapM_eq_none_iff, ← scan_eq]
    cases hscan : scan rd disk entries with
    | none => simp [hscan]
    | some all => simp [hscan]

theorem populate_eq_some {t' : SessionStore} (h : populate rd disk t = some t') :
    t' = (valid rd disk).foldl writeRow (deleteAllByKind t "session") := by
  unfold populate at h
  obtain ⟨entries, hentries, h⟩ := Option.bind_eq_some_iff.mp h
  obtain ⟨all, hscan, h⟩ := Option.bind_eq_some_iff.mp h
  rw [scan_eq] at hscan
  unfold valid
  rw [hentries, Option.getD_some, filterMap_of_mapM hscan]
  exact (Option.some.inj h).symm

/-! ## What is written -/

theorem lookup_writeRow (s : SessionPlaces.Struct) (uri : String) :
    (writeRow t s).lookup uri =
      if uri = canonicalUri s.id then some (.entity "session" s) else t.lookup uri :=
  Ets.lookup_insert _ _ _ _

theorem lookup_foldl_writeRow (uri : String) :
    (all.foldl writeRow t).lookup uri =
      ((all.reverse.find? fun s => uri = canonicalUri s.id).map (.entity "session")).or
        (t.lookup uri) := by
  induction all using List.reverseRecOn with
  | nil => rfl
  | append_singleton init s ih =>
    rw [List.foldl_append, List.foldl_cons, List.foldl_nil, lookup_writeRow, ih,
      List.reverse_append, List.reverse_singleton, List.singleton_append, List.find?_cons]
    by_cases he : uri = canonicalUri s.id
    · simp [he]
    · simp [he]

theorem mem_of_lookup_foldl {uri kind : String} {s : SessionPlaces.Struct}
    (h : (all.foldl writeRow t).lookup uri = some (.entity kind s)) :
    (s ∈ all ∧ uri = canonicalUri s.id) ∨ t.lookup uri = some (.entity kind s) := by
  rw [lookup_foldl_writeRow] at h
  cases hlast : all.reverse.find? fun s => uri = canonicalUri s.id with
  | none =>
    rw [hlast] at h
    exact .inr h
  | some last =>
    rw [hlast] at h
    obtain ⟨-, rfl⟩ := Row.entity.inj (Option.some.inj h)
    have huri := List.find?_some hlast
    exact .inl ⟨List.mem_reverse.mp (List.mem_of_find?_eq_some hlast), of_decide_eq_true huri⟩

theorem exists_lookup_foldl {s : SessionPlaces.Struct} (h : s ∈ all) :
    ∃ last, all.reverse.find? (fun s' => canonicalUri s.id = canonicalUri s'.id) = some last ∧
      (all.foldl writeRow t).lookup (canonicalUri s.id) = some (.entity "session" last) := by
  rw [lookup_foldl_writeRow]
  cases hlast : all.reverse.find? fun s' => canonicalUri s.id = canonicalUri s'.id with
  | none =>
    have hno := List.find?_eq_none.mp hlast s (List.mem_reverse.mpr h)
    exact absurd (decide_eq_true rfl) hno
  | some last => exact ⟨last, rfl, rfl⟩

theorem entity_foldl_iff (hfree : ∀ uri s, t.lookup uri ≠ some (.entity "session" s)) :
    (∀ uri s, (all.foldl writeRow t).lookup uri = some (.entity "session" s) ↔
      s ∈ all ∧ uri = canonicalUri s.id) ↔
    ∀ s ∈ all, ∀ s' ∈ all, s.id = s'.id → s = s' := by
  have hwritten : ∀ uri s, (all.foldl writeRow t).lookup uri = some (.entity "session" s) →
      s ∈ all ∧ uri = canonicalUri s.id :=
    fun uri s hrow => (mem_of_lookup_foldl hrow).resolve_right (hfree uri s)
  constructor
  · intro h s hs s' hs' hid
    have hrow := (h (canonicalUri s.id) s).mpr ⟨hs, rfl⟩
    rw [(h (canonicalUri s.id) s').mpr ⟨hs', by rw [hid]⟩] at hrow
    exact (Row.entity.inj (Option.some.inj hrow)).2.symm
  · intro hsame uri s
    refine ⟨hwritten uri s, ?_⟩
    rintro ⟨hs, rfl⟩
    obtain ⟨last, hlast, hrow⟩ := exists_lookup_foldl (t := t) hs
    have hmem := List.mem_reverse.mp (List.mem_of_find?_eq_some hlast)
    have huri := List.find?_some hlast
    rw [hrow, hsame s hs last hmem (canonicalUri_injective (of_decide_eq_true huri))]

/-- The sessions are loaded as they should be, for every content of the disk that does no
harm and for no other. -/
theorem faithful_iff : Faithful rd disk t ↔ Harmless rd disk := by
  have hfree : ∀ uri s, (deleteAllByKind t "session").lookup uri ≠
      some (.entity "session" s) := by
    intro uri s hrow
    unfold deleteAllByKind at hrow
    rw [Ets.lookup_deleteWhere, Option.filter_eq_some_iff] at hrow
    simp at hrow
  constructor
  · intro hf
    have hreturns := mt populate_eq_none_iff.mpr hf.returns
    obtain ⟨t', hpop⟩ := Option.ne_none_iff_exists'.mp hf.returns
    refine ⟨fun hnone => hreturns (.inl hnone), fun doc hdoc => ?_, ?_⟩
    · exact buildStruct_ne_none_iff.mp fun hnone => hreturns (.inr ⟨doc, hdoc, hnone⟩)
    · have hexact := hf.exact t' hpop
      rw [populate_eq_some hpop] at hexact
      exact (entity_foldl_iff hfree).mp hexact
  · intro hh
    constructor
    · intro hnone
      rcases populate_eq_none_iff.mp hnone with hlist | ⟨doc, hdoc, hbuild⟩
      · exact hh.listable hlist
      · exact buildStruct_ne_none_iff.mpr (hh.wellFormed doc hdoc) hbuild
    · intro t' hpop
      rw [populate_eq_some hpop]
      exact (entity_foldl_iff hfree).mpr hh.compatible

/-! ## Both loaders -/

/-- **The boot**: the workspaces and the sessions are loaded as they should be, for every
content of the disk that does no harm and for no other. -/
theorem boot_iff {dispatchToPlugin : String → Option String}
    (hplugin : WorkspaceUris.NoPlugin dispatchToPlugin) {workspaces : WorkspaceLoad.Disk}
    {uris : WorkspaceUris.WorkspaceStore WorkspaceStruct.Struct}
    (huris : WorkspaceUris.WellFormed uris) :
    (WorkspaceLoad.Faithful rd dispatchToPlugin workspaces uris ∧ Faithful rd disk t) ↔
      WorkspaceLoad.Harmless rd workspaces ∧ Harmless rd disk :=
  and_congr (WorkspaceLoad.faithful_iff hplugin huris) faithful_iff

/-- A `workspace.json` with these folders. -/
def workspaceJson (folders : Value) : Entries :=
  [(.str "folders", folders), (.str "id", .str "3f2b1c4d-5e6f-4a7b-8c9d-0e1f2a3b4c5d"),
   (.str "name", .str "dev"), (.str "owner", .str "alice"), (.str "schema_version", .int 1)]

/-- Readers for one JSON document. -/
def oneDocument (text : String) (doc : Entries) : Readers where
  json bytes := if bytes = text.toUTF8 then some (.map doc) else none
  yaml _ := .error "no yaml file"

/-- A workspaces' directory with one workspace in it. -/
def oneWorkspace (text : String) : WorkspaceLoad.Disk where
  workspacesDir := "/esrd/default/workspaces"
  workspaces := .listing ["dev"]
  registry := .error .enoent
  read path :=
    if path = "/esrd/default/workspaces/dev/workspace.json" then .ok text.toUTF8
    else .error .enoent

def noSessions : Disk where
  sessionsDir := "/esrd/default/sessions"
  sessions := .missing
  read _ := .error .enoent

theorem check_workspaceJson {rd : Readers} {text : String} {folders : Value}
    {location : WorkspaceUris.Location}
    (hdecode : decodeJson rd text.toUTF8 = .ok (workspaceJson folders))
    (hlocation : WorkspaceLoad.checkLocationInvariants (workspaceJson folders) location = .ok ()) :
    WorkspaceLoad.check rd location (.ok text.toUTF8) = .ok (workspaceJson folders) := by
  have huuid : checkUuid (.str "3f2b1c4d-5e6f-4a7b-8c9d-0e1f2a3b4c5d") = .ok () := by
    rw [checkUuid, if_pos (by decide +kernel)]
  refine bind_eq_ok.mpr ⟨_, rfl, bind_eq_ok.mpr ⟨_, hdecode, ?_⟩⟩
  refine bind_eq_ok.mpr ⟨(), rfl, bind_eq_ok.mpr ⟨(), rfl, ?_⟩⟩
  exact bind_eq_ok.mpr ⟨(), huuid, bind_eq_ok.mpr ⟨(), hlocation, rfl⟩⟩

theorem checkLocationInvariants_dev (folders : Value) :
    WorkspaceLoad.checkLocationInvariants (workspaceJson folders)
      (.esrBound "/esrd/default/workspaces/dev") = .ok () := by
  have hname : (field "name" (workspaceJson folders)).isStr
      (Path.basename "/esrd/default/workspaces/dev") = true := by
    show (Value.str "dev").isStr _ = true
    decide +kernel
  rw [WorkspaceLoad.checkLocationInvariants, if_pos hname]

theorem check_oneWorkspace (text : String) (folders : Value) :
    WorkspaceLoad.check (oneDocument text (workspaceJson folders))
      (.esrBound "/esrd/default/workspaces/dev") (.ok text.toUTF8) = .ok (workspaceJson folders) := by
  refine check_workspaceJson ?_ (checkLocationInvariants_dev folders)
  rw [decodeJson, show (oneDocument text (workspaceJson folders)).json text.toUTF8 =
    some (.map (workspaceJson folders)) from if_pos rfl]

theorem passing_oneWorkspace (text : String) (folders : Value) :
    WorkspaceLoad.passing (oneDocument text (workspaceJson folders)) (oneWorkspace text)
      (WorkspaceLoad.places (oneDocument text (workspaceJson folders)) (oneWorkspace text)) =
      [(workspaceJson folders, .esrBound "/esrd/default/workspaces/dev")] := by
  have hplaces : WorkspaceLoad.places (oneDocument text (workspaceJson folders)) (oneWorkspace text) =
      [.esrBound "/esrd/default/workspaces/dev"] := rfl
  have hread : (oneWorkspace text).read (WorkspaceLoad.jsonPath (.esrBound "/esrd/default/workspaces/dev")) =
      .ok text.toUTF8 := by
    have hpath : WorkspaceLoad.jsonPath (.esrBound "/esrd/default/workspaces/dev") =
        "/esrd/default/workspaces/dev/workspace.json" := by decide +kernel
    simp only [hpath, oneWorkspace, if_true]
  rw [hplaces, WorkspaceLoad.passing, List.filterMap_cons, hread, check_oneWorkspace]
  rfl

def folderText : String :=
  "\x7b\"folders\": [\x7b\"path\": \"/srv/dev\"\x7d], " ++
    "\"id\": \"3f2b1c4d-5e6f-4a7b-8c9d-0e1f2a3b4c5d\", " ++
    "\"name\": \"dev\", \"owner\": \"alice\", \"schema_version\": 1\x7d"

/-- One workspace, and no session. -/
theorem boot_oneWorkspace :
    WorkspaceLoad.Faithful
        (oneDocument folderText
          (workspaceJson (.list [.map [(.str "path", .str "/srv/dev")]])))
        (fun _ => none) (oneWorkspace folderText) Ets.empty ∧
      Faithful
        (oneDocument folderText
          (workspaceJson (.list [.map [(.str "path", .str "/srv/dev")]])))
        noSessions Ets.empty := by
  refine (boot_iff (fun _ => rfl) WorkspaceUris.wellFormed_empty).mpr ⟨⟨⟨?_, ?_, ?_⟩, ?_⟩, ?_, ?_, ?_⟩
  · exact Option.some_ne_none _
  · exact fun _ h => nomatch h
  · rw [passing_oneWorkspace]
    intro p hp
    rw [List.mem_singleton.mp hp]
    exact ⟨rfl, rfl⟩
  · rw [WorkspaceLoad.valid, passing_oneWorkspace]
    intro _
    refine ⟨fun p hp => ?_, fun s hs s' hs' _ _ _ => ?_⟩
    · rw [List.mem_singleton.mp hp]
      rfl
    · rw [List.mem_singleton.mp hs, List.mem_singleton.mp hs']
  · exact Option.some_ne_none _
  · exact fun _ h => nomatch h
  · exact fun _ h => nomatch h

def bareText : String :=
  "\x7b\"folders\": [\"/srv/dev\"], \"id\": \"3f2b1c4d-5e6f-4a7b-8c9d-0e1f2a3b4c5d\", " ++
    "\"name\": \"dev\", \"owner\": \"alice\", \"schema_version\": 1\x7d"

/-- A folder that is a bare path passes every check, and the loader raises. -/
theorem not_boot_bareFolder :
    ¬∀ (rd : Readers) (workspaces : WorkspaceLoad.Disk) (sessions : Disk),
      WorkspaceLoad.Faithful rd (fun _ => none) workspaces Ets.empty ∧
        Faithful rd sessions Ets.empty := by
  intro h
  have hf := h (oneDocument bareText (workspaceJson (.list [.str "/srv/dev"])))
    (oneWorkspace bareText) noSessions
  -- The document passes, and its folder has no path.
  have hharmless := (WorkspaceLoad.faithful_iff (fun _ => rfl) WorkspaceUris.wellFormed_empty).mp hf.1
  have hpasses := passing_oneWorkspace bareText (.list [.str "/srv/dev"])
  have hpath := (hharmless.readable.wellFormed _ (hpasses ▸ List.mem_singleton_self _)).1
  exact absurd hpath (by decide)

end SessionLoad
end Esr
