import Esr.AgentFiles
import Esr.AttachedChats
import Esr.Fallible
import Esr.InstanceJson
import Esr.WorkspaceFailure

/-! # What the JSON files keep

The `JsonWriter`s of workspaces and of sessions write a struct to a file, which the
`FileLoader` beside each of them reads at the next boot.  `jsonReturns_iff` says which
structs come back: a workspace all of whose chats have a kind, and a session whose id is a
v4 uuid and whose owner is not the empty text.
-/
namespace Esr
namespace JsonRoundTrips
open Yaml BootFiles
open InstanceJson (Jason Files tmpPath)
open WorkspaceStruct (Struct Folder ChatEntry)
open WorkspaceStruct.JsonWriter (serialiseFolder serialiseChat document)
open WorkspaceLoad (normalizeFolder normalizeChat)

/-! ## The source -/

section
variable (jason : Jason)

/-- `write/2` of both writers, where no file operation fails. -/
def save (files : Files) (path : String) (doc : Except String Entries) : Except String Files := do
  let json ← doc.bind fun entries => jason.encode (.map entries)
  return (files.delete (tmpPath path)).insert path json

/-- `Workspace.JsonWriter.write/2`, with its gate. -/
def writeWorkspace (files : Files) (path : String) (ws : Struct) : Except String Files :=
  if ws.folders.isEmpty then .error "empty_folders" else save jason files path (document ws)

/-- `Session.JsonWriter.write/2`. -/
def writeSession (files : Files) (path : String) (s : SessionPlaces.Struct) :
    Except String Files :=
  save jason files path (.ok (AttachedChats.document s))

/-- `Jason.decode/1`, as the loaders use it. -/
def readers : Readers := ⟨fun body => (jason.decode body).toOption, fun _ => .error "no YAML"⟩

/-- `File.read/1`. -/
def fileAt (files : Files) (path : String) : Except ReadError ByteArray :=
  match files.lookup path with
  | some body => .ok body
  | none => .error .enoent

end

/-- The attributes `create_session/2` looks at, under either kind of key. -/
structure Attrs where
  sessionId : Option String
  name : Option String
  ownerUser : Option String
  workspaceId : Option String
  transient : Bool

/-- The struct `create_session/2` writes; `fresh` is the uuid that is drawn. -/
def createdStruct (attrs : Attrs) (fresh now : String) : SessionPlaces.Struct where
  id := attrs.sessionId.getD fresh
  name := .str (attrs.name.getD "")
  ownerUser := .str (attrs.ownerUser.getD "")
  workspaceId := .str (attrs.workspaceId.getD "")
  agentIds := .list []
  primaryAgent := .null
  attachedChats := []
  createdAt := .str now
  transient := .bool attrs.transient

/-- What `create_session/2` and `persist_session_agents/2` make. -/
inductive Produced : SessionPlaces.Struct → Prop
  | created (attrs : Attrs) (fresh now : String) : Produced (createdStruct attrs fresh now)
  | persisted {Config : Type} {s : SessionPlaces.Struct} (h : Produced s)
      (reg : InstanceRegistry.State Config) :
      Produced { s with agentIds := AgentFiles.agentIds (InstanceRegistry.list reg s.id)
                        primaryAgent := AgentFiles.primaryAgent reg s.id }

/-! ## What is claimed -/

/-- The declared type of a workspace's struct, and what holds of the two locations. -/
structure WellTyped (ws : Struct) (location : WorkspaceUris.Location) : Prop where
  located : ws.location = some location
  id : UuidTranslator.uuidShape ws.id = true
  owner : ∃ owner, ws.owner = .str owner
  folders : ws.folders ≠ []
  folder : ∀ f ∈ ws.folders, isText f.path = true ∧ (f.name = .null ∨ isText f.name = true)
  agent : ∃ agent, ws.agent = .str agent
  settings : ∃ m, ws.settings = .map m
  env : ∃ m, ws.env = .map m
  chat : ∀ c ∈ ws.chats, isText c.chatId = true ∧ isText c.appId = true ∧
    ∀ kind, c.kind = some kind → isText kind = true
  transient : ∃ b, ws.transient = .bool b ∧ (b = true → ∃ dir, location = .esrBound dir)
  name : ∀ dir, location = .esrBound dir → ws.name = Path.basename dir

/-- The chat as it comes back: a missing kind is read as `dm`. -/
def normalChat (c : ChatEntry) : ChatEntry := { c with kind := some (c.kind.getD (.str "dm")) }

/-- The workspace is written, and loaded from the same location. -/
def WorkspaceReturns (jason : Jason) (files : Files) (path : String)
    (location : WorkspaceUris.Location) (ws : Struct) : Prop :=
  ∃ files', writeWorkspace jason files path ws = .ok files' ∧
    WorkspaceLoad.load (readers jason) location (fileAt files' path) =
      some (.ok ⟨.str ws.name, { ws with chats := ws.chats.map normalChat }⟩)

/-- The session is written, and loaded. -/
def SessionReturns (jason : Jason) (files : Files) (path : String) (s : SessionPlaces.Struct) :
    Prop :=
  ∃ files', writeSession jason files path s = .ok files' ∧
    SessionLoad.load (readers jason) (fileAt files' path) = some (.ok s)

/-! ## The file -/

section
variable {jason : Jason} {files : Files} {path : String} {doc : Entries}

theorem reads_save (files : Files) (path : String) (h : jason.Keeps (.map doc)) :
    ∃ files' body, save jason files path (.ok doc) = .ok files' ∧
      readFile (fileAt files' path) = .ok body ∧ decodeJson (readers jason) body = .ok doc := by
  obtain ⟨body, hencode, hdecode⟩ := h
  refine ⟨(files.delete (tmpPath path)).insert path body, body, ?_, ?_, ?_⟩
  · exact bind_eq_ok.mpr ⟨body, hencode, rfl⟩
  · rw [fileAt, Ets.lookup_insert_self]
    rfl
  · simp only [decodeJson, readers, hdecode, Except.toOption]

theorem mapM_map_eq_some {A : Type} {f : Value → Option A} {g : A → Value} {l : List A}
    (h : ∀ a ∈ l, f (g a) = some a) : (l.map g).mapM f = some l := by
  induction l with
  | nil => rfl
  | cons a l ih =>
    obtain ⟨ha, hl⟩ := List.forall_mem_cons.mp h
    rw [List.map_cons, List.mapM_cons, ha, ih hl]
    rfl

end

/-! ## Workspaces -/

section
variable {ws : Struct} {location : WorkspaceUris.Location}

theorem exists_document_iff :
    (∃ doc, document ws = .ok doc) ↔ ∀ c ∈ ws.chats, c.kind ≠ none := by
  have hone : ∀ c : ChatEntry, (∃ v, serialiseChat c = .ok v) ↔ c.kind ≠ none := by
    intro c
    cases hkind : c.kind <;> simp [serialiseChat, hkind]
  simp only [← hone, ← exists_mapM_eq_ok]
  constructor
  · rintro ⟨doc, hdoc⟩
    obtain ⟨chats, hchats, -⟩ := bind_eq_ok.mp hdoc
    exact ⟨chats, hchats⟩
  · rintro ⟨chats, hchats⟩
    exact ⟨_, bind_eq_ok.mpr ⟨chats, hchats, rfl⟩⟩

theorem normalizeFolder_serialise {f : Folder} (h : f.name = .null ∨ isText f.name = true) :
    normalizeFolder (serialiseFolder f) = some f := by
  obtain ⟨path, name⟩ := f
  cases name with
  | null | str => rfl
  | bool | int | float | list | map => simp [isText] at h

theorem normalizeChat_serialise {c : ChatEntry} {v : Value} (h : serialiseChat c = .ok v)
    (htext : ∀ kind, c.kind = some kind → isText kind = true) :
    normalizeChat v = some (normalChat c) := by
  obtain ⟨chatId, appId, kind⟩ := c
  cases kind with
  | none => cases h
  | some kind =>
    obtain rfl := Except.ok.inj h
    cases kind with
    | str => rfl
    | null | bool | int | float | list | map => cases htext _ rfl

theorem normalizeChats_serialise {chats : List ChatEntry} {vs : List Value}
    (h : chats.mapM serialiseChat = .ok vs)
    (htext : ∀ c ∈ chats, ∀ kind, c.kind = some kind → isText kind = true) :
    vs.mapM normalizeChat = some (chats.map normalChat) := by
  have hall := mapM_eq_ok.mp h
  clear h
  induction hall with
  | nil => rfl
  | cons hone _ ih =>
    obtain ⟨hkind, hkinds⟩ := List.forall_mem_cons.mp htext
    rw [List.mapM_cons, normalizeChat_serialise hone hkind, ih hkinds]
    rfl

theorem load_document {rd : Readers} {file : Except ReadError ByteArray} {body : ByteArray}
    {doc : Entries} (hws : WellTyped ws location) (hdoc : document ws = .ok doc)
    (hfile : readFile file = .ok body) (hjson : decodeJson rd body = .ok doc) :
    WorkspaceLoad.load rd location file =
      some (.ok ⟨.str ws.name, { ws with chats := ws.chats.map normalChat }⟩) := by
  obtain ⟨chats, hchats, hresult⟩ := bind_eq_ok.mp hdoc
  have hread := normalizeChats_serialise hchats fun c hc => (hws.chat c hc).2.2
  have hfolders : (ws.folders.map serialiseFolder).mapM normalizeFolder = some ws.folders :=
    mapM_map_eq_some fun f hf => normalizeFolder_serialise (hws.folder f hf).2
  obtain ⟨id, name, owner', folders, agent', settings', env', chats', transient', location'⟩ := ws
  obtain ⟨hlocated, hid, ⟨owner, howner⟩, -, -, ⟨agent, hagent⟩, ⟨settings, hsettings⟩,
    ⟨env, henv⟩, -, ⟨transient, htransient, hbound⟩, hname⟩ := hws
  dsimp only at hlocated howner hagent hsettings henv htransient hid hname hread hfolders ⊢
  subst hlocated howner hagent hsettings henv htransient
  have he := Except.ok.inj hresult
  have hfields : field "name" doc = .str name ∧ field "transient" doc = .bool transient := by
    rw [← he]
    exact ⟨rfl, rfl⟩
  have hplace : WorkspaceLoad.checkLocationInvariants doc location = .ok () := by
    cases location with
    | esrBound dir =>
      rw [WorkspaceLoad.checkLocationInvariants, hfields.1, hname dir rfl]
      exact if_pos (beq_self_eq_true _)
    | repoBound repo =>
      rw [WorkspaceLoad.checkLocationInvariants, hfields.2]
      cases transient with
      | false => rfl
      | true =>
        obtain ⟨_, hdir⟩ := hbound rfl
        cases hdir
  have hcheck : WorkspaceLoad.check rd location file = .ok doc := by
    refine bind_eq_ok.mpr ⟨body, hfile, bind_eq_ok.mpr ⟨doc, hjson, ?_⟩⟩
    refine bind_eq_ok.mpr ⟨(), by rw [← he]; rfl, bind_eq_ok.mpr ⟨(), by rw [← he]; rfl, ?_⟩⟩
    refine bind_eq_ok.mpr ⟨(), ?_, bind_eq_ok.mpr ⟨(), hplace, rfl⟩⟩
    exact checkUuid_eq_ok.mpr ⟨id, by rw [← he]; rfl, hid⟩
  have hbuild : WorkspaceLoad.buildStruct doc location = some ⟨id, name, .str owner, folders,
      .str agent, .map settings, .map env, chats'.map normalChat, .bool transient, some location⟩ := by
    rw [← he]
    refine Option.bind_eq_some_iff.mpr ⟨folders, hfolders, Option.bind_eq_some_iff.mpr ⟨_, hread, ?_⟩⟩
    cases transient <;> rfl
  simp only [WorkspaceLoad.load, hcheck, WorkspaceLoad.build, hbuild, hfields.1, Option.map_some]

end

/-! ## Sessions -/

section
variable {s : SessionPlaces.Struct}

theorem Produced.fields (h : Produced s) : ∃ name owner workspace ids transient,
    s.name = .str name ∧ s.ownerUser = .str owner ∧ s.workspaceId = .str workspace ∧
      s.agentIds = .list ids ∧ s.transient = .bool transient := by
  induction h with
  | created attrs fresh now => exact ⟨_, _, _, _, _, rfl, rfl, rfl, rfl, rfl⟩
  | persisted _ reg ih =>
    obtain ⟨name, owner, workspace, _, transient, hname, howner, hworkspace, -, htransient⟩ := ih
    exact ⟨name, owner, workspace, _, transient, hname, howner, hworkspace, rfl, htransient⟩

/-- The document of a session that was made passes the checks exactly under a v4 uuid with
an owner, and gives the struct again. -/
theorem load_session_iff {rd : Readers} {file : Except ReadError ByteArray} {body : ByteArray}
    (hs : Produced s) (hfile : readFile file = .ok body)
    (hjson : decodeJson rd body = .ok (AttachedChats.document s)) :
    SessionLoad.load rd file = some (.ok s) ↔
      UuidTranslator.uuidShape s.id = true ∧ s.ownerUser ≠ .str "" := by
  obtain ⟨name, owner, workspace, ids, transient, hname, howner, hworkspace, hids, htransient⟩ := hs.fields
  obtain ⟨id, _, _, _, _, primary, chats, now, _⟩ := s
  dsimp only at hname howner hworkspace hids htransient ⊢
  subst hname howner hworkspace hids htransient
  have hchats : (chats.map AttachedChats.serialiseChat).mapM SessionLoad.normalizeChat = some chats :=
    mapM_map_eq_some fun _ _ => rfl
  have hbuild : SessionLoad.buildStruct (AttachedChats.document ⟨id, .str name, .str owner,
      .str workspace, .list ids, primary, chats, now, .bool transient⟩) = some ⟨id, .str name,
        .str owner, .str workspace, .list ids, primary, chats, now, .bool transient⟩ := by
    refine Option.bind_eq_some_iff.mpr ⟨chats, hchats, ?_⟩
    cases transient <;> rfl
  constructor
  · intro hload
    rw [SessionLoad.load] at hload
    cases hcheck : SessionLoad.check rd file with
    | error e =>
      rw [hcheck] at hload
      cases hload
    | ok doc =>
      obtain ⟨_, hbody, hcheck⟩ := bind_eq_ok.mp hcheck
      obtain rfl := Except.ok.inj (hfile.symm.trans hbody)
      obtain ⟨_, hdoc, hcheck⟩ := bind_eq_ok.mp hcheck
      obtain rfl := Except.ok.inj (hjson.symm.trans hdoc)
      obtain ⟨_, -, hcheck⟩ := bind_eq_ok.mp hcheck
      obtain ⟨_, -, hcheck⟩ := bind_eq_ok.mp hcheck
      obtain ⟨_, hnonempty, hcheck⟩ := bind_eq_ok.mp hcheck
      obtain ⟨_, huuid, -⟩ := bind_eq_ok.mp hcheck
      obtain ⟨_, hid, hshape⟩ := checkUuid_eq_ok.mp huuid
      obtain rfl : id = _ := Value.str.inj hid
      refine ⟨hshape, fun hempty => ?_⟩
      obtain rfl := Value.str.inj hempty
      cases hnonempty
  · rintro ⟨hshape, howner⟩
    have hnonempty : SessionLoad.checkNonempty "owner_user" (AttachedChats.document ⟨id, .str name,
        .str owner, .str workspace, .list ids, primary, chats, now, .bool transient⟩) = .ok () :=
      if_neg fun hempty => howner (congrArg Value.str hempty)
    have hcheck : SessionLoad.check rd file = .ok (AttachedChats.document _) :=
      bind_eq_ok.mpr ⟨body, hfile, bind_eq_ok.mpr ⟨_, hjson, bind_eq_ok.mpr ⟨(), rfl,
        bind_eq_ok.mpr ⟨(), rfl, bind_eq_ok.mpr ⟨(), hnonempty,
          bind_eq_ok.mpr ⟨(), checkUuid_eq_ok.mpr ⟨id, rfl, hshape⟩, rfl⟩⟩⟩⟩⟩⟩
    simp only [SessionLoad.load, hcheck, hbuild, Option.map_some]

end

/-! ## Both -/

/-- **A workspace comes back exactly when its chats all have a kind, and a session exactly
when it has a v4 uuid and an owner.** -/
theorem jsonReturns_iff {jason : Jason} {ws : Struct} {location : WorkspaceUris.Location}
    {s : SessionPlaces.Struct} (files : Files) (path path' : String) (hws : WellTyped ws location)
    (hs : Produced s) (hdoc : ∀ doc, document ws = .ok doc → jason.Keeps (.map doc))
    (hsession : jason.Keeps (.map (AttachedChats.document s))) :
    (WorkspaceReturns jason files path location ws ∧ SessionReturns jason files path' s) ↔
      (∀ c ∈ ws.chats, c.kind ≠ none) ∧
        UuidTranslator.uuidShape s.id = true ∧ s.ownerUser ≠ .str "" := by
  have hgate : writeWorkspace jason files path ws = save jason files path (document ws) :=
    if_neg (by simpa using hws.folders)
  refine and_congr ?_ ?_
  · rw [← exists_document_iff]
    constructor
    · rintro ⟨files', hwrite, -⟩
      rw [hgate] at hwrite
      obtain ⟨json, hjson, -⟩ := bind_eq_ok.mp hwrite
      obtain ⟨doc, hdoc, -⟩ := bind_eq_ok.mp hjson
      exact ⟨doc, hdoc⟩
    · rintro ⟨doc, hdocument⟩
      obtain ⟨files', body, hsave, hfile, hjson⟩ := reads_save files path (hdoc doc hdocument)
      exact ⟨files', by rw [hgate, hdocument, hsave], load_document hws hdocument hfile hjson⟩
  · obtain ⟨files', body, hsave, hfile, hjson⟩ := reads_save files path' hsession
    rw [← load_session_iff hs hfile hjson]
    constructor
    · rintro ⟨files'', hwrite, hload⟩
      obtain rfl := Except.ok.inj (hsave.symm.trans hwrite)
      exact hload
    · exact fun hload => ⟨files', hsave, hload⟩

/-! ## A workspace and a session -/

/-- A workspace of one folder and one chat. -/
def web (kind : Option Value) : Struct :=
  { WorkspaceUris.webWorkspace with
    id := "3f2b1c4d-5e6f-4a7b-8c9d-0e1f2a3b4c5d"
    chats := [⟨.str "oc_dev", .str "cli_app", kind⟩] }

theorem wellTyped_web {kind : Option Value} (h : ∀ k, kind = some k → isText k = true) :
    WellTyped (web kind) (.esrBound "/srv/web") where
  located := rfl
  id := (by decide +kernel : UuidTranslator.uuidShape "3f2b1c4d-5e6f-4a7b-8c9d-0e1f2a3b4c5d" = true)
  owner := ⟨_, rfl⟩
  folders := List.cons_ne_nil _ _
  folder f hf := by
    obtain rfl := List.mem_singleton.mp hf
    exact ⟨rfl, .inr rfl⟩
  agent := ⟨_, rfl⟩
  settings := ⟨_, rfl⟩
  env := ⟨_, rfl⟩
  chat c hc := by
    obtain rfl := List.mem_singleton.mp hc
    exact ⟨rfl, rfl, h⟩
  transient := ⟨false, rfl, nofun⟩
  name dir hdir := by
    obtain rfl := WorkspaceUris.Location.esrBound.inj hdir
    exact (by decide +kernel : "web" = Path.basename "/srv/web")

/-- A session in it. -/
def alpha : SessionPlaces.Struct :=
  createdStruct ⟨none, some "alpha", some "u1", some (web none).id, false⟩
    "00000000-0000-4000-8000-000000000001" "2026-05-10T00:00:00Z"

def webText : ByteArray :=
  ("\x7b\n  \"agent\": \"cc\",\n  \"chats\": [\n    \x7b\n      \"app_id\": \"cli_app\",\n" ++
    "      \"chat_id\": \"oc_dev\",\n      \"kind\": \"group\"\n    \x7d\n  ],\n  \"env\": \x7b\x7d,\n" ++
    "  \"folders\": [\n    \x7b\n      \"name\": \"web\",\n      \"path\": \"/srv/web\"\n    \x7d\n  ],\n" ++
    "  \"id\": \"3f2b1c4d-5e6f-4a7b-8c9d-0e1f2a3b4c5d\",\n  \"name\": \"web\",\n" ++
    "  \"owner\": \"alice\",\n  \"schema_version\": 1,\n  \"settings\": \x7b\x7d,\n" ++
    "  \"transient\": false\n\x7d").toUTF8

def alphaText : ByteArray :=
  ("\x7b\n  \"agent_ids\": [],\n  \"attached_chats\": [],\n" ++
    "  \"created_at\": \"2026-05-10T00:00:00Z\",\n" ++
    "  \"id\": \"00000000-0000-4000-8000-000000000001\",\n  \"name\": \"alpha\",\n" ++
    "  \"owner_user\": \"u1\",\n  \"primary_agent\": null,\n  \"schema_version\": 2,\n" ++
    "  \"transient\": false,\n" ++
    "  \"workspace_id\": \"3f2b1c4d-5e6f-4a7b-8c9d-0e1f2a3b4c5d\"\n\x7d").toUTF8

theorem keeps_jasonOn_second {v v' : Value} {body body' : ByteArray} (hv : v ≠ v')
    (hbody : body ≠ body') : (InstanceJson.jasonOn [(v, body), (v', body')]).Keeps v' :=
  ⟨body', by simp [InstanceJson.jasonOn, hv], InstanceJson.decode_jasonOn_second hbody⟩

theorem jsonReturns_web : ∃ jason,
    WorkspaceReturns jason .empty "workspace.json" (.esrBound "/srv/web") (web (some (.str "group"))) ∧
      SessionReturns jason .empty "session.json" alpha := by
  obtain ⟨doc, hdoc⟩ := exists_document_iff.mpr
    (by decide : ∀ c ∈ (web (some (.str "group"))).chats, c.kind ≠ none)
  have hne : Value.map doc ≠ .map (AttachedChats.document alpha) := by
    obtain rfl := Except.ok.inj hdoc
    intro h
    exact absurd (Prod.mk.inj (List.cons.inj (Value.map.inj h)).1).1 (by decide)
  have htext : webText ≠ alphaText := by decide +kernel
  refine ⟨InstanceJson.jasonOn [(.map doc, webText), (.map (AttachedChats.document alpha), alphaText)],
    (jsonReturns_iff (s := alpha) .empty _ _ (wellTyped_web fun k hk => ?_) (.created _ _ _) ?_ ?_).mpr
      ⟨by decide, by decide +kernel, by decide⟩⟩
  · obtain rfl := Option.some.inj hk
    rfl
  · intro doc' hdoc'
    obtain rfl := Except.ok.inj (hdoc.symm.trans hdoc')
    exact InstanceJson.keeps_jasonOn _ _ _
  · exact keeps_jasonOn_second hne htext

/-- A chat whose kind is not given is in no file. -/
theorem not_jsonReturns_noKind : WellTyped (web none) (.esrBound "/srv/web") ∧
    ∀ jason files path, ¬WorkspaceReturns jason files path (.esrBound "/srv/web") (web none) := by
  refine ⟨wellTyped_web nofun, ?_⟩
  rintro jason files path ⟨files', hwrite, -⟩
  cases hwrite

end JsonRoundTrips
end Esr
