import Mathlib
import Esr.AgentMigration

/-! # The file of an instance

`Esr.Entity.Agent.InstanceJson` writes an instance to a JSON file of its own and loads it
again.  The loader wants every field but `actor_ids`, and takes from that whatever stands
under `cc` and `pty`; the writer leaves `actor_ids` out unless both are texts.  So an
instance that is well formed comes back as it was, and one that was loaded comes back
exactly when its actors' ids, if the file has both, are texts (`write_load_iff`).
-/
namespace Esr
namespace InstanceJson

open Yaml BootFiles AgentMigration

/-! ## The source -/

/-- `%Instance{}`. -/
abbrev Instance := AgentMigration.Loaded

/-- `config || %{}`. -/
def orEmpty : Value → Value
  | .null | .bool false => .map []
  | config => config

/-- The document of `encode/1`, but for the ids of the actors. -/
def baseDoc (inst : Instance) : Entries :=
  [(.str "config", orEmpty inst.config), (.str "created_at", inst.createdAt),
    (.str "id", inst.id), (.str "name", inst.name), (.str "schema_version", .int 2),
    (.str "session_ids", inst.sessionIds), (.str "type", inst.type)]

/-- The document of `encode/1`. -/
def encodeDoc (inst : Instance) : Entries :=
  match inst.actorIds with
  | some (.str cc, .str pty) =>
      put "actor_ids" (.map [(.str "cc", .str cc), (.str "pty", .str pty)]) (baseDoc inst)
  | _ => baseDoc inst

/-- `Jason.encode/2` with `pretty: true`, and `Jason.decode/1`. -/
structure Jason where
  encode : Value → Except String ByteArray
  decode : ByteArray → Except String Value

/-- What is written for the term is read as the term. -/
def Jason.Keeps (jason : Jason) (v : Value) : Prop :=
  ∃ body, jason.encode v = .ok body ∧ jason.decode body = .ok v

/-- How the file operations of `write/2` fail, and what a failed `File.write/2` leaves. -/
structure Disk where
  mkdirP : Option String
  write : Option (String × Option ByteArray)
  rename : Option String

/-- What `write/2` fails with. -/
inductive WriteError where
  | posix (reason : String)
  | encode (reason : String)

abbrev Files := Ets String ByteArray

/-- `path <> ".tmp"`. -/
def tmpPath (path : String) : String := path ++ ".tmp"

section
variable (jason : Jason)

/-- `write/2`. -/
def write (disk : Disk) (files : Files) (path : String) (inst : Instance) :
    Except WriteError Unit × Files :=
  match disk.mkdirP with
  | some reason => (.error (.posix reason), files)
  | none =>
      match jason.encode (.map (encodeDoc inst)) with
      | .error reason => (.error (.encode reason), files)
      | .ok json =>
          match disk.write with
          | some (reason, none) => (.error (.posix reason), files)
          | some (reason, some left) => (.error (.posix reason), files.insert (tmpPath path) left)
          | none =>
              match disk.rename with
              | some reason => (.error (.posix reason), files.insert (tmpPath path) json)
              | none => (.ok (), (files.delete (tmpPath path)).insert path json)

/-- What is at the path. -/
def content (files : Files) (path : String) : Content :=
  match files.lookup path with
  | none => .missing
  | some body =>
      match jason.decode body with
      | .ok v => .json v
      | .error _ => .garbage

/-- `load/1`. -/
def load (files : Files) (path : String) : Except LoadFailure Instance :=
  AgentMigration.load (content jason files path)

end

/-! ## Instances that are well formed -/

/-- The ids of the actors are texts, if there are any. -/
def TextIds : Option (Value × Value) → Prop
  | none => True
  | some (cc, pty) => isText cc = true ∧ isText pty = true

/-- What the loader asks of an instance. -/
structure Checked (inst : Instance) : Prop where
  id : isUuid inst.id = true
  sessionIds : checkSessionIds inst.sessionIds = .ok ()
  type : inst.type ≠ .null
  name : inst.name ≠ .null
  createdAt : inst.createdAt ≠ .null

/-- **A well-formed instance**: uuids for the ids, one session at least, no field `nil`, a
map for the config, and either no ids of actors or two texts. -/
structure WellFormed (inst : Instance) : Prop where
  id : isUuid inst.id = true
  sessionIds : ∃ sid sids, inst.sessionIds = .list (sid :: sids) ∧
    ∀ v ∈ sid :: sids, isUuid v = true
  type : inst.type ≠ .null
  name : inst.name ≠ .null
  createdAt : inst.createdAt ≠ .null
  config : ∃ m, inst.config = .map m
  actorIds : TextIds inst.actorIds

/-- The document's `actor_ids`, where it is a map with both, are texts. -/
def TextActorIds (c : Content) : Prop :=
  ∀ doc m cc pty, c = .json (.map doc) → field "actor_ids" doc = .map m →
    get "cc" m = some cc → get "pty" m = some pty → isText cc = true ∧ isText pty = true

theorem isUuid_iff {v : Value} : isUuid v = true ↔ checkUuid v = .ok () := by
  rw [checkUuid_eq_ok]
  cases v with
  | str s => simp [isUuid]
  | null | bool | int | float | list | map => simp [isUuid]

theorem checkSessionIds_eq_ok {v : Value} : checkSessionIds v = .ok () ↔
    ∃ sid sids, v = .list (sid :: sids) ∧ ∀ u ∈ sid :: sids, isUuid u = true := by
  rcases v with _ | _ | _ | _ | _ | (_ | ⟨sid, sids⟩) | _
  case list.cons =>
    have hfind : (sid :: sids).find? (fun v => !isUuid v) = none ↔
        ∀ u ∈ sid :: sids, isUuid u = true := by
      rw [List.find?_eq_none]
      simp
    constructor
    · intro h
      refine ⟨sid, sids, rfl, hfind.mp ?_⟩
      rcases hbad : (sid :: sids).find? fun v => !isUuid v with _ | bad
      · rfl
      · simp only [checkSessionIds, hbad] at h
        cases h
    · rintro ⟨_, _, hlist, hall⟩
      obtain ⟨rfl, rfl⟩ := List.cons.inj (Value.list.inj hlist)
      rw [checkSessionIds, hfind.mpr hall]
  all_goals simp [checkSessionIds]

theorem WellFormed.checked {inst : Instance} (h : WellFormed inst) : Checked inst where
  id := h.id
  sessionIds := checkSessionIds_eq_ok.mpr h.sessionIds
  type := h.type
  name := h.name
  createdAt := h.createdAt

/-! ## Loading what was written -/

theorem orEmpty_ne {config v : Value} (hv : v = .null ∨ v = .bool false) : orEmpty config ≠ v := by
  rcases hv with rfl | rfl <;>
    rcases config with _ | (_ | _) | _ | _ | _ | _ | _ <;> simp [orEmpty]

theorem orEmpty_eq {config : Value} (hnull : config ≠ .null) (hfalse : config ≠ .bool false) :
    orEmpty config = config := by
  rcases config with _ | (_ | _) | _ | _ | _ | _ | _
  · exact absurd rfl hnull
  · exact absurd rfl hfalse
  all_goals rfl

/-- The ids that `encode/1` keeps. -/
def keptIds : Option (Value × Value) → Option (Value × Value)
  | some (.str cc, .str pty) => some (.str cc, .str pty)
  | _ => none

theorem keptIds_eq_self {ids : Option (Value × Value)} : keptIds ids = ids ↔ TextIds ids := by
  rcases ids with _ | ⟨cc, pty⟩
  · simp [keptIds, TextIds]
  · cases cc <;> cases pty <;> simp [keptIds, TextIds, isText]

section
variable {inst : Instance}

theorem get_encodeDoc {key : String} (h : key ≠ "actor_ids") :
    get key (encodeDoc inst) = get key (baseDoc inst) := by
  rw [encodeDoc]
  split
  · rw [get_put_of_ne _ _ h]
  · rfl

theorem actorIds_encodeDoc : (buildStruct (encodeDoc inst)).actorIds = keptIds inst.actorIds := by
  rcases hids : inst.actorIds with _ | ⟨cc, pty⟩
  · simp only [encodeDoc, hids]
    rfl
  · cases cc <;> cases pty <;> simp only [encodeDoc, hids] <;> rfl

theorem buildStruct_encodeDoc : buildStruct (encodeDoc inst) =
    { inst with config := orEmpty inst.config, actorIds := keptIds inst.actorIds } := by
  have hconfig : getOr "config" (.map []) (encodeDoc inst) = orEmpty inst.config :=
    getOr_of_get (get_encodeDoc (by decide)) (orEmpty_ne (.inl rfl)) (orEmpty_ne (.inr rfl))
  rw [← actorIds_encodeDoc, ← hconfig, buildStruct]
  simp only [field, get_encodeDoc (show "id" ≠ "actor_ids" by decide),
    get_encodeDoc (show "session_ids" ≠ "actor_ids" by decide),
    get_encodeDoc (show "type" ≠ "actor_ids" by decide),
    get_encodeDoc (show "name" ≠ "actor_ids" by decide),
    get_encodeDoc (show "created_at" ≠ "actor_ids" by decide)]
  rfl

theorem load_encodeDoc (h : Checked inst) :
    AgentMigration.load (.json (.map (encodeDoc inst))) =
      .ok { inst with config := orEmpty inst.config, actorIds := keptIds inst.actorIds } := by
  have hversion : checkSchemaVersion 2 (encodeDoc inst) = .ok () := by
    have hfield : field "schema_version" (encodeDoc inst) = .int 2 := by
      rw [field, get_encodeDoc (by decide)]
      rfl
    rw [checkSchemaVersion, hfield]
    rfl
  have hid : field "id" (encodeDoc inst) = inst.id := by
    rw [field, get_encodeDoc (by decide)]
    rfl
  have hsids : field "session_ids" (encodeDoc inst) = inst.sessionIds := by
    rw [field, get_encodeDoc (by decide)]
    rfl
  have hidnull : inst.id ≠ .null := by
    intro hnull
    have hid := h.id
    rw [hnull] at hid
    cases hid
  have hsidsnull : inst.sessionIds ≠ .null := by
    intro hnull
    obtain ⟨_, _, hlist, -⟩ := checkSessionIds_eq_ok.mp h.sessionIds
    rw [hnull] at hlist
    cases hlist
  have hrequired : checkRequired ["id", "session_ids", "type", "name", "config", "created_at"]
      (encodeDoc inst) = .ok () := by
    rw [checkRequired, List.find?_eq_none.mpr]
    intro key hkey
    rw [Bool.not_eq_true]
    simp only [List.mem_cons, List.not_mem_nil, or_false] at hkey
    rcases hkey with rfl | rfl | rfl | rfl | rfl | rfl
    · exact isNil_of_get (get_encodeDoc (by decide)) hidnull
    · exact isNil_of_get (get_encodeDoc (by decide)) hsidsnull
    · exact isNil_of_get (get_encodeDoc (by decide)) h.type
    · exact isNil_of_get (get_encodeDoc (by decide)) h.name
    · exact isNil_of_get (get_encodeDoc (by decide)) (orEmpty_ne (.inl rfl))
    · exact isNil_of_get (get_encodeDoc (by decide)) h.createdAt
  simp only [AgentMigration.load, hversion, hrequired, hid, isUuid_iff.mp h.id, hsids,
    h.sessionIds]
  rw [← buildStruct_encodeDoc]
  rfl

end

/-! ## Writing what was loaded -/

theorem eq_ok_of_mapError {E F A : Type} {f : E → F} {x : Except E A} {a : A}
    (h : x.mapError f = .ok a) : x = .ok a := by
  rcases x with _ | b
  · cases h
  · exact congrArg Except.ok (Except.ok.inj h)

theorem field_ne_of_checkRequired {keys : List String} {doc : Entries}
    (h : checkRequired keys doc = .ok ()) {key : String} (hkey : key ∈ keys) :
    field key doc ≠ .null := by
  intro hnull
  rcases hfind : keys.find? (isNil doc) with _ | missing
  · have hisNil : isNil doc key = true := by rw [isNil, hnull]
    exact absurd hisNil (List.find?_eq_none.mp hfind key hkey)
  · rw [checkRequired, hfind] at h
    cases h

theorem checked_of_load {c : Content} {inst : Instance} (h : AgentMigration.load c = .ok inst) :
    ∃ doc, c = .json (.map doc) ∧ inst = buildStruct doc ∧ Checked inst := by
  rcases c with _ | _ | _ | v
  case json =>
    cases v with
    | map doc =>
      obtain ⟨_, -, h⟩ := bind_eq_ok.mp h
      obtain ⟨_, hrequired, h⟩ := bind_eq_ok.mp h
      obtain ⟨_, hid, h⟩ := bind_eq_ok.mp h
      obtain ⟨_, hsids, h⟩ := bind_eq_ok.mp h
      obtain rfl := Except.ok.inj h
      have hfields : ∀ key ∈ ["id", "session_ids", "type", "name", "config", "created_at"],
          field key doc ≠ .null := fun _ => field_ne_of_checkRequired (eq_ok_of_mapError hrequired)
      refine ⟨doc, rfl, rfl, isUuid_iff.mpr (eq_ok_of_mapError hid), hsids, ?_, ?_, ?_⟩
      · exact hfields "type" (by simp)
      · exact hfields "name" (by simp)
      · exact hfields "created_at" (by simp)
    | null | bool | int | float | str | list => simp [AgentMigration.load] at h
  all_goals simp [AgentMigration.load] at h

theorem orEmpty_of_load {c : Content} {inst : Instance} (h : AgentMigration.load c = .ok inst) :
    orEmpty inst.config = inst.config := by
  obtain ⟨doc, rfl, rfl, -⟩ := checked_of_load h
  exact orEmpty_eq (getOr_ne (by simp) (.inl rfl) doc) (getOr_ne (by simp) (.inr rfl) doc)

theorem textIds_buildStruct (doc : Entries) : TextIds (buildStruct doc).actorIds ↔
    ∀ m cc pty, field "actor_ids" doc = .map m → get "cc" m = some cc → get "pty" m = some pty →
      isText cc = true ∧ isText pty = true := by
  rw [buildStruct]
  by_cases hmap : ∃ m, field "actor_ids" doc = .map m
  · obtain ⟨m, hm⟩ := hmap
    by_cases hboth : ∃ cc pty, get "cc" m = some cc ∧ get "pty" m = some pty
    · obtain ⟨cc, pty, hcc, hpty⟩ := hboth
      simp only [hm, hcc, hpty, TextIds]
      constructor
      · rintro htexts _ _ _ ⟨⟩ hcc' hpty'
        obtain rfl := Option.some.inj (hcc.symm.trans hcc')
        obtain rfl := Option.some.inj (hpty.symm.trans hpty')
        exact htexts
      · exact fun htexts => htexts m cc pty rfl hcc hpty
    · have hnone : ∀ cc pty, get "cc" m = some cc → get "pty" m = some pty → False :=
        fun cc pty hcc hpty => hboth ⟨cc, pty, hcc, hpty⟩
      simp only [hm, TextIds, true_iff]
      rintro _ cc pty ⟨⟩ hcc hpty
      exact (hnone cc pty hcc hpty).elim
  · -- What is no map gives no ids.
    rcases hfield : field "actor_ids" doc with _ | _ | _ | _ | _ | _ | m
    case map => exact absurd ⟨m, hfield⟩ hmap
    all_goals
      simp only [TextIds, true_iff]
      rintro _ _ _ ⟨⟩

theorem textIds_of_load {c : Content} {inst : Instance} (h : AgentMigration.load c = .ok inst) :
    TextIds inst.actorIds ↔ TextActorIds c := by
  obtain ⟨doc, rfl, rfl, -⟩ := checked_of_load h
  rw [textIds_buildStruct]
  constructor
  · rintro h _ m cc pty ⟨⟩
    exact h m cc pty
  · exact fun h m cc pty => h doc m cc pty rfl

/-! ## The round trips -/

variable {jason : Jason}

theorem content_insert {files : Files} {path : String} {body : ByteArray} {v : Value}
    (h : jason.decode body = .ok v) : content jason (files.insert path body) path = .json v := by
  rw [content, Ets.lookup_insert_self]
  simp only [h]

theorem content_of_write {disk : Disk} {files files' : Files} {path : String} {inst : Instance}
    (hw : write jason disk files path inst = (.ok (), files'))
    (hkeeps : jason.Keeps (.map (encodeDoc inst))) :
    content jason files' path = .json (.map (encodeDoc inst)) := by
  obtain ⟨json, hencode, hdecode⟩ := hkeeps
  have hfiles : files' = (files.delete (tmpPath path)).insert path json := by
    rw [write, hencode] at hw
    split at hw
    · cases hw
    · simp only at hw
      split at hw
      · cases hw
      · cases hw
      · split at hw
        · cases hw
        · exact (Prod.mk.inj hw).2.symm
  rw [hfiles]
  exact content_insert hdecode

/-- **A well-formed instance that is written comes back as it was; one that was loaded comes
back exactly when the ids of its actors, if the file has both, are texts.** -/
theorem write_load_iff {disk : Disk} {files files' : Files} {path : String} {inst : Instance}
    (hw : write jason disk files path inst = (.ok (), files'))
    (hkeeps : jason.Keeps (.map (encodeDoc inst))) :
    (WellFormed inst → load jason files' path = .ok inst) ∧
    ∀ source from_, load jason source from_ = .ok inst →
      (load jason files' path = .ok inst ↔ TextActorIds (content jason source from_)) := by
  have hload := content_of_write hw hkeeps
  refine ⟨fun hwell => ?_, fun source from_ hinst => ?_⟩
  · obtain ⟨m, hconfig⟩ := hwell.config
    have horEmpty : orEmpty inst.config = inst.config := by rw [hconfig]; rfl
    rw [load, hload, load_encodeDoc hwell.checked, keptIds_eq_self.mpr hwell.actorIds, horEmpty]
  · obtain ⟨-, -, -, hchecked⟩ := checked_of_load hinst
    rw [load, hload, load_encodeDoc hchecked, orEmpty_of_load hinst, ← textIds_of_load hinst,
      ← keptIds_eq_self]
    constructor
    · intro h
      exact congrArg Loaded.actorIds (Except.ok.inj h)
    · intro h
      rw [h]

/-! ## Two instances -/

/-- Jason on some documents, each beside its text. -/
def jasonOn (texts : List (Value × ByteArray)) : Jason where
  encode v :=
    match texts.find? fun r => r.1 = v with
    | some (_, text) => .ok text
    | none => .error "not one of these documents"
  decode body :=
    match texts.find? fun r => r.2 = body with
    | some (doc, _) => .ok doc
    | none => .error "not one of these texts"

def sampleId : Value := .str "00000000-0000-4000-8000-000000000001"

def sampleSid : Value := .str "00000000-0000-4000-8000-000000000002"

/-- An instance with the given ids of its actors. -/
def sample (actorIds : Option (Value × Value)) : Instance :=
  ⟨sampleId, .list [sampleSid], .str "cc", .str "alice", .map [], .str "2026-05-10", actorIds⟩

/-- The fields of its file in front of the other ones. -/
def sampleText (actorIds : String) : ByteArray :=
  ("\x7b\n" ++ actorIds ++ "  \"config\": \x7b\x7d,\n  \"created_at\": \"2026-05-10\",\n" ++
    "  \"id\": \"00000000-0000-4000-8000-000000000001\",\n  \"name\": \"alice\",\n" ++
    "  \"schema_version\": 2,\n  \"session_ids\": [\n" ++
    "    \"00000000-0000-4000-8000-000000000002\"\n  ],\n  \"type\": \"cc\"\n\x7d").toUTF8

def fine : Disk := ⟨none, none, none⟩

/-- The ids of the actors are two texts. -/
def named : Instance := sample (some (.str "a", .str "b"))

def namedBody : ByteArray :=
  sampleText "  \"actor_ids\": \x7b\n    \"cc\": \"a\",\n    \"pty\": \"b\"\n  \x7d,\n"

/-- The ids of the actors are two numbers. -/
def numbered : Instance := sample (some (.int 1, .int 2))

def numberedDoc : Entries :=
  put "actor_ids" (.map [(.str "cc", .int 1), (.str "pty", .int 2)]) (baseDoc numbered)

def numberedBody : ByteArray :=
  sampleText "  \"actor_ids\": \x7b\n    \"cc\": 1,\n    \"pty\": 2\n  \x7d,\n"

theorem keeps_jasonOn (v : Value) (body : ByteArray) (texts : List (Value × ByteArray)) :
    (jasonOn ((v, body) :: texts)).Keeps v := by
  refine ⟨body, ?_, ?_⟩ <;> simp [jasonOn]

theorem write_jasonOn (inst : Instance) (body : ByteArray) (texts : List (Value × ByteArray))
    (path : String) :
    write (jasonOn ((.map (encodeDoc inst), body) :: texts)) fine .empty path inst =
      (.ok (), (Ets.empty.delete (tmpPath path)).insert path body) := by
  simp [write, fine, jasonOn]

theorem decode_jasonOn_second {v v' : Value} {body body' : ByteArray} (h : body ≠ body') :
    (jasonOn [(v, body), (v', body')]).decode body' = .ok v' := by
  simp [jasonOn, h]

theorem write_load_iff_named :
    ∃ files, write (jasonOn [(.map (encodeDoc named), namedBody)]) fine .empty "a.json" named =
        (.ok (), files) ∧
      load (jasonOn [(.map (encodeDoc named), namedBody)]) files "a.json" = .ok named := by
  have hw := write_jasonOn named namedBody [] "a.json"
  have hwell : WellFormed named :=
    ⟨by decide, ⟨sampleSid, [], rfl, by decide⟩, by decide, by decide, by decide, ⟨[], rfl⟩,
      rfl, rfl⟩
  exact ⟨_, hw, (write_load_iff hw (keeps_jasonOn _ _ _)).1 hwell⟩

/-- A file whose ids of actors are numbers is loaded with them, and written without. -/
theorem not_write_load :
    ¬ ∀ (jason : Jason) (disk : Disk) (files files' : Files) (path : String) (inst : Instance),
      write jason disk files path inst = (.ok (), files') →
      jason.Keeps (.map (encodeDoc inst)) →
      ∀ source from_, load jason source from_ = .ok inst → load jason files' path = .ok inst := by
  intro h
  have hne : sampleText "" ≠ numberedBody := by decide +kernel
  have hread : load (jasonOn [(.map (encodeDoc numbered), sampleText ""),
      (.map numberedDoc, numberedBody)]) (Ets.empty.insert "b.json" numberedBody) "b.json" =
      .ok numbered := by
    have hcontent : content (jasonOn [(.map (encodeDoc numbered), sampleText ""),
        (.map numberedDoc, numberedBody)]) (Ets.empty.insert "b.json" numberedBody) "b.json" =
        .json (.map numberedDoc) := content_insert (decode_jasonOn_second hne)
    rw [load, hcontent]
    rfl
  have hkeeps := keeps_jasonOn (.map (encodeDoc numbered)) (sampleText "")
    [(.map numberedDoc, numberedBody)]
  have hw := write_jasonOn numbered (sampleText "") [(.map numberedDoc, numberedBody)] "a.json"
  have hload := h _ fine .empty _ "a.json" numbered hw hkeeps _ "b.json" hread
  rw [load, content_of_write hw hkeeps] at hload
  cases congrArg Loaded.actorIds (Except.ok.inj hload)

end InstanceJson
end Esr
