import Esr.CapabilityFile
import Esr.BootFiles
import Esr.Ets

/-! # The migration of the agents to files of their own

The migration goes through the sessions' directory.  For each `session.json` of version 1
it writes a file for each of its agents, under a new uuid, and then writes the version 2
document, which names them.  Nothing of what it finds is checked but the version and the
id of the session, and nothing that an earlier attempt has left is looked for.

`converts_iff` says when a run that nobody stops does what it should, and
`migrates_iff` when one that is stopped and run again does: where no session has an
agent to write.
-/
namespace Esr
namespace AgentMigration
open Yaml BootFiles

/-! ## What is on disk -/

/-- What `File.read/1` and `Jason.decode/1` make of a path. -/
inductive Content where
  | missing
  | unreadable (reason : String)
  | garbage
  | json (v : Value)

/-- What is at `agents`: `blocked` where `File.mkdir_p!/1` raises, and a directory in
which files can be written or not. -/
inductive AgentsDir where
  | missing
  | blocked
  | dir (writable : Bool) (files : Ets String Content)

/-- What is at `session.json.tmp`: `blocked` where `File.write!/2` raises. -/
inductive TmpPath where
  | missing
  | file
  | blocked
  deriving DecidableEq

/-- What is at an entry of the sessions' directory.  Where that is no directory,
`session.json` cannot be read. -/
structure SessionDir where
  sessionJson : Content
  tmp : TmpPath
  agents : AgentsDir

/-- The sessions' directory, as `File.exists?/1` and `File.ls!/1` find it. -/
inductive Sessions where
  | missing
  | notListable
  | dir (entries : List (String × SessionDir))

/-- The uuids that are generated, by the entry and the position of the agent, and the
time. -/
structure Env where
  uuid : String → Nat → String
  now : String

/-! ## The file of an instance -/

/-- `Map.get(agent, "type") || ""`. -/
def typeOf (agent : Entries) : Value := getOr "type" (.str "") agent

/-- `Map.get(agent, "name") || ""`. -/
def nameOf (agent : Entries) : Value := getOr "name" (.str "") agent

/-- `Map.get(agent, "config") || %{}`. -/
def configOf (agent : Entries) : Value := getOr "config" (.map []) agent

/-- What `InstanceJson.write/2` writes for an agent. -/
def instanceDoc (id sid : String) (createdAt : Value) (agent : Entries) : Entries :=
  [(.str "config", configOf agent), (.str "created_at", createdAt), (.str "id", .str id),
    (.str "name", nameOf agent), (.str "schema_version", .int 2),
    (.str "session_ids", .list [.str sid]), (.str "type", typeOf agent)]

/-- `<id>.json`. -/
def instanceFile (id : String) : String := id ++ ".json"

/-- `<id>.json.tmp`. -/
def instanceTmp (id : String) : String := id ++ ".json.tmp"

/-- An instance as it is loaded. -/
structure Loaded where
  id : Value
  sessionIds : Value
  type : Value
  name : Value
  config : Value
  createdAt : Value
  actorIds : Option (Value × Value)

/-- What `InstanceJson.load/1` fails with. -/
inductive LoadFailure where
  | readFailed (reason : String)
  | jsonDecodeFailed
  | notObject (v : Value)
  | check (e : LoadError)
  | badSessionId (v : Value)
  | badSessionIds

/-- A text of the shape of a uuid. -/
def isUuid : Value → Bool
  | .str s => UuidTranslator.uuidShape s
  | _ => false

/-- `check_session_ids/1`. -/
def checkSessionIds : Value → Except LoadFailure Unit
  | .list (v :: rest) =>
      match (v :: rest).find? fun v => !isUuid v with
      | none => .ok ()
      | some bad => .error (.badSessionId bad)
  | _ => .error .badSessionIds

/-- `build_struct/1`. -/
def buildStruct (doc : Entries) : Loaded where
  id := field "id" doc
  sessionIds := field "session_ids" doc
  type := field "type" doc
  name := field "name" doc
  config := getOr "config" (.map []) doc
  createdAt := field "created_at" doc
  actorIds :=
    match field "actor_ids" doc with
    | .map m =>
        match get "cc" m, get "pty" m with
        | some cc, some pty => some (cc, pty)
        | _, _ => none
    | _ => none

/-- `InstanceJson.load/1`. -/
def load : Content → Except LoadFailure Loaded
  | .missing => .error (.readFailed "enoent")
  | .unreadable reason => .error (.readFailed reason)
  | .garbage => .error .jsonDecodeFailed
  | .json (.map doc) => do
      (checkSchemaVersion 2 doc).mapError .check
      (checkRequired ["id", "session_ids", "type", "name", "config", "created_at"] doc).mapError
        .check
      (checkUuid (field "id" doc)).mapError .check
      checkSessionIds (field "session_ids" doc)
      return buildStruct doc
  | .json v => .error (.notObject v)

/-! ## One session -/

/-- What `migrate_one/1` answers with `{:error, _}`. -/
inductive Failure where
  | readFailed (reason : String)
  | unknownSchemaVersion (v : Value)
  | noSchemaVersion
  | jsonDecodeFailed
  | missingSessionId

/-- What `migrate_one/1` answers, if it does not raise. -/
inductive Outcome where
  | migrated
  | skipped
  | noSessionJson
  | failed (e : Failure)
  | raised

/-- What is there after each file operation, and the answer. -/
structure Migration where
  steps : List SessionDir
  outcome : Outcome

/-- What is there in the end. -/
def Migration.final (m : Migration) (e : SessionDir) : SessionDir := m.steps.getLast?.getD e

/-- The files of the agents after each operation and in the end, and the ids, if nothing
raises. -/
structure Writes where
  states : List (Ets String Content)
  files : Ets String Content
  ids : Option (List String)

/-- The `Enum.map` over the agents.  An agent that is no map makes it raise. -/
def writeAgents (uuid : Nat → String) (sid : String) (createdAt : Value) :
    Nat → List Value → Ets String Content → Writes
  | _, [], files => ⟨[], files, some []⟩
  | n, .map agent :: rest, files =>
      let content := Content.json (.map (instanceDoc (uuid n) sid createdAt agent))
      let inTmp := files.insert (instanceTmp (uuid n)) content
      let renamed := (inTmp.delete (instanceTmp (uuid n))).insert (instanceFile (uuid n)) content
      let r := writeAgents uuid sid createdAt (n + 1) rest renamed
      ⟨inTmp :: renamed :: r.states, r.files, r.ids.map fun ids => uuid n :: ids⟩
  | _, _ :: _, files => ⟨[], files, none⟩

/-- What is enumerated: `Map.get(doc, "agents") || []`, with `none` for what cannot be,
or gives elements that are no maps. -/
def agentsOf (doc : Entries) : Option (List Value) :=
  match getOr "agents" (.list []) doc with
  | .list agents => some agents
  | .map [] => some []
  | _ => none

/-- The document of version 2. -/
def v2Doc (doc : Entries) (ids : List String) : Entries :=
  put "primary_agent" (field "primary_agent" doc)
    (put "agent_ids" (.list (ids.map .str))
      (put "schema_version" (.int 2) (doc.filter fun e => !e.1.isStr "agents")))

/-- `File.mkdir_p!/1`: the directory that is made, or the one that is there. -/
def mkdirP (e : SessionDir) : Option (List SessionDir × Bool × Ets String Content) :=
  match e.agents with
  | .missing => some ([{ e with agents := .dir true Ets.empty }], true, Ets.empty)
  | .blocked => none
  | .dir writable files => some ([], writable, files)

/-- `do_migrate/2`. -/
def doMigrate (uuid : Nat → String) (now : String) (e : SessionDir) (doc : Entries) : Migration :=
  match get "id" doc with
  | some (.str sid) =>
      match mkdirP e with
      | none => ⟨[], .raised⟩
      | some (made, writable, files) =>
          match agentsOf doc with
          | none => ⟨made, .raised⟩
          | some agents =>
              if agents ≠ [] ∧ writable = false then ⟨made, .raised⟩
              else
                let r := writeAgents uuid sid (getOr "created_at" (.str now) doc) 0 agents files
                let steps := made ++ r.states.map fun files =>
                  { e with agents := .dir writable files }
                match r.ids, e.tmp with
                | none, _ | some _, .blocked => ⟨steps, .raised⟩
                | some ids, _ =>
                    ⟨steps ++ [{ e with tmp := .file, agents := .dir writable r.files },
                      { sessionJson := .json (.map (v2Doc doc ids)), tmp := .missing,
                        agents := .dir writable r.files }], .migrated⟩
  | _ => ⟨[], .failed .missingSessionId⟩

/-- `migrate_one/1`. -/
def migrateOne (uuid : Nat → String) (now : String) (e : SessionDir) : Migration :=
  match e.sessionJson with
  | .missing => ⟨[], .noSessionJson⟩
  | .unreadable reason => ⟨[], .failed (.readFailed reason)⟩
  | .garbage => ⟨[], .failed .jsonDecodeFailed⟩
  | .json (.map doc) =>
      match get "schema_version" doc with
      | some (.int 2) => ⟨[], .skipped⟩
      | some (.int 1) => doMigrate uuid now e doc
      | some v => ⟨[], .failed (.unknownSchemaVersion v)⟩
      | none => ⟨[], .failed .noSchemaVersion⟩
  | .json _ => ⟨[], .failed .noSchemaVersion⟩

/-! ## The whole directory -/

structure Counts where
  migrated : Nat
  skipped : Nat
  deriving DecidableEq

/-- What an answer adds to the counts. -/
def Counts.add (c : Counts) : Outcome → Counts
  | .migrated => { c with migrated := c.migrated + 1 }
  | .skipped | .failed _ => { c with skipped := c.skipped + 1 }
  | .noSessionJson | .raised => c

/-- What is there after each file operation and in the end, and the counts, with `none`
where it raises. -/
structure Run (D : Type) where
  states : List D
  final : D
  counts : Option Counts

/-- The `Enum.reduce` over the entries. -/
def runEntries (env : Env) : List (String × SessionDir) → Run (List (String × SessionDir))
  | [] => ⟨[], [], some ⟨0, 0⟩⟩
  | (name, e) :: rest =>
      let m := migrateOne (env.uuid name) env.now e
      let during := m.steps.map fun x => (name, x) :: rest
      match m.outcome with
      | .raised => ⟨during, (name, m.final e) :: rest, none⟩
      | outcome =>
          let r := runEntries env rest
          ⟨during ++ r.states.map fun d => (name, m.final e) :: d, (name, m.final e) :: r.final,
            r.counts.map fun c => c.add outcome⟩

/-- `run/1`. -/
def run (env : Env) : Sessions → Run Sessions
  | .missing => ⟨[], .missing, some ⟨0, 0⟩⟩
  | .notListable => ⟨[], .notListable, none⟩
  | .dir entries =>
      let r := runEntries env entries
      ⟨r.states.map .dir, .dir r.final, r.counts⟩

/-- `v1_present?/1`, with `none` where it raises. -/
def v1Present : Sessions → Option Bool
  | .missing => some false
  | .notListable => none
  | .dir entries => some (entries.any fun entry =>
      match entry.2.sessionJson with
      | .json (.map doc) =>
          match get "schema_version" doc with
          | some (.int v) => v = 1
          | _ => false
      | _ => false)

/-- `run_if_needed/0`: what is there after each file operation and in the end, and
whether it returns. -/
def runIfNeeded (env : Env) (d : Sessions) : Run Sessions :=
  match v1Present d with
  | none => ⟨[], d, none⟩
  | some false => ⟨[], d, some ⟨0, 0⟩⟩
  | some true => run env d

/-! ## What is claimed -/

/-- An instance file: `list_paths_for_session/1` looks at the names that end so. -/
def IsInstanceFile (name : String) : Prop := ".json".toList <:+ name.toList

/-- The agents of an old session, where they are a list of maps or there are none. -/
def oldAgents (doc : Entries) : Option (List Entries) :=
  match getOr "agents" (.list []) doc with
  | .list agents => agents.mapM fun v => match v with
      | .map m => some m
      | _ => none
  | _ => none

/-- The document is a well-formed session of version 1. -/
structure V1 (doc : Entries) (sid : String) (agents : List Entries) : Prop where
  version : get "schema_version" doc = some (.int 1)
  id : get "id" doc = some (.str sid)
  agents : oldAgents doc = some agents

/-- The instance file `id` is loaded as the agent. -/
structure Loads (files : Ets String Content) (sid id : String) (agent : Entries) (inst : Loaded) :
    Prop where
  loads : load ((files.lookup (instanceFile id)).getD .missing) = .ok inst
  id : inst.id = .str id
  sessionIds : inst.sessionIds = .list [.str sid]
  type : inst.type = typeOf agent
  name : inst.name = nameOf agent
  config : inst.config = configOf agent

/-- The session has become one of version 2: its instance files are those that it names,
and they are loaded as the old agents, in their order. -/
structure Converted (doc : Entries) (sid : String) (agents : List Entries) (e' : SessionDir)
    (doc' : Entries) (ids : List String) (files : Ets String Content) : Prop where
  sessionJson : e'.sessionJson = .json (.map doc')
  version : get "schema_version" doc' = some (.int 2)
  agentIds : get "agent_ids" doc' = some (.list (ids.map .str))
  primary : field "primary_agent" doc' = field "primary_agent" doc
  rest : ∀ key, key ∉ ["schema_version", "agent_ids", "primary_agent", "agents"] →
    get key doc' = get key doc
  dir : ∃ writable, e'.agents = .dir writable files
  exact : ∀ name, IsInstanceFile name →
    (files.lookup name ≠ none ↔ ∃ id ∈ ids, name = instanceFile id)
  loads : List.Forall₂ (fun id agent => ∃ inst, Loads files sid id agent inst) ids agents

/-- Every well-formed session of version 1 is converted, and nothing else is changed. -/
structure Result (e e' : SessionDir) : Prop where
  converts : ∀ doc sid agents, e.sessionJson = .json (.map doc) → V1 doc sid agents →
    ∃ doc' ids files, Converted doc sid agents e' doc' ids files
  leaves : (∀ doc sid agents, e.sessionJson = .json (.map doc) → ¬V1 doc sid agents) → e' = e

/-- The same for every entry. -/
def Each (R : SessionDir → SessionDir → Prop) : Sessions → Sessions → Prop
  | .dir entries, .dir entries' => List.Forall₂ (fun p p' => p.1 = p'.1 ∧ R p.2 p'.2) entries entries'
  | .missing, .missing | .notListable, .notListable => True
  | _, _ => False

/-- A run that nobody stops returns and has the result, and another one changes nothing. -/
structure Converts (env env' : Env) (d : Sessions) : Prop where
  returns : (run env d).counts ≠ none
  result : Each Result d (run env d).final
  again : (run env' (run env d).final).counts ≠ none ∧
    (run env' (run env d).final).states = [] ∧
      (run env' (run env d).final).final = (run env d).final

/-- A document whose field `key` is changed. -/
def updateField (key : String) (f : Value → Value) : Content → Content
  | .json (.map doc) =>
      .json (.map (doc.map fun e => if e.1.isStr key then (e.1, f e.2) else e))
  | c => c

/-- The id of an instance, renamed. -/
def renameId (ρ : Equiv.Perm String) : Value → Value
  | .str id => .str (ρ id)
  | v => v

/-- The ids of a session, renamed. -/
def renameIds (ρ : Equiv.Perm String) : Value → Value
  | .list ids => .list (ids.map (renameId ρ))
  | v => v

/-- The files are the same but for their names and the ids in them. -/
structure SameFiles (ρ : Equiv.Perm String) (files files' : Ets String Content) : Prop where
  instances : ∀ id, files'.lookup (instanceFile (ρ id)) =
    (files.lookup (instanceFile id)).map (updateField "id" (renameId ρ))
  others : ∀ name, ¬IsInstanceFile name → files'.lookup name = files.lookup name

/-- Two results for a session are the same up to the choice of uuids. -/
def SameUpToIds (e e' : SessionDir) : Prop :=
  ∃ ρ : Equiv.Perm String, e'.sessionJson = updateField "agent_ids" (renameIds ρ) e.sessionJson ∧
    e'.tmp = e.tmp ∧ match e.agents, e'.agents with
    | .dir writable files, .dir writable' files' => writable = writable' ∧ SameFiles ρ files files'
    | .missing, .missing | .blocked, .blocked => True
    | _, _ => False

/-- A run that is stopped between any two file operations, and one after it, have the
same result as one that is not. -/
structure Migrates (env env' : Env) (d : Sessions) : Prop extends Converts env env' d where
  recovers : ∀ d' ∈ d :: (run env d).states, (run env' d').counts ≠ none ∧
    Each SameUpToIds (run env d).final (run env' d').final

/-! ## When it is so -/

/-- The files that are in the directory. -/
def AgentsDir.files : AgentsDir → Ets String Content
  | .dir _ files => files
  | _ => Ets.empty

/-- A file can be written there, once the directory is made. -/
def AgentsDir.writable : AgentsDir → Bool
  | .missing => true
  | .blocked => false
  | .dir writable _ => writable

/-- What the migration does not look at is as it should be: in a session of version 1
with a text as its id, the agents are a list of maps or there are none; the directory of
the agents can be made and has no instance file, and `session.json.tmp` can be written;
and where there are agents, their files can be written and the id is a uuid. -/
def Convertible (e : SessionDir) : Prop :=
  ∀ doc sid, e.sessionJson = .json (.map doc) → get "schema_version" doc = some (.int 1) →
    get "id" doc = some (.str sid) → ∃ agents, oldAgents doc = some agents ∧
      e.agents ≠ .blocked ∧ e.tmp ≠ .blocked ∧
      (∀ name, IsInstanceFile name → e.agents.files.lookup name = none) ∧
      (agents ≠ [] → e.agents.writable = true ∧ UuidTranslator.uuidShape sid = true)

/-- No session of version 1 has an agent. -/
def Agentless (e : SessionDir) : Prop :=
  ∀ doc sid agents, e.sessionJson = .json (.map doc) → V1 doc sid agents → agents = []

/-- The directory can be listed, and each entry is so. -/
def Every (P : SessionDir → Prop) : Sessions → Prop
  | .missing => True
  | .notListable => False
  | .dir entries => ∀ p ∈ entries, P p.2

/-- How many uuids are generated for the session. -/
def SessionDir.uuids (e : SessionDir) : Nat :=
  match e.sessionJson with
  | .json (.map doc) => ((agentsOf doc).getD []).length
  | _ => 0

/-- The uuids are uuids, no two of a session are the same, and none is in use. -/
structure Fresh (uuid uuid' : Nat → String) (e : SessionDir) : Prop where
  shape : ∀ i < e.uuids, UuidTranslator.uuidShape (uuid i) = true
  injective : ∀ i < e.uuids, ∀ j < e.uuids, uuid i = uuid j → i = j
  unused : ∀ i < e.uuids, e.agents.files.lookup (instanceFile (uuid i)) = none
  other : ∀ i < e.uuids, ∀ j < e.uuids, uuid i ≠ uuid' j

/-- The same for each entry. -/
def FreshIn (env env' : Env) : Sessions → Prop
  | .dir entries => ∀ p ∈ entries, Fresh (env.uuid p.1) (env'.uuid p.1) p.2
  | _ => True

/-! ## The documents -/

variable {key : String}

theorem get_filter_of_ne {dropped : String} (h : key ≠ dropped) (doc : Entries) :
    get key (doc.filter fun e => !e.1.isStr dropped) = get key doc := by
  induction doc with
  | nil => rfl
  | cons e doc ih =>
    rw [List.filter_cons, get_cons]
    by_cases he : e.1.isStr dropped = true
    · have hkey : e.1.isStr key = false := by
        rw [Value.isStr_iff.mp he, Value.isStr_str, beq_eq_false_iff_ne]
        exact h.symm
      simpa [he, hkey] using ih
    · simp [he, get_cons, ih]

theorem get_v2Doc_version (doc : Entries) (ids : List String) :
    get "schema_version" (v2Doc doc ids) = some (.int 2) := by
  unfold v2Doc
  rw [get_put_of_ne _ _ (by decide), get_put_of_ne _ _ (by decide), get_put_self]

theorem get_v2Doc_ids (doc : Entries) (ids : List String) :
    get "agent_ids" (v2Doc doc ids) = some (.list (ids.map .str)) := by
  unfold v2Doc
  rw [get_put_of_ne _ _ (by decide), get_put_self]

theorem field_v2Doc_primary (doc : Entries) (ids : List String) :
    field "primary_agent" (v2Doc doc ids) = field "primary_agent" doc := by
  conv_lhs => rw [field, v2Doc, get_put_self, Option.getD_some]

theorem get_v2Doc_of_notMem (doc : Entries) (ids : List String)
    (h : key ∉ ["schema_version", "agent_ids", "primary_agent", "agents"]) :
    get key (v2Doc doc ids) = get key doc := by
  simp only [List.mem_cons, List.not_mem_nil, or_false, not_or] at h
  obtain ⟨hversion, hids, hprimary, hagents⟩ := h
  unfold v2Doc
  rw [get_put_of_ne _ _ hprimary, get_put_of_ne _ _ hids, get_put_of_ne _ _ hversion,
    get_filter_of_ne hagents]

theorem getOr_of_get {default v : Value} {m : Entries} (h : get key m = some v)
    (hnull : v ≠ .null) (hfalse : v ≠ .bool false) : getOr key default m = v := by
  unfold getOr
  rw [h]
  split
  · contradiction
  · simp_all
  · simp_all
  · simp_all

theorem getOr_ne {default v : Value} (h : default ≠ v) (hv : v = .null ∨ v = .bool false)
    (m : Entries) : getOr key default m ≠ v := by
  unfold getOr
  split
  · exact h
  · exact h
  · exact h
  · rename_i v' hnull hfalse heq
    rintro rfl
    exact hv.elim hnull hfalse

theorem isNil_of_get {v : Value} {doc : Entries} (h : get key doc = some v) (hv : v ≠ .null) :
    isNil doc key = false := by
  unfold isNil field
  rw [h, Option.getD_some]
  cases v with
  | null => exact absurd rfl hv
  | bool | int | float | str | list | map => rfl

theorem load_instanceDoc {id sid : String} {createdAt : Value} (agent : Entries)
    (hid : UuidTranslator.uuidShape id = true) (hsid : UuidTranslator.uuidShape sid = true)
    (hat : createdAt ≠ .null) :
    load (.json (.map (instanceDoc id sid createdAt agent))) =
      .ok (buildStruct (instanceDoc id sid createdAt agent)) := by
  have htype : typeOf agent ≠ .null := getOr_ne (by simp) (.inl rfl) agent
  have hname : nameOf agent ≠ .null := getOr_ne (by simp) (.inl rfl) agent
  have hconfig : configOf agent ≠ .null := getOr_ne (by simp) (.inl rfl) agent
  have hversion : checkSchemaVersion 2 (instanceDoc id sid createdAt agent) = .ok () := by
    have hfield : field "schema_version" (instanceDoc id sid createdAt agent) = .int 2 := rfl
    simp [checkSchemaVersion, hfield]
  have hrequired : checkRequired ["id", "session_ids", "type", "name", "config", "created_at"]
      (instanceDoc id sid createdAt agent) = .ok () := by
    unfold checkRequired
    rw [List.find?_eq_none.mpr]
    intro key hkey
    rw [Bool.not_eq_true]
    simp only [List.mem_cons, List.not_mem_nil, or_false] at hkey
    rcases hkey with rfl | rfl | rfl | rfl | rfl | rfl
    · exact @isNil_of_get _ (.str id) _ rfl (by simp)
    · exact @isNil_of_get _ (.list [.str sid]) _ rfl (by simp)
    · exact isNil_of_get rfl htype
    · exact isNil_of_get rfl hname
    · exact isNil_of_get rfl hconfig
    · exact isNil_of_get rfl hat
  have huuid : checkUuid (field "id" (instanceDoc id sid createdAt agent)) = .ok () :=
    checkUuid_eq_ok.mpr ⟨id, rfl, hid⟩
  have hsids : checkSessionIds (field "session_ids" (instanceDoc id sid createdAt agent)) =
      .ok () := by
    have hfield : field "session_ids" (instanceDoc id sid createdAt agent) = .list [.str sid] :=
      rfl
    simp [hfield, checkSessionIds, isUuid, hsid]
  simp only [load, hversion, hrequired, huuid, hsids]
  rfl

theorem isUuid_of_load {c : Content} {inst : Loaded} {v : Value} (h : load c = .ok inst)
    (hsids : inst.sessionIds = .list [v]) : isUuid v = true := by
  cases c with
  | missing | unreadable | garbage => simp [load] at h
  | json w =>
    cases w with
    | map doc =>
      obtain ⟨_, -, h⟩ := bind_eq_ok.mp h
      obtain ⟨_, -, h⟩ := bind_eq_ok.mp h
      obtain ⟨_, -, h⟩ := bind_eq_ok.mp h
      obtain ⟨_, hcheck, h⟩ := bind_eq_ok.mp h
      obtain rfl := Except.ok.inj h
      have hfield : field "session_ids" doc = .list [v] := hsids
      rw [hfield] at hcheck
      by_contra hno
      rw [Bool.not_eq_true] at hno
      simp [checkSessionIds, hno] at hcheck
    | null | bool | int | float | str | list => simp [load] at h

theorem Loads.uuidShape {files : Ets String Content} {sid id : String} {agent : Entries}
    {inst : Loaded} (h : Loads files sid id agent inst) : UuidTranslator.uuidShape sid = true :=
  isUuid_of_load h.loads h.sessionIds

/-! ## The files of the agents -/

theorem isInstanceFile_instanceFile (id : String) : IsInstanceFile (instanceFile id) := by
  unfold IsInstanceFile instanceFile
  rw [String.toList_append]
  exact List.suffix_append _ _

theorem not_isInstanceFile_instanceTmp (id : String) : ¬IsInstanceFile (instanceTmp id) := by
  unfold IsInstanceFile instanceTmp
  rw [String.toList_append]
  intro h
  have htmp : ".json.tmp".toList <:+ id.toList ++ ".json.tmp".toList := List.suffix_append _ _
  exact absurd (List.suffix_of_suffix_length_le h htmp (by decide)) (by decide)

theorem instanceFile_inj {id id' : String} (h : instanceFile id = instanceFile id') : id = id' := by
  have hlist := congrArg String.toList h
  unfold instanceFile at hlist
  rw [String.toList_append, String.toList_append] at hlist
  exact String.toList_injective (List.append_cancel_right hlist)

theorem lookup_renamed (files : Ets String Content) (id : String) (content : Content)
    {name : String} (h : IsInstanceFile name) :
    (((files.insert (instanceTmp id) content).delete (instanceTmp id)).insert (instanceFile id)
      content).lookup name = if name = instanceFile id then some content else files.lookup name := by
  have htmp : name ≠ instanceTmp id := by
    rintro rfl
    exact not_isInstanceFile_instanceTmp id h
  rw [Ets.lookup_insert, Ets.lookup_delete_of_ne _ htmp, Ets.lookup_insert_of_ne _ _ htmp]

section
variable {uuid : Nat → String} {sid : String} {createdAt : Value}

theorem ids_writeAgents (agents : List Entries) (n : Nat) (files : Ets String Content) :
    (writeAgents uuid sid createdAt n (agents.map .map) files).ids =
      some ((List.range' n agents.length).map uuid) := by
  induction agents generalizing n files with
  | nil => rfl
  | cons agent agents ih =>
    simp only [List.map_cons, writeAgents, ih, Option.map_some, List.length_cons,
      List.range'_succ]

theorem exists_maps {agents : List Value} {n : Nat} {files : Ets String Content}
    (h : (writeAgents uuid sid createdAt n agents files).ids ≠ none) :
    ∃ ms : List Entries, agents = ms.map .map := by
  induction agents generalizing n files with
  | nil => exact ⟨[], rfl⟩
  | cons v agents ih =>
    cases v with
    | map m =>
      simp only [writeAgents, ne_eq, Option.map_eq_none_iff] at h
      obtain ⟨ms, rfl⟩ := ih h
      exact ⟨m :: ms, rfl⟩
    | null | bool | int | float | str | list => exact absurd rfl h

theorem lookup_writeAgents_of_ne (agents : List Entries) (n : Nat) (files : Ets String Content)
    {name : String} (hname : IsInstanceFile name)
    (h : ∀ i, n ≤ i → i < n + agents.length → name ≠ instanceFile (uuid i)) :
    (writeAgents uuid sid createdAt n (agents.map .map) files).files.lookup name =
      files.lookup name := by
  induction agents generalizing n files with
  | nil => rfl
  | cons agent agents ih =>
    have hhead : name ≠ instanceFile (uuid n) := h n le_rfl (by simp)
    simp only [List.map_cons, writeAgents]
    rw [ih, lookup_renamed _ _ _ hname, if_neg hhead]
    intro i hle hlt
    apply h i (by omega)
    simp only [List.length_cons]
    omega

theorem lookup_writeAgents_ne_none (agents : List Entries) (n : Nat)
    {files : Ets String Content} {name : String} (hname : IsInstanceFile name)
    (h : files.lookup name ≠ none) :
    (writeAgents uuid sid createdAt n (agents.map .map) files).files.lookup name ≠ none := by
  induction agents generalizing n files with
  | nil => exact h
  | cons agent agents ih =>
    simp only [List.map_cons, writeAgents]
    apply ih
    rw [lookup_renamed _ _ _ hname]
    split
    · simp
    · exact h

theorem lookup_writeAgents_generated (agents : List Entries) (n : Nat)
    (files : Ets String Content) {i : Nat} (hle : n ≤ i) (hlt : i < n + agents.length) :
    (writeAgents uuid sid createdAt n (agents.map .map) files).files.lookup
      (instanceFile (uuid i)) ≠ none := by
  have hname := isInstanceFile_instanceFile (uuid i)
  induction agents generalizing n files with
  | nil => simp at hlt; omega
  | cons agent agents ih =>
    simp only [List.length_cons] at hlt
    simp only [List.map_cons, writeAgents]
    rcases Nat.eq_or_lt_of_le hle with rfl | hlt'
    · apply lookup_writeAgents_ne_none _ _ hname
      rw [lookup_renamed _ _ _ hname, if_pos rfl]
      simp
    · exact ih (n + 1) _ (by omega) (by omega)

theorem loads_writeAgents (agents : List Entries) (n : Nat) (files : Ets String Content)
    (hshape : ∀ i, n ≤ i → i < n + agents.length → UuidTranslator.uuidShape (uuid i) = true)
    (hinj : ∀ i, n ≤ i → i < n + agents.length → ∀ j, n ≤ j → j < n + agents.length →
      uuid i = uuid j → i = j)
    (hsid : UuidTranslator.uuidShape sid = true) (hat : createdAt ≠ .null) :
    List.Forall₂ (fun id agent => ∃ inst,
        Loads (writeAgents uuid sid createdAt n (agents.map .map) files).files sid id agent inst)
      ((List.range' n agents.length).map uuid) agents := by
  induction agents generalizing n files with
  | nil => exact .nil
  | cons agent agents ih =>
    simp only [List.length_cons] at hshape hinj
    simp only [List.length_cons, List.range'_succ, List.map_cons]
    refine .cons ?_ ?_
    · refine ⟨buildStruct (instanceDoc (uuid n) sid createdAt agent), ?_, rfl, rfl, rfl, rfl, ?_⟩
      · simp only [writeAgents]
        rw [lookup_writeAgents_of_ne _ _ _ (isInstanceFile_instanceFile _),
          lookup_renamed _ _ _ (isInstanceFile_instanceFile _), if_pos rfl, Option.getD_some]
        · exact load_instanceDoc agent (hshape n le_rfl (by omega)) hsid hat
        · intro i hle hlt hsame
          have := hinj n le_rfl (by omega) i (by omega) (by omega) (instanceFile_inj hsame)
          omega
      · exact getOr_of_get rfl (getOr_ne (by simp) (.inl rfl) agent)
          (getOr_ne (by simp) (.inr rfl) agent)
    · simp only [writeAgents]
      apply ih
      · intro i hle hlt
        exact hshape i (by omega) (by omega)
      · intro i hle hlt j hle' hlt'
        exact hinj i (by omega) (by omega) j (by omega) (by omega)

end

/-! ## One session -/

/-- The session is of version 1, and its id is a text: it is to be converted. -/
structure Old (e : SessionDir) (doc : Entries) (sid : String) : Prop where
  sessionJson : e.sessionJson = .json (.map doc)
  version : get "schema_version" doc = some (.int 1)
  id : get "id" doc = some (.str sid)

/-- Nothing that is asserted fails. -/
structure Writable (e : SessionDir) (agents : List Entries) : Prop where
  dir : e.agents ≠ .blocked
  tmp : e.tmp ≠ .blocked
  files : agents ≠ [] → e.agents.writable = true

/-- The directory of the agents, where it is made. -/
def made (e : SessionDir) : List SessionDir :=
  match e.agents with
  | .missing => [{ e with agents := .dir true Ets.empty }]
  | _ => []

/-- The files of the agents. -/
def written (uuid : Nat → String) (now : String) (e : SessionDir) (doc : Entries) (sid : String)
    (agents : List Entries) : Writes :=
  writeAgents uuid sid (getOr "created_at" (.str now) doc) 0 (agents.map .map) e.agents.files

/-- The ids of the agents. -/
def newIds (uuid : Nat → String) (agents : List Entries) : List String :=
  (List.range' 0 agents.length).map uuid

/-- The session when it is converted. -/
def converted (uuid : Nat → String) (now : String) (e : SessionDir) (doc : Entries) (sid : String)
    (agents : List Entries) : SessionDir where
  sessionJson := .json (.map (v2Doc doc (newIds uuid agents)))
  tmp := .missing
  agents := .dir e.agents.writable (written uuid now e doc sid agents).files

section
variable {uuid : Nat → String} {now : String} {e : SessionDir} {doc : Entries} {sid : String}
  {agents : List Entries}

theorem Old.migrateOne_eq (h : Old e doc sid) :
    migrateOne uuid now e = doMigrate uuid now e doc := by
  unfold migrateOne
  rw [h.sessionJson]
  simp only [h.version]

theorem migrateOne_of_not_old (h : ∀ doc sid, ¬Old e doc sid) :
    (migrateOne uuid now e).steps = [] ∧ (migrateOne uuid now e).outcome ≠ .raised := by
  unfold migrateOne
  split
  · simp
  · simp
  · simp
  · rename_i doc hjson
    split
    · simp
    · rename_i hversion
      unfold doMigrate
      split
      · rename_i sid hid
        exact absurd ⟨hjson, hversion, hid⟩ (h doc sid)
      · simp
    · simp
    · simp
  · simp

theorem mkdirP_eq (h : e.agents ≠ .blocked) :
    mkdirP e = some (made e, e.agents.writable, e.agents.files) := by
  unfold mkdirP made
  cases hagents : e.agents with
  | missing => rfl
  | blocked => exact absurd hagents h
  | dir writable files => rfl

theorem doMigrate_eq (hid : get "id" doc = some (.str sid))
    (hagents : agentsOf doc = some (agents.map .map)) (h : Writable e agents) :
    doMigrate uuid now e doc =
      ⟨made e ++ ((written uuid now e doc sid agents).states.map fun files =>
          { e with agents := .dir e.agents.writable files }) ++
        [{ e with
            tmp := .file, agents := .dir e.agents.writable (written uuid now e doc sid agents).files },
          converted uuid now e doc sid agents], .migrated⟩ := by
  have hfiles : ¬(agents.map Value.map ≠ [] ∧ e.agents.writable = false) := by
    rintro ⟨hne, hfalse⟩
    rw [h.files (by simpa using hne)] at hfalse
    exact absurd hfalse (by simp)
  unfold doMigrate
  simp only [hid, mkdirP_eq h.dir, hagents, if_neg hfiles, ids_writeAgents]
  cases hcase : e.tmp with
  | blocked => exact absurd hcase h.tmp
  | missing | file => rfl

theorem writable_of_ne_raised (hid : get "id" doc = some (.str sid))
    (h : (doMigrate uuid now e doc).outcome ≠ .raised) :
    ∃ agents : List Entries, agentsOf doc = some (agents.map .map) ∧ Writable e agents := by
  unfold doMigrate at h
  simp only [hid] at h
  by_cases hdir : e.agents = .blocked
  · simp [mkdirP, hdir] at h
  · rw [mkdirP_eq hdir] at h
    cases hagents : agentsOf doc with
    | none => simp [hagents] at h
    | some vs =>
      simp only [hagents] at h
      split at h
      · simp at h
      · rename_i hfiles
        split at h
        · simp at h
        · simp at h
        · rename_i hids htmp
          obtain ⟨agents, rfl⟩ := exists_maps (by rw [hids]; simp)
          refine ⟨agents, rfl, hdir, ?_, ?_⟩
          · intro hblocked
            exact htmp hblocked
          · intro hne
            by_contra hwritable
            exact hfiles ⟨by simpa using hne, by simpa using hwritable⟩

theorem oldAgents_eq_some (h : oldAgents doc = some agents) :
    agentsOf doc = some (agents.map .map) := by
  unfold oldAgents at h
  unfold agentsOf
  cases hfield : getOr "agents" (.list []) doc with
  | list vs =>
    simp only [hfield] at h
    have hvs : agents.map .map = vs.map id := by
      apply map_of_mapM h
      intro v m hv
      split at hv
      · simpa using hv.symm
      · simp at hv
    rw [hvs, List.map_id]
  | null | bool | int | float | str | map => simp [hfield] at h

theorem oldAgents_of_agentsOf (h : agentsOf doc = some (agents.map .map)) :
    oldAgents doc = some agents ∨ oldAgents doc = none := by
  unfold agentsOf at h
  unfold oldAgents
  cases hfield : getOr "agents" (.list []) doc with
  | list vs =>
    simp only [hfield, Option.some.injEq] at h
    subst h
    left
    simp only [List.mapM_map]
    have hpure : agents.mapM (fun m => (pure m : Option Entries)) = some (agents.map id) :=
      List.mapM_pure
    rw [List.map_id] at hpure
    exact hpure
  | null | bool | int | float | str | map => right; rfl

theorem uuids_eq (hjson : e.sessionJson = .json (.map doc))
    (hagents : agentsOf doc = some (agents.map .map)) : e.uuids = agents.length := by
  unfold SessionDir.uuids
  simp [hjson, hagents]

theorem mem_newIds {id : String} : id ∈ newIds uuid agents ↔ ∃ i < agents.length, uuid i = id := by
  simp [newIds]

theorem final_doMigrate (hid : get "id" doc = some (.str sid))
    (hagents : agentsOf doc = some (agents.map .map)) (h : Writable e agents) :
    (doMigrate uuid now e doc).final e = converted uuid now e doc sid agents := by
  unfold Migration.final
  rw [doMigrate_eq hid hagents h]
  simp

variable {uuid' : Nat → String}

theorem converted_converted (hold : Old e doc sid)
    (hagents : agentsOf doc = some (agents.map .map)) (hfresh : Fresh uuid uuid' e)
    (hempty : ∀ name, IsInstanceFile name → e.agents.files.lookup name = none)
    (hsid : agents ≠ [] → UuidTranslator.uuidShape sid = true) :
    Converted doc sid agents (converted uuid now e doc sid agents)
      (v2Doc doc (newIds uuid agents)) (newIds uuid agents)
      (written uuid now e doc sid agents).files where
  sessionJson := rfl
  version := get_v2Doc_version _ _
  agentIds := get_v2Doc_ids _ _
  primary := field_v2Doc_primary _ _
  rest _ h := get_v2Doc_of_notMem _ _ h
  dir := ⟨_, rfl⟩
  exact := by
    intro name hname
    constructor
    · intro hthere
      by_contra hno
      apply hthere
      unfold written
      rw [lookup_writeAgents_of_ne _ _ _ hname, hempty name hname]
      rintro i - hlt rfl
      exact hno ⟨uuid i, mem_newIds.mpr ⟨i, by omega, rfl⟩, rfl⟩
    · rintro ⟨id, hid, rfl⟩
      obtain ⟨i, hlt, rfl⟩ := mem_newIds.mp hid
      exact lookup_writeAgents_generated _ _ _ (Nat.zero_le i) (by omega)
  loads := by
    have huuids := uuids_eq hold.sessionJson hagents
    cases agents with
    | nil => exact .nil
    | cons agent agents =>
      apply loads_writeAgents
      · intro i _ hlt
        exact hfresh.shape i (by omega)
      · intro i _ hlt j _ hlt'
        exact hfresh.injective i (by omega) j (by omega)
      · exact hsid (by simp)
      · exact getOr_ne (by simp) (.inl rfl) doc

theorem convertible_of_converted (hold : Old e doc sid)
    (hagents : agentsOf doc = some (agents.map .map)) (hfresh : Fresh uuid uuid' e)
    {doc' : Entries} {ids : List String} {files : Ets String Content}
    (h : Converted doc sid agents (converted uuid now e doc sid agents) doc' ids files) :
    (∀ name, IsInstanceFile name → e.agents.files.lookup name = none) ∧
      (agents ≠ [] → UuidTranslator.uuidShape sid = true) := by
  obtain ⟨hjson, -, hids, -, -, ⟨writable, hdir⟩, hexact, hloads⟩ := h
  have hids' : ids = newIds uuid agents := by
    obtain rfl : v2Doc doc (newIds uuid agents) = doc' := by simpa [converted] using hjson
    rw [get_v2Doc_ids] at hids
    have hinj : Function.Injective Value.str := fun _ _ h => by simpa using h
    exact (List.map_injective_iff.mpr hinj (by simpa using hids)).symm
  obtain rfl : (written uuid now e doc sid agents).files = files := by
    have := hdir
    simp only [converted, AgentsDir.dir.injEq] at this
    exact this.2
  constructor
  · intro name hname
    by_contra hthere
    obtain ⟨id, hid, rfl⟩ := (hexact name hname).mp (lookup_writeAgents_ne_none _ _ hname hthere)
    rw [hids'] at hid
    obtain ⟨i, hlt, rfl⟩ := mem_newIds.mp hid
    exact hthere (hfresh.unused i (by rw [uuids_eq hold.sessionJson hagents]; exact hlt))
  · intro hne
    cases hloads with
    | nil => exact absurd rfl hne
    | cons hone _ =>
      obtain ⟨inst, hload⟩ := hone
      exact hload.uuidShape

theorem final_of_not_old (h : ∀ doc sid, ¬Old e doc sid) : (migrateOne uuid now e).final e = e := by
  unfold Migration.final
  rw [(migrateOne_of_not_old h).1]
  rfl

theorem V1.old (hjson : e.sessionJson = .json (.map doc)) (h : V1 doc sid agents) :
    Old e doc sid :=
  ⟨hjson, h.version, h.id⟩

theorem Old.unique {doc' : Entries} {sid' : String} (h : Old e doc sid) (h' : Old e doc' sid') :
    doc' = doc ∧ sid' = sid := by
  obtain rfl : doc = doc' := by simpa [h.sessionJson] using h'.sessionJson
  exact ⟨rfl, by simpa [h.id] using h'.id.symm⟩

theorem converted_not_old (doc' : Entries) (sid' : String) :
    ¬Old (converted uuid now e doc sid agents) doc' sid' := by
  intro h
  obtain rfl : v2Doc doc (newIds uuid agents) = doc' := by
    simpa [converted] using h.sessionJson
  have hversion := h.version
  rw [get_v2Doc_version] at hversion
  exact absurd hversion (by simp)

theorem result_iff (hfresh : Fresh uuid uuid' e) :
    (migrateOne uuid now e).outcome ≠ .raised ∧ Result e ((migrateOne uuid now e).final e) ↔
      Convertible e := by
  by_cases hold : ∃ doc sid, Old e doc sid
  · obtain ⟨doc, sid, hold⟩ := hold
    rw [hold.migrateOne_eq]
    constructor
    · rintro ⟨hreturns, hresult⟩ doc' sid' hjson hversion hid
      obtain ⟨rfl, rfl⟩ := hold.unique ⟨hjson, hversion, hid⟩
      obtain ⟨agents, hagents, hwritable⟩ := writable_of_ne_raised hid hreturns
      rw [final_doMigrate hid hagents hwritable] at hresult
      rcases oldAgents_of_agentsOf hagents with hagents' | hnone
      · obtain ⟨doc', ids, files, hconverted⟩ :=
          hresult.converts _ _ agents hjson ⟨hversion, hid, hagents'⟩
        obtain ⟨hempty, hsid⟩ := convertible_of_converted hold hagents hfresh hconverted
        exact ⟨agents, hagents', hwritable.dir, hwritable.tmp, hempty,
          fun hne => ⟨hwritable.files hne, hsid hne⟩⟩
      · -- an empty map is enumerated as well, and so the session is not left alone
        refine absurd (hresult.leaves ?_) ?_
        · intro doc' sid' agents' hjson' hv1
          obtain ⟨rfl, -⟩ := hold.unique (hv1.old hjson')
          exact absurd hv1.agents (by simp [hnone])
        · intro hsame
          have hnew := hold
          rw [← hsame] at hnew
          exact converted_not_old _ _ hnew
    · intro hconvertible
      obtain ⟨agents, hagents, hdir, htmp, hempty, hfiles⟩ :=
        hconvertible doc sid hold.sessionJson hold.version hold.id
      have hwritable : Writable e agents := ⟨hdir, htmp, fun hne => (hfiles hne).1⟩
      have hof := oldAgents_eq_some hagents
      rw [final_doMigrate hold.id hof hwritable, doMigrate_eq hold.id hof hwritable]
      refine ⟨by simp, ?_, ?_⟩
      · intro doc' sid' agents' hjson hv1
        obtain ⟨rfl, rfl⟩ := hold.unique (hv1.old hjson)
        obtain rfl : agents = agents' := by simpa [hagents] using hv1.agents
        exact ⟨_, _, _, converted_converted hold hof hfresh hempty fun hne => (hfiles hne).2⟩
      · intro hno
        exact absurd ⟨hold.version, hold.id, hagents⟩ (hno doc sid agents hold.sessionJson)
  · have hno : ∀ doc sid, ¬Old e doc sid := fun doc sid h => hold ⟨doc, sid, h⟩
    rw [final_of_not_old hno]
    constructor
    · rintro - doc sid hjson hversion hid
      exact absurd ⟨hjson, hversion, hid⟩ (hno doc sid)
    · intro _
      refine ⟨(migrateOne_of_not_old hno).2, ?_, fun _ => rfl⟩
      intro doc sid agents hjson hv1
      exact absurd (hv1.old hjson) (hno doc sid)

theorem final_not_old (h : (migrateOne uuid now e).outcome ≠ .raised) (doc : Entries)
    (sid : String) : ¬Old ((migrateOne uuid now e).final e) doc sid := by
  by_cases hold : ∃ doc sid, Old e doc sid
  · obtain ⟨doc', sid', hold⟩ := hold
    rw [hold.migrateOne_eq] at h ⊢
    obtain ⟨agents, hagents, hwritable⟩ := writable_of_ne_raised hold.id h
    rw [final_doMigrate hold.id hagents hwritable]
    exact converted_not_old doc sid
  · have hno : ∀ doc sid, ¬Old e doc sid := fun doc sid h => hold ⟨doc, sid, h⟩
    rw [final_of_not_old hno]
    exact hno doc sid

end

/-! ## The whole directory -/

section
variable {env env' : Env} {entries : List (String × SessionDir)}

/-- The migration of an entry. -/
def one (env : Env) (p : String × SessionDir) : Migration :=
  migrateOne (env.uuid p.1) env.now p.2

/-- The entry after it. -/
def after (env : Env) (p : String × SessionDir) : String × SessionDir :=
  (p.1, (one env p).final p.2)

theorem runEntries_cons {p : String × SessionDir} (h : (one env p).outcome ≠ .raised) :
    runEntries env (p :: entries) =
      ⟨((one env p).steps.map fun x => (p.1, x) :: entries) ++
          (runEntries env entries).states.map fun d => after env p :: d,
        after env p :: (runEntries env entries).final,
        (runEntries env entries).counts.map fun c => c.add (one env p).outcome⟩ := by
  obtain ⟨name, e⟩ := p
  unfold one at h
  conv_lhs => unfold runEntries
  cases houtcome : (migrateOne (env.uuid name) env.now e).outcome with
  | raised => exact absurd houtcome h
  | migrated | skipped | noSessionJson | failed => simp [houtcome, one, after]

theorem counts_runEntries : (runEntries env entries).counts ≠ none ↔
    ∀ p ∈ entries, (one env p).outcome ≠ .raised := by
  induction entries with
  | nil => simp [runEntries]
  | cons p entries ih =>
    by_cases h : (one env p).outcome = .raised
    · have hone := h
      unfold one at hone
      simp [runEntries, hone, h]
    · rw [runEntries_cons h]
      simpa [h] using ih

theorem final_runEntries (h : ∀ p ∈ entries, (one env p).outcome ≠ .raised) :
    (runEntries env entries).final = entries.map (after env) := by
  induction entries with
  | nil => rfl
  | cons p entries ih =>
    rw [runEntries_cons (h p (by simp)), List.map_cons]
    simp only [ih fun q hq => h q (by simp [hq])]

/-- What is there between two operations: the entries before the one that is worked on
are done, and those after it are as they were. -/
theorem mem_states_runEntries (h : ∀ p ∈ entries, (one env p).outcome ≠ .raised)
    {d : List (String × SessionDir)} : d ∈ (runEntries env entries).states ↔
      ∃ pre p post x, entries = pre ++ p :: post ∧ x ∈ (one env p).steps ∧
        d = pre.map (after env) ++ (p.1, x) :: post := by
  induction entries generalizing d with
  | nil => simp [runEntries]
  | cons p entries ih =>
    rw [runEntries_cons (h p (by simp))]
    simp only [List.mem_append, List.mem_map, ih fun q hq => h q (by simp [hq])]
    constructor
    · rintro (⟨x, hx, rfl⟩ | ⟨d, ⟨pre, q, post, x, rfl, hx, rfl⟩, rfl⟩)
      · exact ⟨[], p, entries, x, rfl, hx, rfl⟩
      · exact ⟨p :: pre, q, post, x, rfl, hx, rfl⟩
    · rintro ⟨pre, q, post, x, heq, hx, rfl⟩
      cases pre with
      | nil =>
        obtain ⟨rfl, rfl⟩ := List.cons.inj heq
        exact .inl ⟨x, hx, rfl⟩
      | cons r pre =>
        obtain ⟨rfl, rfl⟩ := List.cons.inj heq
        exact .inr ⟨_, ⟨pre, q, post, x, rfl, hx, rfl⟩, rfl⟩

theorem run_of_none_old (h : ∀ p ∈ entries, ∀ doc sid, ¬Old p.2 doc sid) :
    (run env (.dir entries)).counts ≠ none ∧ (run env (.dir entries)).states = [] ∧
      (run env (.dir entries)).final = .dir entries := by
  have hreturns : ∀ p ∈ entries, (one env p).outcome ≠ .raised :=
    fun p hp => (migrateOne_of_not_old (h p hp)).2
  refine ⟨counts_runEntries.mpr hreturns, ?_, ?_⟩
  · simp only [run, List.map_eq_nil_iff]
    rw [List.eq_nil_iff_forall_not_mem]
    intro d hd
    obtain ⟨pre, p, post, x, rfl, hx, -⟩ := (mem_states_runEntries hreturns).mp hd
    unfold one at hx
    rw [(migrateOne_of_not_old (h p (by simp))).1] at hx
    exact absurd hx List.not_mem_nil
  · simp only [run, final_runEntries hreturns]
    congr 1
    conv_rhs => rw [← List.map_id entries]
    apply List.map_congr_left
    intro p hp
    exact Prod.ext rfl (final_of_not_old (h p hp))

theorem each_after {R : SessionDir → SessionDir → Prop} :
    Each R (.dir entries) (.dir (entries.map (after env))) ↔
      ∀ p ∈ entries, R p.2 ((one env p).final p.2) := by
  simp only [Each]
  rw [List.forall₂_map_right_iff, List.forall₂_same]
  simp [after]

theorem converts_iff {d : Sessions} (h : FreshIn env env' d) :
    Converts env env' d ↔ Every Convertible d := by
  cases d with
  | missing => exact ⟨fun _ => trivial, fun _ => ⟨by simp [run], trivial, by simp [run]⟩⟩
  | notListable => exact ⟨fun hc => absurd rfl hc.returns, False.elim⟩
  | dir entries =>
    have hone : ∀ p ∈ entries, (one env p).outcome ≠ .raised ∧
        Result p.2 ((one env p).final p.2) ↔ Convertible p.2 :=
      fun p hp => result_iff (h p hp)
    constructor
    · intro hc p hp
      have hreturns := counts_runEntries.mp hc.returns
      have hresult := hc.result
      simp only [run, final_runEntries hreturns, each_after] at hresult
      exact (hone p hp).mp ⟨hreturns p hp, hresult p hp⟩
    · intro hevery
      have hreturns : ∀ p ∈ entries, (one env p).outcome ≠ .raised :=
        fun p hp => ((hone p hp).mpr (hevery p hp)).1
      have hfinal : (run env (.dir entries)).final = .dir (entries.map (after env)) := by
        simp only [run, final_runEntries hreturns]
      refine ⟨counts_runEntries.mpr hreturns, ?_, ?_⟩
      · rw [hfinal, each_after]
        exact fun p hp => ((hone p hp).mpr (hevery p hp)).2
      · rw [hfinal]
        apply run_of_none_old
        intro q hq
        obtain ⟨p, hp, rfl⟩ := List.mem_map.mp hq
        exact final_not_old (hreturns p hp)

end

/-! ## A run that is stopped -/

theorem get_updated {f : Value → Value} (doc : Entries) :
    get key (doc.map fun e => if e.1.isStr key then (e.1, f e.2) else e) =
      (get key doc).map f := by
  induction doc with
  | nil => rfl
  | cons e doc ih =>
    rw [List.map_cons, get_cons, get_cons, ih]
    by_cases he : e.1.isStr key = true <;> simp [he]

section
variable {uuid uuid' : Nat → String} {now now' : String} {e x : SessionDir} {doc : Entries}
  {sid : String} {agents : List Entries}

theorem exists_interrupted (hid : get "id" doc = some (.str sid))
    (hagents : agentsOf doc = some (agents.map .map)) (h : Writable e agents)
    (hne : agents ≠ []) :
    ∃ files : Ets String Content, files.lookup (instanceFile (uuid 0)) ≠ none ∧
      { e with agents := .dir e.agents.writable files } ∈ (doMigrate uuid now e doc).steps := by
  obtain ⟨files, hmem, hfile⟩ :
      ∃ files ∈ (written uuid now e doc sid agents).states,
        files.lookup (instanceFile (uuid 0)) ≠ none := by
    cases agents with
    | nil => exact absurd rfl hne
    | cons agent agents =>
      simp only [written, List.map_cons, writeAgents]
      exact ⟨_, List.mem_cons_of_mem _ List.mem_cons_self, by simp⟩
  refine ⟨files, hfile, ?_⟩
  rw [doMigrate_eq hid hagents h]
  simp only [List.mem_append, List.mem_map]
  exact .inl (.inr ⟨files, hmem, rfl⟩)

theorem mem_newIds_of_same {ρ : Equiv.Perm String}
    (h : Content.json (.map (v2Doc doc (newIds uuid' agents))) =
      updateField "agent_ids" (renameIds ρ) (.json (.map (v2Doc doc (newIds uuid agents)))))
    {id : String} (hid : id ∈ newIds uuid agents) : ρ id ∈ newIds uuid' agents := by
  simp only [updateField, Content.json.injEq, Value.map.injEq] at h
  have hids := congrArg (get "agent_ids") h
  rw [get_updated, get_v2Doc_ids, get_v2Doc_ids] at hids
  simp only [Option.map_some, renameIds, Option.some.injEq, Value.list.injEq] at hids
  have hmem : renameId ρ (.str id) ∈ (newIds uuid' agents).map Value.str := by
    rw [hids]
    exact List.mem_map_of_mem (List.mem_map_of_mem hid)
  obtain ⟨id', hid', heq⟩ := List.mem_map.mp hmem
  simp only [renameId, Value.str.injEq] at heq
  rwa [← heq]

theorem not_sameUpToIds (hold : Old e doc sid) (hagents : agentsOf doc = some (agents.map .map))
    (hfresh : Fresh uuid uuid' e)
    (hempty : ∀ name, IsInstanceFile name → e.agents.files.lookup name = none)
    (hsid : agents ≠ [] → UuidTranslator.uuidShape sid = true) (hne : agents ≠ [])
    (hleft : x.agents.files.lookup (instanceFile (uuid 0)) ≠ none) :
    ¬SameUpToIds (converted uuid now e doc sid agents)
      (converted uuid' now' x doc sid agents) := by
  rintro ⟨ρ, hjson, -, -, hsame⟩
  have hlen : 0 < agents.length := List.length_pos_iff.mpr hne
  have huuids := uuids_eq hold.sessionJson hagents
  have hexact := (@converted_converted uuid now _ _ _ _ _ hold hagents hfresh hempty hsid).exact
  have hthere : (written uuid' now' x doc sid agents).files.lookup (instanceFile (uuid 0)) ≠ none :=
    lookup_writeAgents_ne_none agents 0 (isInstanceFile_instanceFile (uuid 0)) hleft
  have hinst := hsame.instances (ρ.symm (uuid 0))
  rw [Equiv.apply_symm_apply] at hinst
  have hnamed : (written uuid now e doc sid agents).files.lookup
      (instanceFile (ρ.symm (uuid 0))) ≠ none := by
    intro hnone
    rw [hnone] at hinst
    exact hthere hinst
  obtain ⟨id, hid, heq⟩ := (hexact _ (isInstanceFile_instanceFile _)).mp hnamed
  obtain rfl := instanceFile_inj heq
  have hmem := mem_newIds_of_same hjson hid
  rw [Equiv.apply_symm_apply] at hmem
  obtain ⟨j, hj, hsame⟩ := mem_newIds.mp hmem
  exact hfresh.other 0 (by omega) j (by omega) hsame.symm

theorem settles (hconvertible : Convertible e) (hnone : Agentless e)
    (hx : x ∈ e :: (migrateOne uuid now e).steps) :
    (migrateOne uuid' now' x).outcome ≠ .raised ∧
      (migrateOne uuid' now' x).final x = (migrateOne uuid now e).final e := by
  by_cases hold : ∃ doc sid, Old e doc sid
  · obtain ⟨doc, sid, hold⟩ := hold
    obtain ⟨agents, hagents, hdir, htmp, -, -⟩ :=
      hconvertible doc sid hold.sessionJson hold.version hold.id
    obtain rfl := hnone doc sid agents hold.sessionJson ⟨hold.version, hold.id, hagents⟩
    have hof := oldAgents_eq_some hagents
    have hwritable : Writable e [] := ⟨hdir, htmp, fun h => absurd rfl h⟩
    have hagain (hold' : Old x doc sid) (hwritable' : Writable x [])
        (hsame : x.agents.writable = e.agents.writable ∧ x.agents.files = e.agents.files) :
        (migrateOne uuid' now' x).outcome ≠ .raised ∧
          (migrateOne uuid' now' x).final x = (migrateOne uuid now e).final e := by
      rw [hold.migrateOne_eq, hold'.migrateOne_eq, final_doMigrate hold.id hof hwritable,
        final_doMigrate hold.id hof hwritable', doMigrate_eq hold.id hof hwritable']
      refine ⟨by simp, ?_⟩
      simp [converted, newIds, written, writeAgents, hsame.1, hsame.2]
    rw [hold.migrateOne_eq, doMigrate_eq hold.id hof hwritable] at hx
    simp only [List.mem_cons, List.mem_append, List.not_mem_nil, or_false] at hx
    rcases hx with rfl | (hmade | hwrite) | rfl | rfl
    · exact hagain hold hwritable ⟨rfl, rfl⟩
    · cases hcase : e.agents with
      | missing =>
        obtain rfl : x = { e with agents := .dir true Ets.empty } := by
          simpa [made, hcase] using hmade
        exact hagain ⟨hold.sessionJson, hold.version, hold.id⟩
          ⟨by simp, htmp, fun h => absurd rfl h⟩
          ⟨by simp [AgentsDir.writable, hcase], by simp [AgentsDir.files, hcase]⟩
      | blocked => exact absurd hcase hdir
      | dir writable files => simp [made, hcase] at hmade
    · simp [written, writeAgents] at hwrite
    · exact hagain ⟨hold.sessionJson, hold.version, hold.id⟩
        ⟨by simp, by simp, fun h => absurd rfl h⟩ ⟨rfl, rfl⟩
    · have hno : ∀ doc' sid', ¬Old (converted uuid now e doc sid []) doc' sid' :=
        converted_not_old
      rw [hold.migrateOne_eq, final_doMigrate hold.id hof hwritable, final_of_not_old hno]
      exact ⟨(migrateOne_of_not_old hno).2, rfl⟩
  · have hno : ∀ doc sid, ¬Old e doc sid := fun doc sid h => hold ⟨doc, sid, h⟩
    rw [(migrateOne_of_not_old hno).1, List.mem_singleton] at hx
    subst hx
    rw [final_of_not_old hno, final_of_not_old hno]
    exact ⟨(migrateOne_of_not_old hno).2, rfl⟩

end

theorem Migration.final_mem (m : Migration) (e : SessionDir) : m.final e ∈ e :: m.steps := by
  unfold Migration.final
  cases hlast : m.steps.getLast? with
  | none => simp
  | some x => exact List.mem_cons_of_mem _ (List.mem_of_getLast? hlast)

theorem updateField_of_id {f : Value → Value} (h : ∀ v, f v = v) (c : Content) :
    updateField key f c = c := by
  cases c with
  | missing | unreadable | garbage => rfl
  | json v => cases v <;> simp [updateField, h]

theorem SameUpToIds.refl (e : SessionDir) : SameUpToIds e e := by
  have hid : ∀ v, renameId (Equiv.refl _) v = v := fun v => by cases v <;> rfl
  have hids : ∀ v, renameIds (Equiv.refl _) v = v := by
    intro v
    cases v with
    | list ids => simp [renameIds, funext hid]
    | null | bool | int | float | str | map => rfl
  refine ⟨Equiv.refl _, (updateField_of_id hids _).symm, rfl, ?_⟩
  cases e.agents with
  | missing | blocked => trivial
  | dir writable files =>
    refine ⟨rfl, fun id => ?_, fun _ _ => rfl⟩
    rw [funext (updateField_of_id hid)]
    simp

theorem Each.refl {R : SessionDir → SessionDir → Prop} (h : ∀ e, R e e) (d : Sessions) :
    Each R d d := by
  cases d with
  | missing | notListable => trivial
  | dir entries => exact List.forall₂_same.mpr fun p _ => ⟨rfl, h p.2⟩

section
variable {env env' : Env} {entries : List (String × SessionDir)}

theorem forall₂_states (h : ∀ p ∈ entries, (one env p).outcome ≠ .raised)
    {d : List (String × SessionDir)} (hd : d ∈ entries :: (runEntries env entries).states) :
    List.Forall₂ (fun q p => q.1 = p.1 ∧ q.2 ∈ p.2 :: (one env p).steps) d entries := by
  rcases List.mem_cons.mp hd with rfl | hd
  · exact List.forall₂_same.mpr fun p _ => ⟨rfl, List.mem_cons_self⟩
  · obtain ⟨pre, p, post, x, rfl, hx, rfl⟩ := (mem_states_runEntries h).mp hd
    refine List.rel_append ?_ (.cons ⟨rfl, List.mem_cons_of_mem _ hx⟩ ?_)
    · rw [List.forall₂_map_left_iff]
      exact List.forall₂_same.mpr fun q _ => ⟨rfl, Migration.final_mem _ _⟩
    · exact List.forall₂_same.mpr fun q _ => ⟨rfl, List.mem_cons_self⟩

theorem run_of_states (h : ∀ p ∈ entries, Convertible p.2 ∧ Agentless p.2)
    {d : List (String × SessionDir)}
    (hd : List.Forall₂ (fun q p => q.1 = p.1 ∧ q.2 ∈ p.2 :: (one env p).steps) d entries) :
    (∀ q ∈ d, (one env' q).outcome ≠ .raised) ∧ d.map (after env') = entries.map (after env) := by
  induction hd with
  | nil => simp
  | @cons q p d entries hone _ ih =>
    obtain ⟨hreturns, hfinal⟩ := ih fun r hr => h r (by simp [hr])
    obtain ⟨hp, hnone⟩ := h p (by simp)
    obtain ⟨hreturn, hsettled⟩ :=
      @settles (env.uuid p.1) (env'.uuid q.1) env.now env'.now _ _ hp hnone hone.2
    constructor
    · intro r hr
      rcases List.mem_cons.mp hr with rfl | hr
      · exact hreturn
      · exact hreturns r hr
    · rw [List.map_cons, List.map_cons, hfinal]
      congr 1
      exact Prod.ext hone.1 hsettled

theorem recovers_of {d' : Sessions}
    (h : ∀ p ∈ entries, Convertible p.2 ∧ Agentless p.2)
    (hreturns : ∀ p ∈ entries, (one env p).outcome ≠ .raised)
    (hd : d' ∈ .dir entries :: (run env (.dir entries)).states) :
    (run env' d').counts ≠ none ∧
      Each SameUpToIds (run env (.dir entries)).final (run env' d').final := by
  obtain ⟨d, hstate, rfl⟩ :
      ∃ d ∈ entries :: (runEntries env entries).states, Sessions.dir d = d' := by
    rcases List.mem_cons.mp hd with rfl | hd
    · exact ⟨entries, List.mem_cons_self, rfl⟩
    · obtain ⟨d, hmem, rfl⟩ := List.mem_map.mp hd
      exact ⟨d, List.mem_cons_of_mem _ hmem, rfl⟩
  obtain ⟨hreturns', hsame⟩ := @run_of_states env env' _ h _ (forall₂_states hreturns hstate)
  refine ⟨counts_runEntries.mpr hreturns', ?_⟩
  simp only [run, final_runEntries hreturns, final_runEntries hreturns', hsame]
  exact Each.refl SameUpToIds.refl _

theorem forall₂_middle {α β : Type} {R : α → β → Prop} {pre post : List α} {pre' post' : List β}
    {a : α} {b : β} (hlen : pre.length = pre'.length)
    (h : List.Forall₂ R (pre ++ a :: post) (pre' ++ b :: post')) : R a b := by
  induction pre generalizing pre' with
  | nil =>
    obtain rfl := List.length_eq_zero_iff.mp hlen.symm
    exact (List.forall₂_cons.mp h).1
  | cons c pre ih =>
    cases pre' with
    | nil => simp at hlen
    | cons c' pre' => exact ih (by simpa using hlen) (List.forall₂_cons.mp h).2

theorem agentless_of_recovers (hfresh : FreshIn env env' (.dir entries))
    (hconvertible : ∀ p ∈ entries, Convertible p.2)
    (hreturns : ∀ p ∈ entries, (one env p).outcome ≠ .raised)
    (h : ∀ d' ∈ (run env (.dir entries)).states, (run env' d').counts ≠ none ∧
      Each SameUpToIds (run env (.dir entries)).final (run env' d').final) :
    ∀ p ∈ entries, Agentless p.2 := by
  rintro p hp doc sid agents hjson hv1
  by_contra hne
  have hold : Old p.2 doc sid := hv1.old hjson
  obtain ⟨agents', hagents, hdir, htmp, hempty, hfiles⟩ :=
    hconvertible p hp doc sid hjson hv1.version hv1.id
  obtain rfl : agents = agents' := by simpa [hagents] using hv1.agents.symm
  have hof := oldAgents_eq_some hagents
  have hwritable : Writable p.2 agents := ⟨hdir, htmp, fun h => (hfiles h).1⟩
  obtain ⟨files, hleft, hstep⟩ :=
    @exists_interrupted (env.uuid p.1) env.now _ _ _ _ hv1.id hof hwritable hne
  obtain ⟨pre, post, rfl⟩ := List.append_of_mem hp
  have hstate := (mem_states_runEntries hreturns).mpr
    ⟨pre, p, post, _, rfl, by rw [one, hold.migrateOne_eq]; exact hstep, rfl⟩
  obtain ⟨hagain, hsame⟩ := h (.dir _) (List.mem_map_of_mem hstate)
  simp only [run, final_runEntries hreturns, final_runEntries (counts_runEntries.mp hagain),
    List.map_append, List.map_cons, Each] at hsame
  have hone := (forall₂_middle (by simp) hsame).2
  have hold' : Old { p.2 with agents := .dir p.2.agents.writable files } doc sid :=
    ⟨hjson, hv1.version, hv1.id⟩
  have hwritable' : Writable { p.2 with agents := .dir p.2.agents.writable files } agents :=
    ⟨by simp, htmp, hwritable.files⟩
  simp only [after, one] at hone
  rw [hold.migrateOne_eq, hold'.migrateOne_eq, final_doMigrate hv1.id hof hwritable,
    final_doMigrate hv1.id hof hwritable'] at hone
  refine not_sameUpToIds hold hof (hfresh p (by simp)) hempty (fun hne => (hfiles hne).2) hne ?_
    hone
  exact hleft

/-- The runs that may be stopped. -/
theorem migrates_iff {d : Sessions} (h : FreshIn env env' d) :
    Migrates env env' d ↔ Every (fun e => Convertible e ∧ Agentless e) d := by
  cases d with
  | missing =>
    refine ⟨fun _ => trivial, fun _ => ⟨(converts_iff h).mpr trivial, ?_⟩⟩
    simp [run, Each]
  | notListable => exact ⟨fun hm => absurd rfl hm.returns, False.elim⟩
  | dir entries =>
    constructor
    · intro hm
      have hconvertible := (converts_iff h).mp hm.toConverts
      have hagentless := agentless_of_recovers h hconvertible (counts_runEntries.mp hm.returns)
        fun d' hd => hm.recovers d' (List.mem_cons_of_mem _ hd)
      exact fun p hp => ⟨hconvertible p hp, hagentless p hp⟩
    · intro hevery
      have hconverts : Converts env env' (.dir entries) :=
        (converts_iff h).mpr fun p hp => (hevery p hp).1
      exact ⟨hconverts, fun d' hd =>
        recovers_of hevery (counts_runEntries.mp hconverts.returns) hd⟩

end

/-! ### A session with and without an agent -/

def sessionId : String := "6c1d0f34-2b7e-4a58-9d61-0e8a7c5b4f32"

/-- A session of version 1. -/
def sessionOf (agents : List Value) : Sessions :=
  .dir [(sessionId, {
    sessionJson := .json (.map [(.str "agents", .list agents), (.str "id", .str sessionId),
      (.str "primary_agent", .str "dev"), (.str "schema_version", .int 1)])
    tmp := .missing
    agents := .missing })]

/-- An agent of version 1. -/
def dev : Value := .map [(.str "name", .str "dev"), (.str "type", .str "cc")]

def firstBoot : Env where
  uuid _ _ := "0f9e2a1c-6d3b-4c75-8e14-7a2b9c0d5e6f"
  now := "2026-05-10T08:00:00Z"

def secondBoot : Env where
  uuid _ _ := "b3a4c5d6-1e2f-4a3b-9c8d-7e6f5a4b3c2d"
  now := "2026-05-10T08:01:00Z"

theorem fresh_none : FreshIn firstBoot secondBoot (sessionOf []) := by
  intro p hp
  obtain rfl := List.mem_singleton.mp hp
  exact ⟨fun i hi => absurd hi (Nat.not_lt_zero i), fun i hi => absurd hi (Nat.not_lt_zero i),
    fun i hi => absurd hi (Nat.not_lt_zero i), fun i hi => absurd hi (Nat.not_lt_zero i)⟩

theorem migrates_noAgent : FreshIn firstBoot secondBoot (sessionOf []) ∧
    Migrates firstBoot secondBoot (sessionOf []) := by
  refine ⟨fresh_none, (migrates_iff fresh_none).mpr ?_⟩
  intro p hp
  obtain rfl := List.mem_singleton.mp hp
  constructor
  · intro doc sid hjson _ _
    obtain rfl : _ = doc := by simpa using hjson
    exact ⟨[], rfl, by simp, by simp, fun _ _ => rfl, fun h => absurd rfl h⟩
  · intro doc sid agents hjson hv1
    obtain rfl : _ = doc := by simpa using hjson
    exact (Option.some.inj (show some [] = some agents from hv1.agents)).symm

theorem fresh_dev : FreshIn firstBoot secondBoot (sessionOf [dev]) := by
  have hshape : UuidTranslator.uuidShape "0f9e2a1c-6d3b-4c75-8e14-7a2b9c0d5e6f" = true := by
    decide +kernel
  have hother : "0f9e2a1c-6d3b-4c75-8e14-7a2b9c0d5e6f" ≠
      "b3a4c5d6-1e2f-4a3b-9c8d-7e6f5a4b3c2d" := by decide
  intro p hp
  obtain rfl := List.mem_singleton.mp hp
  refine ⟨fun _ _ => hshape, ?_, fun _ _ => rfl, fun _ _ _ _ => hother⟩
  intro i hi j hj _
  change i < 1 at hi
  change j < 1 at hj
  omega

/-- The file of an agent is written twice under two ids when the run is stopped before the
document is. -/
theorem not_migrates_dev : FreshIn firstBoot secondBoot (sessionOf [dev]) ∧
    ¬Migrates firstBoot secondBoot (sessionOf [dev]) := by
  refine ⟨fresh_dev, ?_⟩
  intro hm
  have hagentless := agentless_of_recovers fresh_dev ((converts_iff fresh_dev).mp hm.toConverts)
    (counts_runEntries.mp hm.returns) fun d' hd => hm.recovers d' (List.mem_cons_of_mem _ hd)
  have hnone := hagentless _ List.mem_cons_self _ sessionId
    [[(.str "name", .str "dev"), (.str "type", .str "cc")]] rfl ⟨rfl, rfl, rfl⟩
  exact absurd hnone (by simp)

end AgentMigration
end Esr
