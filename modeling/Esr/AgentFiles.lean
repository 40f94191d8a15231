import Esr.InstanceInvariant
import Esr.SessionPlaces

/-! # The agents of a session on disk

`session.json` has the ids of a session's agents and the name of the primary one, and
each agent has a file of its own, in the directory of the first session it is in.
Adding an agent to a session and removing one write these files, after the registry has
been changed; attaching an agent to another session and renaming one do not, and no
operation deletes a file.

`mirrors_of_keeps` says in which runs the files follow the registry: those that change it
only by additions, to sessions with a file, whose files can be written.
-/
namespace Esr
namespace AgentFiles
open Yaml UriStore
open InstanceRegistry (Instance Attrs)
open SessionPlaces (SessionStore)

/-- The registry with what mirrors it in the URI store, the sessions' rows, and the
files.  A `session.json` is the term it encodes, or `none` where it encodes none.  The
file of an instance is known by the session whose directory it is in and its id, and is
the record it encodes. -/
structure State (Config : Type) where
  base : UriCompat.State Config
  rows : SessionStore
  sessionFiles : Ets String (Option Value)
  agentFiles : Ets (String × String) (Instance Config)

/-- How the disk answers: whether the file of an instance can be written, why a
`session.json` that is there cannot be read, and whether it can be written. -/
structure Disk where
  agentWritten : String → Bool
  readError : Option String
  sessionWritten : Bool

/-- What an operation answers. -/
inductive Reply where
  | ok
  | refused (e : InstanceRegistry.Error)
  | sessionJsonMissing (reason : String)
  | raised
  deriving DecidableEq

section Operations
variable {Config : Type}

def State.reg (s : State Config) : InstanceRegistry.State Config := s.base.reg

def State.withReg (s : State Config) (reg : InstanceRegistry.State Config) : State Config :=
  { s with base := { s.base with reg := reg } }

/-! ## Writing the files -/

/-- Where the file of an instance is: in the directory of its first session. -/
def path (sid : String) (inst : Instance Config) : String × String :=
  (inst.sessionIds.head?.getD sid, inst.id)

/-- `InstanceJson.write/2`, whose answer is dropped. -/
def writeInstance (disk : Disk) (sid : String) (files : Ets (String × String) (Instance Config))
    (inst : Instance Config) : Ets (String × String) (Instance Config) :=
  if disk.agentWritten inst.id then files.insert (path sid inst) inst else files

/-- `Enum.map(instances, & &1.id)`. -/
def agentIds (instances : List (Instance Config)) : Value :=
  .list (instances.map fun inst => .str inst.id)

/-- The name of the primary agent, or `nil`. -/
def primaryAgent (reg : InstanceRegistry.State Config) (sid : String) : Value :=
  ((InstanceRegistry.primary reg sid).map Value.str).getD .null

/-- The document with the agents of the session. -/
def withAgents (ids primary : Value) (doc : Entries) : Entries :=
  (put "primary_agent" primary (put "agent_ids" ids doc)).filter fun e => !e.1.isStr "agents"

/-- `File.read/1`. -/
def readSession (s : State Config) (disk : Disk) (sid : String) : Except String (Option Value) :=
  match s.sessionFiles.lookup sid with
  | none => .error "enoent"
  | some content =>
      match disk.readError with
      | some reason => .error reason
      | none => .ok content

variable (dispatchToPlugin : String → Option String)

/-- The session's row with its agents, where `session_by_uuid/1` finds one. -/
def refreshRow (rows : SessionStore) (sid : String) (ids primary : Value) : SessionStore :=
  match getEntity dispatchToPlugin rows (SessionUris.canonicalUri sid) with
  | some ("session", row) =>
      putEntity rows (SessionUris.canonicalUri sid) "session"
        { row with agentIds := ids, primaryAgent := primary }
  | _ => rows

/-- `persist_session_agents/2`.  What is no JSON object makes it raise. -/
def persistSessionAgents (disk : Disk) (sid : String) (s : State Config) : Reply × State Config :=
  let instances := InstanceRegistry.list s.reg sid
  let s := { s with agentFiles := instances.foldl (writeInstance disk sid) s.agentFiles }
  match readSession s disk sid with
  | .error reason => (.sessionJsonMissing reason, s)
  | .ok (some (.map doc)) =>
      if disk.sessionWritten then
        let ids := agentIds instances
        let primary := primaryAgent s.reg sid
        (.ok, { s with
          sessionFiles := s.sessionFiles.insert sid (some (.map (withAgents ids primary doc)))
          rows := refreshRow dispatchToPlugin s.rows sid ids primary })
      else (.raised, s)
  | .ok _ => (.raised, s)

/-! ## The operations -/

/-- The attributes of the agent that is added. -/
def attrs (sid type name : String) (config : Config) : Attrs Config where
  sessionIds := [sid]
  type := type
  name := name
  config := config
  actorIds := none
  nonempty := List.cons_ne_nil sid []

/-- `add_agent_to_session/5`, with the uuid that is generated. -/
def addAgentToSession (s : State Config) (sid type name : String) (config : Config) (id : String)
    (disk : Disk) : Reply × State Config :=
  match InstanceRegistry.addInstance s.reg (attrs sid type name config) id with
  | (.ok _, reg) => persistSessionAgents dispatchToPlugin disk sid (s.withReg reg)
  | (.error e, _) => (.refused e, s)

/-- `remove_agent_from_session/3`. -/
def removeAgentFromSession (s : State Config) (sid name : String) (disk : Disk) :
    Reply × State Config :=
  match InstanceRegistry.removeInstance s.reg sid name with
  | (.ok _, reg) => persistSessionAgents dispatchToPlugin disk sid (s.withReg reg)
  | (.error e, _) => (.refused e, s)

/-- The answer of a request to the registry. -/
def replyOf : Except InstanceRegistry.Error Unit → Reply
  | .ok _ => .ok
  | .error e => .refused e

/-- `attach_to_session/3`. -/
def attachToSession (s : State Config) (name sourceSid targetSid : String) :
    Reply × State Config :=
  (replyOf (InstanceRegistry.attachToSession s.reg name sourceSid targetSid).1,
    { s with base := UriCompat.attachToSession s.base name sourceSid targetSid })

/-- `rename_instance/3`. -/
def renameInstance (s : State Config) (sid name newName : String) : Reply × State Config :=
  (replyOf (InstanceRegistry.renameInstance s.reg sid name newName).1,
    { s with base := UriCompat.renameInstance s.base sid name newName })

inductive Act (Config : Type) where
  | add (sid type name : String) (config : Config) (id : String) (disk : Disk)
  | remove (sid name : String) (disk : Disk)
  | attach (name sourceSid targetSid : String)
  | rename (sid name newName : String)

/-- One operation. -/
def run (s : State Config) : Act Config → Reply × State Config
  | .add sid type name config id disk =>
      addAgentToSession dispatchToPlugin s sid type name config id disk
  | .remove sid name disk => removeAgentFromSession dispatchToPlugin s sid name disk
  | .attach name sourceSid targetSid => attachToSession s name sourceSid targetSid
  | .rename sid name newName => renameInstance s sid name newName

/-- A generated uuid is neither that of an instance nor that of a file. -/
def NewUuid (s : State Config) (id : String) : Prop :=
  s.reg.table.lookup id = none ∧ ∀ k ∈ s.agentFiles.keys, k.2 ≠ id

instance (s : State Config) (id : String) : Decidable (NewUuid s id) :=
  inferInstanceAs (Decidable (_ = none ∧ _))

/-- One step. -/
def step (s : State Config) : Act Config → Option (State Config)
  | .add sid type name config id disk =>
      if NewUuid s id then some (run dispatchToPlugin s (.add sid type name config id disk)).2
      else none
  | a => some (run dispatchToPlugin s a).2

/-! ## What is claimed -/

/-- The files mirror the registry.  A `session.json` has the ids of the session's agents,
in some order since a table has none, and its primary; each agent of such a session has
one file, with its record; and there is no file of an agent that is gone. -/
structure Mirrors (s : State Config) : Prop where
  sessions : ∀ sid content, s.sessionFiles.lookup sid = some content →
    ∃ (doc : Entries) (ids : List String),
    content = some (.map doc) ∧ get "agent_ids" doc = some (.list (ids.map Value.str)) ∧
      ids.Perm ((InstanceRegistry.list s.reg sid).map fun inst => inst.id) ∧
      get "primary_agent" doc = some (primaryAgent s.reg sid)
  file : ∀ sid, s.sessionFiles.lookup sid ≠ none → ∀ inst ∈ InstanceRegistry.list s.reg sid,
    ∃ dir, s.agentFiles.lookup (dir, inst.id) = some inst ∧
      ∀ dir', s.agentFiles.lookup (dir', inst.id) ≠ none → dir' = dir
  gone : ∀ dir id, s.agentFiles.lookup (dir, id) ≠ none → s.reg.table.lookup id ≠ none

/-- The registry and the files are as before. -/
structure Unchanged (s s' : State Config) : Prop where
  reg : s'.reg = s.reg
  sessionFiles : s'.sessionFiles = s.sessionFiles
  agentFiles : s'.agentFiles = s.agentFiles

/-- `{:error, _}`. -/
def Reply.isError : Reply → Bool
  | .refused _ | .sessionJsonMissing _ => true
  | .ok | .raised => false

/-- The files mirror the registry after the operation, and where it answers an error
nothing has changed. -/
def Correct (s : State Config) (a : Act Config) : Prop :=
  Mirrors (run dispatchToPlugin s a).2 ∧
    ((run dispatchToPlugin s a).1.isError = true → Unchanged s (run dispatchToPlugin s a).2)

/-- No agent, and every session's file says so. -/
structure Begins (s : State Config) : Prop where
  reg : s.reg = InstanceRegistry.init
  agentFiles : s.agentFiles = Ets.empty
  sessionFiles : ∀ sid content, s.sessionFiles.lookup sid = some content → ∃ doc,
    content = some (.map doc) ∧ get "agent_ids" doc = some (.list []) ∧
      get "primary_agent" doc = some .null

/-- The operation leaves the registry as it is, or adds an agent to a session whose file
is there and can be read, and both files can be written. -/
def Keeps (s : State Config) : Act Config → Prop
  | .add sid _ name _ id disk =>
      s.reg.nameIndex.lookup (sid, name) ≠ none ∨
        (s.sessionFiles.lookup sid ≠ none ∧ disk.readError = none ∧
          disk.sessionWritten = true ∧ disk.agentWritten id = true)
  | .remove sid name _ =>
      s.reg.nameIndex.lookup (sid, name) = none ∨ s.reg.primaryRows.lookup sid = some name
  | .attach name sourceSid targetSid =>
      ∀ inst ∈ InstanceRegistry.get s.reg sourceSid name,
        targetSid ∈ inst.sessionIds ∨ s.reg.nameIndex.lookup (targetSid, name) ≠ none
  | .rename sid name newName =>
      name = newName ∨ s.reg.nameIndex.lookup (sid, newName) ≠ none ∨
        InstanceRegistry.get s.reg sid name = none

end Operations

variable {Config : Type} {dispatchToPlugin : String → Option String} {s s' : State Config}
  {disk : Disk} {sid : String} {files : Ets (String × String) (Instance Config)}
  {instances : List (Instance Config)}

/-! ## What is written -/

theorem lookup_writeAll {k : String × String} {inst : Instance Config}
    (h : (instances.foldl (writeInstance disk sid) files).lookup k = some inst) :
    files.lookup k = some inst ∨
      (inst ∈ instances ∧ path sid inst = k ∧ disk.agentWritten inst.id = true) := by
  induction instances generalizing files with
  | nil => exact .inl h
  | cons i rest ih =>
    rcases ih h with hold | ⟨hmem, hpath⟩
    · unfold writeInstance at hold
      split at hold
      · rename_i hwritten
        rw [Ets.lookup_insert] at hold
        split at hold
        · rename_i hk
          obtain rfl := Option.some.inj hold
          exact .inr ⟨List.mem_cons_self, hk.symm, hwritten⟩
        · exact .inl hold
      · exact .inl hold
    · exact .inr ⟨List.mem_cons_of_mem _ hmem, hpath⟩

theorem writeAll_keeps {k : String × String} (h : files.lookup k ≠ none) :
    (instances.foldl (writeInstance disk sid) files).lookup k ≠ none := by
  induction instances generalizing files with
  | nil => exact h
  | cons i rest ih =>
    refine ih ?_
    unfold writeInstance
    split
    · rw [Ets.lookup_insert]
      split
      · exact Option.some_ne_none _
      · exact h
    · exact h

theorem writeAll_writes {inst : Instance Config} (hmem : inst ∈ instances)
    (hwritten : disk.agentWritten inst.id = true) :
    (instances.foldl (writeInstance disk sid) files).lookup (path sid inst) ≠ none := by
  induction instances generalizing files with
  | nil => cases hmem
  | cons i rest ih =>
    rcases List.mem_cons.mp hmem with rfl | hmem
    · have hnow : (writeInstance disk sid files inst).lookup (path sid inst) ≠ none := by
        unfold writeInstance
        rw [if_pos hwritten, Ets.lookup_insert_self]
        exact Option.some_ne_none _
      rw [List.foldl_cons]
      exact writeAll_keeps hnow
    · exact ih hmem

theorem get_delete {key : String} (hne : key ≠ "agents") (doc : Entries) :
    get key (doc.filter fun e => !e.1.isStr "agents") = get key doc := by
  unfold Yaml.get
  rw [List.find?_filter]
  congr 2
  funext e
  cases he : e.1.isStr key with
  | false => simp
  | true =>
    have hother : e.1.isStr "agents" = false := by
      unfold Value.isStr at he ⊢
      split at he
      · rename_i k hk
        rw [beq_iff_eq.mp he]
        simp [hne]
      · cases he
    simp [hother]

theorem get_withAgents_ids (ids primary : Value) (doc : Entries) :
    get "agent_ids" (withAgents ids primary doc) = some ids := by
  unfold withAgents
  rw [get_delete (by decide), get_put_of_ne _ _ (by decide), get_put_self]

theorem get_withAgents_primary (ids primary : Value) (doc : Entries) :
    get "primary_agent" (withAgents ids primary doc) = some primary := by
  unfold withAgents
  rw [get_delete (by decide), get_put_self]

/-! ## The invariant -/

/-- What holds where only additions have changed the registry: each agent is in one
session, which has a file, and has its own file in the directory of that session. -/
structure Inv (s : State Config) : Prop where
  sound : InstanceRegistry.Sound s.reg
  indexed : InstanceRegistry.Indexed s.reg
  sessions : ∀ sid content, s.sessionFiles.lookup sid = some content →
    ∃ (doc : Entries) (ids : List String),
    content = some (.map doc) ∧ get "agent_ids" doc = some (.list (ids.map Value.str)) ∧
      ids.Perm ((InstanceRegistry.list s.reg sid).map fun inst => inst.id) ∧
      get "primary_agent" doc = some (primaryAgent s.reg sid)
  row : ∀ id inst, s.reg.table.lookup id = some inst → ∃ sid, inst.sessionIds = [sid] ∧
    s.sessionFiles.lookup sid ≠ none ∧ s.agentFiles.lookup (sid, id) ≠ none
  file : ∀ dir id inst, s.agentFiles.lookup (dir, id) = some inst →
    s.reg.table.lookup id = some inst ∧ inst.sessionIds = [dir]

theorem Inv.mirrors (h : Inv s) : Mirrors s := by
  refine ⟨h.sessions, fun sid _ inst hin => ?_, fun dir id hfile => ?_⟩
  · obtain ⟨hrow, -⟩ := (InstanceRegistry.mem_list h.sound h.indexed).mp hin
    obtain ⟨dir, hdir, -, hfile⟩ := h.row inst.id inst hrow
    obtain ⟨inst', hinst'⟩ := Option.ne_none_iff_exists'.mp hfile
    refine ⟨dir, ?_, fun dir' hother => ?_⟩
    · have hsame := (h.file dir inst.id inst' hinst').1
      rw [hrow] at hsame
      rw [hinst', ← hsame]
    · obtain ⟨other, hother⟩ := Option.ne_none_iff_exists'.mp hother
      obtain ⟨hsame, hdir'⟩ := h.file dir' inst.id other hother
      rw [hrow] at hsame
      obtain rfl := Option.some.inj hsame
      rw [hdir] at hdir'
      exact (List.cons.inj hdir').1.symm
  · obtain ⟨inst, hinst⟩ := Option.ne_none_iff_exists'.mp hfile
    rw [(h.file dir id inst hinst).1]
    exact Option.some_ne_none _

theorem Inv.unchanged (h : Inv s) (hu : Unchanged s s') : Inv s' where
  sound := by
    rw [hu.reg]
    exact h.sound
  indexed := by
    rw [hu.reg]
    exact h.indexed
  sessions := by
    rw [hu.reg, hu.sessionFiles]
    exact h.sessions
  row := by
    rw [hu.reg, hu.sessionFiles, hu.agentFiles]
    exact h.row
  file := by
    rw [hu.reg, hu.agentFiles]
    exact h.file

theorem Begins.inv (h : Begins s) : Inv s := by
  refine ⟨?_, ?_, fun sid content hcontent => ?_, ?_, ?_⟩
  · rw [h.reg]
    exact InstanceRegistry.sound_init
  · rw [h.reg]
    exact InstanceRegistry.indexed_init
  · obtain ⟨doc, hdoc, hids, hprimary⟩ := h.sessionFiles sid content hcontent
    refine ⟨doc, [], hdoc, hids, ?_, ?_⟩
    · rw [h.reg]
      exact .nil
    · rw [h.reg]
      exact hprimary
  · rw [h.reg]
    intro id inst hrow
    cases hrow
  · rw [h.agentFiles]
    intro dir id inst hfile
    cases hfile

/-! ## Adding an agent -/

/-- The record of the agent that is added. -/
def newInstance (sid type name : String) (config : Config) (id : String) : Instance Config :=
  ⟨id, [sid], type, name, config, none⟩

theorem addInstance_of_free {reg : InstanceRegistry.State Config} {type name id : String}
    {config : Config} (hfree : reg.nameIndex.lookup (sid, name) = none) :
    InstanceRegistry.addInstance reg (attrs sid type name config) id =
      (.ok (), reg.enter (newInstance sid type name config id) sid reg.supRows) := by
  have hnone : ([sid].find? fun s => (reg.nameIndex.lookup (s, name)).isSome) = none := by
    simp [hfree]
  unfold InstanceRegistry.addInstance
  rw [show (attrs sid type name config).sessionIds = [sid] from rfl,
    show (attrs sid type name config).name = name from rfl, hnone]
  rfl

theorem list_enter {reg : InstanceRegistry.State Config} {inst : Instance Config}
    {sup : Ets (String × String) Nat} (hs : InstanceRegistry.Sound reg)
    (hsid : inst.sessionIds = [sid]) (hnew : reg.table.lookup inst.id = none)
    (hfree : reg.nameIndex.lookup (sid, inst.name) = none) (sid' : String) :
    InstanceRegistry.list (reg.enter inst sid sup) sid' =
      if sid' = sid then inst :: InstanceRegistry.list reg sid'
      else InstanceRegistry.list reg sid' := by
  -- the rows that were there lead to the instances that they led to
  have hold : ((reg.nameIndex.tab2list.filter fun row => row.1.1 = sid').filterMap fun row =>
      (reg.table.insert inst.id inst).lookup row.2) = InstanceRegistry.list reg sid' := by
    unfold InstanceRegistry.list
    refine List.filterMap_congr fun row hrow => ?_
    obtain ⟨⟨s, n⟩, id⟩ := row
    have hix := Ets.mem_tab2list.mp (List.mem_filter.mp hrow).1
    refine Ets.lookup_insert_of_ne _ _ ?_
    rintro rfl
    obtain ⟨inst', hinst', -⟩ := hs.index_row s n _ hix
    rw [hnew] at hinst'
    cases hinst'
  have hindex : (reg.enter inst sid sup).nameIndex.tab2list =
      ((sid, inst.name), inst.id) :: reg.nameIndex.tab2list := by
    have hone : (reg.enter inst sid sup).nameIndex = reg.nameIndex.insert (sid, inst.name) inst.id := by
      rw [InstanceRegistry.State.enter, hsid]
      rfl
    rw [hone, Ets.tab2list_insert_of_none hfree]
  have hlist : InstanceRegistry.list (reg.enter inst sid sup) sid' =
      ((((sid, inst.name), inst.id) :: reg.nameIndex.tab2list).filter
        fun row => row.1.1 = sid').filterMap fun row =>
          (reg.table.insert inst.id inst).lookup row.2 := by
    rw [← hindex]
    rfl
  rw [hlist]
  by_cases hs' : sid' = sid
  · have hhead : (reg.table.insert inst.id inst).lookup inst.id = some inst :=
      Ets.lookup_insert_self _ _ _
    rw [if_pos hs', List.filter_cons_of_pos (by simp [hs'])]
    simp only [List.filterMap_cons, hhead, hold]
  · rw [if_neg hs', List.filter_cons_of_neg (by simpa using fun he => hs' he.symm), hold]

theorem primaryAgent_enter_of_ne {reg : InstanceRegistry.State Config} {inst : Instance Config}
    {sup : Ets (String × String) Nat} {sid' : String} (hne : sid' ≠ sid) :
    primaryAgent (reg.enter inst sid sup) sid' = primaryAgent reg sid' := by
  unfold primaryAgent InstanceRegistry.primary
  rw [InstanceRegistry.State.enter, InstanceRegistry.lookup_promote, if_neg hne]

/-- What is there once the files of the agents have been written. -/
def written (disk : Disk) (sid : String) (s : State Config) : State Config :=
  { s with agentFiles :=
      (InstanceRegistry.list s.reg sid).foldl (writeInstance disk sid) s.agentFiles }

theorem persistSessionAgents_cases (h : s.sessionFiles.lookup sid = none ∨ ∃ doc,
      s.sessionFiles.lookup sid = some (some (.map doc))) :
    (∃ reason, persistSessionAgents dispatchToPlugin disk sid s =
        (.sessionJsonMissing reason, written disk sid s) ∧
          (s.sessionFiles.lookup sid = none ∨ disk.readError ≠ none)) ∨
      (s.sessionFiles.lookup sid ≠ none ∧ disk.sessionWritten = false ∧
        persistSessionAgents dispatchToPlugin disk sid s = (.raised, written disk sid s)) ∨
      ∃ doc, s.sessionFiles.lookup sid = some (some (.map doc)) ∧ disk.readError = none ∧
        disk.sessionWritten = true ∧ ∃ rows, persistSessionAgents dispatchToPlugin disk sid s =
          (.ok, { written disk sid s with
            sessionFiles := s.sessionFiles.insert sid (some (.map (withAgents
              (agentIds (InstanceRegistry.list s.reg sid)) (primaryAgent s.reg sid) doc)))
            rows := rows }) := by
  have hread : readSession (written disk sid s) disk sid = readSession s disk sid := rfl
  have hunfold : persistSessionAgents dispatchToPlugin disk sid s =
      match readSession (written disk sid s) disk sid with
      | .error reason => (.sessionJsonMissing reason, written disk sid s)
      | .ok (some (.map doc)) =>
          if disk.sessionWritten then
            (.ok, { written disk sid s with
              sessionFiles := s.sessionFiles.insert sid (some (.map (withAgents
                (agentIds (InstanceRegistry.list s.reg sid)) (primaryAgent s.reg sid) doc)))
              rows := refreshRow dispatchToPlugin s.rows sid
                (agentIds (InstanceRegistry.list s.reg sid)) (primaryAgent s.reg sid) })
          else (.raised, written disk sid s)
      | .ok _ => (.raised, written disk sid s) := rfl
  rw [hunfold, hread]
  unfold readSession
  rcases h with hnone | ⟨doc, hdoc⟩
  · rw [hnone]
    exact .inl ⟨_, rfl, .inl rfl⟩
  · rw [hdoc]
    cases hreadable : disk.readError with
    | some reason => exact .inl ⟨reason, rfl, .inr (Option.some_ne_none _)⟩
    | none =>
      by_cases hw : disk.sessionWritten = true
      · refine .inr (.inr ⟨doc, rfl, rfl, hw, refreshRow dispatchToPlugin s.rows sid
          (agentIds (InstanceRegistry.list s.reg sid)) (primaryAgent s.reg sid), ?_⟩)
        dsimp only
        rw [if_pos hw]
      · refine .inr (.inl ⟨Option.some_ne_none _, Bool.eq_false_iff.mpr hw, ?_⟩)
        dsimp only
        rw [if_neg hw]

theorem Inv.readable (h : Inv s) (sid : String) : s.sessionFiles.lookup sid = none ∨ ∃ doc,
    s.sessionFiles.lookup sid = some (some (.map doc)) := by
  cases hcontent : s.sessionFiles.lookup sid with
  | none => exact .inl rfl
  | some content =>
    obtain ⟨doc, -, rfl, -⟩ := h.sessions sid content hcontent
    exact .inr ⟨doc, rfl⟩

section Add
variable {type name id : String} {config : Config}

theorem NewUuid.no_file (h : NewUuid s id) (dir : String) : s.agentFiles.lookup (dir, id) = none := by
  cases hfile : s.agentFiles.lookup (dir, id) with
  | none => rfl
  | some inst => exact (h.2 (dir, id) (Ets.mem_keys.mpr ⟨inst, hfile⟩) rfl).elim

/-- The registry with the new agent. -/
def State.entered (s : State Config) (inst : Instance Config) (sid : String) : State Config :=
  s.withReg (s.reg.enter inst sid s.reg.supRows)

theorem Inv.list_entered (h : Inv s) (hnew : NewUuid s id)
    (hfree : s.reg.nameIndex.lookup (sid, name) = none) (type : String) (config : Config)
    (sid' : String) :
    InstanceRegistry.list (s.entered (newInstance sid type name config id) sid).reg sid' =
      if sid' = sid then newInstance sid type name config id :: InstanceRegistry.list s.reg sid'
      else InstanceRegistry.list s.reg sid' :=
  list_enter h.sound (show (newInstance sid type name config id).sessionIds = [sid] from rfl)
    hnew.1 hfree sid'

theorem Inv.sound_entered (h : Inv s) (hnew : NewUuid s id) :
    InstanceRegistry.Sound (s.entered (newInstance sid type name config id) sid).reg :=
  h.sound.enter List.mem_cons_self hnew.1

theorem Inv.indexed_entered (h : Inv s) (hfree : s.reg.nameIndex.lookup (sid, name) = none) :
    InstanceRegistry.Indexed (s.entered (newInstance sid type name config id) sid).reg := by
  refine h.indexed.enter ?_
  intro s' hs'
  rw [List.mem_singleton.mp hs']
  exact hfree

theorem Inv.row_entered (h : Inv s) (hsession : s.sessionFiles.lookup sid ≠ none) {id' : String}
    {v : Instance Config}
    (hrow : (s.entered (newInstance sid type name config id) sid).reg.table.lookup id' = some v) :
    ∃ sid', v.sessionIds = [sid'] ∧ s.sessionFiles.lookup sid' ≠ none ∧
      ((id' = id ∧ v = newInstance sid type name config id ∧ sid' = sid) ∨
        s.agentFiles.lookup (sid', id') ≠ none) := by
  change (s.reg.table.insert id (newInstance sid type name config id)).lookup id' = some v at hrow
  rw [Ets.lookup_insert] at hrow
  by_cases hid : id' = id
  · rw [if_pos hid] at hrow
    obtain rfl := Option.some.inj hrow
    exact ⟨sid, rfl, hsession, .inl ⟨hid, rfl, rfl⟩⟩
  · rw [if_neg hid] at hrow
    obtain ⟨sid', hsids, hthere, hfile⟩ := h.row id' v hrow
    exact ⟨sid', hsids, hthere, .inr hfile⟩

theorem Inv.file_entered (h : Inv s) (hnew : NewUuid s id)
    (hfree : s.reg.nameIndex.lookup (sid, name) = none)
    (hsession : s.sessionFiles.lookup sid ≠ none) {dir id' : String} {v : Instance Config}
    (hfile : (written disk sid
      (s.entered (newInstance sid type name config id) sid)).agentFiles.lookup (dir, id') = some v) :
    (s.entered (newInstance sid type name config id) sid).reg.table.lookup id' = some v ∧
      v.sessionIds = [dir] := by
  rcases lookup_writeAll hfile with hold | ⟨hmem, hpath, -⟩
  · obtain ⟨hrow, hdir⟩ := h.file dir id' v hold
    have hne : id' ≠ id := by
      rintro rfl
      rw [hnew.1] at hrow
      cases hrow
    exact ⟨(Ets.lookup_insert_of_ne _ _ hne).trans hrow, hdir⟩
  · obtain ⟨hrow, -⟩ :=
      (InstanceRegistry.mem_list (h.sound_entered hnew) (h.indexed_entered hfree)).mp hmem
    obtain ⟨sid', hsids, -⟩ := h.row_entered hsession hrow
    unfold path at hpath
    rw [hsids] at hpath
    obtain ⟨rfl, rfl⟩ := Prod.mk.inj hpath
    exact ⟨hrow, hsids⟩

theorem Inv.add (h : Inv s) (hnew : NewUuid s id)
    (hfree : s.reg.nameIndex.lookup (sid, name) = none) {doc : Entries} {rows : SessionStore}
    (hdoc : s.sessionFiles.lookup sid = some (some (.map doc)))
    (hwritten : disk.agentWritten id = true) {s₁ : State Config}
    (hs₁ : s₁ = s.entered (newInstance sid type name config id) sid) :
    Inv { written disk sid s₁ with
      sessionFiles := s₁.sessionFiles.insert sid (some (.map (withAgents
        (agentIds (InstanceRegistry.list s₁.reg sid)) (primaryAgent s₁.reg sid) doc)))
      rows := rows } := by
  have hthere : s.sessionFiles.lookup sid ≠ none := by
    rw [hdoc]
    exact Option.some_ne_none _
  subst hs₁
  have hsound := @Inv.sound_entered _ s sid type name id config h hnew
  have hindexed := @Inv.indexed_entered _ s sid type name id config h hfree
  refine ⟨hsound, hindexed, fun sid' content hfile => ?_, fun id' v hrow => ?_,
    fun dir id' v hfile => h.file_entered hnew hfree hthere hfile⟩
  · change (s.sessionFiles.insert sid _).lookup sid' = some content at hfile
    rw [Ets.lookup_insert] at hfile
    by_cases hsid : sid' = sid
    · rw [if_pos hsid] at hfile
      obtain rfl := Option.some.inj hfile
      obtain rfl := hsid
      refine ⟨_, (InstanceRegistry.list _ sid').map fun inst => inst.id, rfl, ?_, .refl _,
        get_withAgents_primary _ _ _⟩
      rw [get_withAgents_ids, agentIds, List.map_map]
      rfl
    · rw [if_neg hsid] at hfile
      obtain ⟨doc', ids, hdoc', hids, hperm, hprimary⟩ := h.sessions sid' content hfile
      refine ⟨doc', ids, hdoc', hids, ?_, ?_⟩
      · change ids.Perm ((InstanceRegistry.list (s.entered _ sid).reg sid').map fun inst => inst.id)
        rw [h.list_entered hnew hfree, if_neg hsid]
        exact hperm
      · change get "primary_agent" doc' = some (primaryAgent (s.reg.enter _ sid _) sid')
        rw [primaryAgent_enter_of_ne hsid]
        exact hprimary
  · obtain ⟨sid', hsids, hsession, hor⟩ := h.row_entered hthere hrow
    refine ⟨sid', hsids, ?_, ?_⟩
    · change (s.sessionFiles.insert sid _).lookup sid' ≠ none
      rw [Ets.lookup_insert]
      split
      · exact Option.some_ne_none _
      · exact hsession
    · rcases hor with ⟨rfl, rfl, rfl⟩ | hfile
      · have hmem : newInstance sid' type name config id' ∈
            InstanceRegistry.list (s.entered _ sid').reg sid' :=
          (InstanceRegistry.mem_list hsound hindexed).mpr ⟨hrow, List.mem_cons_self⟩
        exact writeAll_writes hmem hwritten
      · exact writeAll_keeps hfile

theorem Inv.not_mirrors_unwritten (h : Inv s) (hnew : NewUuid s id)
    (hfree : s.reg.nameIndex.lookup (sid, name) = none)
    (hsession : s.sessionFiles.lookup sid ≠ none) :
    ¬Mirrors (written disk sid (s.entered (newInstance sid type name config id) sid)) := by
  intro hm
  obtain ⟨content, hcontent⟩ := Option.ne_none_iff_exists'.mp hsession
  obtain ⟨doc, ids, rfl, hids, hperm, -⟩ := h.sessions sid content hcontent
  obtain ⟨doc', ids', hdoc', hids', hperm', -⟩ := hm.sessions sid (some (.map doc)) hcontent
  obtain rfl := Value.map.inj (Option.some.inj hdoc')
  rw [hids] at hids'
  obtain rfl : ids = ids' :=
    List.map_injective_iff.mpr (fun _ _ he => Value.str.inj he)
      (Value.list.inj (Option.some.inj hids'))
  have hlist : InstanceRegistry.list (written disk sid
      (s.entered (newInstance sid type name config id) sid)).reg sid =
        newInstance sid type name config id :: InstanceRegistry.list s.reg sid :=
    (h.list_entered hnew hfree type config sid).trans (if_pos rfl)
  rw [hlist] at hperm'
  have hlength := (hperm'.symm.trans hperm).length_eq
  simp at hlength

theorem Inv.not_mirrors_noFile (h : Inv s) (hnew : NewUuid s id)
    (hfree : s.reg.nameIndex.lookup (sid, name) = none) (hno : disk.agentWritten id = false)
    (hsession : s'.sessionFiles.lookup sid ≠ none)
    (hreg : s'.reg = (s.entered (newInstance sid type name config id) sid).reg)
    (hfiles : s'.agentFiles =
      (written disk sid (s.entered (newInstance sid type name config id) sid)).agentFiles) :
    ¬Mirrors s' := by
  intro hm
  have hmem : newInstance sid type name config id ∈ InstanceRegistry.list s'.reg sid := by
    rw [hreg, h.list_entered hnew hfree, if_pos rfl]
    exact List.mem_cons_self
  obtain ⟨dir, hfile, -⟩ := hm.file sid hsession _ hmem
  rw [hfiles] at hfile
  rcases lookup_writeAll hfile with hold | ⟨-, -, hwritten⟩
  · have hnone := hnew.no_file dir
    change s.agentFiles.lookup (dir, id) = _ at hold
    rw [hnone] at hold
    cases hold
  · rw [show disk.agentWritten id = true from hwritten] at hno
    cases hno

/-- **Adding an agent**: the files follow exactly where the name is taken, or everything
that is to be written can be. -/
theorem Inv.add_iff (h : Inv s) (hnew : NewUuid s id) :
    (Keeps s (.add sid type name config id disk) →
      Inv (run dispatchToPlugin s (.add sid type name config id disk)).2) ∧
    (Correct dispatchToPlugin s (.add sid type name config id disk) ↔
      Keeps s (.add sid type name config id disk)) := by
  by_cases hfree : s.reg.nameIndex.lookup (sid, name) = none
  · have hrun : run dispatchToPlugin s (.add sid type name config id disk) =
        persistSessionAgents dispatchToPlugin disk sid
          (s.entered (newInstance sid type name config id) sid) := by
      show addAgentToSession dispatchToPlugin s sid type name config id disk = _
      unfold addAgentToSession
      rw [addInstance_of_free hfree]
      rfl
    have hkeeps : Keeps s (.add sid type name config id disk) ↔
        s.sessionFiles.lookup sid ≠ none ∧ disk.readError = none ∧
          disk.sessionWritten = true ∧ disk.agentWritten id = true :=
      or_iff_right (not_not_intro hfree)
    unfold Correct
    rw [hrun, hkeeps]
    have hcases := @persistSessionAgents_cases _ dispatchToPlugin
      (s.entered (newInstance sid type name config id) sid) disk sid (h.readable sid)
    rcases hcases with ⟨reason, he, hwhy⟩ | ⟨hsession, hno, he⟩ |
      ⟨doc, hdoc, hread, hsession, rows, he⟩
    · -- the registry has changed, and an error is answered
      have hnot : ¬(s.sessionFiles.lookup sid ≠ none ∧ disk.readError = none ∧
          disk.sessionWritten = true ∧ disk.agentWritten id = true) := by
        rintro ⟨hfile, hread, -⟩
        exact hwhy.elim (fun hnone => hfile hnone) fun herror => herror hread
      refine ⟨fun hk => absurd hk hnot, iff_of_false (fun hc => ?_) hnot⟩
      rw [he] at hc
      have hreg := congrArg (fun reg => reg.table.lookup id) (hc.2 rfl).reg
      have hrow : (s.reg.table.insert id (newInstance sid type name config id)).lookup id =
          s.reg.table.lookup id := hreg
      rw [Ets.lookup_insert_self, hnew.1] at hrow
      cases hrow
    · have hnot : ¬(s.sessionFiles.lookup sid ≠ none ∧ disk.readError = none ∧
          disk.sessionWritten = true ∧ disk.agentWritten id = true) := by
        rintro ⟨-, -, hyes, -⟩
        rw [hno] at hyes
        cases hyes
      refine ⟨fun hk => absurd hk hnot, iff_of_false (fun hc => ?_) hnot⟩
      rw [he] at hc
      exact h.not_mirrors_unwritten hnew hfree hsession hc.1
    · rw [he]
      have hthere : s.sessionFiles.lookup sid ≠ none := by
        rw [show s.sessionFiles.lookup sid = _ from hdoc]
        exact Option.some_ne_none _
      by_cases hw : disk.agentWritten id = true
      · have hinv := @Inv.add _ s disk sid type name id config h hnew hfree doc rows hdoc hw _ rfl
        exact ⟨fun _ => hinv, iff_of_true ⟨hinv.mirrors, nofun⟩ ⟨hthere, hread, hsession, hw⟩⟩
      · refine ⟨fun hk => absurd hk.2.2.2 hw, iff_of_false (fun hc => ?_) fun hk => hw hk.2.2.2⟩
        refine absurd hc.1 (@Inv.not_mirrors_noFile _ s _ disk sid type name id config h hnew
          hfree (Bool.eq_false_iff.mpr hw) ?_ rfl rfl)
        change (s.sessionFiles.insert sid _).lookup sid ≠ none
        rw [Ets.lookup_insert_self]
        exact Option.some_ne_none _
  · have hrun : run dispatchToPlugin s (.add sid type name config id disk) =
        (.refused (.duplicateAgentName name), s) := by
      obtain ⟨other, hother⟩ := Option.ne_none_iff_exists'.mp hfree
      show addAgentToSession dispatchToPlugin s sid type name config id disk = _
      unfold addAgentToSession InstanceRegistry.addInstance
      rw [show (attrs sid type name config).sessionIds = [sid] from rfl,
        show (attrs sid type name config).name = name from rfl]
      simp [hother]
    unfold Correct
    rw [hrun]
    exact ⟨fun _ => h, iff_of_true ⟨h.mirrors, fun _ => ⟨rfl, rfl, rfl⟩⟩ (.inl hfree)⟩

end Add

/-! ## The operations that do not write the files -/

theorem Inv.remove_iff (h : Inv s) {name : String} :
    (Keeps s (.remove sid name disk) →
      Inv (run dispatchToPlugin s (.remove sid name disk)).2) ∧
    (Correct dispatchToPlugin s (.remove sid name disk) ↔ Keeps s (.remove sid name disk)) := by
  have hrefused : ∀ e, InstanceRegistry.removeInstance s.reg sid name = (.error e, s.reg) →
      run dispatchToPlugin s (.remove sid name disk) = (.refused e, s) := by
    intro e he
    show removeAgentFromSession dispatchToPlugin s sid name disk = _
    unfold removeAgentFromSession
    rw [he]
  unfold Correct
  cases hix : s.reg.nameIndex.lookup (sid, name) with
  | none =>
    rw [hrefused .notFound (by simp [InstanceRegistry.removeInstance, hix])]
    exact ⟨fun _ => h, iff_of_true ⟨h.mirrors, fun _ => ⟨rfl, rfl, rfl⟩⟩ (.inl hix)⟩
  | some id =>
    by_cases hprimary : s.reg.primaryRows.lookup sid = some name
    · rw [hrefused .cannotRemovePrimary (by simp [InstanceRegistry.removeInstance, hix, hprimary])]
      exact ⟨fun _ => h, iff_of_true ⟨h.mirrors, fun _ => ⟨rfl, rfl, rfl⟩⟩ (.inr hprimary)⟩
    · have hnot : ¬Keeps s (.remove sid name disk) :=
        not_or.mpr ⟨by rw [hix]; exact Option.some_ne_none _, hprimary⟩
      refine ⟨fun hk => absurd hk hnot, iff_of_false (fun hc => ?_) hnot⟩
      obtain ⟨inst, hrow, -, hmem⟩ := h.sound.index_row sid name id hix
      obtain ⟨dir, hdir, -, hfile⟩ := h.row id inst hrow
      let reg := InstanceRegistry.doDetach s.reg id sid name
      have hrun : run dispatchToPlugin s (.remove sid name disk) =
          persistSessionAgents dispatchToPlugin disk sid (s.withReg reg) := by
        show removeAgentFromSession dispatchToPlugin s sid name disk = _
        unfold removeAgentFromSession
        rw [show InstanceRegistry.removeInstance s.reg sid name = (.ok (), reg) by
          simp [InstanceRegistry.removeInstance, hix, hprimary, reg]]
      -- it was the agent's only session, so the agent is gone
      have hgone : reg.table.lookup id = none := by
        show (InstanceRegistry.detachRow s.reg.table id sid).lookup id = none
        have herase : inst.sessionIds.erase sid = [] := by
          rw [hdir] at hmem ⊢
          rw [List.mem_singleton.mp hmem, List.erase_cons_head]
        unfold InstanceRegistry.detachRow
        rw [hrow]
        dsimp only
        rw [if_pos herase, Ets.lookup_delete_self]
      have hstays : (written disk sid (s.withReg reg)).agentFiles.lookup (dir, id) ≠ none :=
        writeAll_keeps hfile
      rw [hrun] at hc
      have hcases := @persistSessionAgents_cases _ dispatchToPlugin (s.withReg reg) disk sid
        (h.readable sid)
      rcases hcases with ⟨reason, he, -⟩ | ⟨-, -, he⟩ | ⟨doc, -, -, -, rows, he⟩ <;>
        · rw [he] at hc
          exact hc.1.gone dir id hstays hgone

theorem Inv.not_mirrors (h : Inv s) (hsessions : s'.sessionFiles = s.sessionFiles)
    (hfiles : s'.agentFiles = s.agentFiles) (hs : InstanceRegistry.Sound s'.reg)
    (hi : InstanceRegistry.Indexed s'.reg) {inst inst' : Instance Config}
    (hrow : s.reg.table.lookup inst.id = some inst)
    (hrow' : s'.reg.table.lookup inst.id = some inst')
    (hsids : ∀ sid ∈ inst.sessionIds, sid ∈ inst'.sessionIds) (hne : inst' ≠ inst) :
    ¬Mirrors s' := by
  intro hm
  obtain ⟨sid, hsid, hsession, -⟩ := h.row inst.id inst hrow
  have hid := hs.row_id _ _ hrow'
  have hmem : inst' ∈ InstanceRegistry.list s'.reg sid := by
    refine (InstanceRegistry.mem_list hs hi).mpr ⟨by rw [hid, hrow'], hsids sid ?_⟩
    rw [hsid]
    exact List.mem_cons_self
  obtain ⟨dir, hfile, -⟩ := hm.file sid (by rwa [hsessions]) inst' hmem
  rw [hfiles, hid] at hfile
  have hsame := (h.file dir inst.id inst' hfile).1
  rw [hrow] at hsame
  exact hne (Option.some.inj hsame).symm

theorem attachToSession_reg (base : UriCompat.State Config) (name sourceSid targetSid : String) :
    (UriCompat.attachToSession base name sourceSid targetSid).reg =
      (InstanceRegistry.attachToSession base.reg name sourceSid targetSid).2 := by
  unfold UriCompat.attachToSession
  split <;>
    · rename_i he
      rw [he]

theorem renameInstance_reg (base : UriCompat.State Config) (sid name newName : String) :
    (UriCompat.renameInstance base sid name newName).reg =
      (InstanceRegistry.renameInstance base.reg sid name newName).2 := by
  unfold UriCompat.renameInstance
  split
  · rename_i he
    rw [he]
    split <;> rfl
  · rename_i he
    rw [he]

theorem Inv.correct_of_unchanged (h : Inv s) {a : Act Config}
    (hu : Unchanged s (run dispatchToPlugin s a).2) :
    Inv (run dispatchToPlugin s a).2 ∧ Correct dispatchToPlugin s a :=
  ⟨h.unchanged hu, (h.unchanged hu).mirrors, fun _ => hu⟩

theorem Inv.attach_iff (h : Inv s) {name sourceSid targetSid : String} :
    (Keeps s (.attach name sourceSid targetSid) →
      Inv (run dispatchToPlugin s (.attach name sourceSid targetSid)).2) ∧
    (Correct dispatchToPlugin s (.attach name sourceSid targetSid) ↔
      Keeps s (.attach name sourceSid targetSid)) := by
  let a : Act Config := .attach name sourceSid targetSid
  have hreg : (run dispatchToPlugin s a).2.reg =
      (InstanceRegistry.attachToSession s.reg name sourceSid targetSid).2 :=
    attachToSession_reg s.base name sourceSid targetSid
  have hkept : (InstanceRegistry.attachToSession s.reg name sourceSid targetSid).2 = s.reg →
      Inv (run dispatchToPlugin s a).2 ∧ Correct dispatchToPlugin s a :=
    fun hsame => h.correct_of_unchanged ⟨hreg.trans hsame, rfl, rfl⟩
  cases hix : s.reg.nameIndex.lookup (sourceSid, name) with
  | none =>
    have hkeeps : Keeps s a := by
      intro inst hget
      obtain ⟨id, hid, -⟩ := InstanceRegistry.get_eq_some.mp hget
      rw [hix] at hid
      cases hid
    obtain ⟨hinv, hcorrect⟩ := hkept (by simp [InstanceRegistry.attachToSession, hix])
    exact ⟨fun _ => hinv, iff_of_true hcorrect hkeeps⟩
  | some id =>
    obtain ⟨inst, hrow, rfl, hname, hmem⟩ := h.sound.row_of_index hix
    by_cases hno : targetSid ∈ inst.sessionIds ∨ s.reg.nameIndex.lookup (targetSid, name) ≠ none
    · have hkeeps : Keeps s a := by
        intro inst' hget
        obtain ⟨id, hid, hrow'⟩ := InstanceRegistry.get_eq_some.mp hget
        rw [hix] at hid
        obtain rfl := Option.some.inj hid
        rw [hrow] at hrow'
        obtain rfl := Option.some.inj hrow'
        exact hno
      have hsame : (InstanceRegistry.attachToSession s.reg name sourceSid targetSid).2 = s.reg := by
        by_cases hin : targetSid ∈ inst.sessionIds
        · simp [InstanceRegistry.attachToSession, hix, hrow, hin]
        · simp [InstanceRegistry.attachToSession, hix, hrow, hin, hno.resolve_left hin]
      obtain ⟨hinv, hcorrect⟩ := hkept hsame
      exact ⟨fun _ => hinv, iff_of_true hcorrect hkeeps⟩
    · obtain ⟨hin, hfree⟩ := not_or.mp hno
      rw [not_not] at hfree
      have hnot : ¬Keeps s a := fun hk =>
        hno (hk inst (InstanceRegistry.get_eq_some.mpr ⟨_, hix, hrow⟩))
      refine ⟨fun hk => absurd hk hnot, iff_of_false (fun hc => ?_) hnot⟩
      have hattach : (run dispatchToPlugin s a).2.reg = s.reg.attach inst name targetSid := by
        rw [hreg]
        simp [InstanceRegistry.attachToSession, hix, hrow, hin, hfree,
          InstanceRegistry.State.attach]
      let inst' : Instance Config := { inst with sessionIds := inst.sessionIds ++ [targetSid] }
      refine absurd hc.1 (@Inv.not_mirrors _ _ _ h rfl rfl ?_ ?_ inst inst' hrow ?_ ?_ ?_)
      · rw [hattach]
        exact h.sound.attach hix hrow hfree
      · rw [hattach]
        exact h.indexed.attach hrow hname hfree
      · rw [hattach]
        exact Ets.lookup_insert_self _ _ _
      · exact fun sid hsid => List.mem_append_left _ hsid
      · intro he
        have hlength : (inst.sessionIds ++ [targetSid]).length = inst.sessionIds.length :=
          congrArg (fun i => i.sessionIds.length) he
        simp at hlength

theorem Inv.rename_iff (h : Inv s) {name newName : String} :
    (Keeps s (.rename sid name newName) →
      Inv (run dispatchToPlugin s (.rename sid name newName)).2) ∧
    (Correct dispatchToPlugin s (.rename sid name newName) ↔
      Keeps s (.rename sid name newName)) := by
  let a : Act Config := .rename sid name newName
  have hreg : (run dispatchToPlugin s a).2.reg =
      (InstanceRegistry.renameInstance s.reg sid name newName).2 :=
    renameInstance_reg s.base sid name newName
  by_cases hkeeps : Keeps s a
  · have hsame : (InstanceRegistry.renameInstance s.reg sid name newName).2 = s.reg := by
      by_cases hne : name = newName
      · simp only [InstanceRegistry.renameInstance, if_pos hne]
      · by_cases htaken : s.reg.nameIndex.lookup (sid, newName) ≠ none
        · simp only [InstanceRegistry.renameInstance, if_neg hne, if_pos htaken]
        · have hnone := (hkeeps.resolve_left hne).resolve_left htaken
          simp only [InstanceRegistry.renameInstance, if_neg hne, if_neg htaken]
          unfold InstanceRegistry.get at hnone
          cases hix : s.reg.nameIndex.lookup (sid, name) with
          | none => rfl
          | some id =>
            rw [hix] at hnone
            simp only [hnone]
    obtain ⟨hinv, hcorrect⟩ := h.correct_of_unchanged (a := a) ⟨hreg.trans hsame, rfl, rfl⟩
    exact ⟨fun _ => hinv, iff_of_true hcorrect hkeeps⟩
  · refine ⟨fun hk => absurd hk hkeeps, iff_of_false (fun hc => ?_) hkeeps⟩
    obtain ⟨hne, hrest⟩ := not_or.mp hkeeps
    obtain ⟨hfree, hget⟩ := not_or.mp hrest
    rw [not_not] at hfree
    obtain ⟨inst, hget⟩ := Option.ne_none_iff_exists'.mp hget
    obtain ⟨id, hix, hrow⟩ := InstanceRegistry.get_eq_some.mp hget
    obtain rfl := h.sound.row_id id inst hrow
    have hname := h.sound.name_of_index hrow hix
    obtain ⟨sid', hsids, -⟩ := h.row inst.id inst hrow
    have hrename : (run dispatchToPlugin s a).2.reg = s.reg.rename inst name newName := by
      rw [hreg]
      simp [InstanceRegistry.renameInstance, hne, hfree, hix, hrow,
        InstanceRegistry.State.rename]
    have honly : ∀ s' ∈ inst.sessionIds, s.reg.nameIndex.lookup (s', newName) = none := by
      obtain ⟨inst', hrow', -, hmem⟩ := h.sound.index_row sid name inst.id hix
      rw [hrow] at hrow'
      obtain rfl := Option.some.inj hrow'
      intro s' hs'
      rw [hsids] at hs' hmem
      rw [List.mem_singleton.mp hs', ← List.mem_singleton.mp hmem]
      exact hfree
    let inst' : Instance Config := { inst with name := newName }
    refine absurd hc.1 (@Inv.not_mirrors _ _ _ h rfl rfl ?_ ?_ inst inst' hrow ?_ ?_ ?_)
    · rw [hrename]
      exact h.sound.rename hne hix hrow
    · rw [hrename]
      exact h.indexed.rename hne hrow hname honly
    · rw [hrename]
      exact Ets.lookup_insert_self _ _ _
    · exact fun _ hs' => hs'
    · intro he
      exact hne (hname.symm.trans (congrArg (fun i => i.name) he).symm)

/-! ## Runs -/

/-- **One operation**: the files follow exactly where it keeps to its condition. -/
theorem Inv.correct_iff (h : Inv s) {a : Act Config} (hs : step dispatchToPlugin s a = some s') :
    (Keeps s a → Inv s') ∧ (Correct dispatchToPlugin s a ↔ Keeps s a) := by
  cases a with
  | add sid type name config id disk =>
    obtain ⟨hnew, rfl⟩ := guard_eq_some.mp hs
    exact h.add_iff hnew
  | remove sid name disk =>
    obtain rfl := Option.some.inj hs
    exact h.remove_iff
  | attach name sourceSid targetSid =>
    obtain rfl := Option.some.inj hs
    exact h.attach_iff
  | rename sid name newName =>
    obtain rfl := Option.some.inj hs
    exact h.rename_iff

/-- **Where the files mirror the registry**: in every run whose operations all keep to
the condition, and after the next operation exactly if that one does. -/
theorem mirrors_of_keeps {s₀ : State Config} (h₀ : Begins s₀)
    (h : Reaches (step dispatchToPlugin) Keeps s₀ s) :
    Mirrors s ∧ ∀ a s', step dispatchToPlugin s a = some s' →
      (Correct dispatchToPlugin s a ↔ Keeps s a) := by
  have hinv : Inv s := by
    refine h.invariant h₀.inv ?_
    intro t a u ht hok hs
    exact (ht.correct_iff hs).1 hok
  exact ⟨hinv.mirrors, fun a s' hs => (hinv.correct_iff hs).2⟩

/-! ## One session -/

/-- A session without agents. -/
def oneSession : State Unit where
  base := UriCompat.start
  rows := Ets.empty
  sessionFiles := Ets.empty.insert "s1"
    (some (.map [(.str "agent_ids", .list []), (.str "primary_agent", .null)]))
  agentFiles := Ets.empty

theorem begins_oneSession : Begins oneSession where
  reg := rfl
  agentFiles := rfl
  sessionFiles := by
    intro sid content hcontent
    change (Ets.empty.insert "s1" _).lookup sid = some content at hcontent
    rw [Ets.lookup_insert] at hcontent
    split at hcontent
    · obtain rfl := Option.some.inj hcontent
      exact ⟨_, rfl, rfl, rfl⟩
    · cases hcontent

/-- A disk that does what it should. -/
def fine : Disk := ⟨fun _ => true, none, true⟩

/-- The agent `dev` is added to it. -/
def addDev : Act Unit := .add "s1" "cc" "dev" () "i1" fine

theorem keeps_addDev : Keeps oneSession addDev :=
  .inr ⟨Option.some_ne_none _, rfl, rfl, rfl⟩

/-- The files mirror the registry once an agent has been added. -/
theorem mirrors_oneAgent : ∃ s, step (fun _ => none) oneSession addDev = some s ∧ Mirrors s ∧
    ∀ a s', step (fun _ => none) s a = some s' → (Correct (fun _ => none) s a ↔ Keeps s a) := by
  have hstep : ∃ s, step (fun _ => none) oneSession addDev = some s := ⟨_, rfl⟩
  obtain ⟨s, hs⟩ := hstep
  refine ⟨s, hs, mirrors_of_keeps begins_oneSession ⟨[addDev], ?_⟩⟩
  exact .cons keeps_addDev hs .nil

/-- **A renamed agent has its old name on disk.** -/
theorem not_mirrors_renamed :
    ¬∀ s, Reaches (step fun _ => none) anyStep oneSession s →
      ∀ a s', step (fun _ => none) s a = some s' → Correct (fun _ => none) s a := by
  intro h
  have hstep : ∃ s, step (fun _ => none) oneSession addDev = some s ∧
      s.reg.nameIndex.lookup ("s1", "ops") = none ∧
        InstanceRegistry.get s.reg "s1" "dev" ≠ none := ⟨_, rfl, rfl, Option.some_ne_none _⟩
  obtain ⟨s, hs, hfree, hget⟩ := hstep
  have hinv := (begins_oneSession.inv.correct_iff hs).1 keeps_addDev
  have hcorrect := h s ⟨[addDev], .cons trivial hs .nil⟩ (.rename "s1" "dev" "ops") _ rfl
  rcases hinv.rename_iff.2.mp hcorrect with hname | htaken | hnone
  · exact absurd hname (by decide)
  · exact htaken hfree
  · exact hget hnone

end AgentFiles
end Esr
