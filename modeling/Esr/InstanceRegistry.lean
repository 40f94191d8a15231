import Esr.Ets
import Esr.Runs

/-! # The registry of agent instances

`Esr.Entity.Agent.InstanceRegistry` keeps the agents of all sessions.  An
instance is attached to a list of sessions and known in each of them by its name.
The metadata table maps ids to instances and, under keys of other shapes, sessions
to the name of their primary agent and spawned agents to the pid of their
supervisor; a second table is the reverse index from session and name to id.  All
writes go through one process, so a history is a list of requests.

Each request is given as the source has it, as a reply and a state.  `Effect` is
the other view: what a request does to the tables, one constructor per way it can
go.  `Sound.step_effect` connects the two, and the invariants of
`InstanceInvariant` and `PrimaryPointer` are proved from `Effect` alone.
-/
namespace Esr
namespace InstanceRegistry

/-- The actor ids of a spawned agent. -/
structure ActorIds where
  cc : String
  pty : String
  deriving DecidableEq

/-- `%Esr.Entity.Agent.Instance{}`. -/
structure Instance (Config : Type) where
  id : String
  sessionIds : List String
  type : String
  name : String
  config : Config
  actorIds : Option ActorIds
  deriving DecidableEq

/-- Normalized attributes of an agent to add.  The first session is the one it is
created in. -/
structure Attrs (Config : Type) where
  sessionIds : List String
  type : String
  name : String
  config : Config
  actorIds : Option ActorIds
  nonempty : sessionIds ≠ []

/-- `primary_sid`, the head of the list of sessions. -/
def Attrs.primarySid {Config : Type} (attrs : Attrs Config) : String :=
  attrs.sessionIds.head attrs.nonempty

/-- The rows `{id, instance}`, `{{:primary, s}, name}` and `{{:instance_sup, s, name}, pid}`
of the metadata table, and the reverse index. -/
structure State (Config : Type) where
  table : Ets String (Instance Config)
  primaryRows : Ets String String
  supRows : Ets (String × String) Nat
  nameIndex : Ets (String × String) String

/-- The replies `{:error, …}`. -/
inductive Error where
  | duplicateAgentName (name : String)
  | spawnFailed
  | cannotRemovePrimary
  | notFound
  | duplicateName
  | nameTakenInTarget (sid : String)
  deriving DecidableEq

variable {Config : Type}

/-- `init/1`: no rows. -/
def init : State Config := ⟨Ets.empty, Ets.empty, Ets.empty, Ets.empty⟩

/-! ## Reads -/

/-- `get/3`. -/
def get (st : State Config) (sid name : String) : Option (Instance Config) :=
  match st.nameIndex.lookup (sid, name) with
  | some instanceId => st.table.lookup instanceId
  | none => none

/-- `primary/2`. -/
def primary (st : State Config) (sid : String) : Option String := st.primaryRows.lookup sid

/-- `list/2`. -/
def list (st : State Config) (sid : String) : List (Instance Config) :=
  (st.nameIndex.tab2list.filter fun row => row.1.1 = sid).filterMap fun row =>
    st.table.lookup row.2

/-! ## Requests -/

/-- `for sid <- session_ids, do: :ets.insert(index, {{sid, name}, id})`. -/
def indexEach (ix : Ets (String × String) String) (sids : List String) (name id : String) :
    Ets (String × String) String :=
  sids.foldl (fun ix s => ix.insert (s, name) id) ix

/-- Auto-promotion: the session's primary row is written if there is none. -/
def promote (rows : Ets String String) (sid name : String) : Ets String String :=
  if rows.lookup sid = none then rows.insert sid name else rows

/-- `handle_call({:add_instance, attrs}, …)`, with the uuid it generates. -/
def addInstance (st : State Config) (attrs : Attrs Config) (instanceId : String) :
    Except Error Unit × State Config :=
  match attrs.sessionIds.find? fun s => (st.nameIndex.lookup (s, attrs.name)).isSome with
  | some _ => (.error (.duplicateAgentName attrs.name), st)
  | none =>
      let inst : Instance Config :=
        { id := instanceId, sessionIds := attrs.sessionIds, type := attrs.type,
          name := attrs.name, config := attrs.config, actorIds := attrs.actorIds }
      (.ok (),
        { st with
          table := st.table.insert instanceId inst
          nameIndex := indexEach st.nameIndex attrs.sessionIds attrs.name instanceId
          primaryRows := promote st.primaryRows attrs.primarySid attrs.name })

/-- `handle_call({:add_instance_and_spawn, attrs}, …)`, with the two uuids it
generates and the supervisor it spawns, if that succeeds. -/
def addInstanceAndSpawn (st : State Config) (attrs : Attrs Config) (ccId ptyId : String)
    (spawned : Option Nat) : Except Error ActorIds × State Config :=
  match attrs.sessionIds.find? fun s => (st.nameIndex.lookup (s, attrs.name)).isSome with
  | some _ => (.error (.duplicateAgentName attrs.name), st)
  | none =>
      match spawned with
      | some supPid =>
          let inst : Instance Config :=
            { id := ccId, sessionIds := attrs.sessionIds, type := attrs.type,
              name := attrs.name, config := attrs.config, actorIds := some ⟨ccId, ptyId⟩ }
          (.ok ⟨ccId, ptyId⟩,
            { table := st.table.insert ccId inst
              nameIndex := indexEach st.nameIndex attrs.sessionIds attrs.name ccId
              supRows := st.supRows.insert (attrs.primarySid, attrs.name) supPid
              primaryRows := promote st.primaryRows attrs.primarySid attrs.name })
      | none => (.error .spawnFailed, st)

/-- The metadata table after `do_detach/4`.  `xs -- [x]` removes the first
occurrence only. -/
def detachRow (t : Ets String (Instance Config)) (instanceId sid : String) :
    Ets String (Instance Config) :=
  match t.lookup instanceId with
  | some inst =>
      if inst.sessionIds.erase sid = [] then t.delete instanceId
      else t.insert instanceId { inst with sessionIds := inst.sessionIds.erase sid }
  | none => t

/-- `do_detach/4`. -/
def doDetach (st : State Config) (instanceId sid name : String) : State Config :=
  { st with
    nameIndex := st.nameIndex.delete (sid, name)
    table := detachRow st.table instanceId sid }

/-- `handle_call({:remove_instance, session_id, name}, …)`. -/
def removeInstance (st : State Config) (sid name : String) : Except Error Unit × State Config :=
  match st.nameIndex.lookup (sid, name) with
  | none => (.error .notFound, st)
  | some instanceId =>
      if st.primaryRows.lookup sid = some name then (.error .cannotRemovePrimary, st)
      else (.ok (), doDetach st instanceId sid name)

/-- `handle_call({:set_primary, session_id, name}, …)`. -/
def setPrimary (st : State Config) (sid name : String) : Except Error Unit × State Config :=
  match st.nameIndex.lookup (sid, name) with
  | none => (.error .notFound, st)
  | some _ => (.ok (), { st with primaryRows := st.primaryRows.insert sid name })

/-- The loop of a rename over the reverse index. -/
def renameIndex (ix : Ets (String × String) String) (sids : List String)
    (name newName id : String) : Ets (String × String) String :=
  sids.foldl (fun ix s => (ix.delete (s, name)).insert (s, newName) id) ix

/-- The loop of a rename over the primary rows. -/
def renamePrimary (rows : Ets String String) (sids : List String) (name newName : String) :
    Ets String String :=
  sids.foldl (fun rows s => if rows.lookup s = some name then rows.insert s newName else rows) rows

/-- The loop of a rename over the supervisor rows. -/
def renameSup (rows : Ets (String × String) Nat) (sids : List String) (name newName : String) :
    Ets (String × String) Nat :=
  sids.foldl
    (fun rows s =>
      match rows.lookup (s, name) with
      | some pid => (rows.delete (s, name)).insert (s, newName) pid
      | none => rows)
    rows

/-- `handle_call({:rename_instance, sid, name, new_name}, …)`. -/
def renameInstance (st : State Config) (sid name newName : String) :
    Except Error Unit × State Config :=
  if name = newName then (.ok (), st)
  else if st.nameIndex.lookup (sid, newName) ≠ none then (.error .duplicateName, st)
  else
    match st.nameIndex.lookup (sid, name) with
    | none => (.error .notFound, st)
    | some instanceId =>
        match st.table.lookup instanceId with
        | none => (.error .notFound, st)
        | some inst =>
            (.ok (),
              { table := st.table.insert instanceId { inst with name := newName }
                nameIndex := renameIndex st.nameIndex inst.sessionIds name newName instanceId
                primaryRows := renamePrimary st.primaryRows inst.sessionIds name newName
                supRows := renameSup st.supRows inst.sessionIds name newName })

/-- `handle_call({:attach_to_session, name, source_sid, target_sid}, …)`. -/
def attachToSession (st : State Config) (name sourceSid targetSid : String) :
    Except Error Unit × State Config :=
  match st.nameIndex.lookup (sourceSid, name) with
  | none => (.error .notFound, st)
  | some instanceId =>
      match st.table.lookup instanceId with
      | none => (.error .notFound, st)
      | some inst =>
          if targetSid ∈ inst.sessionIds then (.ok (), st)
          else if st.nameIndex.lookup (targetSid, name) ≠ none then
            (.error (.nameTakenInTarget targetSid), st)
          else
            (.ok (),
              { st with
                table := st.table.insert instanceId
                  { inst with sessionIds := inst.sessionIds ++ [targetSid] }
                nameIndex := st.nameIndex.insert (targetSid, name) instanceId })

/-- The requests that write. -/
inductive Op (Config : Type) where
  | addInstance (attrs : Attrs Config) (instanceId : String)
  | addInstanceAndSpawn (attrs : Attrs Config) (ccId ptyId : String) (spawned : Option Nat)
  | removeInstance (sid name : String)
  | setPrimary (sid name : String)
  | renameInstance (sid name newName : String)
  | attachToSession (name sourceSid targetSid : String)

/-- One request.  A generated uuid is not the id of a live instance. -/
def step (st : State Config) : Op Config → Option (State Config)
  | .addInstance attrs instanceId =>
      if st.table.lookup instanceId = none then some (addInstance st attrs instanceId).2 else none
  | .addInstanceAndSpawn attrs ccId ptyId spawned =>
      if st.table.lookup ccId = none then some (addInstanceAndSpawn st attrs ccId ptyId spawned).2
      else none
  | .removeInstance sid name => some (removeInstance st sid name).2
  | .setPrimary sid name => some (setPrimary st sid name).2
  | .renameInstance sid name newName => some (renameInstance st sid name newName).2
  | .attachToSession name sourceSid targetSid =>
      some (attachToSession st name sourceSid targetSid).2

/-! ## A refused request leaves the tables alone -/

section Refused
variable {st : State Config} {e : Error}

theorem addInstance_refused {attrs : Attrs Config} {id : String}
    (h : (addInstance st attrs id).1 = .error e) : (addInstance st attrs id).2 = st := by
  unfold addInstance at h ⊢
  split at h
  · rfl
  · cases h

theorem addInstanceAndSpawn_refused {attrs : Attrs Config} {ccId ptyId : String}
    {spawned : Option Nat} (h : (addInstanceAndSpawn st attrs ccId ptyId spawned).1 = .error e) :
    (addInstanceAndSpawn st attrs ccId ptyId spawned).2 = st := by
  unfold addInstanceAndSpawn at h ⊢
  split at h
  · rfl
  · cases spawned with
    | none => rfl
    | some pid => cases h

theorem attachToSession_refused {name sourceSid targetSid : String}
    (h : (attachToSession st name sourceSid targetSid).1 = .error e) :
    (attachToSession st name sourceSid targetSid).2 = st := by
  unfold attachToSession at h ⊢
  cases hix : st.nameIndex.lookup (sourceSid, name) with
  | none => rfl
  | some id =>
    cases hrow : st.table.lookup id with
    | none => simp only [hrow]
    | some inst =>
      simp only [hix, hrow] at h ⊢
      by_cases hold : targetSid ∈ inst.sessionIds
      · rw [if_pos hold]
      rw [if_neg hold] at h ⊢
      by_cases htaken : st.nameIndex.lookup (targetSid, name) ≠ none
      · rw [if_pos htaken]
      · rw [if_neg htaken] at h
        cases h

end Refused

/-! ## What the loops do to a lookup -/

theorem lookup_indexEach (sids : List String) (ix : Ets (String × String) String)
    (name id s m : String) :
    (indexEach ix sids name id).lookup (s, m) =
      if s ∈ sids ∧ m = name then some id else ix.lookup (s, m) := by
  induction sids generalizing ix with
  | nil => simp [indexEach]
  | cons t sids ih =>
    have hstep : indexEach ix (t :: sids) name id =
        indexEach (ix.insert (t, name) id) sids name id :=
      rfl
    rw [hstep, ih, Ets.lookup_insert]
    by_cases hs : s ∈ sids ∧ m = name
    · simp [hs]
    · by_cases ht : s = t <;> by_cases hm : m = name <;> simp_all

theorem lookup_promote (rows : Ets String String) (sid name s : String) :
    (promote rows sid name).lookup s = if s = sid then some ((rows.lookup sid).getD name)
      else rows.lookup s := by
  unfold promote
  by_cases hs : s = sid
  · subst hs
    cases hrow : rows.lookup s with
    | none => simp
    | some n => simp [hrow]
  · split <;> simp [Ets.lookup_insert, hs]

theorem lookup_renameIndex {name newName : String} (hne : name ≠ newName) (sids : List String)
    (ix : Ets (String × String) String) (id s m : String) :
    (renameIndex ix sids name newName id).lookup (s, m) =
      if s ∈ sids then
        if m = newName then some id else if m = name then none else ix.lookup (s, m)
      else ix.lookup (s, m) := by
  induction sids generalizing ix with
  | nil => simp [renameIndex]
  | cons t sids ih =>
    have hstep : renameIndex ix (t :: sids) name newName id =
        renameIndex ((ix.delete (t, name)).insert (t, newName) id) sids name newName id := rfl
    rw [hstep, ih, Ets.lookup_insert, Ets.lookup_delete]
    by_cases hs : s ∈ sids <;> by_cases ht : s = t <;> by_cases hm : m = newName <;>
      by_cases hn : m = name <;> simp_all

theorem lookup_renamePrimary {name newName : String} (sids : List String)
    (rows : Ets String String) (s : String) :
    (renamePrimary rows sids name newName).lookup s =
      if s ∈ sids ∧ rows.lookup s = some name then some newName else rows.lookup s := by
  induction sids generalizing rows with
  | nil => simp [renamePrimary]
  | cons t sids ih =>
    have hstep : renamePrimary rows (t :: sids) name newName =
        renamePrimary (if rows.lookup t = some name then rows.insert t newName else rows) sids
          name newName := rfl
    rw [hstep, ih]
    by_cases hrow : rows.lookup t = some name
    · rw [if_pos hrow, Ets.lookup_insert]
      by_cases ht : s = t
      · subst ht
        simp [hrow]
      · simp [ht]
    · rw [if_neg hrow]
      by_cases ht : s = t
      · subst ht
        simp [hrow]
      · simp [ht]

end InstanceRegistry
end Esr
