import Esr.ActorIndex
import Esr.ChatRouting
import Esr.InstanceRegistry

/-! # Creating a session

`Esr.Session.Router` creates a session while it handles the call, through
`AgentSpawner.do_create/1`: a supervisor is started, the stages of the pipeline are
spawned under it, and the session is entered in the routing table and in the
registry of instances.  Whatever is called may answer with an error, and what is
raised in `do_create/1` is raised in the Router.

`Env` has the answers of the called.  What a stage does when it starts, as far as
others see it, is to register itself in the index of actors.
-/
namespace Esr
namespace SessionCreate
open ChatRouting (Key Table MapSetOrder attachSession detachSessionById)
open ActorIndex (Meta Index)

/-- A stage of `pipeline.inbound`. -/
structure Spec where
  name : String
  impl : String
  deriving DecidableEq

structure AgentDef where
  inbound : List Spec

/-- The parameters of the call, under either kind of key. -/
structure Params where
  agent : Option String
  agentDef : Option AgentDef
  chatId : Option String
  appId : Option String
  workspaceName : Option String
  startCmd : Option String

/-- How a stage registers itself. -/
structure Peer where
  pid : Nat
  actorId : String
  name : String
  role : String

/-- How the start of a supervisor goes, or of an observer that is asked for. -/
inductive Start where
  | started
  | refused (reason : String)
  | raises
  deriving DecidableEq

/-- How the spawn of a stage goes: `spawn_args/1` and what is before it may raise an
`ArgumentError`, or something else. -/
inductive Spawn where
  | spawned (peer : Option Peer)
  | refused (reason : String)
  | badArgument (message : String)
  | raises

/-- What the called answer.  The `n`-th stage is spawned with `spawn n`; a registry
that is not up takes its caller down; `observer` is `none` when there is no
supervisor of observers. -/
structure Env (Config : Type) where
  sid : String
  instanceId : String
  emptyConfig : Config
  workspaceNameForChat : Key → Option String
  workspaceStartCmd : String → Option String
  stateful : String → Bool
  startSup : Start
  spawn : Nat → Spawn
  routingUp : Bool
  instancesUp : Bool
  observer : Option Start

/-- The Router, the supervisors of sessions, the registries and the observers.
`peers` has the stages that run. -/
structure World (Config : Type) where
  routerUp : Bool
  sessions : List String
  peers : List Meta
  index : Index
  routing : Table
  instances : InstanceRegistry.State Config
  observers : List String

inductive Error where
  | agentRequired
  | agentDefRequired
  | supervisor (reason : String)
  | peerSpawnFailed (spec : Option Spec) (reason : String)
  deriving DecidableEq

/-- A step ends with `:ok`, with an error, or by raising. -/
inductive Outcome where
  | ok
  | error (e : Error)
  | raised
  deriving DecidableEq

inductive Reply where
  | ok (sid : String)
  | error (e : Error)
  | exit
  deriving DecidableEq

variable {Config : Type}

/-- The next step of a `with`. -/
def andThen (r : World Config × Outcome) (k : World Config → World Config × Outcome) :
    World Config × Outcome :=
  match r with
  | (w, .ok) => k w
  | (w, .error e) => (w, .error e)
  | (w, .raised) => (w, .raised)

/-- The key under which a session is routed. -/
def Params.key (params : Params) : Key := (params.chatId.getD "", params.appId.getD "default")

/-- The name of the workspace in `enrich_params/2`. -/
def workspaceName (env : Env Config) (params : Params) : String :=
  params.workspaceName.getD ((env.workspaceNameForChat params.key).getD "default")

/-- `resolve_start_cmd/2`, before the command is expanded. -/
def rawStartCmd (env : Env Config) (params : Params) : Option String :=
  match params.startCmd with
  | some cmd => if cmd ≠ "" then some cmd else env.workspaceStartCmd (workspaceName env params)
  | none => env.workspaceStartCmd (workspaceName env params)

/-- `expand_start_cmd/1` raises on a command of nothing but spaces, which
`String.split/3` splits into nothing. -/
def expandable : Option String → Bool
  | some cmd => cmd = "" || cmd.toList.any fun c => c ≠ ' '
  | none => true

/-- `enrich_params/2`, as far as it can raise. -/
def enrichParams (env : Env Config) (params : Params) (w : World Config) :
    World Config × Outcome :=
  if expandable (rawStartCmd env params) then (w, .ok) else (w, .raised)

/-- `start_session_sup/4`. -/
def startSessionSup (env : Env Config) (w : World Config) : World Config × Outcome :=
  match env.startSup with
  | .started => ({ w with sessions := env.sid :: w.sessions }, .ok)
  | .refused reason => (w, .error (.supervisor reason))
  | .raises => (w, .raised)

/-- What a stage tells the index of actors. -/
def Peer.attrs (p : Peer) (sid : String) : Meta := ⟨p.pid, p.actorId, sid, p.name, p.role⟩

/-- A stage has started. -/
def World.enter (w : World Config) (sid : String) (p : Peer) : World Config :=
  { w with peers := p.attrs sid :: w.peers, index := w.index.registerAttrs (p.attrs sid) }

/-- `spawn_one/5`, with what `spawn_pipeline/3` makes of its exceptions. -/
def spawnOne (env : Env Config) (n : Nat) (spec : Spec) (w : World Config) :
    World Config × Outcome :=
  if env.stateful spec.impl then
    match env.spawn n with
    | .spawned (some p) => (w.enter env.sid p, .ok)
    | .spawned none => (w, .ok)
    | .refused reason => (w, .error (.peerSpawnFailed (some spec) reason))
    | .badArgument message => (w, .error (.peerSpawnFailed none message))
    | .raises => (w, .raised)
  else (w, .ok)

/-- `spawn_pipeline/3`, from the `n`-th stage on. -/
def spawnPipeline (env : Env Config) : Nat → List Spec → World Config → World Config × Outcome
  | _, [], w => (w, .ok)
  | n, spec :: rest, w => andThen (spawnOne env n spec w) (spawnPipeline env (n + 1) rest)

/-- `role_for_impl/1`. -/
def roleForImpl (impl : String) : Option String :=
  if impl = "Esr.Plugins.Feishu.FeishuChatProxy" then some "feishu_chat_proxy"
  else if impl = "Esr.Entity.CCProcess" then some "cc_process"
  else if impl = "Esr.Entity.PtyProcess" then some "pty_process"
  else none

/-- `Esr.ActorQuery.list_by_role/2`. -/
def listByRole (ix : Index) (sid role : String) : Finset (Nat × String) :=
  (ix.roles.filter fun row => row.1 = (sid, role)).image Prod.snd

/-- The roles that `verify_pipeline_complete/2` misses. -/
def missingRoles (ix : Index) (sid : String) (inbound : List Spec) : List String :=
  (inbound.filterMap fun spec => roleForImpl spec.impl).filter fun role =>
    listByRole ix sid role = ∅

/-- `verify_pipeline_complete/2`.  To tear the session down it calls the Router, and
so, in the Router, itself: the call exits. -/
def verifyPipelineComplete (env : Env Config) (inbound : List Spec) (w : World Config) :
    World Config × Outcome :=
  if missingRoles w.index env.sid inbound = [] then (w, .ok) else (w, .raised)

/-- `register/3`. -/
def register (env : Env Config) (params : Params) (w : World Config) : World Config × Outcome :=
  if env.routingUp then ({ w with routing := attachSession w.routing params.key env.sid }, .ok)
  else (w, .raised)

/-- The attributes of the instance that stands for the pipeline. -/
def primaryAttrs (env : Env Config) (agent : String) : InstanceRegistry.Attrs Config where
  sessionIds := [env.sid]
  type := agent
  name := agent
  config := env.emptyConfig
  actorIds := some ⟨env.sid, env.sid⟩
  nonempty := List.cons_ne_nil env.sid []

/-- `register_primary_agent/2`.  A registry that is not up is passed over, and a name
that is taken counts as registered. -/
def registerPrimaryAgent (env : Env Config) (agent : String) (w : World Config) :
    World Config × Outcome :=
  if env.instancesUp then
    ({ w with instances :=
      (InstanceRegistry.addInstance w.instances (primaryAttrs env agent) env.instanceId).2 }, .ok)
  else (w, .ok)

/-- `start_lifecycle_observer/3`. -/
def startLifecycleObserver (env : Env Config) (w : World Config) : World Config × Outcome :=
  match env.observer with
  | some .started => ({ w with observers := env.sid :: w.observers }, .ok)
  | some .raises => (w, .raised)
  | some (.refused _) | none => (w, .ok)

/-- The steps of `do_create/1` after the supervisor. -/
def populate (env : Env Config) (params : Params) (agent : String) (agentDef : AgentDef)
    (w : World Config) : World Config × Outcome :=
  andThen (spawnPipeline env 0 agentDef.inbound w) fun w =>
  andThen (verifyPipelineComplete env agentDef.inbound w) fun w =>
  andThen (register env params w) fun w =>
  andThen (registerPrimaryAgent env agent w) (startLifecycleObserver env)

/-- `do_create/1`. -/
def doCreate (env : Env Config) (params : Params) (w : World Config) : World Config × Outcome :=
  match params.agent, params.agentDef with
  | none, _ => (w, .error .agentRequired)
  | some _, none => (w, .error .agentDefRequired)
  | some agent, some agentDef =>
    andThen (enrichParams env params w) fun w =>
    andThen (startSessionSup env w) (populate env params agent agentDef)

/-- `handle_call({:create_session_sync, params}, …)`, and what its caller gets. -/
def createSession (env : Env Config) (params : Params) (w : World Config) : World Config × Reply :=
  match doCreate env params w with
  | (w, .ok) => (w, .ok env.sid)
  | (w, .error e) => (w, .error e)
  | (w, .raised) => ({ w with routerUp := false }, .exit)

/-- `handle_call({:end_session_sync, sid}, …)`, with `none` for
`{:error, :unknown_session}`.  The stages deregister themselves when they stop. -/
def endSession (order : MapSetOrder) (sid : String) (w : World Config) : Option (World Config) :=
  if sid ∈ w.sessions then
    some { w with
      sessions := w.sessions.filter fun sid' => sid' ≠ sid
      peers := w.peers.filter fun m => m.sessionId ≠ sid
      index := (w.peers.filter fun m => m.sessionId = sid).foldl Index.deregisterAttrs w.index
      routing := detachSessionById order w.routing sid }
  else none

/-! ## What it should do -/

/-- Nothing of the session is left. -/
structure NoTrace (w : World Config) (sid : String) : Prop where
  sup : sid ∉ w.sessions
  routing : ∀ key slot, w.routing.lookup key = some slot →
    sid ∉ slot.attached ∧ slot.current ≠ some sid
  instances : ∀ id inst, w.instances.table.lookup id = some inst → sid ∉ inst.sessionIds
  instanceNames : ∀ name, w.instances.nameIndex.lookup (sid, name) = none
  names : ∀ name, w.index.names.lookup (sid, name) = none
  roles : ∀ role v, ((sid, role), v) ∉ w.index.roles

/-- The session is there. -/
structure Created (w : World Config) (sid : String) (params : Params) : Prop where
  sup : sid ∈ w.sessions
  routing : ∃ slot, w.routing.lookup params.key = some slot ∧ sid ∈ slot.attached
  instances : ∀ agent ∈ params.agent,
    ∃ inst, InstanceRegistry.get w.instances sid agent = some inst ∧ inst.sessionIds = [sid]

/-- The stages that register themselves, from the `n`-th on. -/
def peersOf (env : Env Config) : Nat → List Spec → List Peer
  | _, [] => []
  | n, spec :: rest =>
    match env.stateful spec.impl, env.spawn n with
    | true, .spawned (some p) => p :: peersOf env (n + 1) rest
    | _, _ => peersOf env (n + 1) rest

/-- Those of them that find their name free. -/
def listed : List String → List Peer → List Peer
  | _, [] => []
  | seen, p :: rest =>
    if p.name ∈ seen then listed seen rest else p :: listed (p.name :: seen) rest

/-- Every stage is spawned, from the `n`-th on. -/
def SpawnsAll (env : Env Config) : Nat → List Spec → Prop
  | _, [] => True
  | n, spec :: rest =>
    (env.stateful spec.impl = true → ∃ peer, env.spawn n = .spawned peer) ∧
      SpawnsAll env (n + 1) rest

/-- No step fails. -/
structure Fine (env : Env Config) (params : Params) : Prop where
  agent : params.agent ≠ none
  agentDef : params.agentDef ≠ none
  startCmd : expandable (rawStartCmd env params) = true
  supervisor : env.startSup = .started
  pipeline : ∀ agentDef ∈ params.agentDef, SpawnsAll env 0 agentDef.inbound
  complete : ∀ agentDef ∈ params.agentDef, ∀ spec ∈ agentDef.inbound,
    ∀ role ∈ roleForImpl spec.impl, ∃ p ∈ listed [] (peersOf env 0 agentDef.inbound), p.role = role
  routing : env.routingUp = true
  instances : env.instancesUp = true
  observer : env.observer ≠ some .raises

/-- **All or nothing**: when no step fails the caller gets the session; when one does
it gets an error, the Router is alive, and nothing of the session is left. -/
def AllOrNothing (env : Env Config) (params : Params) (w : World Config) : Prop :=
  (Fine env params → (createSession env params w).2 = .ok env.sid ∧
    Created (createSession env params w).1 env.sid params) ∧
  (¬Fine env params → (∃ e, (createSession env params w).2 = .error e) ∧
    (createSession env params w).1.routerUp = true ∧
    NoTrace (createSession env params w).1 env.sid)

/-- The creation fails before there is a supervisor, with an error. -/
def FailsEarly (env : Env Config) (params : Params) : Prop :=
  params.agent = none ∨ params.agentDef = none ∨
    (expandable (rawStartCmd env params) = true ∧ ∃ reason, env.startSup = .refused reason)

/-- The session is new, and the Router alive. -/
structure Fresh (env : Env Config) (w : World Config) : Prop where
  up : w.routerUp = true
  new : NoTrace w env.sid

variable {env : Env Config} {params : Params} {w w' : World Config} {n : Nat} {specs : List Spec}

/-! ## The steps of a `with` -/

section Chain
variable {r : World Config × Outcome} {k : World Config → World Config × Outcome}

theorem andThen_of_ok (h : r.2 = .ok) : andThen r k = k r.1 := by
  obtain ⟨w, o⟩ := r
  obtain rfl : o = .ok := h
  rfl

theorem andThen_ok_iff : (andThen r k).2 = .ok ↔ r.2 = .ok ∧ (k r.1).2 = .ok := by
  obtain ⟨w, o⟩ := r
  cases o <;> simp [andThen]

theorem andThen_keeps {P : World Config → Prop} (h : P r.1) (hk : ∀ w, P w → P (k w).1) :
    P (andThen r k).1 := by
  obtain ⟨w, o⟩ := r
  cases o with
  | ok => exact hk w h
  | error => exact h
  | raised => exact h

end Chain

/-! ## The pipeline -/

theorem spawnOne_frame (env : Env Config) (n : Nat) (spec : Spec) (w : World Config) :
    ∃ peers index, (spawnOne env n spec w).1 = { w with peers := peers, index := index } := by
  unfold spawnOne
  split
  · split
    · exact ⟨_, _, rfl⟩
    all_goals exact ⟨w.peers, w.index, rfl⟩
  · exact ⟨w.peers, w.index, rfl⟩

theorem spawnPipeline_frame (env : Env Config) (n : Nat) (specs : List Spec) (w : World Config) :
    ∃ peers index, (spawnPipeline env n specs w).1 = { w with peers := peers, index := index } := by
  induction specs generalizing n w with
  | nil => exact ⟨w.peers, w.index, rfl⟩
  | cons spec rest ih =>
    obtain ⟨peers, index, hone⟩ := spawnOne_frame env n spec w
    unfold spawnPipeline
    refine andThen_keeps (P := fun w' => ∃ peers index,
      w' = { w with peers := peers, index := index }) ⟨peers, index, hone⟩ ?_
    rintro w' ⟨peers', index', rfl⟩
    obtain ⟨peers'', index'', hrest⟩ := ih (n + 1) { w with peers := peers', index := index' }
    exact ⟨peers'', index'', hrest⟩

theorem spawnOne_ok_iff (spec : Spec) : (spawnOne env n spec w).2 = .ok ↔
    (env.stateful spec.impl = true → ∃ peer, env.spawn n = .spawned peer) := by
  unfold spawnOne
  split
  · rename_i hstateful
    cases hspawn : env.spawn n with
    | spawned peer => cases peer <;> simp
    | refused | badArgument | raises => simp [hstateful]
  · rename_i hproxy
    simp [hproxy]

theorem spawnPipeline_ok_iff : (spawnPipeline env n specs w).2 = .ok ↔ SpawnsAll env n specs := by
  induction specs generalizing n w with
  | nil => simp [spawnPipeline, SpawnsAll]
  | cons spec rest ih => rw [spawnPipeline, andThen_ok_iff, spawnOne_ok_iff, ih, SpawnsAll]

theorem mem_roles_enter {p : Peer} {row : (String × String) × Nat × String} (sid : String) :
    row ∈ (w.enter sid p).index.roles ↔ row ∈ w.index.roles ∨
      (w.index.names.lookup (sid, p.name) = none ∧ row = (p.attrs sid).roleRow) := by
  unfold World.enter Index.registerAttrs
  show row ∈ (if w.index.names.lookup (sid, p.name) = none then _ else w.index).roles ↔ _
  split
  · rename_i hfree
    simp [Finset.mem_insert, or_comm, hfree]
  · rename_i htaken
    simp [htaken]

theorem lookup_names_enter {p : Peer} {name : String} (sid : String) :
    (w.enter sid p).index.names.lookup (sid, name) = none ↔
      name ≠ p.name ∧ w.index.names.lookup (sid, name) = none := by
  unfold World.enter Index.registerAttrs
  show (if w.index.names.lookup (sid, p.name) = none then _ else w.index).names.lookup _ = none ↔ _
  split
  · show (w.index.names.insert (sid, p.name) _).lookup (sid, name) = none ↔ _
    rw [Ets.lookup_insert]
    split
    · rename_i he
      simp [(Prod.mk.inj he).2]
    · rename_i hne
      have hname : name ≠ p.name := fun he => hne (by rw [he])
      simp [hname]
  · rename_i htaken
    constructor
    · intro hnone
      exact ⟨fun he => htaken (he ▸ hnone), hnone⟩
    · exact fun h => h.2

theorem spawnOne_cases (spec : Spec) (rest : List Spec) (hone : (spawnOne env n spec w).2 = .ok) :
    ((spawnOne env n spec w).1 = w ∧
      peersOf env n (spec :: rest) = peersOf env (n + 1) rest) ∨
    ∃ p, (spawnOne env n spec w).1 = w.enter env.sid p ∧
      peersOf env n (spec :: rest) = p :: peersOf env (n + 1) rest := by
  cases hstateful : env.stateful spec.impl with
  | false => simp [spawnOne, peersOf, hstateful]
  | true =>
    obtain ⟨peer, hspawn⟩ := (spawnOne_ok_iff spec).mp hone hstateful
    cases peer with
    | none => simp [spawnOne, peersOf, hstateful, hspawn]
    | some p => exact Or.inr ⟨p, by simp [spawnOne, hstateful, hspawn], by
        simp [peersOf, hstateful, hspawn]⟩

theorem mem_roles_spawnPipeline {seen : List String} {role : String} {v : Nat × String}
    (hseen : ∀ name, w.index.names.lookup (env.sid, name) = none ↔ name ∉ seen)
    (hspawns : SpawnsAll env n specs) :
    ((env.sid, role), v) ∈ (spawnPipeline env n specs w).1.index.roles ↔
      ((env.sid, role), v) ∈ w.index.roles ∨
        ∃ p ∈ listed seen (peersOf env n specs), p.role = role ∧ v = (p.pid, p.actorId) := by
  induction specs generalizing n w seen with
  | nil => simp [spawnPipeline, peersOf, listed]
  | cons spec rest ih =>
    obtain ⟨hone, hrest⟩ := hspawns
    have hok : (spawnOne env n spec w).2 = .ok := (spawnOne_ok_iff spec).mpr hone
    rw [spawnPipeline, andThen_of_ok hok]
    rcases spawnOne_cases spec rest hok with ⟨hw, hpeers⟩ | ⟨p, hw, hpeers⟩
    · rw [hw, hpeers]
      exact ih hseen hrest
    · rw [hw, hpeers, listed]
      split
      · rename_i htaken
        have hstill : ∀ name, (w.enter env.sid p).index.names.lookup (env.sid, name) = none ↔
            name ∉ seen := by
          intro name
          rw [lookup_names_enter, hseen]
          exact ⟨fun h => h.2, fun h => ⟨fun he => h (he ▸ htaken), h⟩⟩
        rw [ih hstill hrest, mem_roles_enter, hseen]
        simp [htaken]
      · rename_i hfree
        have hmore : ∀ name, (w.enter env.sid p).index.names.lookup (env.sid, name) = none ↔
            name ∉ p.name :: seen := by
          intro name
          rw [lookup_names_enter, hseen, List.mem_cons, not_or]
        have hrow : ((env.sid, role), v) = (p.attrs env.sid).roleRow ↔
            p.role = role ∧ v = (p.pid, p.actorId) := by
          show ((env.sid, role), v) = ((env.sid, p.role), p.pid, p.actorId) ↔ _
          simp [eq_comm]
        rw [ih hmore hrest, mem_roles_enter, hseen, hrow, or_assoc]
        simp [hfree]

theorem missingRoles_eq_nil_iff (hnames : ∀ name, w.index.names.lookup (env.sid, name) = none)
    (hroles : ∀ role v, ((env.sid, role), v) ∉ w.index.roles) (hspawns : SpawnsAll env 0 specs) :
    missingRoles (spawnPipeline env 0 specs w).1.index env.sid specs = [] ↔
      ∀ spec ∈ specs, ∀ role ∈ roleForImpl spec.impl,
        ∃ p ∈ listed [] (peersOf env 0 specs), p.role = role := by
  have hrole : ∀ role, listByRole (spawnPipeline env 0 specs w).1.index env.sid role = ∅ ↔
      ¬∃ p ∈ listed [] (peersOf env 0 specs), p.role = role := by
    intro role
    have hseen : ∀ name, w.index.names.lookup (env.sid, name) = none ↔ name ∉ [] :=
      fun name => ⟨fun _ => List.not_mem_nil, fun _ => hnames name⟩
    rw [listByRole, Finset.image_eq_empty, Finset.filter_eq_empty_iff]
    constructor
    · rintro hnone ⟨p, hp, he⟩
      exact hnone ((mem_roles_spawnPipeline hseen hspawns).mpr (Or.inr ⟨p, hp, he, rfl⟩)) rfl
    · rintro hnone ⟨key, v⟩ hin rfl
      rcases (mem_roles_spawnPipeline hseen hspawns).mp hin with hold | ⟨p, hp, he, _⟩
      · exact hroles role v hold
      · exact hnone ⟨p, hp, he⟩
  unfold missingRoles
  rw [List.filter_eq_nil_iff]
  constructor
  · intro hall spec hspec role hr
    have hin : role ∈ specs.filterMap fun spec => roleForImpl spec.impl :=
      List.mem_filterMap.mpr ⟨spec, hspec, hr⟩
    by_contra hnone
    exact hall role hin (decide_eq_true ((hrole role).mpr hnone))
  · intro hall role hin he
    obtain ⟨spec, hspec, hr⟩ := List.mem_filterMap.mp hin
    exact (hrole role).mp (of_decide_eq_true he) (hall spec hspec role hr)

/-! ## The steps after the supervisor -/

variable {agent : String} {agentDef : AgentDef}

theorem registerPrimaryAgent_ok (env : Env Config) (agent : String) (w : World Config) :
    (registerPrimaryAgent env agent w).2 = .ok := by
  unfold registerPrimaryAgent
  split <;> rfl

theorem startLifecycleObserver_ok_iff :
    (startLifecycleObserver env w).2 = .ok ↔ env.observer ≠ some .raises := by
  unfold startLifecycleObserver
  cases env.observer with
  | none => simp
  | some start => cases start <;> simp

theorem verifyPipelineComplete_ok_iff : (verifyPipelineComplete env specs w).2 = .ok ↔
    missingRoles w.index env.sid specs = [] := by
  unfold verifyPipelineComplete
  split
  · rename_i hnone
    simp [hnone]
  · rename_i hsome
    simp [hsome]

theorem register_ok_iff : (register env params w).2 = .ok ↔ env.routingUp = true := by
  unfold register
  split
  · rename_i hup
    simp [hup]
  · rename_i hdown
    simp [hdown]

/-- **What the steps after the supervisor keep**: what each of the places they write
keeps. -/
theorem populate_keeps {P : World Config → Prop} (h : P w)
    (hpipeline : ∀ w peers index, P w → P { w with peers := peers, index := index })
    (hrouting : ∀ w, P w → P { w with routing := attachSession w.routing params.key env.sid })
    (hinstances : ∀ w, env.instancesUp = true → P w → P { w with instances :=
      (InstanceRegistry.addInstance w.instances (primaryAttrs env agent) env.instanceId).2 })
    (hobservers : ∀ w observers, P w → P { w with observers := observers }) :
    P (populate env params agent agentDef w).1 := by
  refine andThen_keeps ?_ fun w₁ h₁ => andThen_keeps ?_ fun w₂ h₂ => andThen_keeps ?_
    fun w₃ h₃ => andThen_keeps ?_ fun w₄ h₄ => ?_
  · obtain ⟨peers, index, he⟩ := spawnPipeline_frame env 0 agentDef.inbound w
    rw [he]
    exact hpipeline w peers index h
  · unfold verifyPipelineComplete
    split <;> exact h₁
  · unfold register
    split
    · exact hrouting w₂ h₂
    · exact h₂
  · unfold registerPrimaryAgent
    split
    · rename_i hup
      exact hinstances w₃ hup h₃
    · exact h₃
  · unfold startLifecycleObserver
    split
    · exact hobservers w₄ _ h₄
    all_goals exact h₄

theorem populate_sessions : (populate env params agent agentDef w).1.sessions = w.sessions :=
  populate_keeps (P := fun w' => w'.sessions = w.sessions) rfl (fun _ _ _ => id) (fun _ => id)
    (fun _ _ => id) fun _ _ => id

theorem populate_ok_iff (hnames : ∀ name, w.index.names.lookup (env.sid, name) = none)
    (hroles : ∀ role v, ((env.sid, role), v) ∉ w.index.roles) :
    (populate env params agent agentDef w).2 = .ok ↔
      SpawnsAll env 0 agentDef.inbound ∧
      (∀ spec ∈ agentDef.inbound, ∀ role ∈ roleForImpl spec.impl,
        ∃ p ∈ listed [] (peersOf env 0 agentDef.inbound), p.role = role) ∧
      env.routingUp = true ∧ env.observer ≠ some .raises := by
  rw [populate, andThen_ok_iff, andThen_ok_iff, andThen_ok_iff, andThen_ok_iff,
    spawnPipeline_ok_iff, verifyPipelineComplete_ok_iff, register_ok_iff,
    startLifecycleObserver_ok_iff]
  constructor
  · rintro ⟨hspawns, hmissing, hrouting, _, hobserver⟩
    exact ⟨hspawns, (missingRoles_eq_nil_iff hnames hroles hspawns).mp hmissing, hrouting,
      hobserver⟩
  · rintro ⟨hspawns, hcomplete, hrouting, hobserver⟩
    exact ⟨hspawns, (missingRoles_eq_nil_iff hnames hroles hspawns).mpr hcomplete, hrouting,
      registerPrimaryAgent_ok .., hobserver⟩

theorem populate_of_ok (hok : (populate env params agent agentDef w).2 = .ok)
    (hup : env.instancesUp = true) :
    (populate env params agent agentDef w).1.routing =
        attachSession w.routing params.key env.sid ∧
      (populate env params agent agentDef w).1.instances =
        (InstanceRegistry.addInstance w.instances (primaryAttrs env agent) env.instanceId).2 := by
  obtain ⟨peers, index, hpipeline⟩ := spawnPipeline_frame env 0 agentDef.inbound w
  rw [populate] at hok ⊢
  obtain ⟨h₁, hok⟩ := andThen_ok_iff.mp hok
  rw [andThen_of_ok h₁, hpipeline] at ⊢
  rw [hpipeline] at hok
  obtain ⟨h₂, hok⟩ := andThen_ok_iff.mp hok
  rw [andThen_of_ok h₂]
  have hverified : ∀ w : World Config, (verifyPipelineComplete env agentDef.inbound w).1 = w := by
    intro w
    unfold verifyPipelineComplete
    split <;> rfl
  rw [hverified] at hok ⊢
  obtain ⟨h₃, hok⟩ := andThen_ok_iff.mp hok
  rw [andThen_of_ok h₃, andThen_of_ok (registerPrimaryAgent_ok ..)]
  have hobserver : ∀ w : World Config, (startLifecycleObserver env w).1.routing = w.routing ∧
      (startLifecycleObserver env w).1.instances = w.instances := by
    intro w
    unfold startLifecycleObserver
    split <;> exact ⟨rfl, rfl⟩
  rw [(hobserver _).1, (hobserver _).2, registerPrimaryAgent, if_pos hup, register,
    if_pos (register_ok_iff.mp h₃)]
  exact ⟨rfl, rfl⟩

theorem get_addInstance {st : InstanceRegistry.State Config} {attrs : InstanceRegistry.Attrs Config}
    {sid id : String} (hsids : attrs.sessionIds = [sid])
    (hnew : st.nameIndex.lookup (sid, attrs.name) = none) :
    ∃ inst, InstanceRegistry.get (InstanceRegistry.addInstance st attrs id).2 sid attrs.name =
      some inst ∧ inst.sessionIds = [sid] := by
  have hfree : attrs.sessionIds.find? (fun s => (st.nameIndex.lookup (s, attrs.name)).isSome) =
      none := by
    rw [hsids]
    simp [hnew]
  unfold InstanceRegistry.addInstance
  rw [hfree]
  unfold InstanceRegistry.get
  rw [InstanceRegistry.lookup_indexEach, if_pos ⟨by rw [hsids]; exact List.mem_cons_self, rfl⟩]
  exact ⟨_, Ets.lookup_insert_self .., hsids⟩

/-! ## The creation as a whole -/

/-- The world in which the pipeline is spawned. -/
def World.supervised (w : World Config) (sid : String) : World Config :=
  { w with sessions := sid :: w.sessions }

theorem doCreate_cases (env : Env Config) (params : Params) (w : World Config) :
    (FailsEarly env params ∧ ∃ e, doCreate env params w = (w, .error e)) ∨
    (¬FailsEarly env params ∧ doCreate env params w = (w, .raised) ∧
      (expandable (rawStartCmd env params) = false ∨ env.startSup = .raises)) ∨
    (¬FailsEarly env params ∧ ∃ agent agentDef, params.agent = some agent ∧
      params.agentDef = some agentDef ∧ expandable (rawStartCmd env params) = true ∧
      env.startSup = .started ∧
      doCreate env params w = populate env params agent agentDef (w.supervised env.sid)) := by
  unfold doCreate FailsEarly
  cases hagent : params.agent with
  | none => simp
  | some agent =>
    cases hdef : params.agentDef with
    | none => simp
    | some agentDef =>
      cases hcmd : expandable (rawStartCmd env params) with
      | false => simp [enrichParams, hcmd, andThen]
      | true =>
        cases hsup : env.startSup with
        | started => simp [enrichParams, hcmd, startSessionSup, hsup, andThen, World.supervised]
        | refused reason => simp [enrichParams, hcmd, startSessionSup, hsup, andThen]
        | raises => simp [enrichParams, hcmd, startSessionSup, hsup, andThen]

theorem createSession_keeps {P : World Config → Prop} (h : P w)
    (hsupervised : ∀ w, P w → P (w.supervised env.sid))
    (hpipeline : ∀ w peers index, P w → P { w with peers := peers, index := index })
    (hrouting : ∀ w, P w → P { w with routing := attachSession w.routing params.key env.sid })
    (hinstances : ∀ w agent, env.instancesUp = true → P w → P { w with instances :=
      (InstanceRegistry.addInstance w.instances (primaryAttrs env agent) env.instanceId).2 })
    (hobservers : ∀ w observers, P w → P { w with observers := observers })
    (hrouter : ∀ w, P w → P { w with routerUp := false }) :
    P (createSession env params w).1 := by
  have hcreate : P (doCreate env params w).1 := by
    rcases doCreate_cases env params w with ⟨_, e, he⟩ | ⟨_, he, _⟩ |
      ⟨_, agent, agentDef, _, _, _, _, he⟩
    · rw [he]
      exact h
    · rw [he]
      exact h
    · rw [he]
      exact populate_keeps (hsupervised w h) hpipeline hrouting
        (fun w => hinstances w agent) hobservers
  unfold createSession
  generalize doCreate env params w = r at hcreate
  obtain ⟨w', o⟩ := r
  cases o with
  | ok => exact hcreate
  | error e => exact hcreate
  | raised => exact hrouter w' hcreate

theorem FailsEarly.not_fine (h : FailsEarly env params) : ¬Fine env params := by
  intro hfine
  rcases h with hagent | hdef | ⟨_, reason, hrefused⟩
  · exact hfine.agent hagent
  · exact hfine.agentDef hdef
  · rw [hfine.supervisor] at hrefused
    cases hrefused

theorem fine_iff (hnew : NoTrace w env.sid) :
    Fine env params ↔ (doCreate env params w).2 = .ok ∧ env.instancesUp = true := by
  rcases doCreate_cases env params w with ⟨hearly, e, he⟩ | ⟨_, hraised, hwhy⟩ |
    ⟨_, agent, agentDef, hagent, hdef, hcmd, hsup, he⟩
  · rw [he]
    exact ⟨fun hfine => absurd hfine hearly.not_fine, nofun⟩
  · rw [hraised]
    refine ⟨fun hfine => ?_, nofun⟩
    rcases hwhy with hcmd | hsup
    · exact nomatch hfine.startCmd.symm.trans hcmd
    · exact nomatch hfine.supervisor.symm.trans hsup
  · rw [he, populate_ok_iff (w := w.supervised env.sid) hnew.names hnew.roles]
    constructor
    · intro hfine
      exact ⟨⟨hfine.pipeline agentDef hdef, hfine.complete agentDef hdef, hfine.routing,
        hfine.observer⟩, hfine.instances⟩
    · rintro ⟨⟨hpipeline, hcomplete, hrouting, hobserver⟩, hinstances⟩
      constructor
      · simp [hagent]
      · simp [hdef]
      · exact hcmd
      · exact hsup
      · intro d hd
        obtain rfl := Option.some.inj (hdef.symm.trans hd)
        exact hpipeline
      · intro d hd
        obtain rfl := Option.some.inj (hdef.symm.trans hd)
        exact hcomplete
      · exact hrouting
      · exact hinstances
      · exact hobserver

theorem createSession_sessions :
    (createSession env params w).1.sessions = (doCreate env params w).1.sessions := by
  unfold createSession
  split <;> rename_i he <;> rw [he]

theorem mem_sessions_of_ok {sid : String} (h : (createSession env params w).2 = .ok sid) :
    env.sid ∈ (createSession env params w).1.sessions := by
  rw [createSession_sessions]
  unfold createSession at h
  rcases doCreate_cases env params w with ⟨_, e, he⟩ | ⟨_, he, _⟩ |
    ⟨_, agent, agentDef, _, _, _, _, he⟩
  · rw [he] at h
    cases h
  · rw [he] at h
    cases h
  · rw [he, populate_sessions]
    exact List.mem_cons_self

theorem created_of_fine (hnew : NoTrace w env.sid) (hfine : Fine env params) :
    (createSession env params w).2 = .ok env.sid ∧
      Created (createSession env params w).1 env.sid params := by
  obtain ⟨hok, hup⟩ := (fine_iff hnew).mp hfine
  rcases doCreate_cases env params w with ⟨hearly, _⟩ | ⟨_, hraised, _⟩ |
    ⟨_, agent, agentDef, hagent, hdef, _, _, he⟩
  · exact absurd hfine hearly.not_fine
  · rw [hraised] at hok
    cases hok
  · rw [he] at hok
    have hreply : createSession env params w =
        ((populate env params agent agentDef (w.supervised env.sid)).1, .ok env.sid) := by
      unfold createSession
      rw [he]
      generalize populate env params agent agentDef (w.supervised env.sid) = r at hok
      obtain ⟨w', o⟩ := r
      obtain rfl : o = .ok := hok
      rfl
    obtain ⟨hrouting, hinstances⟩ := populate_of_ok hok hup
    rw [hreply]
    refine ⟨rfl, ?_, ?_, ?_⟩
    · rw [populate_sessions]
      exact List.mem_cons_self
    · rw [hrouting]
      exact ⟨_, Ets.lookup_insert_self .., Finset.mem_insert_self ..⟩
    · intro agent' hagent'
      obtain rfl := Option.some.inj (hagent.symm.trans hagent')
      rw [hinstances]
      have hsids : (primaryAttrs env agent).sessionIds = [env.sid] := rfl
      exact get_addInstance hsids (hnew.instanceNames agent)

/-- **Exactly when a creation is all or nothing**: when no step fails, or one does
before there is a supervisor. -/
theorem allOrNothing_iff (hfresh : Fresh env w) :
    AllOrNothing env params w ↔ Fine env params ∨ FailsEarly env params := by
  constructor
  · rintro ⟨_, hfails⟩
    by_cases hfine : Fine env params
    · exact Or.inl hfine
    · obtain ⟨⟨e, hreply⟩, _, hno⟩ := hfails hfine
      rcases doCreate_cases env params w with ⟨hearly, _⟩ | ⟨_, hraised, _⟩ |
        ⟨_, agent, agentDef, _, _, _, _, he⟩
      · exact Or.inr hearly
      · rw [createSession, hraised] at hreply
        cases hreply
      · refine absurd ?_ hno.sup
        rw [createSession_sessions, he, populate_sessions]
        exact List.mem_cons_self
  · rintro (hfine | hearly)
    · exact ⟨fun _ => created_of_fine hfresh.new hfine, fun hnot => absurd hfine hnot⟩
    · refine ⟨fun hfine => absurd hfine hearly.not_fine, fun _ => ?_⟩
      rcases doCreate_cases env params w with ⟨_, e, he⟩ | ⟨hnot, _⟩ | ⟨hnot, _⟩
      · rw [createSession, he]
        exact ⟨⟨e, rfl⟩, hfresh.up, hfresh.new⟩
      · exact absurd hearly hnot
      · exact absurd hearly hnot

/-- No session, and the Router alive. -/
def idle : World Unit where
  routerUp := true
  sessions := []
  peers := []
  index := ⟨Ets.empty, ∅⟩
  routing := Ets.empty
  instances := InstanceRegistry.init
  observers := []

theorem fresh_idle (env : Env Unit) : Fresh env idle where
  up := rfl
  new :=
    { sup := nofun
      routing := nofun
      instances := nofun
      instanceNames := fun _ => rfl
      names := fun _ => rfl
      roles := nofun }

/-- A session of two stages, for a chat. -/
def ccSession : Params where
  agent := some "cc"
  agentDef := some ⟨[⟨"cc", "Esr.Entity.CCProcess"⟩, ⟨"pty", "Esr.Entity.PtyProcess"⟩]⟩
  chatId := some "oc_dev"
  appId := some "cli_app"
  workspaceName := none
  startCmd := none

/-- Both stages start. -/
def working : Env Unit where
  sid := "s1"
  instanceId := "i1"
  emptyConfig := ()
  workspaceNameForChat := fun _ => none
  workspaceStartCmd := fun _ => none
  stateful := fun _ => true
  startSup := .started
  spawn := fun n =>
    .spawned (some (if n = 0 then ⟨1, "cc:s1", "cc-s1", "cc_process"⟩
      else ⟨2, "pty:s1", "pty-s1", "pty_process"⟩))
  routingUp := true
  instancesUp := true
  observer := some .started

theorem fine_working : Fine working ccSession where
  agent := nofun
  agentDef := nofun
  startCmd := by decide
  supervisor := rfl
  pipeline := by
    rintro _ ⟨⟩
    exact ⟨fun _ => ⟨_, rfl⟩, fun _ => ⟨_, rfl⟩, trivial⟩
  complete := by
    rintro _ ⟨⟩
    decide
  routing := rfl
  instances := rfl
  observer := nofun

/-- A session is created, and one is refused at the limit of sessions. -/
theorem allOrNothing_ccSession : AllOrNothing working ccSession idle ∧
    AllOrNothing { working with startSup := .refused "max_children" } ccSession idle :=
  ⟨(allOrNothing_iff (fresh_idle _)).mpr (Or.inl fine_working),
    (allOrNothing_iff (fresh_idle _)).mpr (Or.inr (Or.inr (Or.inr ⟨by decide, _, rfl⟩)))⟩

/-- **The second stage is refused**: the caller gets the error, and the supervisor of
the session stays, with the first stage and its rows. -/
theorem not_allOrNothing_secondStage :
    ¬∀ (env : Env Unit) (params : Params) (w : World Unit), Fresh env w →
      AllOrNothing env params w := by
  intro h
  let env : Env Unit := { working with
    spawn := fun n => if n = 0 then working.spawn 0 else .refused "prepare_spawn failed" }
  have hnot : ¬Fine env ccSession := by
    intro hfine
    obtain ⟨_, hsecond, _⟩ := hfine.pipeline _ rfl
    obtain ⟨_, hspawned⟩ := hsecond rfl
    cases hspawned
  obtain ⟨_, _, hno⟩ := (h env ccSession idle (fresh_idle env)).2 hnot
  exact hno.sup (by decide)

/-! ## The rollback that there is -/

end SessionCreate
end Esr
