import Esr.PluginManifest
import Esr.Runs
import Esr.Stages

/-! # Starting a plugin

`Esr.Plugin.Loader.start_plugin/2` checks a manifest and registers what it declares, one
kind of contribution after the other, each in a registry of its own.  The first step
that fails ends it; nothing that was registered before is taken back.
-/
namespace Esr
namespace Plugin
open Yaml Yaml.Writer
open EntityServer (access orElse)

/-- The steps, each named after what it checks or registers. -/
inductive Phase where
  | coreVersion
  | validate
  | capabilities
  | pythonSidecars
  | entities
  | slashRoutes
  | startup
  | mediaTypes
  | channels
  | agentKinds
  | uriSubtrees
  | configSnapshot
deriving DecidableEq

/-- The order they are taken in. -/
def Phase.all : List Phase :=
  [.coreVersion, .validate, .capabilities, .pythonSidecars, .entities, .slashRoutes, .startup,
    .mediaTypes, .channels, .agentKinds, .uriSubtrees, .configSnapshot]

/-- What a step writes: the two checks nothing, and each of the others its registry. -/
def Phase.Registry : Phase → Type
  | .coreVersion | .validate => Unit
  | .capabilities => Ets String Module
  | .pythonSidecars => Ets String String
  | .entities => Ets Module Bool
  | .slashRoutes => SlashOverlays.State
  | .startup => List (String × Module × String)
  | .mediaTypes => Ets String MediaTypes
  | .channels => Ets String (String × Channel)
  | .agentKinds => Ets String (String × AgentKind)
  | .uriSubtrees => Ets String Module
  | .configSnapshot => Ets String Entries

/-- All the registries. -/
abbrev Registries := ∀ p : Phase, p.Registry

/-! ## The steps -/

/-- A check, which leaves everything as it is. -/
def checked {R : Type} (result : Except Failure Unit) : Stage R Failure := fun r => (result, r)

/-- One row after the other into a table, for the declared elements that have one. -/
def registerEach {K V : Type} [DecidableEq K] (row : Elem → Except Failure (Option (K × V)))
    (declared : Option Value) : Stage (Ets K V) Failure := fun t =>
  match elems (listed declared) with
  | .ok es => Stage.each (fun e t => match row e with
      | .ok (some (k, v)) => (.ok (), t.insert k v)
      | .ok none => (.ok (), t)
      | .error failure => (.error failure, t)) es t
  | .error failure => (.error failure, t)

/-- `entry[key]`. -/
def fieldOf (key : String) : Elem → Except Failure Value
  | .item v => orRaise (access key v)
  | .pair _ _ => .error .raised

section
variable (env : Env) (name : String) (m : Manifest)

/-- `register_capabilities/2`. -/
def registerCapabilities : Stage (Ets String Module) Failure :=
  registerEach (fun cap => do
    return some (← itemText cap, "Elixir.Esr.Plugins." ++ env.camelize name)) m.capabilities

/-- `register_python_sidecars/1`. -/
def registerPythonSidecars : Stage (Ets String String) Failure :=
  registerEach (fun entry => do
    match ← fieldOf "adapter_type" entry, ← fieldOf "python_module" entry with
    | .str adapterType, .str pythonModule => return some (adapterType, pythonModule)
    | _, _ => return none) m.pythonSidecars

/-- `register_entities/1`; `safe_concat/1` skips a name that is no module's. -/
def registerEntities : Stage (Ets Module Bool) Failure :=
  registerEach (fun entry => do
    let kind ← orRaise (toStr (orElse (.str "") (← fieldOf "kind" entry)))
    match ← fieldOf "module" entry with
    | .str moduleStr =>
        if kind = "stateful" then return (env.concat (.str moduleStr)).map fun module => (module, true)
        else return none
    | _ => return none) m.entities

/-! ### Slash routes -/

/-- `validate_command_module/1`, with `none` for an error. -/
def validateCommandModule (moduleStr : String) : Except Failure (Option Module) := do
  let module ← orRaise (env.concat (.str moduleStr))
  return if env.ensureLoaded module then some module else none

/-- The field is `true`. -/
def flag (key : String) (entry : Entries) : Bool :=
  match get key entry with
  | some (.bool b) => b
  | _ => false

/-- `validate_args/1`, with `none` for an error. -/
def validateArgs : Value → Option (List ArgSpec)
  | .list args => args.mapM fun
      | .map arg =>
          match get "name" arg with
          | some (.str argName) =>
              some ⟨argName, flag "required" arg, (get "default" arg).getD .null⟩
          | _ => none
      | _ => none
  | _ => none

/-- The aliases of a route, which have to be a list: with anything else the server that
is handed the route raises. -/
def aliasesOf (entry : Entries) : Except Failure (List Value) :=
  match (get "aliases" entry).getD (.list []) with
  | .list aliases => .ok aliases
  | _ => .error .raised

/-- `validate_slash_entry/2`; an entry with an error is dropped. -/
def validateSlashEntry (key entry : Value) : Except Failure (Option SlashOverlays.SlashEntry) := do
  match key, entry with
  | .str key, .map entry =>
      match get "kind" entry, get "command_module" entry with
      | some (.str kind), some (.str moduleStr) =>
          if (stripPrefix "/" key).isNone then return none
          let some module ← validateCommandModule env moduleStr | return none
          let some args := validateArgs ((get "args" entry).getD (.list [])) | return none
          return some ⟨⟨key, kind, flag "requires_workspace_binding" entry,
            flag "requires_user_binding" entry, args⟩, ← aliasesOf entry,
            ⟨(get "permission" entry).getD .null, module⟩⟩
      | _, _ => return none
  | _, _ => return none

/-- `validate_internal_kind/2`; an entry with an error is dropped. -/
def validateInternalKind (kind entry : Value) :
    Except Failure (Option SlashOverlays.InternalKind) := do
  match kind, entry with
  | .str kind, .map entry =>
      match get "command_module" entry with
      | some (.str moduleStr) =>
          let some module ← validateCommandModule env moduleStr | return none
          return some ⟨kind, ⟨(get "permission" entry).getD .null, module⟩⟩
      | _ => return none
  | _, _ => return none

/-- A pair that `Enum` hands out. -/
def pairOf : Elem → Except Failure (Value × Value)
  | .pair k v => .ok (k, v)
  | .item _ => .error .raised

/-- `parse_block_to_snapshot/1`. -/
def parseBlockToSnapshot (block : Entries) : Except Failure SlashOverlays.Snapshot := do
  let slashes ← (← elems (under "slashes" block)).mapM fun e => do
    let (key, entry) ← pairOf e
    validateSlashEntry env key entry
  let internalKinds ← (← elems (under "internal_kinds" block)).mapM fun e => do
    let (kind, entry) ← pairOf e
    validateInternalKind env kind entry
  return ⟨slashes.reduceOption, internalKinds.reduceOption⟩

/-- `register_slash_routes/2`.  A registration that is refused leaves the server as it
is; one that its server has no clause for raises. -/
def registerSlashRoutes : Stage SlashOverlays.State Failure := fun s =>
  match m.slashRoutes with
  | none | some .null | some (.map []) => (.ok (), s)
  | some (.map block) =>
      match parseBlockToSnapshot env block with
      | .ok snapshot =>
          match s.handleCall (.registerOverlay name snapshot) with
          | some (.ok, s') => (.ok (), s')
          | some (.error reason, s') => (.error (.error (.collision reason)), s')
          | none => (.error .raised, s)
      | .error failure => (.error failure, s)
  | some _ => (.error .raised, s)

/-! ### The others -/

/-- `register_startup/2`. -/
def registerStartup : Stage (List (String × Module × String)) Failure := fun callbacks =>
  match m.startupCallback env with
  | .ok none => (.ok (), callbacks)
  | .ok (some (module, function)) => (.ok (), callbacks ++ [(name, module, function)])
  | .error failure => (.error failure, callbacks)

/-- `register_media_types/2`. -/
def registerMediaTypes : Stage (Ets String MediaTypes) Failure := fun t =>
  (.ok (), t.insert name m.mediaTypes)

/-- `register_channels/2`. -/
def registerChannels : Stage (Ets String (String × Channel)) Failure := fun t =>
  (.ok (), t.insertEach (m.channels.map fun c => (name ++ "." ++ c.name, name, c)))

/-- `register_agent_kinds/2`. -/
def registerAgentKinds : Stage (Ets String (String × AgentKind)) Failure := fun t =>
  (.ok (), t.insertEach (m.agentKinds.map fun k => (name ++ "." ++ k.name, name, k)))

/-- `register_uri_subtrees/1`. -/
def registerUriSubtrees : Stage (Ets String Module) Failure := fun t =>
  (.ok (), t.insertEach m.uriSubtrees)

/-- `ConfigSnapshot.init(name, Config.resolve(name))`: without a path of a layer, every
layer is empty. -/
def initConfigSnapshot : Stage (Ets String Entries) Failure := fun t => (.ok (), t.insert name [])

/-- What a step does. -/
def stage : ∀ p : Phase, Stage p.Registry Failure
  | .coreVersion => checked (m.checkCoreVersion env)
  | .validate => checked (m.validate env)
  | .capabilities => registerCapabilities env name m
  | .pythonSidecars => registerPythonSidecars m
  | .entities => registerEntities env m
  | .slashRoutes => registerSlashRoutes env name m
  | .startup => registerStartup env name m
  | .mediaTypes => registerMediaTypes name m
  | .channels => registerChannels name m
  | .agentKinds => registerAgentKinds name m
  | .uriSubtrees => registerUriSubtrees m
  | .configSnapshot => initConfigSnapshot name

/-- `start_plugin/2`. -/
def startPlugin (s : Registries) : Except Failure Unit × Registries :=
  Stages.runAll (stage env name m) Phase.all s

end

/-- `stop_plugin/1`, with `none` where the removal of the overlay raises. -/
def stopPlugin (name : String) (s : Registries) : Option Registries :=
  (SlashOverlays.step (s .slashRoutes) (.unregisterOverlay name)).map
    (Function.update s .slashRoutes ·)

/-! ## How a step fails -/

/-- The work raises and returns no error. -/
def OnlyRaises {A : Type} (x : Except Failure A) : Prop :=
  ∀ failure, x = .error failure → failure = .raised

namespace OnlyRaises
variable {A B : Type}

theorem ok (a : A) : OnlyRaises (.ok a : Except Failure A) := fun _ h => nomatch h

theorem bind {x : Except Failure A} {f : A → Except Failure B} (hx : OnlyRaises x)
    (hf : ∀ a, OnlyRaises (f a)) : OnlyRaises (x >>= f) := by
  cases x with
  | error failure =>
    intro failure' h
    obtain rfl := Except.error.inj h
    exact hx _ rfl
  | ok a => exact hf a

theorem orRaise (a : Option A) : OnlyRaises (orRaise a) := by
  cases a with
  | none =>
    intro failure h
    exact (Except.error.inj h).symm
  | some a => exact .ok a

theorem raised : OnlyRaises (.error .raised : Except Failure A) := fun _ h => (Except.error.inj h).symm

theorem elems (v : Value) : OnlyRaises (elems v) := by
  cases v <;> first | exact .ok _ | exact .raised

theorem textOf (v : Value) : OnlyRaises (textOf v) := by
  cases v <;> first | exact .ok _ | exact .raised

theorem itemText (e : Elem) : OnlyRaises (itemText e) := by
  cases e with
  | item v => exact .textOf v
  | pair k v => exact .raised

theorem fieldOf (key : String) (e : Elem) : OnlyRaises (fieldOf key e) := by
  cases e with
  | item v => exact .orRaise _
  | pair k v => exact .raised

end OnlyRaises

theorem registerEach_error {K V : Type} [DecidableEq K]
    {row : Elem → Except Failure (Option (K × V))} (hrow : ∀ e, OnlyRaises (row e))
    (declared : Option Value) (t : Ets K V) : OnlyRaises (registerEach row declared t).1 := by
  intro failure h
  unfold registerEach at h
  split at h
  · obtain ⟨e, -, t', he⟩ := Stage.each_error h
    split at he
    · cases he
    · cases he
    · rename_i failure' hfail
      obtain rfl := Except.error.inj he
      exact hrow e _ hfail
  · rename_i failure' hfail
    obtain rfl := Except.error.inj h
    exact OnlyRaises.elems _ _ hfail

/-! ## A start that fails -/

/-- The steps that return an error where something is wrong. -/
def Phase.returnsErrors : Phase → Bool
  | .coreVersion | .validate | .slashRoutes | .startup => true
  | _ => false

section
variable (env : Env) (name : String) (m : Manifest)

theorem registerCapabilities_raises (t : Ets String Module) :
    OnlyRaises (registerCapabilities env name m t).1 :=
  registerEach_error (fun e => .bind (.itemText e) fun _ => .ok _) _ t

theorem registerPythonSidecars_raises (t : Ets String String) :
    OnlyRaises (registerPythonSidecars m t).1 := by
  refine registerEach_error (fun e => ?_) _ t
  refine .bind (.fieldOf _ e) fun adapterType => .bind (.fieldOf _ e) fun pythonModule => ?_
  split <;> exact .ok _

theorem registerEntities_raises (t : Ets Module Bool) :
    OnlyRaises (registerEntities env m t).1 := by
  refine registerEach_error (fun e => ?_) _ t
  refine .bind (.fieldOf _ e) fun v => .bind (.orRaise _) fun kind => ?_
  refine .bind (.fieldOf _ e) fun module => ?_
  split
  · split <;> exact .ok _
  · exact .ok _

theorem registerSlashRoutes_cases {s : SlashOverlays.State} (h : SlashOverlays.Installed s) :
    (∃ s', registerSlashRoutes env name m s = (.ok (), s')) ∨
      ∃ failure, registerSlashRoutes env name m s = (.error failure, s) := by
  unfold registerSlashRoutes
  split
  · exact .inl ⟨s, rfl⟩
  · exact .inl ⟨s, rfl⟩
  · exact .inl ⟨s, rfl⟩
  · rename_i block _ _
    cases parseBlockToSnapshot env block with
    | error failure => exact .inr ⟨failure, rfl⟩
    | ok snapshot =>
      dsimp only
      rcases SlashOverlays.handleCall_cases h (.registerOverlay name snapshot) with
        ⟨-, hcall⟩ | ⟨-, r, hcall⟩
      · rw [hcall]
        exact .inl ⟨_, rfl⟩
      · rw [hcall]
        exact .inr ⟨_, rfl⟩
  · exact .inr ⟨.raised, rfl⟩

theorem registerStartup_refused {callbacks : List (String × Module × String)} {failure : Failure}
    (herr : (registerStartup env name m callbacks).1 = .error failure) :
    (registerStartup env name m callbacks).2 = callbacks := by
  unfold registerStartup at herr ⊢
  split at herr
  · cases herr
  · cases herr
  · rfl

/-- **A step that returns an error** has written nothing. -/
theorem stage_refused {s : Registries} (h : SlashOverlays.Installed (s .slashRoutes)) {p : Phase}
    {reason : Reason} (herr : (stage env name m p (s p)).1 = .error (.error reason)) :
    p.returnsErrors = true ∧ (stage env name m p (s p)).2 = s p := by
  cases p with
  | coreVersion => exact ⟨rfl, rfl⟩
  | validate => exact ⟨rfl, rfl⟩
  | capabilities => cases registerCapabilities_raises env name m _ _ herr
  | pythonSidecars => cases registerPythonSidecars_raises m _ _ herr
  | entities => cases registerEntities_raises env m _ _ herr
  | slashRoutes =>
    refine ⟨rfl, ?_⟩
    show (registerSlashRoutes env name m (s .slashRoutes)).2 = s .slashRoutes
    rcases registerSlashRoutes_cases env name m h with ⟨s', hrun⟩ | ⟨failure, hrun⟩
    · cases (congrArg Prod.fst hrun).symm.trans herr
    · rw [hrun]
  | startup => exact ⟨rfl, registerStartup_refused env name m herr⟩
  | mediaTypes => cases herr
  | channels => cases herr
  | agentKinds => cases herr
  | uriSubtrees => cases herr
  | configSnapshot => cases herr

/-- What is there after a start that has failed at the step `p`: what the steps before it
registered, and nothing of the steps after it.  Where an error is returned, the step has
written nothing itself, and a check that fails is before everything.  Stopping the plugin
then takes back its overlay only. -/
structure Leaves (s s' : Registries) (p : Phase) (failure : Failure) : Prop where
  failed : Stages.FailedAt (stage env name m) Phase.all s s' p failure
  refused : ∀ reason, failure = .error reason → p.returnsErrors = true ∧ s' p = s p
  unchecked : p = .coreVersion ∨ p = .validate → s' = s
  stopped : ∀ s'', stopPlugin name s' = some s'' → ∀ q, q ≠ .slashRoutes → s'' q = s' q

theorem nodup_phases : Phase.all.Nodup := by decide

theorem eq_of_check_failed {s s' : Registries} {p : Phase} {failure : Failure}
    (h : Stages.FailedAt (stage env name m) Phase.all s s' p failure)
    (hp : p = .coreVersion ∨ p = .validate) : s' = s := by
  funext q
  by_cases hq : q = .coreVersion ∨ q = .validate
  · rcases hq with rfl | rfl <;> rfl
  · obtain ⟨hcore, hvalidate⟩ := not_or.mp hq
    rcases hp with rfl | rfl
    · exact h.untouched nodup_phases (by simp [Phase.all]) hcore
    · exact h.untouched nodup_phases (by simpa [Phase.all] using hcore) hvalidate

theorem stopPlugin_of_ne {s s' : Registries} (h : stopPlugin name s = some s') {q : Phase}
    (hq : q ≠ .slashRoutes) : s' q = s q := by
  obtain ⟨routes, -, rfl⟩ := Option.map_eq_some_iff.mp h
  exact Function.update_of_ne hq routes s

/-- **A start that fails** leaves what it registered before. -/
theorem leaves_of_failed {s s' : Registries} {failure : Failure}
    (h : Reaches SlashOverlays.step anyStep SlashOverlays.initial (s .slashRoutes))
    (hstart : startPlugin env name m s = (.error failure, s')) :
    ∃ p, Leaves env name m s s' p failure := by
  have hinstalled : SlashOverlays.Installed (s .slashRoutes) :=
    h.invariant SlashOverlays.installed_initial fun _ _ _ ht _ hs => ht.step hs
  rcases @Stages.runAll_cases Phase Failure _ Phase.Registry (stage env name m) Phase.all
      nodup_phases s with
    ⟨s₁, hall, -, -⟩ | ⟨s₁, p, e, hall, hfailed⟩
  · cases hall.symm.trans hstart
  · obtain ⟨he, rfl⟩ := Prod.mk.inj (hall.symm.trans hstart)
    obtain rfl := Except.error.inj he
    refine ⟨p, hfailed, fun reason hreason => ?_, eq_of_check_failed env name m hfailed,
      fun s'' hstop q hq => stopPlugin_of_ne name hstop hq⟩
    subst hreason
    obtain ⟨hreturns, hsame⟩ := stage_refused env name m hinstalled hfailed.error
    exact ⟨hreturns, hfailed.row.trans hsame⟩

end

/-! ## A startup callback without a function -/

/-- Registries with nothing in them. -/
def nothing : Registries
  | .coreVersion | .validate => ()
  | .capabilities | .pythonSidecars | .entities | .mediaTypes | .channels | .agentKinds
  | .uriSubtrees | .configSnapshot => .empty
  | .slashRoutes => SlashOverlays.initial
  | .startup => []

/-- A runtime with the modules of the plugin `demo`. -/
def demoEnv : Env where
  esrdVersion := "0.1.0"
  versionMatch := fun _ _ => some true
  camelize := fun s => if s = "demo" then "Demo" else s
  concat := fun
    | .str s => some ("Elixir." ++ s)
    | _ => none
  ensureLoaded := fun module => module = "Elixir.Esr.Plugins.Demo"
  functionExported := fun _ _ => false
  inspect := fun _ => ""

/-- A plugin with one capability, whose `startup:` names no function. -/
def demo : Manifest where
  name := "demo"
  core := .str ">= 0.0.0"
  capabilities := some (.list [.str "demo/run"])
  pythonSidecars := none
  entities := none
  slashRoutes := none
  startup := some (.map [(.str "module", .str "Esr.Plugins.Demo")])
  mediaTypes := ⟨[], []⟩
  channels := []
  agentKinds := []
  uriSubtrees := []

theorem startPlugin_demo : startPlugin demoEnv "demo" demo nothing =
    (.error (.error (.startupFieldMissing "demo" "function")),
      (startPlugin demoEnv "demo" demo nothing).2) := Prod.ext rfl rfl

theorem leaves_demo : ∃ p, Leaves demoEnv "demo" demo nothing
    (startPlugin demoEnv "demo" demo nothing).2 p
    (.error (.startupFieldMissing "demo" "function")) :=
  leaves_of_failed demoEnv "demo" demo ⟨[], .nil⟩ startPlugin_demo

/-- **A capability of a plugin that was not started** is registered. -/
theorem not_atomic_demo :
    ¬∀ (env : Env) (name : String) (m : Manifest) (s s' : Registries) (failure : Failure),
      Reaches SlashOverlays.step anyStep SlashOverlays.initial (s .slashRoutes) →
      startPlugin env name m s = (.error failure, s') →
      (∃ reason, failure = .error reason) ∧ s' = s := by
  intro h
  have hsame := (h demoEnv "demo" demo nothing _ _ ⟨[], .nil⟩ startPlugin_demo).2
  have hrow : ((startPlugin demoEnv "demo" demo nothing).2 .capabilities).lookup "demo/run" =
      some "Elixir.Esr.Plugins.Demo" := by decide +kernel
  rw [hsame] at hrow
  cases hrow

end Plugin
end Esr
