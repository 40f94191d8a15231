import Esr.PluginLoader

/-! # Loading the slash routes

`Esr.Resource.SlashRoute.Registry.FileLoader.load/1` reads `slash-routes.yaml`, checks it
and hands what it found to the registry, which merges it with the plugins' overlays.  The
registry refuses a base with which two routes would collide, and says so; the loader does
not look at the answer and returns `:ok`.
-/
namespace Esr
namespace SlashLoad
open Yaml SlashOverlays
open Plugin (Env flag)

/-- The errors `load/1` returns. -/
inductive Reason where
  | yamlParse (err : String)
  | malformedRoot
  | missingSchemaVersion
  | unknownSchemaVersion (v : Value)
  | slashesNotAMap
  | internalKindsNotAMap
  | malformedSlashEntry (key : Value)
  | slashKeyMustStartWithSlash (key : String)
  | malformedInternalKind (kind : Value)
  | unknownModule (str : String)
  | argsNotAList
  | malformedArg (bad : Value)

inductive Failure where
  | error (reason : Reason)
  | raised

/-- A route as the loader builds it: the aliases are whatever the file has there. -/
structure RouteEntry where
  route : SlashRoute
  aliases : Value
  row : KindRow

/-- What the loader hands to the registry. -/
structure Parsed where
  slashes : List RouteEntry
  internalKinds : List InternalKind

/-- What is at the path; the content is what `YamlElixir.read_from_file/1` returns. -/
inductive File where
  | missing
  | unparsed (err : String)
  | yaml (content : Value)

section
variable (env : Env)

/-- `validate_schema_version/1`. -/
def validateSchemaVersion (yaml : Entries) : Except Failure Unit :=
  match get "schema_version" yaml with
  | some (.int 1) => .ok ()
  | some v => .error (.error (.unknownSchemaVersion v))
  | none => .error (.error .missingSchemaVersion)

/-- `validate_command_module/1`. -/
def validateCommandModule (str : String) : Except Failure String :=
  match env.concat (.str str) with
  | some mod => if env.ensureLoaded mod then .ok mod else .error (.error (.unknownModule str))
  | none => .error .raised

/-- `validate_args_list/2`. -/
def validateArgsList : List Value → List ArgSpec → Except Failure (List ArgSpec)
  | [], acc => .ok acc.reverse
  | .map arg :: rest, acc =>
    match get "name" arg with
    | some (.str name) =>
      validateArgsList rest (⟨name, flag "required" arg, (get "default" arg).getD .null⟩ :: acc)
    | _ => .error (.error (.malformedArg (.map arg)))
  | bad :: _, _ => .error (.error (.malformedArg bad))

/-- `validate_args/1`. -/
def validateArgs : Value → Except Failure (List ArgSpec)
  | .list args => validateArgsList args []
  | _ => .error (.error .argsNotAList)

/-- `validate_slash_key/1`. -/
def validateSlashKey (key : String) : Except Failure Unit :=
  if (stripPrefix "/" key).isSome then .ok ()
  else .error (.error (.slashKeyMustStartWithSlash key))

/-- `validate_slash_entry/2`. -/
def validateSlashEntry (key entry : Value) : Except Failure RouteEntry :=
  match key, entry with
  | .str slash, .map fields =>
    match get "kind" fields, get "command_module" fields with
    | some (.str kind), some (.str modStr) => do
      validateSlashKey slash
      let mod ← validateCommandModule env modStr
      let args ← validateArgs ((get "args" fields).getD (.list []))
      return {
        route := ⟨slash, kind, flag "requires_workspace_binding" fields,
          flag "requires_user_binding" fields, args⟩
        aliases := (get "aliases" fields).getD (.list [])
        row := ⟨(get "permission" fields).getD .null, mod⟩ }
    | _, _ => .error (.error (.malformedSlashEntry key))
  | _, _ => .error (.error (.malformedSlashEntry key))

/-- `validate_internal_kind/2`. -/
def validateInternalKind (kind entry : Value) : Except Failure InternalKind :=
  match kind, entry with
  | .str name, .map fields =>
    match get "command_module" fields with
    | some (.str modStr) => do
      let mod ← validateCommandModule env modStr
      return ⟨name, ⟨(get "permission" fields).getD .null, mod⟩⟩
    | _ => .error (.error (.malformedInternalKind kind))
  | _, _ => .error (.error (.malformedInternalKind kind))

/-- The loop over a map of entries, which the first error ends. -/
def validateEach {A : Type} (validate : Value → Value → Except Failure A) :
    Entries → Except Failure (List A)
  | [] => .ok []
  | (key, entry) :: rest => do
    let a ← validate key entry
    let as ← validateEach validate rest
    return a :: as

/-- `validate_slashes/1`. -/
def validateSlashes : Value → Except Failure (List RouteEntry)
  | .map slashes => validateEach (validateSlashEntry env) slashes
  | _ => .error (.error .slashesNotAMap)

/-- `validate_internal_kinds/1`. -/
def validateInternalKinds : Value → Except Failure (List InternalKind)
  | .map kinds => validateEach (validateInternalKind env) kinds
  | _ => .error (.error .internalKindsNotAMap)

/-- `validate/1`. -/
def validate : Value → Except Failure Parsed
  | .map yaml => do
    validateSchemaVersion yaml
    let slashes ← validateSlashes env ((get "slashes" yaml).getD (.map []))
    let internal ← validateInternalKinds env ((get "internal_kinds" yaml).getD (.map []))
    return ⟨slashes, internal⟩
  | _ => .error (.error .malformedRoot)

/-- The snapshot of the file, or why there is none: a missing file is an empty one. -/
def snapshotOf : File → Except Failure Parsed
  | .missing => .ok ⟨[], []⟩
  | .unparsed err => .error (.error (.yamlParse err))
  | .yaml content => validate env content

end

/-- The keys of a route, `[route.slash | aliases]`, are a list only if the aliases are. -/
def RouteEntry.slashEntry (e : RouteEntry) : Option SlashEntry :=
  match e.aliases with
  | .list aliases => some ⟨e.route, aliases, e.row⟩
  | _ => none

/-- The snapshot the registry can work with. -/
def Parsed.snapshot (p : Parsed) : Option Snapshot :=
  (p.slashes.mapM RouteEntry.slashEntry).map fun slashes => ⟨slashes, p.internalKinds⟩

/-- `load_snapshot/1`; with `none` the registry raises. -/
def loadSnapshot (s : State) (p : Parsed) : Option (Answer × State) :=
  p.snapshot.bind fun snapshot => s.handleCall (.load snapshot)

inductive Result where
  | ok
  | error (reason : Reason)
  | raised

/-- `load/1`.  A registry that raises is started again with nothing in it, and takes the
caller along. -/
def load (env : Env) (file : File) (s : State) : Result × State :=
  match snapshotOf env file with
  | .ok parsed =>
    match loadSnapshot s parsed with
    | some (_, s') => (.ok, s')
    | none => (.raised, initial)
  | .error (.error reason) => (.error reason, s)
  | .error .raised => (.raised, s)

/-! ## What the result should say -/

/-- The registry serves the snapshot: it is its base, and the two tables have the routes
and the kinds of the base and of the overlays, and no others. -/
structure Serves (s : State) (snapshot : Snapshot) : Prop where
  base : s.base = snapshot
  slashes : ∀ key route, s.slashTable.lookup key = some route ↔ s.merged.Routes key route
  kinds : ∀ kind row, s.kindTable.lookup kind = some row ↔ s.merged.Kinds kind row

/-- The file has this snapshot. -/
def HasSnapshot (env : Env) (file : File) (snapshot : Snapshot) : Prop :=
  ∃ parsed, snapshotOf env file = .ok parsed ∧ parsed.snapshot = some snapshot

/-- What a load reports is so. -/
structure Truthful (env : Env) (file : File) (s : State) : Prop where
  ok_iff : (load env file s).1 = .ok ↔
    ∃ snapshot, HasSnapshot env file snapshot ∧ Serves (load env file s).2 snapshot
  unchanged : ∀ reason, (load env file s).1 = .error reason → (load env file s).2 = s

/-- The file's snapshot collides neither with itself nor with an overlay. -/
def Fits (env : Env) (file : File) (s : State) : Prop :=
  ∀ snapshot, HasSnapshot env file snapshot → (s.candidate (.load snapshot)).merged.CollisionFree

section
variable {env : Env} {file : File} {s : State}

theorem serves_of_installed (h : Installed s) : Serves s s.base :=
  ⟨rfl, lookup_slash h, lookup_kind h⟩

theorem collisionFree_of_base (h : Installed s) :
    (s.candidate (.load s.base)).merged.CollisionFree := (installed_iff.mp h).1

theorem HasSnapshot.unique {c c' : Snapshot} (h : HasSnapshot env file c)
    (h' : HasSnapshot env file c') : c = c' := by
  obtain ⟨p, hp, hc⟩ := h
  obtain ⟨p', hp', hc'⟩ := h'
  obtain rfl := Except.ok.inj (hp.symm.trans hp')
  exact Option.some.inj (hc.symm.trans hc')

/-- **A load**: without a snapshot of the file there is no `:ok`, and with an error nothing
has changed; with a snapshot there is an `:ok`, whatever the registry answers. -/
theorem load_cases (env : Env) (file : File) (h : Installed s) :
    ((∀ snapshot, ¬HasSnapshot env file snapshot) ∧ (load env file s).1 ≠ .ok ∧
      ∀ reason, (load env file s).1 = .error reason → (load env file s).2 = s) ∨
    (∃ snapshot, HasSnapshot env file snapshot ∧
      (((s.candidate (.load snapshot)).merged.CollisionFree ∧
        load env file s = (.ok, (s.candidate (.load snapshot)).rebuilt)) ∨
      (¬(s.candidate (.load snapshot)).merged.CollisionFree ∧ load env file s = (.ok, s)))) := by
  cases hof : snapshotOf env file with
  | error failure =>
    have hnone : ∀ snapshot, ¬HasSnapshot env file snapshot := by
      rintro snapshot ⟨parsed, hparsed, -⟩
      cases hof.symm.trans hparsed
    cases failure with
    | error reason =>
      have hload : load env file s = (.error reason, s) := by simp only [load, hof]
      rw [hload]
      exact .inl ⟨hnone, nofun, fun _ _ => rfl⟩
    | raised =>
      have hload : load env file s = (.raised, s) := by simp only [load, hof]
      rw [hload]
      exact .inl ⟨hnone, nofun, nofun⟩
  | ok parsed =>
    cases hsnap : parsed.snapshot with
    | none =>
      have hnone : ∀ snapshot, ¬HasSnapshot env file snapshot := by
        rintro snapshot ⟨parsed', hparsed, hsome⟩
        obtain rfl := Except.ok.inj (hof.symm.trans hparsed)
        cases hsnap.symm.trans hsome
      have hload : load env file s = (.raised, initial) := by
        simp only [load, hof, loadSnapshot, hsnap, Option.bind_none]
      rw [hload]
      exact .inl ⟨hnone, nofun, nofun⟩
    | some snapshot =>
      have hload : ∀ answer s', s.handleCall (.load snapshot) = some (answer, s') →
          load env file s = (.ok, s') := by
        intro answer s' hcall
        simp only [load, hof, loadSnapshot, hsnap, Option.bind_some, hcall]
      refine .inr ⟨snapshot, ⟨parsed, hof, hsnap⟩, ?_⟩
      rcases handleCall_cases h (.load snapshot) with ⟨hfree, hcall⟩ | ⟨hnot, r, hcall⟩
      · exact .inl ⟨hfree, hload _ _ hcall⟩
      · exact .inr ⟨hnot, hload _ _ hcall⟩

theorem installed_of_reaches (h : Reaches SlashOverlays.step anyStep initial s) : Installed s :=
  h.invariant installed_initial fun _ _ _ hinst _ hstep => hinst.step hstep

/-- **A load reports what is so** exactly where the file's snapshot collides neither with
itself nor with an overlay. -/
theorem truthful_iff_fits (h : Reaches SlashOverlays.step anyStep initial s) :
    Truthful env file s ↔ Fits env file s := by
  have hinst := installed_of_reaches h
  rcases load_cases env file hinst with
    ⟨hnone, hne, hsame⟩ | ⟨snapshot, hhas, ⟨hfree, hload⟩ | ⟨hnot, hload⟩⟩
  · refine iff_of_true ⟨⟨fun hok => absurd hok hne, ?_⟩, hsame⟩ fun c hc => absurd hc (hnone c)
    rintro ⟨c, hc, -⟩
    exact absurd hc (hnone c)
  · refine iff_of_true ⟨⟨fun _ => ⟨snapshot, hhas, ?_⟩, fun _ => ?_⟩, ?_⟩ fun c hc => ?_
    · rw [hload]
      exact serves_of_installed (installed_rebuilt hfree)
    · rw [hload]
    · rw [hload]
      exact nofun
    · exact hhas.unique hc ▸ hfree
  · refine iff_of_false (fun ht => ?_) fun hfits => hnot (hfits snapshot hhas)
    obtain ⟨c, hc, hserves⟩ := ht.ok_iff.mp (by rw [hload])
    rw [hload] at hserves
    obtain rfl : s.base = snapshot := hserves.base.trans (hc.unique hhas)
    exact hnot (collisionFree_of_base hinst)

end

/-- A file with two routes. -/
def twoRoutes (kind kind' : String) : File :=
  .yaml (.map [(.str "schema_version", .int 1), (.str "slashes", .map [
    (.str "/cap:give", .map [(.str "kind", .str kind),
      (.str "command_module", .str "Esr.Plugins.Demo")]),
    (.str "/cap:grant", .map [(.str "kind", .str kind'),
      (.str "command_module", .str "Esr.Plugins.Demo"),
      (.str "permission", .str "cap.manage")])])])

theorem truthful_twoKinds : Truthful Plugin.demoEnv (twoRoutes "cap_give" "cap_grant") initial := by
  refine (truthful_iff_fits ⟨[], .nil⟩).mpr ?_
  rintro snapshot ⟨parsed, hparsed, hsnap⟩
  obtain rfl := Except.ok.inj hparsed
  obtain rfl := Option.some.inj hsnap
  refine ⟨?_, ?_, ?_⟩ <;> decide

/-- **Two routes of one kind**: the load is `:ok`, and the registry has neither. -/
theorem not_truthful_oneKind :
    ¬∀ (env : Plugin.Env) (file : File) (s : State),
      Reaches SlashOverlays.step anyStep initial s → Truthful env file s := by
  intro h
  have ht := h Plugin.demoEnv (twoRoutes "cap_grant" "cap_grant") initial ⟨[], .nil⟩
  have hload : load Plugin.demoEnv (twoRoutes "cap_grant" "cap_grant") initial = (.ok, initial) :=
    rfl
  obtain ⟨snapshot, ⟨parsed, hparsed, hsnap⟩, hserves⟩ := ht.ok_iff.mp (by rw [hload])
  obtain rfl := Except.ok.inj hparsed
  obtain rfl := Option.some.inj hsnap
  rw [hload] at hserves
  cases hserves.base

end SlashLoad
end Esr
