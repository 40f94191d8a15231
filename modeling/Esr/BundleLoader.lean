import Esr.Ets
import Esr.Runs
import Esr.SessionTemplate

/-! # Bundles and operator templates

`Esr.Bundle.Loader` fills two registries: that of the bundles, by the bundle's name, and
that of the session templates, by the template's name.  A bundle is a directory with a
manifest and a template; an operator's template is one file.  A template is registered
only when the plugins it depends on are enabled, and of two with one name the later one is
there.

The registries are tables that outlive a call: a call that raises leaves what it has
written so far.
-/
namespace Esr
namespace BundleLoader
open Yaml
open EntityServer (orElse)
open SessionTemplate (Content Dependencies Template field isOne)

/-! ## Manifests -/

/-- `%Esr.Bundle.Manifest{}`. -/
structure Manifest where
  schemaVersion : Value
  name : String
  version : String
  description : Value
  dependencies : Dependencies
  path : String
deriving DecidableEq

/-- The errors of `Esr.Bundle.Manifest.parse/1`. -/
inductive ManifestReason where
  | readFailed (reason path : String)
  | notAMap (path : String)
  | parseFailed (reason path : String)
  | schemaVersionMismatch (got : Value)
  | missingField (key : String)
  | invalidDependencies (other : Value)
  | invalidDependencyList (key : String) (other : Value)
  | invalidDependencyEntry (key : String) (entry : Value)

/-- What is at a path. -/
inductive File where
  /-- No regular file. -/
  | absent
  | unreadable (reason : String)
  | text (content : Content)
deriving DecidableEq

/-- `File.read/1`. -/
def File.read : File → Except String Content
  | .absent => .error "enoent"
  | .unreadable reason => .error reason
  | .text content => .ok content

/-- `File.regular?/1`. -/
def File.isRegular : File → Bool
  | .absent => false
  | _ => true

namespace Manifest

/-- `read_file/1` and `read_yaml/2`. -/
def readYaml (file : File) (path : String) : Except ManifestReason Entries :=
  match file.read with
  | .error reason => .error (.readFailed reason path)
  | .ok (.error reason) => .error (.parseFailed reason path)
  | .ok (.ok (.map parsed)) => .ok parsed
  | .ok (.ok _) => .error (.notAMap path)

/-- `fetch_schema_version/1`. -/
def fetchSchemaVersion (parsed : Entries) : Except ManifestReason Value :=
  match get "schema_version" parsed with
  | some v => if isOne v then .ok v else .error (.schemaVersionMismatch v)
  | none => .error (.missingField "schema_version")

/-- `fetch_required_string/2`. -/
def fetchRequiredString (parsed : Entries) (key : String) : Except ManifestReason String :=
  match get key parsed with
  | some (.str s) => if s = "" then .error (.missingField key) else .ok s
  | _ => .error (.missingField key)

/-- `validate_each_string/2`. -/
def validateEachString (key : String) (entries : List Value) : Except ManifestReason (List String) :=
  entries.mapM fun
    | .str s => if s = "" then .error (.invalidDependencyEntry key (.str s)) else .ok s
    | entry => .error (.invalidDependencyEntry key entry)

/-- `parse_string_list/3`. -/
def parseStringList (block : Entries) (key : String) (required : Bool) :
    Except ManifestReason (List String) :=
  match get key block with
  | some (.list entries) => validateEachString key entries
  | some other => .error (.invalidDependencyList key other)
  | none => if required then .error (.missingField ("dependencies." ++ key)) else .ok []

/-- `parse_dependencies/1`. -/
def parseDependencies : Value → Except ManifestReason Dependencies
  | .null => .error (.missingField "dependencies")
  | .map block => do
      let plugins ← parseStringList block "plugins" true
      let bundles ← parseStringList block "bundles" false
      return ⟨plugins, bundles⟩
  | other => .error (.invalidDependencies other)

/-- `parse/1`. -/
def parse (file : File) (path : String) : Except ManifestReason Manifest := do
  let parsed ← readYaml file path
  let schemaVersion ← fetchSchemaVersion parsed
  let name ← fetchRequiredString parsed "name"
  let version ← fetchRequiredString parsed "version"
  let dependencies ← parseDependencies (field "dependencies" parsed)
  return {
    schemaVersion := schemaVersion
    name := name
    version := version
    description := orElse (.str "") (field "description" parsed)
    dependencies := dependencies
    path := path }

end Manifest

/-! ## The registries -/

/-- The source of a template. -/
inductive Source where
  | bundle (name : String)
  | operator
deriving DecidableEq

/-- A row of `Esr.Bundle.Registry`. -/
structure Installed where
  manifest : Manifest
  sourcePath : String

/-- A row of `Esr.SessionTemplate.Registry`. -/
structure Registered where
  template : Template
  source : Source
deriving DecidableEq

structure Registries where
  bundles : Ets String Installed
  templates : Ets String Registered

/-- The files: `ls` has no entries where `File.ls/1` fails. -/
structure Disk where
  ls : String → List String
  isDir : String → Bool
  file : String → File

/-- `Path.join/2`. -/
def join (root entry : String) : String := root ++ "/" ++ entry

def manifestPath (dir : String) : String := join dir "manifest.yaml"

def templatePath (dir : String) : String := join dir "template.yaml"

/-! ## One bundle -/

/-- What `load_path/2` returns on success. -/
structure Loaded where
  name : String
  templateRegistered : Bool

/-- The errors of `load_path/2`. -/
inductive Error where
  | missingManifest (dir : String)
  | missingTemplate (dir : String)
  | manifestInvalid (reason : ManifestReason) (path : String)
  | templateInvalid (reason : SessionTemplate.Reason) (path : String)
  | templateUnreadable (reason path : String)

/-- What a call leaves and returns, `none` where it raises. -/
abbrev Outcome (A : Type) := Registries × Option A

/-- The manifest of a directory that has both files. -/
def manifestOf (disk : Disk) (dir : String) : Except Error Manifest :=
  if !(disk.file (manifestPath dir)).isRegular then .error (.missingManifest dir)
  else if !(disk.file (templatePath dir)).isRegular then .error (.missingTemplate dir)
  else (Manifest.parse (disk.file (manifestPath dir)) (manifestPath dir)).mapError
    fun reason => .manifestInvalid reason (manifestPath dir)

/-- `missing_plugin_deps/2`. -/
def missingPluginDeps (dependencies : Dependencies) (enabled : List String) : List String :=
  dependencies.plugins.filter fun p => p ∉ enabled

/-- `register_bundle_template/2`.  The registry has no clause for a name that is not a
text. -/
def registerBundleTemplate (disk : Disk) (m : Manifest) (dir : String) (r : Registries) :
    Outcome (Except Error Loaded) :=
  match (disk.file (templatePath dir)).read with
  | .ok content =>
      match SessionTemplate.parse content (some m.dependencies) with
      | .ok template =>
          match orElse (.str m.name) template.name with
          | .str name =>
              ({ r with templates := r.templates.insert name ⟨template, .bundle m.name⟩ },
                some (.ok ⟨m.name, true⟩))
          | _ => (r, none)
      | .error reason => (r, some (.error (.templateInvalid reason (templatePath dir))))
  | .error reason => (r, some (.error (.templateUnreadable reason (templatePath dir))))

/-- `do_load_one_bundle/2`. -/
def doLoadOneBundle (disk : Disk) (enabled : List String) (dir : String) (r : Registries) :
    Outcome (Except Error Loaded) :=
  match manifestOf disk dir with
  | .error e => (r, some (.error e))
  | .ok m =>
      let r := { r with bundles := r.bundles.insert m.name ⟨m, dir⟩ }
      if missingPluginDeps m.dependencies enabled = [] then registerBundleTemplate disk m dir r
      else (r, some (.ok ⟨m.name, false⟩))

/-- `template_name_from_dir/1`, with `nil` as null. -/
def templateNameFromDir (disk : Disk) (dir : String) : Value :=
  match disk.file (templatePath dir) with
  | .text (.ok (.map parsed)) => field "name" parsed
  | _ => .null

/-! ## One operator template -/

inductive OperatorError where
  | pluginDepsUnmet (missing : List String)
  | missingName (path : String)
  | invalid (reason : SessionTemplate.Reason) (path : String)
  | unreadable (reason path : String)

/-- `do_load_operator_template/2`. -/
def doLoadOperatorTemplate (disk : Disk) (enabled : List String) (path : String)
    (r : Registries) : Registries × Except OperatorError String :=
  match (disk.file path).read with
  | .ok content =>
      match SessionTemplate.parse content none with
      | .ok template =>
          match template.name with
          | .str name =>
              if name = "" then (r, .error (.missingName path))
              else
                match missingPluginDeps template.dependencies enabled with
                | [] => ({ r with templates := r.templates.insert name ⟨template, .operator⟩ }, .ok name)
                | missing => (r, .error (.pluginDepsUnmet missing))
          | _ => (r, .error (.missingName path))
      | .error reason => (r, .error (.invalid reason path))
  | .error reason => (r, .error (.unreadable reason path))

/-! ## The calls -/

/-- What a walk over several paths leaves, what was returned for each, and whether it has
come to its end. -/
structure Walk (A : Type) where
  reg : Registries
  returned : List (String × A)
  finished : Bool

/-- `Enum.each/2`, which ends where the function raises. -/
def each {A : Type} (f : String → Registries → Outcome A) : List String → Registries → Walk A
  | [], r => ⟨r, [], true⟩
  | path :: rest, r =>
      match f path r with
      | (r, none) => ⟨r, [], false⟩
      | (r, some a) =>
          let walk := each f rest r
          { walk with returned := (path, a) :: walk.returned }

/-- The directories of the bundles, in the order of their names. -/
def bundleDirs (disk : Disk) (root : String) : List String :=
  (((disk.ls root).insertionSort (· ≤ ·)).map (join root)).filter fun dir => disk.isDir dir

/-- The name ends in `.yaml` or `.yml`. -/
def isYaml (entry : String) : Bool :=
  ".yaml".toList.isSuffixOf entry.toList || ".yml".toList.isSuffixOf entry.toList

/-- The operator's templates, in the order of their names. -/
def operatorFiles (disk : Disk) (root : String) : List String :=
  ((((disk.ls root).insertionSort (· ≤ ·)).filter isYaml).map (join root)).filter fun path =>
    (disk.file path).isRegular

/-- `load_bundles_dir/2`. -/
def loadBundlesDir (disk : Disk) (root : String) (enabled : List String) (r : Registries) :
    Walk (Except Error Loaded) :=
  each (doLoadOneBundle disk enabled) (bundleDirs disk root) r

/-- `load_operator_dir/2`. -/
def loadOperatorDir (disk : Disk) (root : String) (enabled : List String) (r : Registries) :
    Walk (Except OperatorError String) :=
  each (fun path r => Prod.map id some (doLoadOperatorTemplate disk enabled path r))
    (operatorFiles disk root) r

/-- `load_all/1`: the walks over both directories; the second is not begun where the first
raises. -/
def loadAll (disk : Disk) (bundlesDir sessionTemplatesDir : String) (enabled : List String)
    (r : Registries) : Walk (Except Error Loaded) × Walk (Except OperatorError String) :=
  let bundles := loadBundlesDir disk bundlesDir enabled r
  (bundles, if bundles.finished then loadOperatorDir disk sessionTemplatesDir enabled bundles.reg
    else ⟨bundles.reg, [], false⟩)

/-- `unload/1`. -/
def unload (disk : Disk) (bundleName : String) (r : Registries) : Outcome Unit :=
  let templateName := match r.bundles.lookup bundleName with
    | some row => orElse (.str bundleName) (templateNameFromDir disk row.sourcePath)
    | none => .str bundleName
  let r := { r with bundles := r.bundles.delete bundleName }
  match templateName with
  | .str name =>
      match r.templates.lookup name with
      | some row =>
          if row.source = .bundle bundleName then
            ({ r with templates := r.templates.delete name }, some ())
          else (r, some ())
      | none => (r, some ())
  | _ => (r, none)

/-- The retry of one bundle: its template is looked up under the name in its directory. -/
def retry (disk : Disk) (pluginName : String) (enabled : List String) (name : String)
    (r : Registries) : Outcome Unit :=
  match r.bundles.lookup name with
  | some row =>
      if pluginName ∈ row.manifest.dependencies.plugins then
        match orElse (.str name) (templateNameFromDir disk row.sourcePath) with
        | .str templateName =>
            match r.templates.lookup templateName with
            | some _ => (r, some ())
            | none => Prod.map id (Option.map fun _ => ()) (doLoadOneBundle disk enabled row.sourcePath r)
        | _ => (r, none)
      else (r, some ())
  | none => (r, some ())

/-- `revalidate_on_plugin_enable/2`; `names` are those of `Bundle.Registry.list_all/0`. -/
def revalidateOnPluginEnable (disk : Disk) (pluginName : String) (enabled names : List String)
    (r : Registries) : Walk Unit :=
  each (retry disk pluginName enabled) names r

/-! ## A walk -/

section
variable {A : Type} {f : String → Registries → Outcome A} {paths : List String} {r : Registries}

theorem each_invariant {P : Registries → Prop}
    (hstep : ∀ path ∈ paths, ∀ r, P r → P (f path r).1) (h : P r) : P (each f paths r).reg := by
  induction paths generalizing r with
  | nil => exact h
  | cons path rest ih =>
    have hnext := hstep path List.mem_cons_self r h
    unfold each
    split
    · rename_i heq
      rwa [heq] at hnext
    · rename_i heq
      rw [heq] at hnext
      exact ih (fun path hmem => hstep path (List.mem_cons_of_mem _ hmem)) hnext

theorem each_reaches {P Q : Registries → Prop} {path : String} (hmem : path ∈ paths)
    (hgo : ∀ path ∈ paths, ∀ r, P r → (f path r).2 ≠ none ∧ P (f path r).1)
    (hkeep : ∀ path ∈ paths, ∀ r, P r → Q r → Q (f path r).1)
    (hat : ∀ r, P r → Q (f path r).1) (h : P r) : Q (each f paths r).reg := by
  induction paths generalizing r with
  | nil => cases hmem
  | cons first rest ih =>
    have hrest : ∀ path ∈ rest, path ∈ first :: rest := fun _ => List.mem_cons_of_mem _
    obtain ⟨hok, hnext⟩ := hgo first List.mem_cons_self r h
    have hnow := hat r h
    unfold each
    split
    · rename_i heq
      rw [heq] at hok
      exact absurd rfl hok
    · rename_i r' a heq
      rw [heq] at hnext
      by_cases hin : path ∈ rest
      · exact ih hin (fun path hp => hgo path (hrest path hp))
          (fun path hp => hkeep path (hrest path hp)) hnext
      · obtain rfl : path = first := (List.mem_cons.mp hmem).resolve_right hin
        rw [heq] at hnow
        -- The path is behind the walk, and the rest of it keeps what it has brought.
        refine (each_invariant (P := fun r => P r ∧ Q r) (fun path hp r hr => ?_) ⟨hnext, hnow⟩).2
        exact ⟨(hgo path (hrest path hp) r hr.1).2, hkeep path (hrest path hp) r hr.1 hr.2⟩

end

/-! ## What the calls do -/

/-- The bundle of a directory, its template and the name of that. -/
def bundleTemplate (disk : Disk) (dir : String) : Option (Manifest × String × Template) :=
  match manifestOf disk dir, (disk.file (templatePath dir)).read with
  | .ok m, .ok content =>
      match SessionTemplate.parse content (some m.dependencies) with
      | .ok template =>
          match orElse (.str m.name) template.name with
          | .str name => some (m, name, template)
          | _ => none
      | .error _ => none
  | _, _ => none

/-- The template of an operator's file, and its name. -/
def operatorTemplate (disk : Disk) (path : String) : Option (String × Template) :=
  match (disk.file path).read with
  | .ok content =>
      match SessionTemplate.parse content none with
      | .ok template =>
          match template.name with
          | .str name => if name = "" then none else some (name, template)
          | _ => none
      | .error _ => none
  | .error _ => none

/-- The name that a bundle's template has by its directory. -/
def templateName (disk : Disk) (dir bundleName : String) : Value :=
  orElse (.str bundleName) (templateNameFromDir disk dir)

section
variable {disk : Disk} {enabled : List String} {dir path : String} {m : Manifest} {name : String}
  {t : Template}

theorem templateName_of_parse {content : Content} {given : Option Dependencies}
    (hread : (disk.file (templatePath dir)).read = .ok content)
    (hparse : SessionTemplate.parse content given = .ok t) (b : String) :
    templateName disk dir b = orElse (.str b) t.name := by
  obtain ⟨parsed, rfl, hfield, -⟩ := SessionTemplate.of_parse hparse
  unfold File.read at hread
  split at hread
  · cases hread
  · cases hread
  · rename_i heq
    obtain rfl := Except.ok.inj hread
    rw [templateName, templateNameFromDir, heq, hfield]

/-- The name of a bundle's template is that in its directory, and its dependencies are
those of the manifest. -/
theorem of_bundleTemplate (h : bundleTemplate disk dir = some (m, name, t)) :
    manifestOf disk dir = .ok m ∧ templateName disk dir m.name = .str name ∧
      t.dependencies = m.dependencies := by
  unfold bundleTemplate at h
  split at h
  · rename_i m' content hmanifest hread
    split at h
    · rename_i t' hparse
      split at h
      · rename_i name' hname
        simp only [Option.some.injEq, Prod.mk.injEq] at h
        obtain ⟨rfl, rfl, rfl⟩ := h
        obtain ⟨-, -, -, hdeps⟩ := SessionTemplate.of_parse hparse
        exact ⟨hmanifest, (templateName_of_parse hread hparse _).trans hname, hdeps _ rfl⟩
      · cases h
    · cases h
  · cases h

theorem load_returns {r : Registries} (hmanifest : manifestOf disk dir = .ok m)
    (hname : templateName disk dir m.name = .str name) :
    (doLoadOneBundle disk enabled dir r).2 ≠ none := by
  unfold doLoadOneBundle
  rw [hmanifest]
  dsimp only
  split
  · unfold registerBundleTemplate
    split
    · rename_i content hread
      split
      · rename_i t hparse
        rw [← templateName_of_parse hread hparse, hname]
        exact Option.some_ne_none _
      · exact Option.some_ne_none _
    · exact Option.some_ne_none _
  · exact Option.some_ne_none _

/-- What loading a directory comes to. -/
inductive LoadCases (disk : Disk) (enabled : List String) (dir : String) (r : Registries)
    (o : Outcome (Except Error Loaded)) : Prop
  | failed (e : Error) (hmanifest : manifestOf disk dir = .error e) (h : o = (r, some (.error e)))
  | skipped (m : Manifest) (hmanifest : manifestOf disk dir = .ok m)
      (hmissing : missingPluginDeps m.dependencies enabled ≠ [])
      (h : o = ({ r with bundles := r.bundles.insert m.name ⟨m, dir⟩ }, some (.ok ⟨m.name, false⟩)))
  | registered (m : Manifest) (name : String) (t : Template)
      (htemplate : bundleTemplate disk dir = some (m, name, t))
      (hmissing : missingPluginDeps m.dependencies enabled = [])
      (h : o = ({ r with
          bundles := r.bundles.insert m.name ⟨m, dir⟩
          templates := r.templates.insert name ⟨t, .bundle m.name⟩ },
        some (.ok ⟨m.name, true⟩)))
  | unfit (m : Manifest) (hmanifest : manifestOf disk dir = .ok m)
      (htemplate : bundleTemplate disk dir = none)
      (h : o.1 = { r with bundles := r.bundles.insert m.name ⟨m, dir⟩ })
      (hreturned : ∀ l, o.2 ≠ some (.ok l))

theorem doLoadOneBundle_cases (disk : Disk) (enabled : List String) (dir : String)
    (r : Registries) : LoadCases disk enabled dir r (doLoadOneBundle disk enabled dir r) := by
  unfold doLoadOneBundle
  cases hmanifest : manifestOf disk dir with
  | error e => exact .failed e hmanifest rfl
  | ok m =>
    dsimp only
    by_cases hmissing : missingPluginDeps m.dependencies enabled = []
    · rw [if_pos hmissing]
      unfold registerBundleTemplate
      cases hread : (disk.file (templatePath dir)).read with
      | error reason =>
        refine .unfit m hmanifest ?_ rfl fun l h => by cases h
        simp [bundleTemplate, hmanifest, hread]
      | ok content =>
        cases hparse : SessionTemplate.parse content (some m.dependencies) with
        | error reason =>
          refine .unfit m hmanifest ?_ ?_ fun l h => ?_
          · simp [bundleTemplate, hmanifest, hread, hparse]
          · simp only [hparse]
          · simp only [hparse] at h
            cases h
        | ok template =>
          simp only [hparse]
          split
          · rename_i name hname
            exact .registered m name template
              (by simp [bundleTemplate, hmanifest, hread, hparse, hname]) hmissing rfl
          · rename_i hno
            refine .unfit m hmanifest ?_ rfl fun l h => by cases h
            simp only [bundleTemplate, hmanifest, hread, hparse]
    · rw [if_neg hmissing]
      exact .skipped m hmanifest hmissing rfl

/-- What loading an operator's file comes to. -/
inductive OperatorCases (disk : Disk) (enabled : List String) (path : String) (r : Registries)
    (o : Registries × Except OperatorError String) : Prop
  | registered (name : String) (t : Template) (htemplate : operatorTemplate disk path = some (name, t))
      (hmissing : missingPluginDeps t.dependencies enabled = [])
      (h : o = ({ r with templates := r.templates.insert name ⟨t, .operator⟩ }, .ok name))
  | skipped (name : String) (t : Template) (htemplate : operatorTemplate disk path = some (name, t))
      (h : o = (r, .error (.pluginDepsUnmet (missingPluginDeps t.dependencies enabled))))
  | unfit (e : OperatorError) (htemplate : operatorTemplate disk path = none) (h : o = (r, .error e))

theorem doLoadOperatorTemplate_cases (disk : Disk) (enabled : List String) (path : String)
    (r : Registries) :
    OperatorCases disk enabled path r (doLoadOperatorTemplate disk enabled path r) := by
  unfold doLoadOperatorTemplate
  cases hread : (disk.file path).read with
  | error reason => exact .unfit _ (by simp [operatorTemplate, hread]) rfl
  | ok content =>
    cases hparse : SessionTemplate.parse content none with
    | error reason =>
      refine .unfit (.invalid reason path) (by simp [operatorTemplate, hread, hparse]) ?_
      simp only [hparse]
    | ok t =>
      simp only [hparse]
      split
      · rename_i name hname
        by_cases hempty : name = ""
        · rw [if_pos hempty]
          exact .unfit _ (by simp [operatorTemplate, hread, hparse, hname, hempty]) rfl
        · rw [if_neg hempty]
          have htemplate : operatorTemplate disk path = some (name, t) := by
            simp [operatorTemplate, hread, hparse, hname, hempty]
          split
          · rename_i hmissing
            exact .registered name t htemplate hmissing rfl
          · exact .skipped name t htemplate rfl
      · rename_i hno
        refine .unfit _ ?_ rfl
        simp only [operatorTemplate, hread, hparse]

/-- Loading a directory keeps the rows of other names: what is there afterwards was there,
or is the template of the directory. -/
theorem lookup_load {r : Registries} {n : String} {row : Registered}
    (h : (doLoadOneBundle disk enabled dir r).1.templates.lookup n = some row) :
    r.templates.lookup n = some row ∨ ∃ m t, bundleTemplate disk dir = some (m, n, t) ∧
      missingPluginDeps m.dependencies enabled = [] ∧ row = ⟨t, .bundle m.name⟩ := by
  cases doLoadOneBundle_cases disk enabled dir r with
  | failed e _ heq =>
    rw [heq] at h
    exact .inl h
  | skipped m _ _ heq =>
    rw [heq] at h
    exact .inl h
  | unfit m _ _ heq _ =>
    rw [heq] at h
    exact .inl h
  | registered m name t htemplate hmissing heq =>
    rw [heq] at h
    dsimp only at h
    rw [Ets.lookup_insert] at h
    split at h
    · rename_i hname
      subst hname
      exact .inr ⟨m, t, htemplate, hmissing, (Option.some.inj h).symm⟩
    · exact .inl h

theorem load_self (r : Registries) (htemplate : bundleTemplate disk dir = some (m, name, t))
    (hmissing : missingPluginDeps m.dependencies enabled = []) :
    doLoadOneBundle disk enabled dir r = ({ r with
        bundles := r.bundles.insert m.name ⟨m, dir⟩
        templates := r.templates.insert name ⟨t, .bundle m.name⟩ },
      some (.ok ⟨m.name, true⟩)) := by
  obtain ⟨hmanifest, -, -⟩ := of_bundleTemplate htemplate
  cases doLoadOneBundle_cases disk enabled dir r with
  | failed e he _ =>
    rw [hmanifest] at he
    cases he
  | skipped m' hm' hne _ =>
    obtain rfl := Except.ok.inj (hmanifest.symm.trans hm')
    exact absurd hmissing hne
  | unfit m' _ hnone _ _ =>
    rw [htemplate] at hnone
    cases hnone
  | registered m' name' t' htemplate' _ h =>
    simp only [htemplate, Option.some.injEq, Prod.mk.injEq] at htemplate'
    obtain ⟨rfl, rfl, rfl⟩ := htemplate'
    exact h

theorem lookup_load_other (r : Registries) {n : String}
    (hno : ∀ m t, bundleTemplate disk dir = some (m, n, t) →
      missingPluginDeps m.dependencies enabled ≠ []) :
    (doLoadOneBundle disk enabled dir r).1.templates.lookup n = r.templates.lookup n := by
  cases doLoadOneBundle_cases disk enabled dir r with
  | failed e _ h => rw [h]
  | skipped m _ _ h => rw [h]
  | unfit m _ _ h _ => rw [h]
  | registered m name t htemplate hmissing h =>
    rw [h]
    refine Ets.lookup_insert_of_ne _ _ ?_
    rintro rfl
    exact hno m t htemplate hmissing

theorem bundles_load (r : Registries) :
    (doLoadOneBundle disk enabled dir r).1.bundles = match manifestOf disk dir with
      | .ok m => r.bundles.insert m.name ⟨m, dir⟩
      | .error _ => r.bundles := by
  cases doLoadOneBundle_cases disk enabled dir r with
  | failed e hmanifest heq => rw [heq, hmanifest]
  | skipped m hmanifest _ heq => rw [heq, hmanifest]
  | unfit m hmanifest _ heq _ => rw [heq, hmanifest]
  | registered m name t htemplate _ heq => rw [heq, (of_bundleTemplate htemplate).1]

end

end BundleLoader
end Esr
