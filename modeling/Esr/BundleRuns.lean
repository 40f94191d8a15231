import Esr.BundleLoader

/-! # Bundles and operator templates side by side

The loader over a whole run of its calls.  What the last `load_all` has registered of the
operator's and what it has skipped stands beside the registries, so that it can be said
what the calls after it make of that.

A template that is attributed to a bundle has the name that the directory of the bundle's
row gives it (`Attributed`), unless the row is of another directory by then: that is what
`unload` relies on.
-/
namespace Esr
namespace BundleLoader
open Yaml
open SessionTemplate (Template)

/-! ## The calls and the files -/

/-- A template that was not registered because plugins were missing. -/
structure Skipped where
  path : String
  source : Source
  name : String
  template : Template
  missing : List String

structure World where
  disk : Disk
  reg : Registries
  /-- The operator's templates that the last `load_all` has registered. -/
  overrides : Ets String Template
  /-- What the last `load_all` has skipped only for missing plugins. -/
  skipped : List Skipped

inductive Call where
  | loadAll (bundlesDir sessionTemplatesDir : String) (enabled : List String)
  | loadPath (path : String) (enabled : List String)
  | unload (bundleName : String)
  /-- `names` is the order in which the table lists its keys. -/
  | revalidateOnPluginEnable (pluginName : String) (enabled names : List String)
  /-- The files change, but for those of the installed bundles. -/
  | edit (disk : Disk)

/-- The list of enabled plugins that a call uses. -/
def Call.enabled : Call → List String
  | .loadAll _ _ enabled => enabled
  | .loadPath _ enabled => enabled
  | .revalidateOnPluginEnable _ enabled _ => enabled
  | _ => []

/-- The operator's templates among what was returned; of two with one name the later. -/
def overridesOf (disk : Disk) (returned : List (String × Except OperatorError String)) :
    Ets String Template :=
  returned.foldl (fun overrides x =>
    match x.2, operatorTemplate disk x.1 with
    | .ok _, some (name, t) => overrides.insert name t
    | _, _ => overrides) .empty

def skippedBundle (disk : Disk) (enabled : List String) (x : String × Except Error Loaded) :
    Option Skipped :=
  match x.2, bundleTemplate disk x.1 with
  | .ok ⟨_, false⟩, some (m, name, t) =>
      some ⟨x.1, .bundle m.name, name, t, missingPluginDeps t.dependencies enabled⟩
  | _, _ => none

def skippedOperator (disk : Disk) (enabled : List String)
    (x : String × Except OperatorError String) : Option Skipped :=
  match x.2, operatorTemplate disk x.1 with
  | .error (.pluginDepsUnmet _), some (name, t) =>
      some ⟨x.1, .operator, name, t, missingPluginDeps t.dependencies enabled⟩
  | _, _ => none

/-- The two files of a directory are the same. -/
def sameDir (disk disk' : Disk) (dir : String) : Bool :=
  decide (disk'.file (manifestPath dir) = disk.file (manifestPath dir)) &&
    decide (disk'.file (templatePath dir) = disk.file (templatePath dir))

def World.step (w : World) : Call → Option World
  | .loadAll bundlesDir sessionTemplatesDir enabled =>
      let walks := BundleLoader.loadAll w.disk bundlesDir sessionTemplatesDir enabled w.reg
      some { w with
        reg := walks.2.reg
        overrides := overridesOf w.disk walks.2.returned
        skipped := walks.1.returned.filterMap (skippedBundle w.disk enabled) ++
          walks.2.returned.filterMap (skippedOperator w.disk enabled) }
  | .loadPath path enabled => some { w with reg := (doLoadOneBundle w.disk enabled path w.reg).1 }
  | .unload bundleName => some { w with reg := (BundleLoader.unload w.disk bundleName w.reg).1 }
  | .revalidateOnPluginEnable pluginName enabled names =>
      if names.Perm w.reg.bundles.keys then some { w with
        reg := (BundleLoader.revalidateOnPluginEnable w.disk pluginName enabled names w.reg).reg }
      else none
  | .edit disk =>
      if w.reg.bundles.tab2list.all fun row => sameDir w.disk disk row.2.sourcePath then
        some { w with disk := disk }
      else none

/-- Nothing is registered yet. -/
def World.start (disk : Disk) : World := ⟨disk, ⟨.empty, .empty⟩, .empty, []⟩

/-! ## What is asked of a call -/

/-- The template is skipped for plugins that are enabled now, and this one is among them. -/
structure Skipped.Due (x : Skipped) (pluginName : String) (enabled : List String) : Prop where
  among : pluginName ∈ x.missing
  enabled : ∀ p ∈ x.missing, p ∈ enabled

/-- The template is the one of its name. -/
def Skipped.IsRegistered (x : Skipped) (r : Registries) : Prop :=
  r.templates.lookup x.name = some ⟨x.template, x.source⟩

/-- **Bundle and operator templates coexist** in a call from `w` to `w'`. -/
structure Coexists (w : World) (call : Call) (w' : World) : Prop where
  /-- What is added has its plugins. -/
  met : ∀ n row, w'.reg.templates.lookup n = some row → w.reg.templates.lookup n ≠ some row →
    ∀ p ∈ row.template.dependencies.plugins, p ∈ call.enabled
  /-- An operator's template stays until the next `load_all`. -/
  override : ∀ n t, w'.overrides.lookup n = some t →
    w'.reg.templates.lookup n = some ⟨t, .operator⟩
  /-- A bundle that is unloaded takes its templates with it, and no other. -/
  unloaded : ∀ b, call = .unload b →
    (∀ n row, w'.reg.templates.lookup n = some row → row.source ≠ .bundle b) ∧
    ∀ n row, row.source ≠ .bundle b →
      (w'.reg.templates.lookup n = some row ↔ w.reg.templates.lookup n = some row)
  /-- What was skipped for the plugins is registered with the last of them. -/
  revalidated : ∀ p enabled names, call = .revalidateOnPluginEnable p enabled names →
    ∀ x ∈ w.skipped, x.Due p enabled → x.IsRegistered w'.reg

/-- The templates that are attributed to the bundle of a directory have the name that its
template has there. -/
def Fits (disk : Disk) (dir : String) (r : Registries) : Prop :=
  ∀ m, manifestOf disk dir = .ok m → ∀ n row, r.templates.lookup n = some row →
    row.source = .bundle m.name → templateName disk dir m.name = .str n

/-- Two directories of one bundle have templates of one name. -/
def Agree (disk : Disk) (dir dir' : String) : Prop :=
  ∀ m m', manifestOf disk dir = .ok m → manifestOf disk dir' = .ok m' → m.name = m'.name →
    templateName disk dir m.name = templateName disk dir' m'.name

/-- A bundle's template that was skipped is still to be registered: the bundle has the
directory it was found in, with the files of then and with all of its plugins; its name is
free, and no other bundle will take that; and no bundle that is retried has a template
whose name is no text. -/
structure Retryable (w : World) (pluginName : String) (enabled : List String) (x : Skipped) :
    Prop where
  installed : ∃ m row, x.source = .bundle m.name ∧ w.reg.bundles.lookup m.name = some row ∧
    row.sourcePath = x.path ∧ bundleTemplate w.disk x.path = some (m, x.name, x.template)
  plugins : missingPluginDeps x.template.dependencies enabled = []
  free : w.reg.templates.lookup x.name = none
  alone : ∀ b row, w.reg.bundles.lookup b = some row → .bundle b ≠ x.source →
    pluginName ∈ row.manifest.dependencies.plugins → ∀ m t,
      bundleTemplate w.disk row.sourcePath = some (m, x.name, t) →
        missingPluginDeps m.dependencies enabled ≠ []
  named : ∀ b row, w.reg.bundles.lookup b = some row →
    pluginName ∈ row.manifest.dependencies.plugins →
      ∃ n, templateName w.disk row.sourcePath b = .str n

/-- What is asked of a call. -/
def World.Meets (w : World) : Call → Prop
  | .loadAll bundlesDir _ _ =>
      (∀ dir ∈ bundleDirs w.disk bundlesDir, Fits w.disk dir w.reg) ∧
        ∀ dir ∈ bundleDirs w.disk bundlesDir, ∀ dir' ∈ bundleDirs w.disk bundlesDir,
          Agree w.disk dir dir'
  | .loadPath path enabled => Fits w.disk path w.reg ∧ ∀ m n t,
      bundleTemplate w.disk path = some (m, n, t) →
        missingPluginDeps m.dependencies enabled = [] → w.overrides.lookup n = none
  | .revalidateOnPluginEnable pluginName enabled _ => ∀ x ∈ w.skipped, x.Due pluginName enabled →
      x.IsRegistered w.reg ∨ Retryable w pluginName enabled x
  | _ => True

/-! ## What the registries say of each other -/

/-- A row is of the manifest in its directory. -/
def Rooted (disk : Disk) (r : Registries) : Prop :=
  ∀ b row, r.bundles.lookup b = some row →
    manifestOf disk row.sourcePath = .ok row.manifest ∧ row.manifest.name = b

/-- A template that is attributed to a bundle has the name that its directory gives it. -/
def Attributed (disk : Disk) (r : Registries) : Prop :=
  ∀ n row b, r.templates.lookup n = some row → row.source = .bundle b →
    ∃ bundle, r.bundles.lookup b = some bundle ∧ templateName disk bundle.sourcePath b = .str n

/-- The operator's templates are there. -/
def Overriding (overrides : Ets String Template) (r : Registries) : Prop :=
  ∀ n t, overrides.lookup n = some t → r.templates.lookup n = some ⟨t, .operator⟩

/-- What is there and was not there before has its plugins. -/
def Adds (enabled : List String) (r r' : Registries) : Prop :=
  ∀ n row, r'.templates.lookup n = some row →
    r.templates.lookup n = some row ∨ ∀ p ∈ row.template.dependencies.plugins, p ∈ enabled

section
variable {disk : Disk} {enabled : List String} {dir path b n p : String} {r r₀ : Registries}
  {row : Registered} {m : Manifest} {t : Template} {overrides : Ets String Template}

theorem missing_eq_nil_iff {dependencies : SessionTemplate.Dependencies} :
    missingPluginDeps dependencies enabled = [] ↔ ∀ p ∈ dependencies.plugins, p ∈ enabled := by
  rw [missingPluginDeps, List.filter_eq_nil_iff]
  simp

theorem Rooted.load (h : Rooted disk r) : Rooted disk (doLoadOneBundle disk enabled dir r).1 := by
  intro b row hrow
  rw [bundles_load] at hrow
  split at hrow
  · rename_i m hmanifest
    rw [Ets.lookup_insert] at hrow
    split at hrow
    · rename_i hname
      obtain rfl := Option.some.inj hrow
      exact ⟨hmanifest, hname.symm⟩
    · exact h b row hrow
  · exact h b row hrow

theorem Attributed.load (h : Attributed disk r) (hfits : Fits disk dir r) :
    Attributed disk (doLoadOneBundle disk enabled dir r).1 := by
  intro n row b hrow hsource
  rw [bundles_load]
  rcases lookup_load hrow with hold | ⟨m, t, htemplate, -, rfl⟩
  · obtain ⟨bundle, hbundle, hname⟩ := h n row b hold hsource
    split
    · rename_i m hmanifest
      by_cases hb : b = m.name
      · -- The row is of this directory now, and so is the name.
        subst hb
        exact ⟨_, Ets.lookup_insert_self _ _ _, hfits m hmanifest n row hold hsource⟩
      · exact ⟨bundle, by rw [Ets.lookup_insert_of_ne _ _ hb, hbundle], hname⟩
    · exact ⟨bundle, hbundle, hname⟩
  · obtain ⟨hmanifest, hname, -⟩ := of_bundleTemplate htemplate
    obtain rfl := Source.bundle.inj hsource
    rw [hmanifest]
    exact ⟨_, Ets.lookup_insert_self _ _ _, hname⟩

theorem Fits.load (h : Fits disk path r) (hagree : Agree disk dir path) :
    Fits disk path (doLoadOneBundle disk enabled dir r).1 := by
  intro m hmanifest n row hrow hsource
  rcases lookup_load hrow with hold | ⟨m', t, htemplate, -, rfl⟩
  · exact h m hmanifest n row hold hsource
  · obtain ⟨hmanifest', hname, -⟩ := of_bundleTemplate htemplate
    have hnames := Source.bundle.inj hsource
    rw [← hagree m' m hmanifest' hmanifest hnames, hname]

theorem Adds.load (h : Adds enabled r₀ r) : Adds enabled r₀ (doLoadOneBundle disk enabled dir r).1 := by
  intro n row hrow
  rcases lookup_load hrow with hold | ⟨m, t, htemplate, hmissing, rfl⟩
  · exact h n row hold
  · rw [(of_bundleTemplate htemplate).2.2]
    exact .inr (missing_eq_nil_iff.mp hmissing)

theorem Overriding.load (h : Overriding overrides r)
    (hfree : ∀ m n t, bundleTemplate disk dir = some (m, n, t) →
      missingPluginDeps m.dependencies enabled = [] → overrides.lookup n = none) :
    Overriding overrides (doLoadOneBundle disk enabled dir r).1 := by
  intro n t hover
  rw [lookup_load_other]
  · exact h n t hover
  · intro m t' htemplate hmissing
    rw [hfree m n t' htemplate hmissing] at hover
    cases hover

/-! ## The operator's templates -/

theorem lookup_operator (h : (doLoadOperatorTemplate disk enabled path r).1.templates.lookup n = some row) :
    r.templates.lookup n = some row ∨
      row.source = .operator ∧ ∀ p ∈ row.template.dependencies.plugins, p ∈ enabled := by
  cases doLoadOperatorTemplate_cases disk enabled path r with
  | unfit e _ heq =>
    rw [heq] at h
    exact .inl h
  | skipped name t _ heq =>
    rw [heq] at h
    exact .inl h
  | registered name t _ hmissing heq =>
    rw [heq] at h
    dsimp only at h
    rw [Ets.lookup_insert] at h
    split at h
    · obtain rfl := Option.some.inj h
      exact .inr ⟨rfl, missing_eq_nil_iff.mp hmissing⟩
    · exact .inl h

theorem bundles_operator : (doLoadOperatorTemplate disk enabled path r).1.bundles = r.bundles := by
  cases doLoadOperatorTemplate_cases disk enabled path r with
  | unfit e _ heq => rw [heq]
  | skipped name t _ heq => rw [heq]
  | registered name t _ _ heq => rw [heq]

theorem Rooted.operator (h : Rooted disk r) :
    Rooted disk (doLoadOperatorTemplate disk enabled path r).1 := by
  intro b row hrow
  rw [bundles_operator] at hrow
  exact h b row hrow

theorem Attributed.operator (h : Attributed disk r) :
    Attributed disk (doLoadOperatorTemplate disk enabled path r).1 := by
  intro n row b hrow hsource
  rw [bundles_operator]
  rcases lookup_operator hrow with hold | ⟨hoperator, -⟩
  · exact h n row b hold hsource
  · rw [hoperator] at hsource
    cases hsource

theorem Adds.operator (h : Adds enabled r₀ r) :
    Adds enabled r₀ (doLoadOperatorTemplate disk enabled path r).1 := by
  intro n row hrow
  rcases lookup_operator hrow with hold | ⟨-, hmet⟩
  · exact h n row hold
  · exact .inr hmet

theorem overriding_walk (paths : List String) (h : Overriding overrides r) :
    let walk := each (fun path r => Prod.map id some (doLoadOperatorTemplate disk enabled path r)) paths r
    Overriding (walk.returned.foldl (fun overrides x =>
      match x.2, operatorTemplate disk x.1 with
      | .ok _, some (name, t) => overrides.insert name t
      | _, _ => overrides) overrides) walk.reg := by
  induction paths generalizing r overrides with
  | nil => exact h
  | cons path rest ih =>
    unfold each
    cases doLoadOperatorTemplate_cases disk enabled path r with
    | unfit e htemplate heq =>
      simp only [heq, Prod.map_apply, id, List.foldl_cons]
      exact ih h
    | skipped name t htemplate heq =>
      simp only [heq, Prod.map_apply, id, List.foldl_cons]
      exact ih h
    | registered name t htemplate _ heq =>
      simp only [heq, Prod.map_apply, id, List.foldl_cons, htemplate]
      refine ih fun n t' hover => ?_
      rw [Ets.lookup_insert] at hover ⊢
      split
      · rename_i hn
        rw [if_pos hn] at hover
        rw [Option.some.inj hover]
      · rename_i hn
        rw [if_neg hn] at hover
        exact h n t' hover

/-! ## Unloading -/

theorem lookup_unload : (unload disk b r).1.templates.lookup n = r.templates.lookup n ∨
    ∃ row, r.templates.lookup n = some row ∧ row.source = .bundle b ∧
      (unload disk b r).1.templates.lookup n = none := by
  unfold unload
  dsimp only
  split
  · rename_i name _
    split
    · rename_i row hrow
      split
      · rename_i hsource
        by_cases hn : n = name
        · subst hn
          exact .inr ⟨row, hrow, hsource, Ets.lookup_delete_self _ _⟩
        · exact .inl (Ets.lookup_delete_of_ne _ hn)
      · exact .inl rfl
    · exact .inl rfl
  · exact .inl rfl

theorem bundles_unload : (unload disk b r).1.bundles = r.bundles.delete b := by
  unfold unload
  dsimp only
  split
  · split
    · split
      · rfl
      · rfl
    · rfl
  · rfl

theorem of_lookup_unload (h : (unload disk b r).1.templates.lookup n = some row) :
    r.templates.lookup n = some row := by
  rcases @lookup_unload disk b n r with heq | ⟨_, -, -, hnone⟩
  · rw [← heq, h]
  · rw [hnone] at h
    cases h

theorem unload_other (hsource : row.source ≠ .bundle b) :
    (unload disk b r).1.templates.lookup n = some row ↔ r.templates.lookup n = some row := by
  refine ⟨of_lookup_unload, fun hrow => ?_⟩
  rcases @lookup_unload disk b n r with heq | ⟨row', hrow', hsource', -⟩
  · rw [heq, hrow]
  · obtain rfl := Option.some.inj (hrow.symm.trans hrow')
    exact absurd hsource' hsource

theorem unload_own (h : Attributed disk r) (hrow : (unload disk b r).1.templates.lookup n = some row) :
    row.source ≠ .bundle b := by
  intro hsource
  have hbefore := of_lookup_unload hrow
  obtain ⟨bundle, hbundle, hname⟩ := h n row b hbefore hsource
  have hgone : (unload disk b r).1.templates.lookup n = none := by
    unfold templateName at hname
    simp only [unload, hbundle, hname, hbefore, if_pos hsource]
    exact Ets.lookup_delete_self _ _
  rw [hgone] at hrow
  cases hrow

theorem Rooted.unload (h : Rooted disk r) : Rooted disk (unload disk b r).1 := by
  intro b' row hrow
  rw [bundles_unload, Ets.lookup_delete] at hrow
  split at hrow
  · cases hrow
  · exact h b' row hrow

theorem Attributed.unload (h : Attributed disk r) : Attributed disk (unload disk b r).1 := by
  intro n row b' hrow hsource
  have hne : b' ≠ b := by
    rintro rfl
    exact unload_own h hrow hsource
  rw [bundles_unload, Ets.lookup_delete_of_ne _ hne]
  exact h n row b' (of_lookup_unload hrow) hsource

theorem Overriding.unload (h : Overriding overrides r) : Overriding overrides (unload disk b r).1 :=
  fun n t hover => (unload_other fun hs => by cases hs).mpr (h n t hover)

/-! ## Retrying -/

/-- What the retry of a bundle comes to. -/
inductive RetryCases (disk : Disk) (p : String) (enabled : List String) (b : String)
    (r : Registries) (o : Outcome Unit) : Prop
  | stays (h : o = (r, some ()))
  | raised (bundle : Installed) (hbundle : r.bundles.lookup b = some bundle)
      (hp : p ∈ bundle.manifest.dependencies.plugins)
      (hname : ∀ n, templateName disk bundle.sourcePath b ≠ .str n) (h : o = (r, none))
  | loaded (bundle : Installed) (name : String) (hbundle : r.bundles.lookup b = some bundle)
      (hp : p ∈ bundle.manifest.dependencies.plugins)
      (hname : templateName disk bundle.sourcePath b = .str name)
      (hfree : r.templates.lookup name = none)
      (h : o = Prod.map id (Option.map fun _ => ())
        (doLoadOneBundle disk enabled bundle.sourcePath r))

theorem retry_cases (disk : Disk) (p : String) (enabled : List String) (b : String)
    (r : Registries) : RetryCases disk p enabled b r (retry disk p enabled b r) := by
  unfold retry
  cases hbundle : r.bundles.lookup b with
  | none => exact .stays rfl
  | some bundle =>
    dsimp only
    split
    · rename_i hp
      split
      · rename_i name hname
        cases hfree : r.templates.lookup name with
        | some row => exact .stays rfl
        | none => exact .loaded bundle name hbundle hp hname hfree rfl
      · rename_i hno
        exact .raised bundle hbundle hp hno rfl
    · exact .stays rfl

theorem retry_preserves {P : Registries → Prop} (h : P r)
    (hload : ∀ bundle name, r.bundles.lookup b = some bundle →
      templateName disk bundle.sourcePath b = .str name → r.templates.lookup name = none →
      P (doLoadOneBundle disk enabled bundle.sourcePath r).1) :
    P (retry disk p enabled b r).1 := by
  cases retry_cases disk p enabled b r with
  | stays heq => rwa [heq]
  | raised bundle _ _ _ heq => rwa [heq]
  | loaded bundle name hbundle _ hname hfree heq =>
    rw [heq]
    exact hload bundle name hbundle hname hfree

theorem Rooted.retry (h : Rooted disk r) : Rooted disk (retry disk p enabled b r).1 :=
  retry_preserves h fun _ _ _ _ _ => h.load

theorem Adds.retry (h : Adds enabled r₀ r) : Adds enabled r₀ (retry disk p enabled b r).1 :=
  retry_preserves h fun _ _ _ _ _ => h.load

theorem Attributed.retry (h : Attributed disk r) (hrooted : Rooted disk r) :
    Attributed disk (retry disk p enabled b r).1 := by
  refine retry_preserves h fun bundle _ hbundle _ _ => h.load fun m hmanifest n row hrow hsource => ?_
  obtain ⟨hown, hb⟩ := hrooted b bundle hbundle
  obtain rfl := Except.ok.inj (hown.symm.trans hmanifest)
  obtain ⟨bundle', hbundle', hname⟩ := h n row _ hrow hsource
  rw [hb] at hbundle' hname ⊢
  obtain rfl := Option.some.inj (hbundle.symm.trans hbundle')
  exact hname

theorem lookup_retry (hrooted : Rooted disk r) (hrow : r.templates.lookup n = some row) :
    (retry disk p enabled b r).1.templates.lookup n = some row := by
  refine retry_preserves (P := fun r => r.templates.lookup n = some row) hrow
    fun bundle name hbundle hname hfree => ?_
  refine (lookup_load_other r fun m t htemplate _ => ?_).trans hrow
  obtain ⟨hown, hb⟩ := hrooted b bundle hbundle
  obtain ⟨hmanifest, hname', -⟩ := of_bundleTemplate htemplate
  obtain rfl := Except.ok.inj (hown.symm.trans hmanifest)
  rw [hb, hname] at hname'
  obtain rfl := Value.str.inj hname'
  rw [hfree] at hrow
  cases hrow

theorem bundles_retry (hrooted : Rooted disk r) (b' : String) :
    (retry disk p enabled b r).1.bundles.lookup b' = r.bundles.lookup b' := by
  refine retry_preserves (P := fun r' => r'.bundles.lookup b' = r.bundles.lookup b') rfl
    fun bundle name hbundle _ _ => ?_
  obtain ⟨hown, hb⟩ := hrooted b bundle hbundle
  rw [bundles_load, hown, Ets.lookup_insert]
  split
  · rename_i hb'
    rw [hb', hb, hbundle]
  · rfl

/-! ### A template that is due -/

section
variable {w : World} {x : Skipped}

theorem Retryable.load (hx : Retryable w p enabled x) :
    x.IsRegistered (doLoadOneBundle w.disk enabled x.path r).1 := by
  obtain ⟨m, row, hsource, -, -, htemplate⟩ := hx.installed
  have hmissing := hx.plugins
  rw [(of_bundleTemplate htemplate).2.2] at hmissing
  rw [Skipped.IsRegistered, load_self r htemplate hmissing, hsource]
  exact Ets.lookup_insert_self _ _ _

/-- The registries in a walk, with the bundles of before and the name free or taken by
the template. -/
structure Pending (w : World) (x : Skipped) (r : Registries) : Prop where
  rooted : Rooted w.disk r
  same : ∀ b, r.bundles.lookup b = w.reg.bundles.lookup b
  name : r.templates.lookup x.name = none ∨ x.IsRegistered r

theorem Pending.retry (h : Pending w x r) (hx : Retryable w p enabled x) :
    (retry w.disk p enabled b r).2 ≠ none ∧ Pending w x (retry w.disk p enabled b r).1 := by
  constructor
  · cases retry_cases w.disk p enabled b r with
    | stays heq =>
      rw [heq]
      exact Option.some_ne_none _
    | raised bundle hbundle hp hno _ =>
      obtain ⟨n, hn⟩ := hx.named b bundle (h.same b ▸ hbundle) hp
      exact absurd hn (hno n)
    | loaded bundle name hbundle _ hname _ heq =>
      obtain ⟨hown, hb⟩ := h.rooted b bundle hbundle
      rw [heq]
      intro hnone
      exact load_returns hown (hb ▸ hname) (Option.map_eq_none_iff.mp hnone)
  · refine ⟨h.rooted.retry, fun b' => (bundles_retry h.rooted b').trans (h.same b'), ?_⟩
    rcases h.name with hfree | hdone
    · obtain ⟨m, row, hsource, hrow, hpath, -⟩ := hx.installed
      cases retry_cases w.disk p enabled b r with
      | stays heq =>
        rw [heq]
        exact .inl hfree
      | raised bundle _ _ _ heq =>
        rw [heq]
        exact .inl hfree
      | loaded bundle name hbundle hp _ _ heq =>
        rw [heq]
        have hinstalled := h.same b ▸ hbundle
        by_cases hb : .bundle b = x.source
        · -- The bundle of the template itself.
          obtain rfl := Source.bundle.inj (hb.trans hsource)
          obtain rfl := Option.some.inj (hrow.symm.trans hinstalled)
          rw [hpath]
          exact .inr hx.load
        · exact .inl ((lookup_load_other r (hx.alone b bundle hinstalled hb hp)).trans hfree)
    · exact .inr (lookup_retry h.rooted hdone)

theorem Retryable.registered (hx : Retryable w p enabled x) (hrooted : Rooted w.disk w.reg)
    (hp : p ∈ x.template.dependencies.plugins) {names : List String}
    (hnames : names.Perm w.reg.bundles.keys) :
    x.IsRegistered (revalidateOnPluginEnable w.disk p enabled names w.reg).reg := by
  obtain ⟨m, row, hsource, hrow, hpath, htemplate⟩ := hx.installed
  have hmem : m.name ∈ names := by
    rw [hnames.mem_iff, Ets.mem_keys]
    exact ⟨row, hrow⟩
  obtain ⟨hmanifest, hname, hdeps⟩ := of_bundleTemplate htemplate
  refine each_reaches (P := Pending w x) hmem (fun b _ r h => h.retry hx)
    (fun b _ r h hdone => lookup_retry h.rooted hdone) (fun r h => ?_)
    ⟨hrooted, fun _ => rfl, .inl hx.free⟩
  rcases h.name with hfree | hdone
  · obtain ⟨hown, -⟩ := hrooted m.name row hrow
    rw [hpath] at hown
    obtain rfl := Except.ok.inj (hmanifest.symm.trans hown)
    rw [← hpath] at hname
    unfold templateName at hname
    simp only [retry, h.same, hrow, if_pos (hdeps ▸ hp), hname, hfree]
    rw [hpath]
    exact hx.load
  · exact lookup_retry h.rooted hdone

end

/-! ## A run -/

/-- The registries say of each other what they should, and what is remembered of the last
`load_all` is so. -/
structure Inv (w : World) : Prop where
  rooted : Rooted w.disk w.reg
  attributed : Attributed w.disk w.reg
  overriding : Overriding w.overrides w.reg
  skipped : ∀ x ∈ w.skipped, ∀ p ∈ x.missing, p ∈ x.template.dependencies.plugins

theorem inv_start (disk : Disk) : Inv (World.start disk) where
  rooted b row h := by
    rw [World.start, Ets.lookup_empty] at h
    cases h
  attributed n row b h _ := by
    rw [World.start, Ets.lookup_empty] at h
    cases h
  overriding n t h := by
    rw [World.start, Ets.lookup_empty] at h
    cases h
  skipped x hx := absurd hx List.not_mem_nil

variable {w w' : World}

theorem of_mem_skipped {returned : List (String × Except Error Loaded)}
    {returned' : List (String × Except OperatorError String)} {x : Skipped}
    (hx : x ∈ returned.filterMap (skippedBundle disk enabled) ++
      returned'.filterMap (skippedOperator disk enabled)) :
    x.missing = missingPluginDeps x.template.dependencies enabled := by
  rcases List.mem_append.mp hx with hx | hx
  · obtain ⟨y, -, hy⟩ := List.mem_filterMap.mp hx
    unfold skippedBundle at hy
    split at hy
    · obtain rfl := Option.some.inj hy
      rfl
    · cases hy
  · obtain ⟨y, -, hy⟩ := List.mem_filterMap.mp hx
    unfold skippedOperator at hy
    split at hy
    · obtain rfl := Option.some.inj hy
      rfl
    · cases hy

theorem walk_bundles (root : String) (enabled : List String) (hinv : Inv w)
    (hfits : ∀ dir ∈ bundleDirs w.disk root, Fits w.disk dir w.reg)
    (hagree : ∀ dir ∈ bundleDirs w.disk root, ∀ dir' ∈ bundleDirs w.disk root,
      Agree w.disk dir dir') :
    let reg := (loadBundlesDir w.disk root enabled w.reg).reg
    Rooted w.disk reg ∧ Attributed w.disk reg ∧ Adds enabled w.reg reg := by
  refine And.left (b := ∀ dir ∈ bundleDirs w.disk root,
    Fits w.disk dir (loadBundlesDir w.disk root enabled w.reg).reg) ?_
  refine each_invariant (P := fun r => (Rooted w.disk r ∧ Attributed w.disk r ∧
    Adds enabled w.reg r) ∧ ∀ dir ∈ bundleDirs w.disk root, Fits w.disk dir r)
    (fun dir hdir r h => ?_)
    ⟨⟨hinv.rooted, hinv.attributed, fun n row hrow => .inl hrow⟩, hfits⟩
  obtain ⟨⟨hrooted, hattributed, hadds⟩, hall⟩ := h
  exact ⟨⟨hrooted.load, hattributed.load (hall dir hdir), hadds.load⟩,
    fun dir' hdir' => (hall dir' hdir').load (hagree dir hdir dir' hdir')⟩

theorem walk_operators (root : String) (hrooted : Rooted disk r) (hattributed : Attributed disk r)
    (hadds : Adds enabled r₀ r) :
    let reg := (loadOperatorDir disk root enabled r).reg
    Rooted disk reg ∧ Attributed disk reg ∧ Adds enabled r₀ reg := by
  refine each_invariant (P := fun r => Rooted disk r ∧ Attributed disk r ∧ Adds enabled r₀ r)
    (fun path _ r h => ?_) ⟨hrooted, hattributed, hadds⟩
  obtain ⟨hrooted, hattributed, hadds⟩ := h
  exact ⟨hrooted.operator, hattributed.operator, hadds.operator⟩

theorem walk_all (bundlesDir sessionTemplatesDir : String) (hinv : Inv w)
    (hok : w.Meets (.loadAll bundlesDir sessionTemplatesDir enabled)) :
    let walks := loadAll w.disk bundlesDir sessionTemplatesDir enabled w.reg
    (Rooted w.disk walks.2.reg ∧ Attributed w.disk walks.2.reg ∧ Adds enabled w.reg walks.2.reg) ∧
      Overriding (overridesOf w.disk walks.2.returned) walks.2.reg := by
  have hwalk := walk_bundles bundlesDir enabled hinv hok.1 hok.2
  unfold loadAll
  dsimp only
  split
  · refine ⟨walk_operators sessionTemplatesDir hwalk.1 hwalk.2.1 hwalk.2.2, ?_⟩
    exact overriding_walk _ fun n t h => by
      rw [Ets.lookup_empty] at h
      cases h
  · refine ⟨hwalk, fun n t h => ?_⟩
    rw [overridesOf, List.foldl_nil, Ets.lookup_empty] at h
    cases h

theorem walk_retries (p : String) (enabled names : List String) (hinv : Inv w) :
    let reg := (revalidateOnPluginEnable w.disk p enabled names w.reg).reg
    (Rooted w.disk reg ∧ Attributed w.disk reg ∧ Adds enabled w.reg reg) ∧
      ∀ n row, w.reg.templates.lookup n = some row → reg.templates.lookup n = some row := by
  refine each_invariant (P := fun r => (Rooted w.disk r ∧ Attributed w.disk r ∧
    Adds enabled w.reg r) ∧ ∀ n row, w.reg.templates.lookup n = some row →
      r.templates.lookup n = some row) (fun b _ r h => ?_)
    ⟨⟨hinv.rooted, hinv.attributed, fun n row hrow => .inl hrow⟩, fun n row hrow => hrow⟩
  obtain ⟨⟨hrooted, hattributed, hadds⟩, hkept⟩ := h
  exact ⟨⟨hrooted.retry, hattributed.retry hrooted, hadds.retry⟩,
    fun n row hrow => lookup_retry hrooted (hkept n row hrow)⟩

theorem manifestOf_of_same {disk' : Disk} (h : sameDir disk disk' dir = true) :
    manifestOf disk' dir = manifestOf disk dir := by
  simp only [sameDir, Bool.and_eq_true, decide_eq_true_eq] at h
  rw [manifestOf, manifestOf, h.1, h.2]

theorem templateName_of_same {disk' : Disk} (h : sameDir disk disk' dir = true) :
    templateName disk' dir b = templateName disk dir b := by
  simp only [sameDir, Bool.and_eq_true, decide_eq_true_eq] at h
  rw [templateName, templateName, templateNameFromDir, templateNameFromDir, h.2]

theorem Inv.edit {disk' : Disk} (h : Inv w)
    (hsame : w.reg.bundles.tab2list.all (fun row => sameDir w.disk disk' row.2.sourcePath) = true) :
    Inv { w with disk := disk' } := by
  have hrow : ∀ b row, w.reg.bundles.lookup b = some row →
      sameDir w.disk disk' row.sourcePath = true :=
    fun b row hlookup => List.all_eq_true.mp hsame (b, row) (Ets.mem_tab2list.mpr hlookup)
  refine ⟨fun b row hlookup => ?_, fun n row b hlookup hsource => ?_, h.overriding, h.skipped⟩
  · rw [manifestOf_of_same (hrow b row hlookup)]
    exact h.rooted b row hlookup
  · obtain ⟨bundle, hbundle, hname⟩ := h.attributed n row b hlookup hsource
    exact ⟨bundle, hbundle, (templateName_of_same (hrow b bundle hbundle)).trans hname⟩

theorem Inv.step {call : Call} (h : Inv w) (hok : w.Meets call) (hs : w.step call = some w') :
    Inv w' := by
  cases call with
  | loadAll bundlesDir sessionTemplatesDir enabled =>
    obtain rfl := Option.some.inj hs
    obtain ⟨⟨hrooted, hattributed, -⟩, hoverriding⟩ := walk_all bundlesDir sessionTemplatesDir h hok
    refine ⟨hrooted, hattributed, hoverriding, fun x hx p hp => ?_⟩
    rw [of_mem_skipped hx] at hp
    exact List.mem_of_mem_filter hp
  | loadPath path enabled =>
    obtain rfl := Option.some.inj hs
    exact ⟨h.rooted.load, h.attributed.load hok.1, h.overriding.load hok.2, h.skipped⟩
  | unload b =>
    obtain rfl := Option.some.inj hs
    exact ⟨h.rooted.unload, h.attributed.unload, h.overriding.unload, h.skipped⟩
  | revalidateOnPluginEnable p enabled names =>
    simp only [World.step] at hs
    split at hs
    · obtain rfl := Option.some.inj hs
      obtain ⟨⟨hrooted, hattributed, -⟩, hkept⟩ := walk_retries p enabled names h
      exact ⟨hrooted, hattributed, fun n t hover => hkept n _ (h.overriding n t hover), h.skipped⟩
    · cases hs
  | edit disk =>
    simp only [World.step] at hs
    split at hs
    · rename_i hsame
      obtain rfl := Option.some.inj hs
      exact h.edit hsame
    · cases hs

theorem Inv.adds {call : Call} (h : Inv w) (hok : w.Meets call) (hs : w.step call = some w') :
    Adds call.enabled w.reg w'.reg := by
  have hsame : Adds call.enabled w.reg w.reg := fun n row hrow => .inl hrow
  cases call with
  | loadAll bundlesDir sessionTemplatesDir enabled =>
    obtain rfl := Option.some.inj hs
    exact (walk_all bundlesDir sessionTemplatesDir h hok).1.2.2
  | loadPath path enabled =>
    obtain rfl := Option.some.inj hs
    exact hsame.load
  | unload b =>
    obtain rfl := Option.some.inj hs
    exact fun n row hrow => .inl (of_lookup_unload hrow)
  | revalidateOnPluginEnable p enabled names =>
    simp only [World.step] at hs
    split at hs
    · obtain rfl := Option.some.inj hs
      exact (walk_retries p enabled names h).1.2.2
    · cases hs
  | edit disk =>
    simp only [World.step] at hs
    split at hs
    · obtain rfl := Option.some.inj hs
      exact hsame
    · cases hs

theorem Inv.revalidated {names : List String} (h : Inv w)
    (hok : w.Meets (.revalidateOnPluginEnable p enabled names))
    (hs : w.step (.revalidateOnPluginEnable p enabled names) = some w') :
    ∀ x ∈ w.skipped, x.Due p enabled → x.IsRegistered w'.reg := by
  intro x hx hdue
  simp only [World.step] at hs
  split at hs
  · rename_i hnames
    obtain rfl := Option.some.inj hs
    rcases hok x hx hdue with hdone | hretry
    · exact (walk_retries p enabled names h).2 _ _ hdone
    · exact hretry.registered h.rooted (h.skipped x hx p hdue.among) hnames
  · cases hs

end

/-- **Bundle and operator templates coexist** in every call of a run whose calls all meet
what is asked of them: a bundle is loaded where the templates attributed to it have the
name of the new one, and not in the place of an operator's template; and what a retry is
to bring is a bundle's template whose name is free. -/
theorem coexists_of_meets (disk : Disk) (w w' : World) (call : Call)
    (hr : Reaches World.step World.Meets (World.start disk) w) (hok : w.Meets call)
    (hs : w.step call = some w') : Coexists w call w' := by
  have hinv : Inv w := hr.invariant (inv_start disk) fun w call w' h hok hs => h.step hok hs
  refine ⟨fun n row hrow hnew => (hinv.adds hok hs n row hrow).resolve_left hnew,
    (hinv.step hok hs).overriding, ?_, ?_⟩
  · rintro b rfl
    obtain rfl := Option.some.inj hs
    exact ⟨fun n row hrow => unload_own hinv.attributed hrow, fun n row => unload_other⟩
  · rintro p enabled names rfl
    exact hinv.revalidated hok hs

/-! ### An operator's template, and two directories of one bundle -/

/-- A file of these entries, which are in the order of their keys. -/
def yaml (entries : Entries) : File := .text (.ok (.map entries))

/-- The manifest of a bundle that depends on the plugins. -/
def bundleYaml (name : String) (plugins : List String) : File := yaml
  [(.str "dependencies", .map [(.str "plugins", .list (plugins.map .str))]),
    (.str "name", .str name), (.str "schema_version", .int 1), (.str "version", .str "0.1.0")]

/-- A template of this name that depends on the plugins. -/
def templateYaml (name : String) (plugins : List String) : File := yaml
  [(.str "dependencies", .map [(.str "plugins", .list (plugins.map .str))]),
    (.str "name", .str name), (.str "schema_version", .int 1)]

/-- The bundle `feishu-cc`, which depends on `feishu`, at two places with templates of two
names; and an operator's template that depends on `feishu` as well. -/
def demo : Disk where
  ls root := if root = "bundles" then ["feishu-cc"] else if root = "templates" then ["ops.yaml"] else []
  isDir dir := dir = "bundles/feishu-cc"
  file path :=
    if path = "bundles/feishu-cc/manifest.yaml" then bundleYaml "feishu-cc" ["feishu"]
    else if path = "bundles/feishu-cc/template.yaml" then templateYaml "feishu-cc" []
    else if path = "fork/manifest.yaml" then bundleYaml "feishu-cc" ["feishu"]
    else if path = "fork/template.yaml" then templateYaml "ops" []
    else if path = "templates/ops.yaml" then templateYaml "ops" ["feishu"]
    else .absent

/-- The operator's template is skipped for `feishu`, and not retried when that is enabled. -/
theorem not_coexists_operator : ¬∀ (disk : Disk) (w w' : World) (call : Call),
    Reaches World.step anyStep (World.start disk) w → w.step call = some w' →
      Coexists w call w' := by
  intro hall
  have hrun : ∃ w, exec World.step anyStep (World.start demo) [.loadAll "bundles" "templates" []] = some w ∧
      ∃ x ∈ w.skipped, x.Due "feishu" ["feishu"] ∧ x.name = "ops" ∧
      ∃ w', w.step (.revalidateOnPluginEnable "feishu" ["feishu"] ["feishu-cc"]) = some w' ∧
        w'.reg.templates.lookup "ops" = none := by
    exact ⟨_, rfl, _, List.mem_cons_of_mem _ List.mem_cons_self, ⟨by decide, by decide⟩, rfl, _, rfl, rfl⟩
  obtain ⟨w, hexec, x, hx, hdue, hname, w', hs, hnone⟩ := hrun
  have hregistered := (hall demo w w' _ (.of_exec hexec) hs).revalidated "feishu" ["feishu"]
    ["feishu-cc"] rfl x hx hdue
  rw [Skipped.IsRegistered, hname, hnone] at hregistered
  cases hregistered

/-- The bundle is skipped for `feishu`, and there when that is enabled. -/
theorem coexists_retried : ∃ w w', exec World.step anyStep (World.start demo)
    [.loadAll "bundles" "none" []] = some w ∧
    w.step (.revalidateOnPluginEnable "feishu" ["feishu"] ["feishu-cc"]) = some w' ∧
    w.skipped.length = 1 ∧
    Coexists w (.revalidateOnPluginEnable "feishu" ["feishu"] ["feishu-cc"]) w' := by
  refine ⟨_, _, rfl, rfl, rfl, coexists_of_meets demo _ _ _ ⟨[.loadAll "bundles" "none" []], ?_⟩ ?_ rfl⟩
  · refine .cons ⟨fun dir _ m _ n row hrow => ?_, fun dir hdir dir' hdir' m m' hm hm' _ => ?_⟩ rfl .nil
    · rw [World.start, Ets.lookup_empty] at hrow
      cases hrow
    · obtain rfl := List.mem_singleton.mp hdir
      obtain rfl := List.mem_singleton.mp hdir'
      obtain rfl := Except.ok.inj (hm.symm.trans hm')
      rfl
  · intro x hx hdue
    obtain rfl := List.mem_singleton.mp hx
    -- The one bundle that is installed.
    have hone : ∀ (m : Installed) b row, (Ets.empty.insert "feishu-cc" m).lookup b = some row →
        b = "feishu-cc" ∧ row = m := by
      intro m b row hrow
      rw [Ets.lookup_insert] at hrow
      split at hrow
      · rename_i hb
        exact ⟨hb, (Option.some.inj hrow).symm⟩
      · rw [Ets.lookup_empty] at hrow
        cases hrow
    refine .inr ⟨⟨_, _, rfl, rfl, rfl, rfl⟩, rfl, rfl, fun b row hrow hne => ?_, fun b row hrow _ => ?_⟩
    · exact absurd (congrArg Source.bundle (hone _ b row hrow).1) hne
    · obtain ⟨rfl, rfl⟩ := hone _ b row hrow
      exact ⟨_, rfl⟩

end BundleLoader
end Esr
