import Esr.UriStore
import Esr.Strings

/-! # The sessions' part of the URI facade

A session is claimed under a name, and under the branch of its worktree when it
has one, in a scope of environment, user and workspace.  Both are aliases of the
session's canonical URI:

    esr://localhost/sessions/by-name/<env>/<user>/<workspace>/<name>
    esr://localhost/sessions/by-name/<env>/<user>/<workspace>/by-worktree/<branch>

`claimSessionUri`, `releaseSessionUri` and `listSessionUrisInScope` are the
functions of `Esr.Uri.Compat` for a caller that is alone.
-/
namespace Esr
namespace SessionUris
open UriStore

/-- `esr://localhost/sessions/<id>`. -/
def canonicalUri (id : String) : String := "esr://localhost/sessions/" ++ id

/-- `uri_components` of `claim_session_uri/2`.  A branch that is not a binary is
`none`. -/
structure Components where
  env : String
  username : String
  workspace : String
  name : String
  worktreeBranch : Option String
  deriving DecidableEq

/-- `esr://localhost/sessions/by-name/<env>/<user>/<workspace>/`. -/
def scopePrefix (env username workspace : String) : String :=
  "esr://localhost/sessions/by-name/" ++ env ++ "/" ++ username ++ "/" ++ workspace ++ "/"

/-- The URI of a name in a scope. -/
def nameUri (env username workspace name : String) : String :=
  scopePrefix env username workspace ++ name

/-- The URI of a worktree branch in a scope. -/
def worktreeUri (env username workspace branch : String) : String :=
  scopePrefix env username workspace ++ "by-worktree/" ++ branch

namespace Components

def nameAlias (c : Components) : String := nameUri c.env c.username c.workspace c.name

/-- The branch that is claimed: an empty one is not. -/
def branch (c : Components) : Option String := c.worktreeBranch.filter fun wb => wb ≠ ""

def worktreeAlias (c : Components) : Option String :=
  c.branch.map (worktreeUri c.env c.username c.workspace)

/-- The aliases of a claim, in the order they are written. -/
def aliases (c : Components) : List String := c.nameAlias :: c.worktreeAlias.toList

end Components

/-- Why a claim is refused, with the session that has the alias. -/
inductive ClaimError where
  | nameTaken (takenBy : String)
  | worktreeTaken (takenBy : String)
  deriving DecidableEq

section Facade
variable {Data : Type}

-- `dispatchToPlugin` answers for URIs the store does not hold; `newStruct id` is
-- `%Esr.Resource.Session.Struct{id: id}`
variable (dispatchToPlugin : String → Option String) (newStruct : String → Data)

/-- `resolve_session_alias/1`. -/
def resolveSessionAlias (t : Store String Data) (uri : String) : Option String :=
  (resolve dispatchToPlugin t uri).bind (stripPrefix "esr://localhost/sessions/")

/-- The `cond` of `claim_session_uri/2`, from the two owners found. -/
def collision (sid : String) (nameOwner wtOwner : Option String) : Option ClaimError :=
  ((nameOwner.filter fun o => o ≠ sid).map .nameTaken).or
    ((wtOwner.filter fun o => o ≠ sid).map .worktreeTaken)

/-- `ensure_session_canonical/2`. -/
def ensureSessionCanonical (t : Store String Data) (sid : String) : Store String Data :=
  if isOfKind t "session" (canonicalUri sid) then t
  else putEntity t (canonicalUri sid) "session" (newStruct sid)

/-- `put_or_ignore_alias/2`: the caller drops the other errors too. -/
def putOrIgnoreAlias (t : Store String Data) (aliasUri canonical : String) :
    Store String Data :=
  (putAlias t aliasUri canonical).2

/-- `claim_session_uri/2`. -/
def claimSessionUri (t : Store String Data) (sid : String) (c : Components) :
    Except ClaimError Unit × Store String Data :=
  match collision sid (resolveSessionAlias dispatchToPlugin t c.nameAlias)
      (c.worktreeAlias.bind (resolveSessionAlias dispatchToPlugin t)) with
  | some e => (.error e, t)
  | none =>
      (.ok (), putAliases (ensureSessionCanonical newStruct t sid) (canonicalUri sid) c.aliases)

/-- `release_session_uri/1`. -/
def releaseSessionUri (t : Store String Data) (sid : String) : Store String Data :=
  Ets.deleteEach t (aliasesOf t (canonicalUri sid))

/-- What `list_session_uris_in_scope/3` makes of one row. -/
def listedRow (env username workspace uri : String) : Row String Data → Option (String × String)
  | .aliasTo target => do
      let sid ← stripPrefix "esr://localhost/sessions/" target
      let name ← stripPrefix (scopePrefix env username workspace) uri
      if name = "" ∨ (stripPrefix "by-worktree/" name).isSome then none else some (name, sid)
  | .entity _ _ => none

/-- `list_session_uris_in_scope/3`. -/
def listSessionUrisInScope (t : Store String Data) (env username workspace : String) :
    List (String × String) :=
  t.tab2list.filterMap fun r => listedRow env username workspace r.1 r.2

end Facade

/-! ## Canonical URIs -/

/-- Session ids are generated, and have no slash. -/
def CleanId (sid : String) : Prop := '/' ∉ sid.toList

instance (sid : String) : Decidable (CleanId sid) := inferInstanceAs (Decidable (¬_))

theorem stripPrefix_canonicalUri (sid : String) :
    stripPrefix "esr://localhost/sessions/" (canonicalUri sid) = some sid :=
  stripPrefix_eq_some.mpr rfl

theorem canonicalUri_injective {sid sid' : String} (h : canonicalUri sid = canonicalUri sid') :
    sid = sid' := by
  have hs := stripPrefix_canonicalUri sid
  rw [h, stripPrefix_canonicalUri] at hs
  exact (Option.some.inj hs).symm

theorem byName_prefix :
    "esr://localhost/sessions/by-name/" = "esr://localhost/sessions/" ++ "by-name/" := rfl

theorem scopePrefix_append (e u w rest : String) :
    scopePrefix e u w ++ rest =
      "esr://localhost/sessions/" ++
        ("by-name/" ++ (e ++ "/" ++ u ++ "/" ++ w ++ "/" ++ rest)) := by
  have hgroup : ∀ p q s : String, p ++ q ++ e ++ s ++ u ++ s ++ w ++ s ++ rest =
      p ++ (q ++ (e ++ s ++ u ++ s ++ w ++ s ++ rest)) := fun p q s => by
    simp only [String.append_assoc]
  have hlit := congrArg (fun p => p ++ e ++ "/" ++ u ++ "/" ++ w ++ "/" ++ rest) byName_prefix
  exact hlit.trans (hgroup _ _ _)

theorem scopePrefix_ne_canonicalUri {sid : String} (hsid : CleanId sid) (e u w rest : String) :
    scopePrefix e u w ++ rest ≠ canonicalUri sid := by
  intro h
  have hstrip := stripPrefix_canonicalUri sid
  rw [← h, scopePrefix_append, stripPrefix_eq_some.mpr rfl, Option.some.injEq] at hstrip
  apply hsid
  rw [← hstrip, String.toList_append]
  exact List.mem_append_left _ (by decide)

theorem Components.exists_of_mem_aliases (c : Components) {a : String} (ha : a ∈ c.aliases) :
    ∃ rest, a = scopePrefix c.env c.username c.workspace ++ rest := by
  rcases List.mem_cons.mp ha with rfl | ha
  · exact ⟨_, rfl⟩
  · obtain ⟨wb, _, rfl⟩ := Option.map_eq_some_iff.mp (Option.mem_toList.mp ha)
    unfold worktreeUri
    rw [String.append_assoc]
    exact ⟨_, rfl⟩

theorem Components.stripPrefix_alias {c : Components} {a : String} (ha : a ∈ c.aliases) :
    ∃ rest, stripPrefix "esr://localhost/sessions/" a = some rest := by
  obtain ⟨rest, rfl⟩ := c.exists_of_mem_aliases ha
  exact ⟨_, stripPrefix_eq_some.mpr (scopePrefix_append _ _ _ _)⟩

theorem Components.alias_ne_canonicalUri {c : Components} {sid a : String} (hsid : CleanId sid)
    (ha : a ∈ c.aliases) : a ≠ canonicalUri sid := by
  obtain ⟨rest, rfl⟩ := c.exists_of_mem_aliases ha
  exact scopePrefix_ne_canonicalUri hsid _ _ _ _

/-! ## What each step does to a row -/

section Rows
variable {Data : Type} {t : Store String Data} {sid : String}

/-- The row of an alias that the session has claimed. -/
def Owns (t : Store String Data) (sid uri : String) : Prop :=
  t.lookup uri = some (.aliasTo (canonicalUri sid))

/-- The sessions' canonical URIs are not aliases. -/
def CanonicalRows (t : Store String Data) : Prop :=
  ∀ sid, CleanId sid → ∀ target, t.lookup (canonicalUri sid) ≠ some (.aliasTo target)

variable {uri a : String}

theorem Owns.resolves (h : Owns t sid uri) (dispatchToPlugin : String → Option String) :
    resolveSessionAlias dispatchToPlugin t uri = some sid := by
  unfold resolveSessionAlias resolve
  rw [show t.lookup uri = some (.aliasTo (canonicalUri sid)) from h]
  exact stripPrefix_canonicalUri sid

theorem Owns.unique {sid' : String} (h : Owns t sid uri) (h' : Owns t sid' uri) : sid = sid' := by
  have hrow := Option.some.inj (Eq.trans (Eq.symm h) h')
  exact canonicalUri_injective (Row.aliasTo.inj hrow)

theorem isEntity_of_isOfKind (h : isOfKind t "session" uri = true) : IsEntity t uri := by
  cases hrow : t.lookup uri with
  | none => simp [isOfKind, hrow] at h
  | some row =>
    cases row with
    | entity kind data => exact ⟨kind, data, hrow⟩
    | aliasTo target => simp [isOfKind, hrow] at h

theorem isEntity_putEntity_self (t : Store String Data) (uri kind : String) (data : Data) :
    IsEntity (putEntity t uri kind data) uri := by
  refine ⟨kind, data, ?_⟩
  rw [putEntity, Ets.lookup_insert_self]

theorem isEntity_ensureSessionCanonical (newStruct : String → Data) (t : Store String Data)
    (sid : String) : IsEntity (ensureSessionCanonical newStruct t sid) (canonicalUri sid) := by
  unfold ensureSessionCanonical
  split
  · rename_i h
    exact isEntity_of_isOfKind h
  · exact isEntity_putEntity_self _ _ _ _

theorem owns_putOrIgnoreAlias (hent : IsEntity t (canonicalUri sid))
    (hfree : t.lookup a = none ∨ Owns t sid a) :
    Owns (putOrIgnoreAlias t a (canonicalUri sid)) sid a := by
  unfold Owns putOrIgnoreAlias
  rw [lookup_putAlias hent, if_pos rfl]
  rcases hfree with h | h
  · rw [h, Option.none_or]
  · rw [show t.lookup a = some (.aliasTo (canonicalUri sid)) from h, Option.some_or]

theorem isEntity_putOrIgnoreAlias {c : String} (h : IsEntity t uri) :
    IsEntity (putOrIgnoreAlias t a c) uri := isEntity_putAlias h

theorem lookup_putOrIgnoreAlias_of_ne {c : String} (hne : uri ≠ a) :
    (putOrIgnoreAlias t a c).lookup uri = t.lookup uri := by
  unfold putOrIgnoreAlias
  rcases putAlias_cases t a c with he | ⟨_, _, he⟩
  · rw [he]
  · rw [he, Ets.lookup_insert_of_ne _ _ hne]

theorem lookup_putOrIgnoreAlias_of_some {c : String} {row : Row String Data}
    (h : t.lookup uri = some row) : (putOrIgnoreAlias t a c).lookup uri = some row := by
  unfold putOrIgnoreAlias
  rcases putAlias_cases t a c with he | ⟨_, hfree, he⟩
  · rw [he, h]
  · have hne : uri ≠ a := by
      intro hu
      rw [hu, hfree] at h
      cases h
    rw [he, Ets.lookup_insert_of_ne _ _ hne, h]

theorem lookup_ensureSessionCanonical_of_ne (newStruct : String → Data)
    (hne : uri ≠ canonicalUri sid) :
    (ensureSessionCanonical newStruct t sid).lookup uri = t.lookup uri := by
  unfold ensureSessionCanonical putEntity
  split
  · rfl
  · exact Ets.lookup_insert_of_ne _ _ hne

theorem lookup_claimSessionUri (dispatchToPlugin : String → Option String)
    (newStruct : String → Data) {c : Components}
    (hok : (claimSessionUri dispatchToPlugin newStruct t sid c).1 = .ok ())
    (hfree : ∀ a ∈ c.aliases, t.lookup a = none ∨ Owns t sid a) (hne : uri ≠ canonicalUri sid) :
    (claimSessionUri dispatchToPlugin newStruct t sid c).2.lookup uri =
      if uri ∈ c.aliases then some (.aliasTo (canonicalUri sid)) else t.lookup uri := by
  unfold claimSessionUri at hok ⊢
  cases hcoll : collision sid (resolveSessionAlias dispatchToPlugin t c.nameAlias)
      (c.worktreeAlias.bind (resolveSessionAlias dispatchToPlugin t)) with
  | some e =>
    rw [hcoll] at hok
    cases hok
  | none =>
    have hput := lookup_putAliases (isEntity_ensureSessionCanonical newStruct t sid) c.aliases uri
    rw [lookup_ensureSessionCanonical_of_ne newStruct hne] at hput
    refine hput.trans ?_
    split
    · rename_i hmem
      rcases hfree uri hmem with h | h
      · rw [h, Option.none_or]
      · rw [show t.lookup uri = some (.aliasTo (canonicalUri sid)) from h, Option.some_or]
    · rfl

theorem resolve_of_claim_ok {dispatchToPlugin : String → Option String}
    {newStruct : String → Data} {c : Components}
    (hok : (claimSessionUri dispatchToPlugin newStruct t sid c).1 = .ok ()) {owner : String}
    (ha : a ∈ c.aliases) (howner : resolveSessionAlias dispatchToPlugin t a = some owner) :
    owner = sid := by
  have hfilter : ∀ (o : Option String) (f : String → ClaimError),
      (o.filter fun o => o ≠ sid).map f = none → o = some owner → owner = sid := by
    intro o f hnone ho
    rw [ho, Option.map_eq_none_iff, Option.filter_eq_none_iff] at hnone
    simpa using hnone owner rfl
  have hcoll : collision sid (resolveSessionAlias dispatchToPlugin t c.nameAlias)
      (c.worktreeAlias.bind (resolveSessionAlias dispatchToPlugin t)) = none := by
    unfold claimSessionUri at hok
    split at hok
    · cases hok
    · assumption
  unfold collision at hcoll
  obtain ⟨hname, hwt⟩ := Option.or_eq_none_iff.mp hcoll
  rcases List.mem_cons.mp ha with rfl | ha
  · exact hfilter _ _ hname howner
  · rw [Option.mem_toList.mp ha, Option.bind_some] at hwt
    exact hfilter _ _ hwt howner

theorem claimSessionUri_error {dispatchToPlugin : String → Option String}
    {newStruct : String → Data} {c : Components} {e : ClaimError}
    (herr : (claimSessionUri dispatchToPlugin newStruct t sid c).1 = .error e) :
    (claimSessionUri dispatchToPlugin newStruct t sid c).2 = t := by
  unfold claimSessionUri at herr ⊢
  split at herr
  · rfl
  · cases herr

theorem lookup_releaseSessionUri {row : Row String Data} :
    (releaseSessionUri t sid).lookup uri = some row ↔
      t.lookup uri = some row ∧ row ≠ .aliasTo (canonicalUri sid) := by
  unfold releaseSessionUri
  rw [Ets.lookup_deleteEach]
  split
  · rename_i hmem
    rw [mem_aliasesOf] at hmem
    rw [hmem]
    constructor
    · intro h
      cases h
    · rintro ⟨h, hne⟩
      exact absurd (Option.some.inj h).symm hne
  · rename_i hmem
    refine ⟨fun h => ⟨h, ?_⟩, And.left⟩
    intro he
    rw [he] at h
    exact hmem (mem_aliasesOf.mpr h)

end Rows
end SessionUris
end Esr
