import Esr.Ets
import Esr.Runs

/-! # The URI store

`Esr.Uri.Store` is one ETS table from URI to a tagged row: an entity, or an alias
that names the canonical URI of an entity.  Reads are direct lookups; the four
writes (`putEntity`, `putAlias`, `delete`, `deleteAllByKind`) are serialized by
the store's process, so a history of the store is a list of writes.

An alias is checked once, when it is made.  Deleting the target afterwards
leaves the alias behind (the store defers that clean-up), so what holds of every
history is `oneHop_or_orphaned`: an alias row targets an entity, or its target
was deleted while the alias was in place.  Under the discipline that no delete
hits a target (`Careful`) the one-hop property itself is an invariant.
-/
namespace Esr
namespace UriStore

variable {Kind Data : Type}

/-- The value of a row: `{:entity, kind, data}` or `{:alias, canonical_uri}`. -/
inductive Row (Kind Data : Type) where
  | entity (kind : Kind) (data : Data)
  | aliasTo (canonical : String)
  deriving DecidableEq

/-- The contents of `:esr_uri_store`. -/
abbrev Store (Kind Data : Type) := Ets String (Row Kind Data)

/-- Why `put_alias/2` refuses. -/
inductive AliasError where
  | canonicalMissing
  | targetIsAlias
  | aliasExists
  deriving DecidableEq

/-- `handle_call({:put_entity, uri, kind, data}, …)`: no check, the row of `uri`
is overwritten whatever it was. -/
def putEntity (t : Store Kind Data) (uri : String) (kind : Kind) (data : Data) :
    Store Kind Data :=
  t.insert uri (.entity kind data)

/-- `handle_call({:put_alias, alias_uri, canonical_uri}, …)`. -/
def putAlias (t : Store Kind Data) (aliasUri canonicalUri : String) :
    Except AliasError Unit × Store Kind Data :=
  match t.lookup canonicalUri with
  | some (.entity _ _) =>
      match t.lookup aliasUri with
      | none => (.ok (), t.insert aliasUri (.aliasTo canonicalUri))
      | some _ => (.error .aliasExists, t)
  | some (.aliasTo _) => (.error .targetIsAlias, t)
  | none => (.error .canonicalMissing, t)

/-- `handle_call({:delete, uri}, …)`. -/
def delete (t : Store Kind Data) (uri : String) : Store Kind Data := Ets.delete t uri

section ByKind
variable [DecidableEq Kind]

/-- Whether the row at `uri` is an entity of the kind. -/
def isOfKind (t : Store Kind Data) (kind : Kind) (uri : String) : Bool :=
  match t.lookup uri with
  | some (.entity k _) => k = kind
  | _ => false

/-- `handle_call({:delete_all_by_kind, kind}, …)`: the entities of the kind, and
every alias whose target is one of them. -/
def deleteAllByKind (t : Store Kind Data) (kind : Kind) : Store Kind Data :=
  t.deleteWhere fun _ row =>
    match row with
    | .entity k _ => k = kind
    | .aliasTo target => isOfKind t kind target

end ByKind

/-- `Esr.Uri.resolve/1`.  URIs the store does not hold go to a plugin handler,
which is the parameter. -/
def resolve (dispatchToPlugin : String → Option String) (t : Store Kind Data) (uri : String) :
    Option String :=
  match t.lookup uri with
  | some (.entity _ _) => some uri
  | some (.aliasTo canonical) => some canonical
  | none => dispatchToPlugin uri

/-- `Esr.Uri.get_entity/1`. -/
def getEntity (dispatchToPlugin : String → Option String) (t : Store Kind Data)
    (uri : String) : Option (Kind × Data) :=
  match resolve dispatchToPlugin t uri with
  | some canonical =>
      match t.lookup canonical with
      | some (.entity kind data) => some (kind, data)
      | _ => none
  | none => none

/-- `put_alias` for each URI of a list, whatever the answers. -/
def putAliases (t : Store Kind Data) (canonicalUri : String) (aliasUris : List String) :
    Store Kind Data :=
  aliasUris.foldl (fun t a => (putAlias t a canonicalUri).2) t

/-- The URIs that a scan of the table finds aliased to `canonical`. -/
def aliasesOf (t : Store Kind Data) (canonical : String) : List String :=
  (t.tab2list.filter fun r =>
    match r.2 with
    | .aliasTo target => decide (target = canonical)
    | .entity _ _ => false).map Prod.fst

/-- The row of `uri` is an entity. -/
def IsEntity (t : Store Kind Data) (uri : String) : Prop :=
  ∃ kind data, t.lookup uri = some (.entity kind data)

/-! ## What the writes do to a row -/

variable {t : Store Kind Data} {c : String}

theorem isEntity_putEntity {uri : String} {kind : Kind} {data : Data} (h : IsEntity t c) :
    IsEntity (putEntity t uri kind data) c := by
  unfold IsEntity putEntity
  rw [Ets.lookup_insert]
  split
  · exact ⟨kind, data, rfl⟩
  · exact h

theorem putAlias_cases (t : Store Kind Data) (a c : String) :
    (putAlias t a c).2 = t ∨
      (IsEntity t c ∧ t.lookup a = none ∧ (putAlias t a c).2 = t.insert a (.aliasTo c)) := by
  unfold putAlias
  split
  · rename_i kind data hc
    split
    · rename_i ha
      exact Or.inr ⟨⟨kind, data, hc⟩, ha, rfl⟩
    · exact Or.inl rfl
  · exact Or.inl rfl
  · exact Or.inl rfl

theorem lookup_putAlias {a : String} (h : IsEntity t c) (u : String) :
    (putAlias t a c).2.lookup u =
      if u = a then (t.lookup a).or (some (.aliasTo c)) else t.lookup u := by
  obtain ⟨kind, data, hc⟩ := h
  unfold putAlias
  simp only [hc]
  cases ha : t.lookup a with
  | none => simp [Ets.lookup_insert]
  | some row =>
    by_cases hu : u = a
    · simp [hu, ha]
    · simp [hu]

theorem isEntity_putAlias {a c' : String} (h : IsEntity t c') : IsEntity (putAlias t a c).2 c' := by
  rcases putAlias_cases t a c with he | ⟨_, ha, he⟩
  · rwa [he]
  · rw [he]
    obtain ⟨kind, data, hc⟩ := h
    have hne : c' ≠ a := by
      rintro rfl
      rw [ha] at hc
      cases hc
    exact ⟨kind, data, by rw [Ets.lookup_insert_of_ne _ _ hne, hc]⟩

theorem lookup_putAliases (h : IsEntity t c) (aliasUris : List String) (u : String) :
    (putAliases t c aliasUris).lookup u =
      if u ∈ aliasUris then (t.lookup u).or (some (.aliasTo c)) else t.lookup u := by
  induction aliasUris generalizing t with
  | nil => rfl
  | cons a as ih =>
    have hstep : putAliases t c (a :: as) = putAliases (putAlias t a c).2 c as := rfl
    rw [hstep, ih (isEntity_putAlias h), lookup_putAlias h]
    by_cases ha : u = a
    · subst ha
      rw [if_pos rfl, if_pos List.mem_cons_self]
      split
      · cases t.lookup u <;> rfl
      · rfl
    · by_cases hmem : u ∈ as
      · rw [if_neg ha, if_pos hmem, if_pos (List.mem_cons_of_mem _ hmem)]
      · rw [if_neg ha, if_neg hmem, if_neg fun hu => (List.mem_cons.mp hu).elim ha hmem]

theorem isEntity_delete {uri : String} (h : IsEntity t c) (hne : c ≠ uri) :
    IsEntity (delete t uri) c := by
  obtain ⟨kind, data, hc⟩ := h
  exact ⟨kind, data, by rw [delete, Ets.lookup_delete_of_ne _ hne, hc]⟩

theorem mem_aliasesOf {uri : String} : uri ∈ aliasesOf t c ↔ t.lookup uri = some (.aliasTo c) := by
  unfold aliasesOf
  simp only [List.mem_map, List.mem_filter, Prod.exists, exists_and_right, exists_eq_right,
    Ets.mem_tab2list]
  constructor
  · rintro ⟨row, hrow, htarget⟩
    cases row with
    | entity kind data => cases htarget
    | aliasTo target => rw [hrow, of_decide_eq_true htarget]
  · intro h
    exact ⟨_, h, decide_eq_true rfl⟩

section ByKind
variable [DecidableEq Kind]

theorem isEntity_deleteAllByKind {t : Store Kind Data} {kind : Kind} {c : String}
    (h : IsEntity t c) (hk : isOfKind t kind c = false) :
    IsEntity (deleteAllByKind t kind) c := by
  obtain ⟨k, data, hc⟩ := h
  have hne : ¬ k = kind := by simpa [isOfKind, hc] using hk
  exact ⟨k, data, by simp [deleteAllByKind, Ets.lookup_deleteWhere, hc, hne]⟩

theorem lookup_deleteAllByKind_alias {t : Store Kind Data} {kind : Kind} {a c : String} :
    (deleteAllByKind t kind).lookup a = some (.aliasTo c) ↔
      t.lookup a = some (.aliasTo c) ∧ isOfKind t kind c = false := by
  unfold deleteAllByKind
  rw [Ets.lookup_deleteWhere, Option.filter_eq_some_iff]
  simp

end ByKind
end UriStore
end Esr
