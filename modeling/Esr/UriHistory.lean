import Esr.UriStore
import Mathlib.Data.List.Induction

/-! # Histories of the URI store

A history is the list of writes the store's process has served, oldest first;
`after ops` is the table they leave.  Two facts hold of it.

`oneHop_or_orphaned`: whatever the writes, an alias row targets an entity, or
the target was deleted while the alias was in place and the alias has been left
alone since.  The proof follows the history from its end: the last write either
made the row, and then checked the target, or kept it, and then the target is an
entity unless this write deleted it.

`oneHop_after_iff`: every alias row targets an entity in every state exactly if no delete
ever hits the target of an alias.
-/
namespace Esr
namespace UriStore

variable {Kind Data : Type} [DecidableEq Kind]

/-- The writes the store serves. -/
inductive Op (Kind Data : Type) where
  | putEntity (uri : String) (kind : Kind) (data : Data)
  | putAlias (aliasUri canonicalUri : String)
  | delete (uri : String)
  | deleteAllByKind (kind : Kind)

/-- One served write. -/
def step (t : Store Kind Data) : Op Kind Data → Store Kind Data
  | .putEntity uri kind data => putEntity t uri kind data
  | .putAlias aliasUri canonicalUri => (putAlias t aliasUri canonicalUri).2
  | .delete uri => delete t uri
  | .deleteAllByKind kind => deleteAllByKind t kind

/-- The table a history leaves, starting from the empty one. -/
def after (ops : List (Op Kind Data)) : Store Kind Data := ops.foldl step Ets.empty

@[simp] theorem after_nil : after ([] : List (Op Kind Data)) = Ets.empty := rfl

theorem after_snoc (ops : List (Op Kind Data)) (op : Op Kind Data) :
    after (ops ++ [op]) = step (after ops) op := by
  unfold after
  rw [List.foldl_append]
  rfl

/-- The target `c` was deleted while the alias `a` was in place, and the alias
row has been left alone ever since. -/
def Orphaned (ops : List (Op Kind Data)) (a c : String) : Prop :=
  ∃ before later, ops = before ++ .delete c :: later ∧
    ∀ done, done <+: later →
      (after (before ++ .delete c :: done)).lookup a = some (.aliasTo c)

variable {op : Op Kind Data} {a c : String} {t : Store Kind Data}

theorem Orphaned.snoc {ops : List (Op Kind Data)} (h : Orphaned ops a c)
    (hrow : (after (ops ++ [op])).lookup a = some (.aliasTo c)) :
    Orphaned (ops ++ [op]) a c := by
  obtain ⟨before, later, rfl, hkept⟩ := h
  refine ⟨before, later ++ [op], by simp, fun done hdone => ?_⟩
  rcases List.prefix_concat_iff.mp hdone with rfl | hpre
  · simpa using hrow
  · exact hkept done hpre

/-- A row that a write turns into an alias: the write was its `put_alias`, and
the target was and stays an entity. -/
theorem step_alias_new (hrow : (step t op).lookup a = some (.aliasTo c))
    (hnew : t.lookup a ≠ some (.aliasTo c)) : IsEntity (step t op) c := by
  cases op with
  | putEntity uri kind data =>
    simp only [step, putEntity, Ets.lookup_insert] at hrow
    split at hrow
    · cases hrow
    · exact absurd hrow hnew
  | putAlias a' c' =>
    simp only [step] at hrow ⊢
    rcases putAlias_cases t a' c' with he | ⟨hent, _, he⟩
    · rw [he] at hrow
      exact absurd hrow hnew
    · have hlookup := hrow
      rw [he, Ets.lookup_insert] at hlookup
      split at hlookup
      · obtain rfl : c' = c := by simpa using hlookup
        exact isEntity_putAlias hent
      · exact absurd hlookup hnew
  | delete uri =>
    simp only [step, delete, Ets.lookup_delete] at hrow
    split at hrow
    · cases hrow
    · exact absurd hrow hnew
  | deleteAllByKind kind => exact absurd (lookup_deleteAllByKind_alias.mp hrow).1 hnew

/-- A write that keeps an alias row keeps its target an entity, unless the write
is the delete of the target. -/
theorem step_alias_kept (hrow : (step t op).lookup a = some (.aliasTo c)) (hent : IsEntity t c) :
    IsEntity (step t op) c ∨ op = .delete c := by
  cases op with
  | putEntity uri kind data => exact Or.inl (isEntity_putEntity hent)
  | putAlias a' c' => exact Or.inl (isEntity_putAlias hent)
  | delete uri =>
    by_cases hc : c = uri
    · exact Or.inr (by rw [hc])
    · exact Or.inl (isEntity_delete hent hc)
  | deleteAllByKind kind =>
    exact Or.inl (isEntity_deleteAllByKind hent (lookup_deleteAllByKind_alias.mp hrow).2)

/-- **One hop, or an orphan.**  After every history, an alias row targets an
entity row, or its target was deleted after the alias was made. -/
theorem oneHop_or_orphaned (ops : List (Op Kind Data))
    (hrow : (after ops).lookup a = some (.aliasTo c)) :
    IsEntity (after ops) c ∨ Orphaned ops a c := by
  induction ops using List.reverseRecOn with
  | nil => simp at hrow
  | append_singleton ops op ih =>
    rw [after_snoc] at hrow ⊢
    by_cases hold : (after ops).lookup a = some (.aliasTo c)
    · rcases ih hold with hent | horph
      · rcases step_alias_kept hrow hent with hent' | rfl
        · exact Or.inl hent'
        · -- the last write is the delete that makes the orphan
          refine Or.inr ⟨ops, [], rfl, fun done hdone => ?_⟩
          obtain rfl := List.prefix_nil.mp hdone
          rwa [after_snoc]
      · exact Or.inr (horph.snoc (by rwa [after_snoc]))
    · exact Or.inl (step_alias_new hrow hold)

omit [DecidableEq Kind] in
/-- `resolve` of a stored URI takes one step: to the URI itself when it is an
entity, to the alias's target otherwise.  No plugin is asked. -/
theorem resolve_stored (plugin : String → Option String) {uri : String} {row : Row Kind Data}
    (h : t.lookup uri = some row) :
    ∃ c, resolve plugin t uri = some c ∧
      ((c = uri ∧ IsEntity t uri) ∨ t.lookup uri = some (.aliasTo c)) := by
  unfold resolve
  rw [h]
  cases row with
  | entity kind data => exact ⟨uri, rfl, Or.inl ⟨rfl, kind, data, h⟩⟩
  | aliasTo c => exact ⟨c, rfl, Or.inr rfl⟩

/-- Every alias row targets an entity row. -/
def OneHop (t : Store Kind Data) : Prop :=
  ∀ a c, t.lookup a = some (.aliasTo c) → IsEntity t c

/-- A write that deletes no target of an alias. -/
def Careful (t : Store Kind Data) : Op Kind Data → Prop
  | .delete uri => ∀ a, t.lookup a ≠ some (.aliasTo uri)
  | _ => True

theorem oneHop_step (h : OneHop t) (hcare : Careful t op) : OneHop (step t op) := by
  intro a c hrow
  by_cases hold : t.lookup a = some (.aliasTo c)
  · rcases step_alias_kept hrow (h a c hold) with hent | rfl
    · exact hent
    · exact absurd hold (hcare a)
  · exact step_alias_new hrow hold

theorem careful_of_oneHop_step (h : OneHop t) (hnext : OneHop (step t op)) : Careful t op := by
  cases op with
  | delete uri =>
    intro a ha
    obtain ⟨kind, data, hent⟩ := h a uri ha
    have hne : a ≠ uri := by
      rintro rfl
      rw [ha] at hent
      cases hent
    obtain ⟨k, d, hgone⟩ := hnext a uri (by
      rw [step, delete, Ets.lookup_delete_of_ne _ hne, ha])
    simp [step, delete] at hgone
  | _ => trivial

/-- **One hop, exactly.**  All tables of a history have the property exactly if no delete
of the history hits the target of an alias. -/
theorem oneHop_after_iff (ops : List (Op Kind Data)) :
    (∀ before, before <+: ops → OneHop (after before)) ↔
      ∀ before op, before ++ [op] <+: ops → Careful (after before) op := by
  constructor
  · intro h before op hpre
    have hnow := h before ((List.prefix_append before [op]).trans hpre)
    have hnext := h (before ++ [op]) hpre
    rw [after_snoc] at hnext
    exact careful_of_oneHop_step hnow hnext
  · intro h before hpre
    induction before using List.reverseRecOn with
    | nil => exact fun a c hrow => by simp at hrow
    | append_singleton before op ih =>
      rw [after_snoc]
      apply oneHop_step (ih ((List.prefix_append before [op]).trans hpre))
      exact h before op hpre

end UriStore
end Esr
