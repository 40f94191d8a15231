import Mathlib.Data.List.Induction
import Esr.UriStore

/-! # Entities written with their aliases

A loader writes one entity after the other, each with the aliases that lead to it, and
looks at no answer of the store.  `registered_iff` says when that goes well for all of
them: exactly when no two have a URI in common and no alias is taken before.
-/
namespace Esr
namespace UriStore
variable {Kind Data : Type}

/-- An entity, and the aliases that are put for it. -/
structure Registration (Kind Data : Type) where
  canonical : String
  kind : Kind
  data : Data
  aliases : List String

/-- The URIs that are written for it. -/
def Registration.uris (r : Registration Kind Data) : List String := r.canonical :: r.aliases

/-- The entity's row, and the aliases whatever the store answers. -/
def register (t : Store Kind Data) (r : Registration Kind Data) : Store Kind Data :=
  putAliases (putEntity t r.canonical r.kind r.data) r.canonical r.aliases

def registerAll (t : Store Kind Data) (rs : List (Registration Kind Data)) : Store Kind Data :=
  rs.foldl register t

/-- The entity has its row, and each alias resolves to it. -/
structure Registered (dispatchToPlugin : String → Option String) (t : Store Kind Data)
    (r : Registration Kind Data) : Prop where
  entity : t.lookup r.canonical = some (.entity r.kind r.data)
  aliases : ∀ a ∈ r.aliases, resolve dispatchToPlugin t a = some r.canonical

/-- No URI is written for two of them. -/
def Apart (rs : List (Registration Kind Data)) : Prop :=
  ∀ r ∈ rs, ∀ r' ∈ rs, ∀ uri ∈ r.uris, uri ∈ r'.uris → r = r'

/-- What is in the way of no alias: no row, or one that is this alias. -/
def Free (t : Store Kind Data) (r : Registration Kind Data) : Prop :=
  ∀ a ∈ r.aliases, a ≠ r.canonical → ∀ row, t.lookup a = some row → row = .aliasTo r.canonical

variable {t : Store Kind Data} {r : Registration Kind Data} {rs : List (Registration Kind Data)}
  {uri : String} {row : Row Kind Data} {dispatchToPlugin : String → Option String}

/-! ## What the writes leave in a row -/

theorem lookup_register : (register t r).lookup uri =
    if uri = r.canonical then some (.entity r.kind r.data)
    else if uri ∈ r.aliases then (t.lookup uri).or (some (.aliasTo r.canonical))
    else t.lookup uri := by
  have hent : IsEntity (putEntity t r.canonical r.kind r.data) r.canonical :=
    ⟨r.kind, r.data, Ets.lookup_insert_self _ _ _⟩
  unfold register
  rw [lookup_putAliases hent, putEntity, Ets.lookup_insert]
  by_cases he : uri = r.canonical
  · simp [he]
  · simp [he]

theorem lookup_register_of_not_mem (h : uri ∉ r.uris) :
    (register t r).lookup uri = t.lookup uri := by
  obtain ⟨hne, hnot⟩ := not_or.mp (mt List.mem_cons.mpr h)
  rw [lookup_register, if_neg hne, if_neg hnot]

theorem lookup_registerAll_of_not_mem (h : ∀ r ∈ rs, uri ∉ r.uris) :
    (registerAll t rs).lookup uri = t.lookup uri := by
  induction rs generalizing t with
  | nil => rfl
  | cons r rs ih =>
    obtain ⟨hr, hrest⟩ := List.forall_mem_cons.mp h
    exact (ih hrest).trans (lookup_register_of_not_mem hr)

theorem lookup_registerAll_of_ne (hne : ∀ r ∈ rs, uri ≠ r.canonical)
    (hrow : t.lookup uri = some row) : (registerAll t rs).lookup uri = some row := by
  induction rs generalizing t with
  | nil => exact hrow
  | cons r rs ih =>
    obtain ⟨hr, hrest⟩ := List.forall_mem_cons.mp hne
    apply ih hrest
    rw [lookup_register, if_neg hr, hrow]
    split <;> rfl

theorem lookup_registerAll_canonical (h : r ∈ rs) : ∃ r' ∈ rs, r'.canonical = r.canonical ∧
    (registerAll t rs).lookup r.canonical = some (.entity r'.kind r'.data) := by
  induction rs using List.reverseRecOn with
  | nil => cases h
  | append_singleton rs last ih =>
    have hsplit : registerAll t (rs ++ [last]) = register (registerAll t rs) last :=
      List.foldl_concat _ _ _ _
    rw [hsplit, lookup_register]
    by_cases he : r.canonical = last.canonical
    · rw [if_pos he]
      exact ⟨last, List.mem_append_right _ (List.mem_singleton.mpr rfl), he.symm, rfl⟩
    · have hr : r ∈ rs := by
        rcases List.mem_append.mp h with hin | hin
        · exact hin
        · exact absurd (congrArg _ (List.mem_singleton.mp hin)) he
      obtain ⟨r', hr', hc, hrow⟩ := ih hr
      rw [if_neg he, hrow]
      refine ⟨r', List.mem_append_left _ hr', hc, ?_⟩
      split <;> rfl

theorem lookup_registerAll (hapart : ∀ r' ∈ rs, uri ∈ r'.uris → r' = r) (huri : uri ∈ r.uris)
    (h : r ∈ rs) : (registerAll t rs).lookup uri =
      if uri = r.canonical then some (.entity r.kind r.data)
      else (t.lookup uri).or (some (.aliasTo r.canonical)) := by
  induction rs generalizing t with
  | nil => cases h
  | cons first rs ih =>
    obtain ⟨hfirst, hrest⟩ := List.forall_mem_cons.mp hapart
    have hsplit : registerAll t (first :: rs) = registerAll (register t first) rs := rfl
    rw [hsplit]
    by_cases he : first = r
    · subst he
      by_cases hin : first ∈ rs
      · -- it is written once more, over what it has written
        rw [ih hrest hin, lookup_register]
        split
        · rfl
        · rw [if_pos ((List.mem_cons.mp huri).resolve_left ‹_›), Option.or_assoc, Option.or_self]
      · have hnone : ∀ r' ∈ rs, uri ∉ r'.uris := by
          intro r' hr' hmem
          exact hin (hrest r' hr' hmem ▸ hr')
        rw [lookup_registerAll_of_not_mem hnone, lookup_register]
        split
        · rfl
        · rw [if_pos ((List.mem_cons.mp huri).resolve_left ‹_›)]
    · have hin : r ∈ rs := (List.mem_cons.mp h).resolve_left fun hr => he hr.symm
      rw [ih hrest hin, lookup_register_of_not_mem fun hmem => he (hfirst hmem)]

theorem lookup_deleteAllByKind [DecidableEq Kind] {kind : Kind} :
    (deleteAllByKind t kind).lookup uri = some row ↔ t.lookup uri = some row ∧
      (∀ data, row ≠ .entity kind data) ∧
        ∀ c, row = .aliasTo c → isOfKind t kind c = false := by
  unfold deleteAllByKind
  rw [Ets.lookup_deleteWhere, Option.filter_eq_some_iff]
  refine and_congr_right fun _ => ?_
  cases row with
  | entity k data =>
    simp only [Bool.not_eq_true', decide_eq_false_iff_not]
    simp
  | aliasTo c => simp

theorem lookup_deleteAllByKind_of_none [DecidableEq Kind] {kind : Kind}
    (h : t.lookup uri = none) : (deleteAllByKind t kind).lookup uri = none := by
  rw [Option.eq_none_iff_forall_ne_some]
  intro row hrow
  rw [(lookup_deleteAllByKind.mp hrow).1] at h
  cases h

theorem resolve_registerAll (h : r ∈ rs) (huri : uri ∈ r.uris)
    (hapart : ∀ r' ∈ rs, uri ∈ r'.uris → r' = r) (hfree : t.lookup uri = none) :
    resolve dispatchToPlugin (registerAll t rs) uri = some r.canonical := by
  unfold resolve
  rw [lookup_registerAll hapart huri h, hfree]
  by_cases he : uri = r.canonical
  · rw [if_pos he, he]
  · rw [if_neg he]
    rfl

/-! ## When all of them are found -/

theorem registered_of_apart (hapart : Apart rs) (hfree : ∀ r ∈ rs, Free t r) (h : r ∈ rs) :
    Registered dispatchToPlugin (registerAll t rs) r := by
  have hown : ∀ uri ∈ r.uris, ∀ r' ∈ rs, uri ∈ r'.uris → r' = r :=
    fun uri huri r' hr' huri' => hapart r' hr' r h uri huri' huri
  have hcanonical : r.canonical ∈ r.uris := List.mem_cons_self
  constructor
  · rw [lookup_registerAll (hown _ hcanonical) hcanonical h, if_pos rfl]
  · intro a ha
    have huri : a ∈ r.uris := List.mem_cons_of_mem _ ha
    unfold resolve
    rw [lookup_registerAll (hown a huri) huri h]
    by_cases he : a = r.canonical
    · rw [if_pos he, he]
    · rw [if_neg he]
      cases hrow : t.lookup a with
      | none => rfl
      | some row => rw [hfree r h a ha he row hrow]; rfl

/-- **All are found** exactly when no two have a URI in common and no alias is taken. -/
theorem registered_iff (hdata : ∀ r ∈ rs, ∀ r' ∈ rs, r.data = r'.data → r = r') :
    (∀ r ∈ rs, Registered dispatchToPlugin (registerAll t rs) r) ↔
      Apart rs ∧ ∀ r ∈ rs, Free t r := by
  refine ⟨fun h => ?_, fun h r hr => registered_of_apart h.1 h.2 hr⟩
  -- the canonical URI tells them apart, and what resolves to it leads to it
  have hone : ∀ r ∈ rs, ∀ r' ∈ rs, r.canonical = r'.canonical → r = r' := by
    intro r hr r' hr' hc
    have hrow := (h r hr).entity
    rw [hc, (h r' hr').entity] at hrow
    exact (hdata r' hr' r hr (Row.entity.inj (Option.some.inj hrow)).2).symm
  have hcanonical : ∀ r ∈ rs, ∀ a ∈ r.aliases, ∀ r' ∈ rs, a = r'.canonical → r = r' := by
    intro r hr a ha r' hr' he
    have hres := (h r hr).aliases a ha
    unfold resolve at hres
    rw [he, (h r' hr').entity] at hres
    exact hone r hr r' hr' (Option.some.inj hres).symm
  refine ⟨?_, ?_⟩
  · intro r hr r' hr' uri huri huri'
    rcases List.mem_cons.mp huri with he | ha
    · rcases List.mem_cons.mp huri' with he' | ha'
      · exact hone r hr r' hr' (he.symm.trans he')
      · exact (hcanonical r' hr' uri ha' r hr he).symm
    · rcases List.mem_cons.mp huri' with he' | ha'
      · exact hcanonical r hr uri ha r' hr' he'
      · have hres := (h r hr).aliases uri ha
        rw [(h r' hr').aliases uri ha'] at hres
        exact hone r hr r' hr' (Option.some.inj hres).symm
  · intro r hr a ha hne row hrow
    have hother : ∀ r' ∈ rs, a ≠ r'.canonical := by
      intro r' hr' he
      exact hne (hcanonical r hr a ha r' hr' he ▸ he)
    have hres := (h r hr).aliases a ha
    unfold resolve at hres
    rw [lookup_registerAll_of_ne hother hrow] at hres
    cases row with
    | entity kind data => exact absurd (Option.some.inj hres) hne
    | aliasTo c => rw [Option.some.inj hres]

/-! ## Stores with the same rows -/

/-- Every URI has the same row. -/
def SameRows (t t' : Store Kind Data) : Prop := ∀ uri, t.lookup uri = t'.lookup uri

variable {t' : Store Kind Data}

theorem SameRows.trans {t'' : Store Kind Data} (h : SameRows t t') (h' : SameRows t' t'') :
    SameRows t t'' := fun uri => (h uri).trans (h' uri)

theorem SameRows.register (h : SameRows t t') (r : Registration Kind Data) :
    SameRows (register t r) (UriStore.register t' r) := by
  intro uri
  rw [lookup_register, lookup_register, h uri]

theorem SameRows.registerAll (h : SameRows t t') (rs : List (Registration Kind Data)) :
    SameRows (registerAll t rs) (UriStore.registerAll t' rs) := by
  induction rs generalizing t t' with
  | nil => exact h
  | cons r rs ih => exact ih (h.register r)

theorem sameRows_registerAll {rs' : List (Registration Kind Data)} (hapart : Apart rs')
    (hmem : ∀ r', r' ∈ rs' ↔ r' = r ∨ r' ∈ rs) (hnew : ∀ r' ∈ rs, ∀ uri ∈ r.uris, uri ∉ r'.uris) :
    SameRows (registerAll t rs') (register (registerAll t rs) r) := by
  have hr : r ∈ rs' := (hmem r).mpr (Or.inl rfl)
  intro uri
  by_cases huri : uri ∈ r.uris
  · have hnone : ∀ r' ∈ rs, uri ∉ r'.uris := fun r' hr' => hnew r' hr' uri huri
    rw [lookup_registerAll (fun r' hr' h => hapart r' hr' r hr uri h huri) huri hr,
      lookup_register, lookup_registerAll_of_not_mem hnone]
    split
    · rfl
    · rw [if_pos ((List.mem_cons.mp huri).resolve_left ‹_›)]
  · rw [lookup_register_of_not_mem huri]
    by_cases hother : ∃ r' ∈ rs, uri ∈ r'.uris
    · obtain ⟨r', hr', huri'⟩ := hother
      have hr'' : r' ∈ rs' := (hmem r').mpr (Or.inr hr')
      have hown : ∀ q ∈ rs', uri ∈ q.uris → q = r' :=
        fun q hq h => hapart q hq r' hr'' uri h huri'
      rw [lookup_registerAll hown huri' hr'',
        lookup_registerAll (fun q hq h => hown q ((hmem q).mpr (Or.inr hq)) h) huri' hr']
    · have hnone : ∀ r' ∈ rs, uri ∉ r'.uris := fun r' hr' h => hother ⟨r', hr', h⟩
      rw [lookup_registerAll_of_not_mem hnone]
      apply lookup_registerAll_of_not_mem
      intro r' hr'
      rcases (hmem r').mp hr' with rfl | hin
      · exact huri
      · exact hnone r' hin

/-- Deleting the entities of a kind leaves the same of a store in which one of them was
written over free URIs. -/
theorem sameRows_deleteAllByKind [DecidableEq Kind] (hne : r.canonical ∉ r.aliases)
    (hfree : ∀ uri ∈ r.uris, t.lookup uri = none)
    (hunaimed : ∀ uri, t.lookup uri ≠ some (.aliasTo r.canonical)) :
    SameRows (deleteAllByKind (register t r) r.kind) (deleteAllByKind t r.kind) := by
  have hcanonical : r.canonical ∈ r.uris := List.mem_cons_self
  have halias : ∀ a ∈ r.aliases, (register t r).lookup a = some (.aliasTo r.canonical) := by
    intro a ha
    have hother : a ≠ r.canonical := fun he => hne (he ▸ ha)
    rw [lookup_register, if_neg hother, if_pos ha, hfree a (List.mem_cons_of_mem _ ha)]
    rfl
  have hent : (register t r).lookup r.canonical = some (.entity r.kind r.data) := by
    rw [lookup_register, if_pos rfl]
  -- no alias that stays leads to the new URIs
  have hkind : ∀ c, c ≠ r.canonical →
      isOfKind (register t r) r.kind c = isOfKind t r.kind c := by
    intro c hc
    unfold isOfKind
    by_cases ha : c ∈ r.aliases
    · rw [halias c ha, hfree c (List.mem_cons_of_mem _ ha)]
    · rw [lookup_register_of_not_mem fun hm => (List.mem_cons.mp hm).elim hc ha]
  intro uri
  refine Option.ext fun row => ?_
  rw [lookup_deleteAllByKind, lookup_deleteAllByKind]
  by_cases huri : uri ∈ r.uris
  · rw [hfree uri huri]
    refine iff_of_false ?_ fun h => nomatch h.1
    rintro ⟨hrow, hnot, haimed⟩
    rcases List.mem_cons.mp huri with rfl | ha
    · rw [hent] at hrow
      exact hnot r.data (Option.some.inj hrow).symm
    · rw [halias uri ha] at hrow
      have hno := haimed r.canonical (Option.some.inj hrow).symm
      unfold isOfKind at hno
      rw [hent] at hno
      exact absurd rfl (of_decide_eq_false hno)
  · rw [lookup_register_of_not_mem huri]
    refine and_congr_right fun hrow => and_congr_right fun _ => forall_congr' fun c => ?_
    refine imp_congr_right fun he => ?_
    subst he
    rw [hkind c fun hc => hunaimed uri (hc ▸ hrow)]

theorem SameRows.deleteAllByKind [DecidableEq Kind] (h : SameRows t t') (kind : Kind) :
    SameRows (deleteAllByKind t kind) (UriStore.deleteAllByKind t' kind) := by
  intro uri
  refine Option.ext fun row => ?_
  rw [lookup_deleteAllByKind, lookup_deleteAllByKind, h uri]
  unfold isOfKind
  simp only [h _]

end UriStore
end Esr
