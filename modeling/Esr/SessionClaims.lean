import Esr.SessionUris
import Mathlib.Logic.Function.Basic
import Mathlib.Data.Fintype.Basic

/-! # Sessions claimed at the same time

`claim_session_uri/2` and `release_session_uri/1` run in their callers.  Each read
of the store is a lookup of one row and each write one request to the store's
process, so the steps of any number of callers interleave: a claim reads who has
its aliases, and writes them later without looking again.

A claim is `held` from its `:ok` until the session is released.  `Exclusive` says
what the claims held promise.  Two claimants that both look before either writes
break it (`not_exclusive_bothLooked`); `exclusive_of_orderly` is for runs in which
a put finds its row free or the claimant's own, and no release deletes the alias
of a claim held or under way.
-/
namespace Esr
namespace SessionClaims
open UriStore SessionUris

/-- Where a caller is.  `todo` are the aliases still to be put, or deleted. -/
inductive Phase where
  | idle
  | readName (sid : String) (c : Components)
  | readWorktree (sid : String) (c : Components) (nameOwner : Option String)
  | lookupCanonical (sid : String) (c : Components)
  | putCanonical (sid : String) (c : Components)
  | putAliases (sid : String) (c : Components) (todo : List String)
  | deleteAliases (todo : List String)
  deriving DecidableEq

/-- The store, the callers, and the claims held. -/
structure State (P Data : Type) where
  store : Store String Data
  phase : P → Phase
  held : List (String × Components)

/-- A call begins, a caller takes its next step, a session's own row is written,
or a row outside the sessions' part of the store is. -/
inductive Act (P Data : Type) where
  | claim (p : P) (sid : String) (c : Components)
  | release (p : P) (sid : String)
  | advance (p : P)
  | createSession (sid : String) (data : Data)
  | foreign (uri : String) (row : Option (Row String Data))

variable {P Data : Type} [DecidableEq P]

def State.setPhase (s : State P Data) (p : P) (ph : Phase) : State P Data :=
  { s with phase := Function.update s.phase p ph }

section Step
variable (dispatchToPlugin : String → Option String) (newStruct : String → Data)

/-- The next step of a caller. -/
def advance (s : State P Data) (p : P) : Phase → Option (State P Data)
  | .idle => none
  | .readName sid c =>
      some (s.setPhase p
        (.readWorktree sid c (resolveSessionAlias dispatchToPlugin s.store c.nameAlias)))
  | .readWorktree sid c nameOwner =>
      match collision sid nameOwner
          (c.worktreeAlias.bind (resolveSessionAlias dispatchToPlugin s.store)) with
      | some _ => some (s.setPhase p .idle)
      | none => some (s.setPhase p (.lookupCanonical sid c))
  | .lookupCanonical sid c =>
      if isOfKind s.store "session" (canonicalUri sid) then
        some (s.setPhase p (.putAliases sid c c.aliases))
      else some (s.setPhase p (.putCanonical sid c))
  | .putCanonical sid c =>
      let store := putEntity s.store (canonicalUri sid) "session" (newStruct sid)
      some ({ s with store := store }.setPhase p (.putAliases sid c c.aliases))
  | .putAliases sid c (a :: todo) =>
      let store := putOrIgnoreAlias s.store a (canonicalUri sid)
      some ({ s with store := store }.setPhase p (.putAliases sid c todo))
  | .putAliases sid c [] => some ({ s with held := (sid, c) :: s.held }.setPhase p .idle)
  | .deleteAliases (a :: todo) =>
      some ({ s with store := delete s.store a }.setPhase p (.deleteAliases todo))
  | .deleteAliases [] => some (s.setPhase p .idle)

/-- One step. -/
def step (s : State P Data) : Act P Data → Option (State P Data)
  | .claim p sid c =>
      if s.phase p = .idle ∧ CleanId sid then some (s.setPhase p (.readName sid c)) else none
  | .release p sid =>
      if s.phase p = .idle then
        some ({ s with held := s.held.filter fun h => h.1 ≠ sid }.setPhase p
          (.deleteAliases (aliasesOf s.store (canonicalUri sid))))
      else none
  | .advance p => advance dispatchToPlugin newStruct s p (s.phase p)
  | .createSession sid data =>
      if CleanId sid then
        some { s with store := putEntity s.store (canonicalUri sid) "session" data }
      else none
  | .foreign uri row =>
      if stripPrefix "esr://localhost/sessions/" uri = none then
        match row with
        | some row => some { s with store := Ets.insert s.store uri row }
        | none => some { s with store := delete s.store uri }
      else none

end Step

/-- The empty store. -/
def start : State P Data := ⟨Ets.empty, fun _ => .idle, []⟩

/-- Of the claims held, no two sessions have a name or a branch of a scope in
common, and every alias of a claim resolves to its session. -/
structure Exclusive (dispatchToPlugin : String → Option String) (s : State P Data) : Prop where
  name : ∀ sid c sid' c', (sid, c) ∈ s.held → (sid', c') ∈ s.held →
    c.env = c'.env → c.username = c'.username → c.workspace = c'.workspace →
    c.name = c'.name → sid = sid'
  worktree : ∀ sid c sid' c' wb, (sid, c) ∈ s.held → (sid', c') ∈ s.held →
    c.env = c'.env → c.username = c'.username → c.workspace = c'.workspace →
    c.branch = some wb → c'.branch = some wb → sid = sid'
  resolves : ∀ sid c, (sid, c) ∈ s.held → ∀ a ∈ c.aliases,
    resolveSessionAlias dispatchToPlugin s.store a = some sid

/-! ## The condition on a step -/

/-- The caller has put the alias, and not returned yet. -/
def Phase.HasPut (a : String) : Phase → Prop
  | .putAliases _ c todo => a ∈ c.aliases ∧ a ∉ todo
  | _ => False

instance (a : String) : (ph : Phase) → Decidable (ph.HasPut a)
  | .putAliases _ c todo => inferInstanceAs (Decidable (a ∈ c.aliases ∧ a ∉ todo))
  | .idle | .readName _ _ | .readWorktree _ _ _ | .lookupCanonical _ _ | .putCanonical _ _
  | .deleteAliases _ => isFalse id

/-- The alias belongs to a claim held or under way. -/
def State.InUse (s : State P Data) (a : String) : Prop :=
  (∃ h ∈ s.held, a ∈ h.2.aliases) ∨ ∃ p, (s.phase p).HasPut a

/-- The next write of the caller finds what the caller last saw: a put its row free
or its own, a delete an alias that is not in use. -/
def Phase.Orderly (s : State P Data) : Phase → Prop
  | .putAliases sid _ (a :: _) => s.store.lookup a = none ∨ Owns s.store sid a
  | .deleteAliases (a :: _) => ¬s.InUse a
  | _ => True

def Orderly (s : State P Data) : Act P Data → Prop
  | .advance p => (s.phase p).Orderly s
  | _ => True

/-! ## The invariant -/

/-- What the store guarantees to a caller in the middle of a call. -/
def Phase.Ok (t : Store String Data) : Phase → Prop
  | .idle => True
  | .readName sid _ | .readWorktree sid _ _ | .lookupCanonical sid _ | .putCanonical sid _ =>
      CleanId sid
  | .putAliases sid c todo =>
      CleanId sid ∧ IsEntity t (canonicalUri sid) ∧ todo ⊆ c.aliases ∧
        ∀ a ∈ c.aliases, a ∉ todo → Owns t sid a
  | .deleteAliases todo => ∀ a ∈ todo, ∀ sid, CleanId sid → a ≠ canonicalUri sid

structure Inv (s : State P Data) : Prop where
  canonical : CanonicalRows s.store
  held : ∀ sid c, (sid, c) ∈ s.held → ∀ a ∈ c.aliases, Owns s.store sid a
  phases : ∀ p, (s.phase p).Ok s.store

variable {s : State P Data} {t' : Store String Data} {dispatchToPlugin : String → Option String}
  {newStruct : String → Data}

omit [DecidableEq P] in
theorem Inv.exclusive (h : Inv s) : Exclusive dispatchToPlugin s := by
  constructor
  · intro sid c sid' c' hc hc' he hu hw hn
    have hown := h.held sid c hc c.nameAlias List.mem_cons_self
    have hown' := h.held sid' c' hc' c'.nameAlias List.mem_cons_self
    have hsame : c.nameAlias = c'.nameAlias := by
      unfold Components.nameAlias
      rw [he, hu, hw, hn]
    rw [hsame] at hown
    exact hown.unique hown'
  · intro sid c sid' c' wb hc hc' he hu hw hb hb'
    have halias : ∀ d : Components, d.branch = some wb →
        worktreeUri d.env d.username d.workspace wb ∈ d.aliases := by
      intro d hd
      refine List.mem_cons_of_mem _ (Option.mem_toList.mpr ?_)
      unfold Components.worktreeAlias
      rw [hd]
      rfl
    have hown := h.held sid c hc _ (halias c hb)
    have hown' := h.held sid' c' hc' _ (halias c' hb')
    rw [he, hu, hw] at hown
    exact hown.unique hown'
  · intro sid c hc a ha
    exact (h.held sid c hc a ha).resolves dispatchToPlugin

/-! ## What a write keeps -/

/-- A write of the store that leaves alone what the callers rely on. -/
structure Keeps (s : State P Data) (t' : Store String Data) : Prop where
  canonical : CanonicalRows t'
  owns : ∀ sid a, s.InUse a → Owns s.store sid a → Owns t' sid a
  entity : ∀ sid, CleanId sid → IsEntity s.store (canonicalUri sid) →
    IsEntity t' (canonicalUri sid)

omit [DecidableEq P] in
theorem Inv.write (h : Inv s) (hk : Keeps s t') : Inv { s with store := t' } := by
  refine ⟨hk.canonical, ?_, ?_⟩
  · intro sid c hc a ha
    exact hk.owns sid a (Or.inl ⟨_, hc, ha⟩) (h.held sid c hc a ha)
  · intro p
    have hp := h.phases p
    change (s.phase p).Ok t'
    cases hph : s.phase p with
    | putAliases sid c todo =>
      rw [hph] at hp
      obtain ⟨hsid, hent, hsub, hown⟩ := hp
      refine ⟨hsid, hk.entity sid hsid hent, hsub, ?_⟩
      intro a ha hput
      have huse : s.InUse a := Or.inr ⟨p, by rw [hph]; exact ⟨ha, hput⟩⟩
      exact hk.owns sid a huse (hown a ha hput)
    | _ =>
      rw [hph] at hp
      exact hp

theorem Inv.setPhase (h : Inv s) {p : P} {ph : Phase} (hph : ph.Ok s.store) :
    Inv (s.setPhase p ph) := by
  refine ⟨h.canonical, h.held, ?_⟩
  intro q
  change (Function.update s.phase p ph q).Ok s.store
  by_cases hq : q = p
  · rw [hq, Function.update_self]
    exact hph
  · rw [Function.update_of_ne hq]
    exact h.phases q

omit [DecidableEq P] in
theorem State.InUse.mem_aliases {a : String} (h : s.InUse a) :
    ∃ c : Components, a ∈ c.aliases := by
  rcases h with ⟨h, _, ha⟩ | ⟨p, hp⟩
  · exact ⟨h.2, ha⟩
  · cases hph : s.phase p with
    | putAliases sid c todo =>
      rw [hph] at hp
      exact ⟨c, hp.1⟩
    | _ =>
      rw [hph] at hp
      exact hp.elim

omit [DecidableEq P] in
theorem keeps_putEntity (h : Inv s) {sid : String} (hsid : CleanId sid) (data : Data) :
    Keeps s (putEntity s.store (canonicalUri sid) "session" data) := by
  constructor
  · intro sid' hsid' target
    unfold putEntity
    rw [Ets.lookup_insert]
    split
    · intro he
      cases he
    · exact h.canonical sid' hsid' target
  · intro sid' a huse hown
    obtain ⟨c, ha⟩ := huse.mem_aliases
    unfold Owns putEntity
    rw [Ets.lookup_insert_of_ne _ _ (Components.alias_ne_canonicalUri hsid ha)]
    exact hown
  · intro sid' _ hent
    exact isEntity_putEntity hent

omit [DecidableEq P] in
theorem keeps_putOrIgnoreAlias (h : Inv s) {c : Components} {a : String} (ha : a ∈ c.aliases)
    (canonical : String) : Keeps s (putOrIgnoreAlias s.store a canonical) := by
  constructor
  · intro sid hsid target
    rw [lookup_putOrIgnoreAlias_of_ne (Components.alias_ne_canonicalUri hsid ha).symm]
    exact h.canonical sid hsid target
  · intro sid b _ hown
    exact lookup_putOrIgnoreAlias_of_some hown
  · intro sid _ hent
    exact isEntity_putOrIgnoreAlias hent

omit [DecidableEq P] in
theorem keeps_delete (h : Inv s) {a : String} (huse : ¬s.InUse a)
    (ha : ∀ sid, CleanId sid → a ≠ canonicalUri sid) : Keeps s (delete s.store a) := by
  constructor
  · intro sid hsid target
    unfold delete
    rw [Ets.lookup_delete_of_ne _ (ha sid hsid).symm]
    exact h.canonical sid hsid target
  · intro sid b hb hown
    have hne : b ≠ a := by
      intro he
      exact huse (he ▸ hb)
    unfold Owns delete
    rw [Ets.lookup_delete_of_ne _ hne]
    exact hown
  · intro sid hsid hent
    exact isEntity_delete hent (ha sid hsid).symm

omit [DecidableEq P] in
theorem keeps_foreign (h : Inv s) {uri : String}
    (huri : stripPrefix "esr://localhost/sessions/" uri = none)
    (hother : ∀ u, u ≠ uri → t'.lookup u = s.store.lookup u) : Keeps s t' := by
  have hcanonical : ∀ sid, canonicalUri sid ≠ uri := by
    intro sid he
    rw [← he, stripPrefix_canonicalUri] at huri
    cases huri
  constructor
  · intro sid hsid target
    rw [hother _ (hcanonical sid)]
    exact h.canonical sid hsid target
  · intro sid a huse hown
    obtain ⟨c, ha⟩ := huse.mem_aliases
    obtain ⟨rest, hrest⟩ := Components.stripPrefix_alias ha
    have hne : a ≠ uri := by
      intro he
      rw [he, huri] at hrest
      cases hrest
    unfold Owns
    rw [hother a hne]
    exact hown
  · intro sid _ hent
    obtain ⟨kind, data, hrow⟩ := hent
    exact ⟨kind, data, by rw [hother _ (hcanonical sid), hrow]⟩

/-! ## Steps and runs -/

theorem inv_advance (h : Inv s) {p : P} {ph : Phase} (hp : s.phase p = ph)
    (hord : ph.Orderly s) {s' : State P Data}
    (hs : advance dispatchToPlugin newStruct s p ph = some s') : Inv s' := by
  have hok := h.phases p
  rw [hp] at hok
  cases ph with
  | idle => cases hs
  | readName sid c =>
    obtain rfl := Option.some.inj hs
    exact h.setPhase hok
  | readWorktree sid c nameOwner =>
    simp only [advance] at hs
    split at hs
    · obtain rfl := Option.some.inj hs
      exact h.setPhase trivial
    · obtain rfl := Option.some.inj hs
      exact h.setPhase hok
  | lookupCanonical sid c =>
    simp only [advance] at hs
    split at hs
    · rename_i hkind
      obtain rfl := Option.some.inj hs
      refine h.setPhase ⟨hok, isEntity_of_isOfKind hkind, List.Subset.refl _, ?_⟩
      intro a ha hnot
      exact absurd ha hnot
    · obtain rfl := Option.some.inj hs
      exact h.setPhase hok
  | putCanonical sid c =>
    obtain rfl := Option.some.inj hs
    refine (h.write (keeps_putEntity h hok _)).setPhase ?_
    refine ⟨hok, isEntity_putEntity_self _ _ _ _, List.Subset.refl _, ?_⟩
    intro a ha hnot
    exact absurd ha hnot
  | putAliases sid c todo =>
    obtain ⟨hsid, hent, hsub, hown⟩ := hok
    cases todo with
    | nil =>
      obtain rfl := Option.some.inj hs
      have hheld : Inv { s with held := (sid, c) :: s.held } := by
        refine ⟨h.canonical, ?_, h.phases⟩
        intro sid' c' hc' a ha
        rcases List.mem_cons.mp hc' with he | hc'
        · obtain ⟨rfl, rfl⟩ := Prod.mk.inj he
          exact hown a ha List.not_mem_nil
        · exact h.held sid' c' hc' a ha
      exact hheld.setPhase trivial
    | cons a todo =>
      have ha : a ∈ c.aliases := hsub List.mem_cons_self
      obtain rfl := Option.some.inj hs
      refine (h.write (keeps_putOrIgnoreAlias h ha _)).setPhase ?_
      refine ⟨hsid, isEntity_putOrIgnoreAlias hent,
        List.Subset.trans (List.subset_cons_self a todo) hsub, ?_⟩
      intro b hb hnot
      by_cases he : b = a
      · rw [he]
        exact owns_putOrIgnoreAlias hent hord
      · exact lookup_putOrIgnoreAlias_of_some
          (hown b hb fun hmem => (List.mem_cons.mp hmem).elim he hnot)
  | deleteAliases todo =>
    cases todo with
    | nil =>
      obtain rfl := Option.some.inj hs
      exact h.setPhase trivial
    | cons a todo =>
      obtain rfl := Option.some.inj hs
      refine (h.write (keeps_delete h hord (hok a List.mem_cons_self))).setPhase ?_
      intro b hb
      exact hok b (List.mem_cons_of_mem _ hb)

theorem inv_step (h : Inv s) {a : Act P Data} (hord : Orderly s a) {s' : State P Data}
    (hs : step dispatchToPlugin newStruct s a = some s') : Inv s' := by
  cases a with
  | claim p sid c =>
    obtain ⟨⟨_, hsid⟩, rfl⟩ := guard_eq_some.mp hs
    exact h.setPhase hsid
  | release p sid =>
    obtain ⟨_, rfl⟩ := guard_eq_some.mp hs
    have hheld : Inv { s with held := s.held.filter fun h => h.1 ≠ sid } := by
      refine ⟨h.canonical, ?_, h.phases⟩
      intro sid' c hc a ha
      exact h.held sid' c (List.mem_filter.mp hc).1 a ha
    refine hheld.setPhase ?_
    intro a ha sid' hsid' hcan
    rw [mem_aliasesOf, hcan] at ha
    exact h.canonical sid' hsid' _ ha
  | advance p => exact inv_advance h rfl hord hs
  | createSession sid data =>
    obtain ⟨hsid, rfl⟩ := guard_eq_some.mp hs
    exact h.write (keeps_putEntity h hsid data)
  | foreign uri row =>
    simp only [step] at hs
    split at hs
    · rename_i huri
      cases row with
      | some row =>
        obtain rfl := Option.some.inj hs
        exact h.write (keeps_foreign h huri fun u hu => Ets.lookup_insert_of_ne _ _ hu)
      | none =>
        obtain rfl := Option.some.inj hs
        exact h.write (keeps_foreign h huri fun u hu => Ets.lookup_delete_of_ne _ hu)
    · cases hs

omit [DecidableEq P] in
theorem inv_start : Inv (start : State P Data) := by
  refine ⟨?_, ?_, fun _ => trivial⟩
  · intro sid _ target h
    cases h
  · intro sid c hc
    cases hc

/-- **Claims are exclusive in orderly runs.** -/
theorem exclusive_of_orderly (dispatchToPlugin : String → Option String)
    (newStruct : String → Data) {s : State P Data}
    (h : Reaches (step dispatchToPlugin newStruct) Orderly start s) :
    Exclusive dispatchToPlugin s :=
  (h.invariant inv_start fun _ _ _ ht hord hs => inv_step ht hord hs).exclusive

/-! ## A caller that is alone -/

@[simp] theorem setPhase_phase (s : State P Data) (p : P) (ph : Phase) :
    (s.setPhase p ph).phase p = ph := by
  unfold State.setPhase
  exact Function.update_self _ _ _

@[simp] theorem setPhase_setPhase (s : State P Data) (p : P) (ph ph' : Phase) :
    (s.setPhase p ph).setPhase p ph' = s.setPhase p ph' := by
  unfold State.setPhase
  rw [Function.update_idem]

section Alone
variable (dispatchToPlugin : String → Option String) (newStruct : String → Data)

end Alone

/-! ## A session handed over, and two that look at the same time -/

instance [DecidableEq Data] (t : Store String Data) (sid uri : String) :
    Decidable (Owns t sid uri) := inferInstanceAs (Decidable (_ = _))

instance [Fintype P] (s : State P Data) (a : String) : Decidable (s.InUse a) :=
  inferInstanceAs (Decidable (_ ∨ _))

instance [Fintype P] [DecidableEq Data] (s : State P Data) :
    (ph : Phase) → Decidable (ph.Orderly s)
  | .putAliases _ _ (_ :: _) => inferInstanceAs (Decidable (_ ∨ _))
  | .deleteAliases (_ :: _) => inferInstanceAs (Decidable (¬_))
  | .idle | .readName _ _ | .readWorktree _ _ _ | .lookupCanonical _ _ | .putCanonical _ _
  | .putAliases _ _ [] | .deleteAliases [] => isTrue trivial

instance [Fintype P] [DecidableEq Data] (s : State P Data) :
    (a : Act P Data) → Decidable (Orderly s a)
  | .advance p => inferInstanceAs (Decidable ((s.phase p).Orderly s))
  | .claim _ _ _ | .release _ _ | .createSession _ _ | .foreign _ _ => isTrue trivial

/-- A claim of `feature/login` under the name `login`. -/
def login : Components := ⟨"default", "alice", "web", "login", some "feature/login"⟩

/-- `s1` claims and is released, and `s2` claims what it had. -/
def handOver : List (Act Bool String) :=
  [.createSession "s1" "alice's", .claim true "s1" login] ++ List.replicate 6 (.advance true) ++
    [.release true "s1"] ++ List.replicate 3 (.advance true) ++
    [.claim false "s2" login] ++ List.replicate 7 (.advance false)

/-- `s1` and `s2` look at the free aliases, and then both write. -/
def bothLooked : List (Act Bool String) :=
  [.claim true "s1" login, .claim false "s2" login, .advance true, .advance true,
    .advance false, .advance false] ++ List.replicate 5 (.advance true) ++
    List.replicate 5 (.advance false)

theorem exclusive_handOver :
    ∃ s : State Bool String, s.held = [("s2", login)] ∧ Exclusive (fun _ => none) s := by
  have hrun : (exec (step (fun _ => none) id) Orderly start handOver).map State.held =
      some [("s2", login)] := by decide +kernel
  obtain ⟨s, hs, hheld⟩ := Option.map_eq_some_iff.mp hrun
  exact ⟨s, hheld, exclusive_of_orderly (fun _ => none) id (.of_exec hs)⟩

/-- **Two claims of one name**: both sessions get their `:ok`. -/
theorem not_exclusive_bothLooked :
    ¬∀ (P Data : Type) (_ : DecidableEq P) (dispatchToPlugin : String → Option String)
      (newStruct : String → Data) (s : State P Data),
      Reaches (step dispatchToPlugin newStruct) anyStep start s →
      Exclusive dispatchToPlugin s := by
  intro h
  have hrun : (exec (step (fun _ => none) id) anyStep start bothLooked).map State.held =
      some [("s2", login), ("s1", login)] := by decide +kernel
  obtain ⟨s, hs, hheld⟩ := Option.map_eq_some_iff.mp hrun
  have hex := h Bool String inferInstance (fun _ => none) id s (.of_exec hs)
  have hsame := hex.name "s1" login "s2" login (by simp [hheld]) (by simp [hheld]) rfl rfl rfl rfl
  exact absurd hsame (by decide)

end SessionClaims
end Esr
