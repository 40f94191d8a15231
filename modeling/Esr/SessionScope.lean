import Esr.SessionUris

/-! # The names in a scope

A history is a sequence of claims, releases and writes of sessions' own rows, each
of them one call.  The facade puts the parts of a name or of a branch into one URI
with slashes between them, and lists a scope by the prefix of its URIs.

`Key.uri_injective`: tidy keys, in whose environment, user and workspace there is
no slash and whose name is one that a listing shows, have different URIs.
`Key.ambiguous_or_hidden`: every other key shares its URI with another one, or is
never listed.  `listed_of_tidy` is the result for histories of tidy claims: a
listing has exactly the names that are claimed and not released.
-/
namespace Esr
namespace SessionScope
open UriStore SessionUris

/-- What a session is claimed under. -/
inductive Key where
  | name (env username workspace name : String)
  | worktree (env username workspace branch : String)
  deriving DecidableEq

/-- No slash in the parts of a scope. -/
def TidyScope (env username workspace : String) : Prop :=
  '/' ∉ env.toList ∧ '/' ∉ username.toList ∧ '/' ∉ workspace.toList

instance (e u w : String) : Decidable (TidyScope e u w) := inferInstanceAs (Decidable (_ ∧ _))

/-- A name that a listing shows. -/
def Shown (name : String) : Prop := name ≠ "" ∧ stripPrefix "by-worktree/" name = none

instance (name : String) : Decidable (Shown name) := inferInstanceAs (Decidable (_ ∧ _))

namespace Key

def uri : Key → String
  | .name e u w n => nameUri e u w n
  | .worktree e u w wb => worktreeUri e u w wb

def Tidy : Key → Prop
  | .name e u w n => TidyScope e u w ∧ Shown n
  | .worktree e u w _ => TidyScope e u w

instance : (k : Key) → Decidable k.Tidy
  | .name _ _ _ _ => inferInstanceAs (Decidable (_ ∧ _))
  | .worktree _ _ _ _ => inferInstanceAs (Decidable (TidyScope _ _ _))

end Key

/-- The keys of a claim. -/
def keys (c : Components) : List Key :=
  .name c.env c.username c.workspace c.name ::
    (c.branch.map (Key.worktree c.env c.username c.workspace)).toList

theorem aliases_eq (c : Components) : c.aliases = (keys c).map Key.uri := by
  unfold Components.aliases Components.worktreeAlias keys
  cases c.branch with
  | none => rfl
  | some wb => rfl

/-! ## Keys and their URIs -/

theorem singleton_slash : String.singleton '/' = "/" := rfl

theorem scopePrefix_split (e u w rest : String) :
    stripPrefix "esr://localhost/sessions/by-name/" (scopePrefix e u w ++ rest) =
      some (e ++ "/" ++ (u ++ "/" ++ (w ++ "/" ++ rest))) := by
  rw [stripPrefix_eq_some]
  unfold scopePrefix
  generalize "esr://localhost/sessions/by-name/" = p
  simp only [String.append_assoc]

theorem scopePrefix_injective {e u w rest e' u' w' rest' : String} (h : TidyScope e u w)
    (h' : TidyScope e' u' w') (heq : scopePrefix e u w ++ rest = scopePrefix e' u' w' ++ rest') :
    e = e' ∧ u = u' ∧ w = w' ∧ rest = rest' := by
  have hpath := scopePrefix_split e u w rest
  rw [heq, scopePrefix_split, Option.some.injEq, ← singleton_slash] at hpath
  obtain ⟨he, hpath⟩ := cut_injective h'.1 h.1 hpath
  obtain ⟨hu, hpath⟩ := cut_injective h'.2.1 h.2.1 hpath
  obtain ⟨hw, hrest⟩ := cut_injective h'.2.2 h.2.2 hpath
  exact ⟨he.symm, hu.symm, hw.symm, hrest.symm⟩

theorem worktreeUri_eq (e u w wb : String) :
    worktreeUri e u w wb = scopePrefix e u w ++ ("by-worktree/" ++ wb) := by
  unfold worktreeUri
  rw [String.append_assoc]

/-- **Tidy keys have URIs of their own.** -/
theorem Key.uri_injective {k k' : Key} (hk : k.Tidy) (hk' : k'.Tidy) (h : k.uri = k'.uri) :
    k = k' := by
  -- a name that starts like a branch is not shown
  have hmixed : ∀ e u w n e' u' w' wb, (Key.name e u w n).Tidy → (Key.worktree e' u' w' wb).Tidy →
      nameUri e u w n ≠ worktreeUri e' u' w' wb := by
    intro e u w n e' u' w' wb hname hbranch heq
    rw [worktreeUri_eq] at heq
    obtain ⟨_, _, _, hn⟩ := scopePrefix_injective hname.1 hbranch heq
    have hstrip := stripPrefix_eq_some.mpr hn
    rw [hname.2.2] at hstrip
    cases hstrip
  cases k with
  | name e u w n =>
    cases k' with
    | name e' u' w' n' =>
      obtain ⟨rfl, rfl, rfl, rfl⟩ := scopePrefix_injective hk.1 hk'.1 h
      rfl
    | worktree e' u' w' wb' => exact absurd h (hmixed _ _ _ _ _ _ _ _ hk hk')
  | worktree e u w wb =>
    cases k' with
    | name e' u' w' n' => exact absurd h.symm (hmixed _ _ _ _ _ _ _ _ hk' hk)
    | worktree e' u' w' wb' =>
      have heq : worktreeUri e u w wb = worktreeUri e' u' w' wb' := h
      rw [worktreeUri_eq, worktreeUri_eq] at heq
      obtain ⟨rfl, rfl, rfl, hrest⟩ := scopePrefix_injective hk hk' heq
      rw [String.append_right_inj] at hrest
      rw [hrest]

/-! ## What a listing shows -/

section Listing
variable {Data : Type} {t : Store String Data}

theorem listedRow_eq_some {e u w uri name sid : String} {row : Row String Data} :
    listedRow e u w uri row = some (name, sid) ↔
      row = .aliasTo (canonicalUri sid) ∧ uri = nameUri e u w name ∧ Shown name := by
  cases row with
  | entity kind data => simp [listedRow]
  | aliasTo target =>
    simp only [listedRow, Option.bind_eq_bind, Option.bind_eq_some_iff, stripPrefix_eq_some,
      Option.ite_none_left_eq_some, Option.some.injEq, Prod.mk.injEq, not_or,
      Option.not_isSome_iff_eq_none, Row.aliasTo.injEq]
    constructor
    · intro ⟨sid', htarget, name', huri, hshown, hname, hsid⟩
      rw [← hname, ← hsid]
      exact ⟨htarget, huri, hshown⟩
    · intro ⟨htarget, huri, hshown⟩
      exact ⟨sid, htarget, name, huri, hshown, rfl, rfl⟩

theorem mem_listSessionUrisInScope {e u w name sid : String} :
    (name, sid) ∈ listSessionUrisInScope t e u w ↔
      Owns t sid (nameUri e u w name) ∧ Shown name := by
  unfold listSessionUrisInScope Owns
  rw [List.mem_filterMap]
  constructor
  · intro ⟨r, hr, he⟩
    obtain ⟨htarget, huri, hshown⟩ := listedRow_eq_some.mp he
    rw [← huri, ← htarget]
    exact ⟨Ets.mem_tab2list.mp hr, hshown⟩
  · intro ⟨hown, hshown⟩
    exact ⟨_, Ets.mem_tab2list.mpr hown, listedRow_eq_some.mpr ⟨rfl, rfl, hshown⟩⟩

theorem nodup_listSessionUrisInScope (t : Store String Data) (e u w : String) :
    (listSessionUrisInScope t e u w).Nodup := by
  refine List.Nodup.filterMap ?_ t.nodup_tab2list
  intro r r' ⟨name, sid⟩ h h'
  obtain ⟨hrow, huri, _⟩ := listedRow_eq_some.mp h
  obtain ⟨hrow', huri', _⟩ := listedRow_eq_some.mp h'
  exact Prod.ext (huri.trans huri'.symm) (hrow.trans hrow'.symm)

end Listing

/-! ## Histories -/

/-- The store, every claim that went through, and those not released since. -/
structure State (Data : Type) where
  store : Store String Data
  accepted : List (String × Components)
  held : List (String × Components)

/-- One call, or a write outside the sessions' part of the store. -/
inductive Act (Data : Type) where
  | claim (sid : String) (c : Components)
  | release (sid : String)
  | createSession (sid : String) (data : Data)
  | foreign (uri : String) (row : Option (Row String Data))

variable {Data : Type}

def step (dispatchToPlugin : String → Option String) (newStruct : String → Data)
    (s : State Data) : Act Data → Option (State Data)
  | .claim sid c =>
      if CleanId sid then
        match claimSessionUri dispatchToPlugin newStruct s.store sid c with
        | (.ok _, store) =>
            some { store, accepted := (sid, c) :: s.accepted, held := (sid, c) :: s.held }
        | (.error _, store) => some { s with store }
      else none
  | .release sid =>
      some { s with
        store := releaseSessionUri s.store sid
        held := s.held.filter fun h => h.1 ≠ sid }
  | .createSession sid data =>
      if CleanId sid then
        some { s with store := putEntity s.store (canonicalUri sid) "session" data }
      else none
  | .foreign uri row =>
      if stripPrefix "esr://localhost/sessions/" uri = none then
        match row with
        | some row => some { s with store := Ets.insert s.store uri row }
        | none => some { s with store := delete s.store uri }
      else none

/-- The empty store. -/
def start : State Data := ⟨Ets.empty, [], []⟩

/-- The names claimed in a scope and not released, with their sessions. -/
def ClaimedIn (s : State Data) (env username workspace name sid : String) : Prop :=
  ∃ c, (sid, c) ∈ s.held ∧ c.env = env ∧ c.username = username ∧ c.workspace = workspace ∧
    c.name = name

/-- Different keys that were claimed have different URIs. -/
def Distinct (s : State Data) : Prop :=
  ∀ sid c sid' c', (sid, c) ∈ s.accepted → (sid', c') ∈ s.accepted →
    ∀ k ∈ keys c, ∀ k' ∈ keys c', k.uri = k'.uri → k = k'

/-- The listing of a scope has each claimed name once, and nothing else. -/
def Listed (s : State Data) (env username workspace : String) : Prop :=
  (listSessionUrisInScope s.store env username workspace).Nodup ∧
    ∀ name sid, (name, sid) ∈ listSessionUrisInScope s.store env username workspace ↔
      ClaimedIn s env username workspace name sid

/-- A claim of tidy keys. -/
def Tidy (_ : State Data) : Act Data → Prop
  | .claim _ c => ∀ k ∈ keys c, k.Tidy
  | _ => True

instance (s : State Data) : (a : Act Data) → Decidable (Tidy s a)
  | .claim _ c => inferInstanceAs (Decidable (∀ k ∈ keys c, k.Tidy))
  | .release _ | .createSession _ _ | .foreign _ _ => isTrue trivial

/-! ## The invariant -/

structure Inv (s : State Data) : Prop where
  tidy : ∀ sid c, (sid, c) ∈ s.accepted → ∀ k ∈ keys c, k.Tidy
  held_accepted : ∀ h ∈ s.held, h ∈ s.accepted
  held_owns : ∀ sid c, (sid, c) ∈ s.held → ∀ a ∈ c.aliases, Owns s.store sid a
  rows : ∀ uri rest row, stripPrefix "esr://localhost/sessions/" uri = some rest →
    (∀ sid, CleanId sid → uri ≠ canonicalUri sid) → s.store.lookup uri = some row →
    ∃ sid c, (sid, c) ∈ s.held ∧ uri ∈ c.aliases ∧ row = .aliasTo (canonicalUri sid)

theorem Inv.distinct {s : State Data} (h : Inv s) : Distinct s := by
  intro sid c sid' c' hc hc' k hk k' hk' huri
  exact Key.uri_injective (h.tidy sid c hc k hk) (h.tidy sid' c' hc' k' hk') huri

theorem Inv.listed {s : State Data} (h : Inv s) {e u w : String} (hscope : TidyScope e u w) :
    Listed s e u w := by
  refine ⟨nodup_listSessionUrisInScope _ _ _ _, ?_⟩
  intro name sid
  rw [mem_listSessionUrisInScope]
  constructor
  · intro ⟨hown, hshown⟩
    obtain ⟨sid', c, hc, hmem, hrow⟩ := h.rows _ _ _
      (stripPrefix_eq_some.mpr (scopePrefix_append e u w name))
      (fun sid hsid => scopePrefix_ne_canonicalUri hsid e u w name) hown
    obtain rfl := canonicalUri_injective (Row.aliasTo.inj hrow)
    rw [aliases_eq] at hmem
    obtain ⟨k, hk, huri⟩ := List.mem_map.mp hmem
    have hkey : (Key.name e u w name) = k := Key.uri_injective ⟨hscope, hshown⟩
      (h.tidy _ c (h.held_accepted _ hc) k hk) huri.symm
    rw [← hkey] at hk
    rcases List.mem_cons.mp hk with he | hwt
    · obtain ⟨he, hu, hw, hn⟩ := Key.name.inj he
      exact ⟨c, hc, he.symm, hu.symm, hw.symm, hn.symm⟩
    · obtain ⟨wb, _, he⟩ := Option.map_eq_some_iff.mp (Option.mem_toList.mp hwt)
      cases he
  · intro ⟨c, hc, he, hu, hw, hn⟩
    have htidy := h.tidy _ c (h.held_accepted _ hc) _ List.mem_cons_self
    have hown := h.held_owns sid c hc c.nameAlias List.mem_cons_self
    unfold Components.nameAlias at hown
    rw [he, hu, hw, hn] at hown
    rw [← hn]
    exact ⟨hn ▸ hown, htidy.2⟩

theorem Inv.write {s : State Data} (h : Inv s) {t' : Store String Data}
    (hsame : ∀ uri rest, stripPrefix "esr://localhost/sessions/" uri = some rest →
      (∀ sid, CleanId sid → uri ≠ canonicalUri sid) → t'.lookup uri = s.store.lookup uri) :
    Inv { s with store := t' } := by
  refine ⟨h.tidy, h.held_accepted, ?_, ?_⟩
  · intro sid c hc a ha
    obtain ⟨rest, hrest⟩ := Components.stripPrefix_alias ha
    exact (hsame a rest hrest fun _ hsid => Components.alias_ne_canonicalUri hsid ha).trans
      (h.held_owns sid c hc a ha)
  · intro uri rest row hrest hne hrow
    exact h.rows uri rest row hrest hne ((hsame uri rest hrest hne).symm.trans hrow)

section Steps
variable {s s' : State Data} {dispatchToPlugin : String → Option String}
  {newStruct : String → Data}

theorem Inv.free_or_owns (h : Inv s) {sid : String} {c : Components}
    (hok : (claimSessionUri dispatchToPlugin newStruct s.store sid c).1 = .ok ()) {a : String}
    (ha : a ∈ c.aliases) : s.store.lookup a = none ∨ Owns s.store sid a := by
  cases hrow : s.store.lookup a with
  | none => exact Or.inl rfl
  | some row =>
    obtain ⟨rest, hrest⟩ := Components.stripPrefix_alias ha
    obtain ⟨sid', c', hc', ha', _⟩ := h.rows a rest row hrest
      (fun _ hsid => Components.alias_ne_canonicalUri hsid ha) hrow
    have hown := h.held_owns sid' c' hc' a ha'
    obtain rfl := resolve_of_claim_ok hok ha (hown.resolves dispatchToPlugin)
    exact Or.inr hown

theorem inv_claim (h : Inv s) {sid : String} {c : Components} (hsid : CleanId sid)
    (htidy : ∀ k ∈ keys c, k.Tidy)
    (hok : (claimSessionUri dispatchToPlugin newStruct s.store sid c).1 = .ok ()) :
    Inv { store := (claimSessionUri dispatchToPlugin newStruct s.store sid c).2,
          accepted := (sid, c) :: s.accepted, held := (sid, c) :: s.held } := by
  have hlookup : ∀ uri, uri ≠ canonicalUri sid →
      (claimSessionUri dispatchToPlugin newStruct s.store sid c).2.lookup uri =
        if uri ∈ c.aliases then some (.aliasTo (canonicalUri sid)) else s.store.lookup uri :=
    fun uri hne => lookup_claimSessionUri _ _ hok (fun a ha => h.free_or_owns hok ha) hne
  refine ⟨?_, ?_, ?_, ?_⟩
  · intro sid' c' hc' k hk
    rcases List.mem_cons.mp hc' with he | hc'
    · obtain ⟨rfl, rfl⟩ := Prod.mk.inj he
      exact htidy k hk
    · exact h.tidy sid' c' hc' k hk
  · intro x hx
    rcases List.mem_cons.mp hx with rfl | hx
    · exact List.mem_cons_self
    · exact List.mem_cons_of_mem _ (h.held_accepted x hx)
  · intro sid' c' hc' a ha
    unfold Owns
    rw [hlookup a (Components.alias_ne_canonicalUri hsid ha)]
    rcases List.mem_cons.mp hc' with he | hc'
    · obtain ⟨rfl, rfl⟩ := Prod.mk.inj he
      rw [if_pos ha]
    · have hold := h.held_owns sid' c' hc' a ha
      split
      · -- an alias of both claims is of one session
        rename_i hmem
        rw [← resolve_of_claim_ok hok hmem (hold.resolves dispatchToPlugin)]
      · exact hold
  · intro uri rest row hrest hne hrow
    rw [hlookup uri (hne sid hsid)] at hrow
    split at hrow
    · rename_i hmem
      exact ⟨sid, c, List.mem_cons_self, hmem, (Option.some.inj hrow).symm⟩
    · obtain ⟨sid', c', hc', hmem, he⟩ := h.rows uri rest row hrest hne hrow
      exact ⟨sid', c', List.mem_cons_of_mem _ hc', hmem, he⟩

theorem inv_release (h : Inv s) (sid : String) :
    Inv { s with
      store := releaseSessionUri s.store sid
      held := s.held.filter fun h => h.1 ≠ sid } := by
  refine ⟨h.tidy, ?_, ?_, ?_⟩
  · intro x hx
    exact h.held_accepted x (List.mem_filter.mp hx).1
  · intro sid' c hc a ha
    obtain ⟨hc, hne⟩ := List.mem_filter.mp hc
    refine lookup_releaseSessionUri.mpr ⟨h.held_owns sid' c hc a ha, ?_⟩
    intro he
    exact of_decide_eq_true hne (canonicalUri_injective (Row.aliasTo.inj he))
  · intro uri rest row hrest hcan hrow
    obtain ⟨hrow, hne⟩ := lookup_releaseSessionUri.mp hrow
    obtain ⟨sid', c, hc, hmem, rfl⟩ := h.rows uri rest row hrest hcan hrow
    refine ⟨sid', c, List.mem_filter.mpr ⟨hc, decide_eq_true ?_⟩, hmem, rfl⟩
    intro he
    exact hne (by rw [show sid' = sid from he])

theorem inv_step (h : Inv s) {a : Act Data} (htidy : Tidy s a)
    (hs : step dispatchToPlugin newStruct s a = some s') : Inv s' := by
  cases a with
  | claim sid c =>
    obtain ⟨hsid, he⟩ := Option.ite_none_right_eq_some.mp hs
    cases hclaim : claimSessionUri dispatchToPlugin newStruct s.store sid c with
    | mk result store =>
      rw [hclaim] at he
      cases result with
      | ok _ =>
        obtain rfl := Option.some.inj he
        have hok : (claimSessionUri dispatchToPlugin newStruct s.store sid c).1 = .ok () := by
          rw [hclaim]
        have hinv := inv_claim h hsid htidy hok
        rwa [hclaim] at hinv
      | error e =>
        obtain rfl := Option.some.inj he
        have hstore : store = s.store := by
          have hsame := claimSessionUri_error (e := e)
            (show (claimSessionUri dispatchToPlugin newStruct s.store sid c).1 = _ by rw [hclaim])
          rwa [hclaim] at hsame
        rw [hstore]
        exact h
  | release sid =>
    obtain rfl := Option.some.inj hs
    exact inv_release h sid
  | createSession sid data =>
    obtain ⟨hsid, rfl⟩ := guard_eq_some.mp hs
    refine h.write fun uri _ _ hne => ?_
    exact Ets.lookup_insert_of_ne _ _ (hne sid hsid)
  | foreign uri row =>
    simp only [step] at hs
    split at hs
    · rename_i huri
      have hne : ∀ u rest, stripPrefix "esr://localhost/sessions/" u = some rest → u ≠ uri := by
        intro u rest hrest he
        rw [he, huri] at hrest
        cases hrest
      cases row with
      | some row =>
        obtain rfl := Option.some.inj hs
        exact h.write fun u rest hrest _ => Ets.lookup_insert_of_ne _ _ (hne u rest hrest)
      | none =>
        obtain rfl := Option.some.inj hs
        exact h.write fun u rest hrest _ => Ets.lookup_delete_of_ne _ (hne u rest hrest)
    · cases hs

end Steps

theorem inv_start : Inv (start : State Data) := by
  constructor
  · intro sid c hc
    cases hc
  · intro x hx
    cases hx
  · intro sid c hc
    cases hc
  · intro uri rest row _ _ hrow
    cases hrow

/-- **Listings are right in tidy histories**, for every scope without slashes. -/
theorem listed_of_tidy (dispatchToPlugin : String → Option String) (newStruct : String → Data)
    {s : State Data} (h : Reaches (step dispatchToPlugin newStruct) Tidy start s) :
    Distinct s ∧ ∀ e u w, TidyScope e u w → Listed s e u w := by
  have hinv := h.invariant inv_start fun _ _ _ ht htidy hs => inv_step ht htidy hs
  exact ⟨hinv.distinct, fun _ _ _ hscope => hinv.listed hscope⟩

/-- A worktree's branch may have slashes. -/
theorem listed_dev :
    ∃ s : State String, s.accepted.length = 2 ∧ Distinct s ∧ Listed s "default" "alice" "web" := by
  have hrun : (exec (step (fun _ => none) id) Tidy start
      [.claim "s1" ⟨"default", "alice", "web", "login", some "feature/login"⟩,
        .claim "s2" ⟨"default", "alice", "web", "ops", none⟩]).map
      (fun s => s.accepted.length) = some 2 := by decide +kernel
  obtain ⟨s, hs, hlen⟩ := Option.map_eq_some_iff.mp hrun
  obtain ⟨hdistinct, hlisted⟩ := listed_of_tidy (fun _ => none) id (.of_exec hs)
  exact ⟨s, hlen, hdistinct, hlisted _ _ _ (by decide +kernel)⟩

/-- **A slash in a name**: the session `docs/login` of `web` is listed as `login` of
a workspace that has no session. -/
theorem not_listed_slash :
    ¬∀ (Data : Type) (dispatchToPlugin : String → Option String) (newStruct : String → Data)
      (s : State Data), Reaches (step dispatchToPlugin newStruct) anyStep start s →
      Distinct s ∧ ∀ e u w, Listed s e u w := by
  intro h
  have hrun : (exec (step (fun _ => none) id) anyStep start
      [.claim "s1" ⟨"default", "alice", "web", "docs/login", none⟩]).map (fun s =>
        (s.held, listSessionUrisInScope s.store "default" "alice" "web/docs")) =
      some ([("s1", ⟨"default", "alice", "web", "docs/login", none⟩)], [("login", "s1")]) := by
    decide +kernel
  obtain ⟨s, hs, he⟩ := Option.map_eq_some_iff.mp hrun
  obtain ⟨hheld, hlist⟩ := Prod.mk.inj he
  have hlisted := ((h String (fun _ => none) id s (.of_exec hs)).2 "default" "alice" "web/docs").2
  obtain ⟨c, hc, _, _, hw, _⟩ := (hlisted "login" "s1").mp (by rw [hlist]; exact List.mem_cons_self)
  rw [hheld, List.mem_singleton] at hc
  obtain ⟨_, rfl⟩ := Prod.mk.inj hc
  exact absurd hw (by decide)

end SessionScope
end Esr
