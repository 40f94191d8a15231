import Mathlib.Data.List.Flatten
import Mathlib.Data.Multiset.AddSub
import Esr.Runs
import Esr.SlashRoutes

/-! # Overlays of the slash-route registry

The base of the registry is the routes file; each plugin may register an overlay
with routes of its own.  Every load, registration and removal merges the base with
the overlays again and fills both tables anew, unless two of the merged routes
collide: then the call is refused.

Slash kinds and internal kinds are checked for collisions apart from each other,
because the routes file names some kinds in both lists, and the internal kind has
the last word on the kind's row.  So an overlay cannot take a slash text or an
internal kind of the base, but its internal kind replaces the permission and the
module of a kind that the base has as a slash only.
-/
namespace Esr
open Yaml

namespace SlashOverlays

/-- What the two readers return from the row of a kind. -/
structure KindRow where
  permission : Value
  commandModule : String

/-- A route of the `slashes` list.  Nothing checks what the aliases are. -/
structure SlashEntry where
  route : SlashRoute
  aliases : List Value
  row : KindRow

/-- A route of the `internal_kinds` list. -/
structure InternalKind where
  kind : String
  row : KindRow

/-- The keys the route is under: the slash texts that call it, and what else is among the
aliases. -/
def SlashEntry.keys (e : SlashEntry) : List Value := .str e.route.slash :: e.aliases

/-- The routes of the file, or of one plugin. -/
structure Snapshot where
  slashes : List SlashEntry
  internalKinds : List InternalKind

/-- The server's state, with the two tables it owns. -/
structure State where
  base : Snapshot
  overlays : Ets String Snapshot
  slashTable : Ets Value SlashRoute
  kindTable : Ets String KindRow

/-- What `init/1` returns. -/
def initial : State := ⟨⟨[], []⟩, .empty, .empty, .empty⟩

/-- Why a call is refused. -/
inductive Reason where
  | slashCollision (key : Value)
  | kindCollision (kind : String)

/-- What the caller gets. -/
inductive Answer where
  | ok
  | error (reason : Reason)

inductive Call where
  | load (snapshot : Snapshot)
  | registerOverlay (pluginName : String) (snapshot : Snapshot)
  | unregisterOverlay (pluginName : String)

namespace Snapshot
variable (c : Snapshot)

/-- The rows of the slash table. -/
def slashRows : List (Value × SlashRoute) :=
  c.slashes.flatMap fun e => e.keys.map fun key => (key, e.route)

/-- The rows that the slashes put into the kind table. -/
def slashKindRows : List (String × KindRow) := c.slashes.map fun e => (e.route.kind, e.row)

/-- The rows that the internal kinds put there afterwards. -/
def internalRows : List (String × KindRow) := c.internalKinds.map fun i => (i.kind, i.row)

end Snapshot

/-- `detect_slash_collision/1` and `detect_kind_collision/1`: the first name that
occurs a second time. -/
def detectCollision {K : Type} [DecidableEq K] (reason : K → Reason) (names : List K) :
    Except Reason Unit :=
  match names.diff names.eraseDups with
  | [] => .ok ()
  | dup :: _ => .error (reason dup)

namespace State
variable (s : State)

/-- The base and every overlay, one after the other. -/
def merged : Snapshot where
  slashes := s.base.slashes ++ s.overlays.tab2list.flatMap fun o => o.2.slashes
  internalKinds := s.base.internalKinds ++ s.overlays.tab2list.flatMap fun o => o.2.internalKinds

/-- Both tables emptied and filled with the merged routes. -/
def rebuilt : State :=
  { s with
    slashTable := Ets.empty.insertEach s.merged.slashRows
    kindTable := (Ets.empty.insertEach s.merged.slashKindRows).insertEach s.merged.internalRows }

/-- `rebuild_merged_view/1`; a collision leaves the tables alone. -/
def rebuildMergedView : Except Reason State := do
  detectCollision .slashCollision (s.merged.slashRows.map Prod.fst)
  detectCollision .kindCollision (s.merged.slashKindRows.map Prod.fst)
  detectCollision .kindCollision (s.merged.internalRows.map Prod.fst)
  return s.rebuilt

/-- The state a call asks for, before the tables follow. -/
def candidate : Call → State
  | .load snapshot => { s with base := snapshot }
  | .registerOverlay name snapshot => { s with overlays := s.overlays.insert name snapshot }
  | .unregisterOverlay name => { s with overlays := s.overlays.delete name }

/-- `handle_call/3`.  A refused registration rebuilds from the old state, whatever
comes of it; a removal takes for granted that nothing collides, and `none` is the
match error if something does. -/
def handleCall (call : Call) : Option (Answer × State) :=
  match call, rebuildMergedView (s.candidate call) with
  | _, .ok s' => some (.ok, s')
  | .load _, .error reason => some (.error reason, s)
  | .registerOverlay _ _, .error reason =>
      some (.error reason, match s.rebuildMergedView with
        | .ok s' => s'
        | .error _ => s)
  | .unregisterOverlay _, .error _ => none

/-- `permission_for/1`. -/
def permissionFor (kind : String) : Option Value := (s.kindTable.lookup kind).map KindRow.permission

/-- `command_module_for/1`. -/
def commandModuleFor (kind : String) : Option String :=
  (s.kindTable.lookup kind).map KindRow.commandModule

end State

/-- The registry as a transition system: its calls, one at a time. -/
def step (s : State) (call : Call) : Option State := (s.handleCall call).map Prod.snd

/-! ## What the registry is for -/

namespace Snapshot

/-- The snapshot has the route under the slash text. -/
def Routes (c : Snapshot) (key : Value) (route : SlashRoute) : Prop :=
  ∃ e ∈ c.slashes, key ∈ e.keys ∧ e.route = route

/-- What the snapshot says of a kind: its internal kind has precedence over its
slash. -/
def Kinds (c : Snapshot) (kind : String) (row : KindRow) : Prop :=
  (∃ i ∈ c.internalKinds, i.kind = kind ∧ i.row = row) ∨
    (∀ i ∈ c.internalKinds, i.kind ≠ kind) ∧ ∃ e ∈ c.slashes, e.route.kind = kind ∧ e.row = row

/-- No two routes claim the same slash text or the same kind, list by list. -/
structure CollisionFree (c : Snapshot) : Prop where
  slashes : (c.slashRows.map Prod.fst).Nodup
  slashKinds : (c.slashKindRows.map Prod.fst).Nodup
  internalKinds : (c.internalRows.map Prod.fst).Nodup

/-- An internal kind of the overlay is a slash kind of the base, and says something
else of it. -/
def Shadows (base overlay : Snapshot) : Prop :=
  ∃ i ∈ overlay.internalKinds, ∃ e ∈ base.slashes, e.route.kind = i.kind ∧ e.row ≠ i.row

end Snapshot

/-- Some overlay that is registered shadows the base. -/
def Shadowed (s : State) : Prop :=
  ∃ name overlay, s.overlays.lookup name = some overlay ∧ s.base.Shadows overlay

/-- The readers answer for the kinds of the base what the base says. -/
def KeepsBase (s : State) : Prop :=
  ∀ kind row, s.base.Kinds kind row →
    s.permissionFor kind = some row.permission ∧ s.commandModuleFor kind = some row.commandModule

/-- What plugins must not be able to break. -/
structure Safe (s : State) : Prop where
  keeps : KeepsBase s
  slashes : ∀ key route, s.slashTable.lookup key = some route ↔ s.merged.Routes key route
  kinds : ∀ kind row, s.kindTable.lookup kind = some row ↔ s.merged.Kinds kind row
  returns : ∀ call, (s.handleCall call).isSome = true
  refused : ∀ call reason s', s.handleCall call = some (.error reason, s') →
    s'.slashTable = s.slashTable ∧ s'.kindTable = s.kindTable

/-- A call that goes through leaves no overlay that shadows the base. -/
def Careful (s : State) (call : Call) : Prop :=
  (s.candidate call).merged.CollisionFree → ¬Shadowed (s.candidate call)

/-! ## Collisions -/

section
variable {K : Type} [DecidableEq K]

theorem nodup_eraseDups (names : List K) : names.eraseDups.Nodup := by
  obtain ⟨n, hn⟩ : ∃ n, names.length ≤ n := ⟨_, le_rfl⟩
  induction n generalizing names with
  | zero =>
    obtain rfl := List.length_eq_zero_iff.mp (Nat.le_zero.mp hn)
    exact List.nodup_nil
  | succ n ih =>
    cases names with
    | nil => exact List.nodup_nil
    | cons name rest =>
      have hrest : rest.length ≤ n := Nat.le_of_succ_le_succ hn
      rw [List.eraseDups_cons]
      refine List.Nodup.cons ?_ (ih _ ((List.length_filter_le _ _).trans hrest))
      simp [List.mem_eraseDups]

theorem diff_eraseDups_eq_nil (names : List K) :
    names.diff names.eraseDups = [] ↔ names.Nodup := by
  have hcount : ∀ name, (names.diff names.eraseDups).count name =
      names.count name - names.eraseDups.count name := by
    intro name
    rw [← Multiset.coe_count, ← Multiset.coe_sub, Multiset.count_sub, Multiset.coe_count,
      Multiset.coe_count]
  rw [List.nodup_iff_count_le_one]
  constructor
  · intro h name
    have hzero := hcount name
    have hone := List.nodup_iff_count_le_one.mp (nodup_eraseDups names) name
    rw [h, List.count_nil] at hzero
    omega
  · intro h
    refine List.eq_nil_iff_forall_not_mem.mpr fun name hmem => ?_
    have hpos := List.count_pos_iff.mpr hmem
    have hin : name ∈ names := (List.diff_sublist _ _).subset hmem
    have hdup := List.count_pos_iff.mpr (List.mem_eraseDups.mpr hin)
    have hle := h name
    rw [hcount] at hpos
    omega

theorem detectCollision_cases (reason : K → Reason) (names : List K) :
    (names.Nodup ∧ detectCollision reason names = .ok ()) ∨
      (¬names.Nodup ∧ ∃ r, detectCollision reason names = .error r) := by
  rw [← diff_eraseDups_eq_nil, detectCollision]
  cases names.diff names.eraseDups with
  | nil => exact .inl ⟨rfl, rfl⟩
  | cons dup rest => exact .inr ⟨List.cons_ne_nil _ _, _, rfl⟩

end

/-- **The rebuild**: it goes through exactly if the merged routes are free of
collisions. -/
theorem rebuildMergedView_cases (s : State) :
    (s.merged.CollisionFree ∧ s.rebuildMergedView = .ok s.rebuilt) ∨
      (¬s.merged.CollisionFree ∧ ∃ r, s.rebuildMergedView = .error r) := by
  unfold State.rebuildMergedView
  rcases detectCollision_cases .slashCollision (s.merged.slashRows.map Prod.fst) with
    ⟨hs, h⟩ | ⟨hs, r, h⟩
  · rw [h]
    rcases detectCollision_cases .kindCollision (s.merged.slashKindRows.map Prod.fst) with
      ⟨hk, h⟩ | ⟨hk, r, h⟩
    · rw [h]
      rcases detectCollision_cases .kindCollision (s.merged.internalRows.map Prod.fst) with
        ⟨hi, h⟩ | ⟨hi, r, h⟩
      · rw [h]
        exact .inl ⟨⟨hs, hk, hi⟩, rfl⟩
      · rw [h]
        exact .inr ⟨fun hf => hi hf.internalKinds, r, rfl⟩
    · rw [h]
      exact .inr ⟨fun hf => hk hf.slashKinds, r, rfl⟩
  · rw [h]
    exact .inr ⟨fun hf => hs hf.slashes, r, rfl⟩

/-! ## What the tables hold -/

section
variable {s : State}

variable {c : Snapshot} {kind : String} {row : KindRow}

theorem mem_slashRows {key : Value} {route : SlashRoute} :
    (key, route) ∈ c.slashRows ↔ c.Routes key route := by
  simp only [Snapshot.slashRows, List.mem_flatMap, List.mem_map, Prod.mk.injEq]
  constructor
  · rintro ⟨e, he, _, hkey, rfl, rfl⟩
    exact ⟨e, he, hkey, rfl⟩
  · rintro ⟨e, he, hkey, rfl⟩
    exact ⟨e, he, key, hkey, rfl, rfl⟩

theorem mem_slashKindRows :
    (kind, row) ∈ c.slashKindRows ↔ ∃ e ∈ c.slashes, e.route.kind = kind ∧ e.row = row := by
  simp [Snapshot.slashKindRows]

theorem mem_internalRows :
    (kind, row) ∈ c.internalRows ↔ ∃ i ∈ c.internalKinds, i.kind = kind ∧ i.row = row := by
  simp [Snapshot.internalRows]

theorem not_mem_internalRows :
    kind ∉ c.internalRows.map Prod.fst ↔ ∀ i ∈ c.internalKinds, i.kind ≠ kind := by
  simp [Snapshot.internalRows]

theorem rebuilt_slashTable (h : s.merged.CollisionFree) (key : Value) (route : SlashRoute) :
    s.rebuilt.slashTable.lookup key = some route ↔ s.merged.Routes key route := by
  show (Ets.empty.insertEach s.merged.slashRows).lookup key = some route ↔ _
  rw [Ets.lookup_insertEach_eq_some h.slashes, Ets.lookup_empty, mem_slashRows]
  simp

theorem rebuilt_kindTable (h : s.merged.CollisionFree) (kind : String) (row : KindRow) :
    s.rebuilt.kindTable.lookup kind = some row ↔ s.merged.Kinds kind row := by
  show ((Ets.empty.insertEach s.merged.slashKindRows).insertEach s.merged.internalRows).lookup
    kind = some row ↔ _
  rw [Ets.lookup_insertEach_eq_some h.internalKinds, Ets.lookup_insertEach_eq_some h.slashKinds,
    Ets.lookup_empty, mem_internalRows, mem_slashKindRows, not_mem_internalRows]
  simp [Snapshot.Kinds]

/-! ## The registry between two calls -/

/-- The tables are those of a rebuild: it would change nothing. -/
def Installed (s : State) : Prop := s.rebuildMergedView = .ok s

theorem installed_initial : Installed initial := rfl

theorem installed_iff : Installed s ↔ s.merged.CollisionFree ∧ s.rebuilt = s := by
  unfold Installed
  rcases rebuildMergedView_cases s with ⟨hfree, h⟩ | ⟨hnot, r, h⟩
  · rw [h]
    exact ⟨fun he => ⟨hfree, Except.ok.inj he⟩, fun he => congrArg Except.ok he.2⟩
  · rw [h]
    exact ⟨fun he => absurd he (by rintro ⟨⟩), fun he => absurd he.1 hnot⟩

theorem installed_rebuilt (h : s.merged.CollisionFree) : Installed s.rebuilt :=
  installed_iff.mpr ⟨h, rfl⟩

theorem CollisionFree.unregister (h : s.merged.CollisionFree) (name : String) :
    (s.candidate (.unregisterOverlay name)).merged.CollisionFree := by
  have hrows : (s.overlays.delete name).tab2list.Sublist s.overlays.tab2list :=
    List.Sublist.map _ (List.kerase_sublist _ _)
  have hslashes : (s.candidate (.unregisterOverlay name)).merged.slashes.Sublist s.merged.slashes :=
    List.Sublist.append_left (hrows.flatMap _) _
  have hinternal : (s.candidate (.unregisterOverlay name)).merged.internalKinds.Sublist
      s.merged.internalKinds :=
    List.Sublist.append_left (hrows.flatMap _) _
  exact ⟨h.slashes.sublist ((hslashes.flatMap _).map _),
    h.slashKinds.sublist ((hslashes.map _).map _),
    h.internalKinds.sublist ((hinternal.map _).map _)⟩

/-- **One call.**  It either goes through, which it does exactly if nothing
collides in the state it asks for, or it is refused and leaves the state. -/
theorem handleCall_cases (h : Installed s) (call : Call) :
    ((s.candidate call).merged.CollisionFree ∧
      s.handleCall call = some (.ok, (s.candidate call).rebuilt)) ∨
    (¬(s.candidate call).merged.CollisionFree ∧
      ∃ r, s.handleCall call = some (.error r, s)) := by
  unfold State.handleCall
  rcases rebuildMergedView_cases (s.candidate call) with ⟨hfree, hok⟩ | ⟨hnot, r, herr⟩
  · rw [hok]
    exact .inl ⟨hfree, rfl⟩
  · rw [herr]
    cases call with
    | load snapshot => exact .inr ⟨hnot, r, rfl⟩
    | registerOverlay name snapshot =>
      refine .inr ⟨hnot, r, ?_⟩
      dsimp only
      rw [show s.rebuildMergedView = .ok s from h]
    | unregisterOverlay name =>
      exact absurd (CollisionFree.unregister (installed_iff.mp h).1 name) hnot

theorem step_cases {call : Call} {s' : State} (h : Installed s) (hstep : step s call = some s') :
    ((s.candidate call).merged.CollisionFree ∧ s' = (s.candidate call).rebuilt) ∨ s' = s := by
  unfold step at hstep
  rcases handleCall_cases h call with ⟨hfree, hcall⟩ | ⟨-, r, hcall⟩
  · rw [hcall] at hstep
    exact .inl ⟨hfree, (Option.some.inj hstep).symm⟩
  · rw [hcall] at hstep
    exact .inr (Option.some.inj hstep).symm

theorem Installed.step {call : Call} {s' : State} (h : Installed s)
    (hstep : step s call = some s') : Installed s' := by
  rcases step_cases h hstep with ⟨hfree, rfl⟩ | rfl
  · exact installed_rebuilt hfree
  · exact h

/-! ## Kinds of the base -/

theorem mem_merged_internalKinds {i : InternalKind} :
    i ∈ s.merged.internalKinds ↔ i ∈ s.base.internalKinds ∨
      ∃ name overlay, s.overlays.lookup name = some overlay ∧ i ∈ overlay.internalKinds := by
  simp only [State.merged, List.mem_append, List.mem_flatMap, Prod.exists, Ets.mem_tab2list]

theorem not_mem_base {name : String} {overlay : Snapshot} {i j : InternalKind}
    (h : s.merged.CollisionFree) (ho : s.overlays.lookup name = some overlay)
    (hi : i ∈ overlay.internalKinds) (hj : j ∈ s.base.internalKinds) : j.kind ≠ i.kind := by
  have hnodup := h.internalKinds
  simp only [Snapshot.internalRows, State.merged, List.map_append, List.map_map] at hnodup
  refine (List.nodup_append.mp hnodup).2.2 _ (List.mem_map.mpr ⟨j, hj, rfl⟩) _
    (List.mem_map.mpr ⟨i, ?_, rfl⟩)
  exact List.mem_flatMap.mpr ⟨(name, overlay), Ets.mem_tab2list.mpr ho, hi⟩

theorem readers_of_lookup (h : s.kindTable.lookup kind = some row) :
    s.permissionFor kind = some row.permission ∧
      s.commandModuleFor kind = some row.commandModule := by
  unfold State.permissionFor State.commandModuleFor
  rw [h]
  exact ⟨rfl, rfl⟩

theorem lookup_kind (h : Installed s) (kind : String) (row : KindRow) :
    s.kindTable.lookup kind = some row ↔ s.merged.Kinds kind row := by
  obtain ⟨hfree, hs⟩ := installed_iff.mp h
  have hrow := rebuilt_kindTable hfree kind row
  rwa [hs] at hrow

theorem lookup_slash (h : Installed s) (key : Value) (route : SlashRoute) :
    s.slashTable.lookup key = some route ↔ s.merged.Routes key route := by
  obtain ⟨hfree, hs⟩ := installed_iff.mp h
  have hrow := rebuilt_slashTable hfree key route
  rwa [hs] at hrow

theorem merged_of_base (h : ¬Shadowed s) (hbase : s.base.Kinds kind row) :
    s.merged.Kinds kind row := by
  rcases hbase with ⟨i, hi, hkind, hrow⟩ | ⟨hnone, e, he, hkind, hrow⟩
  · exact .inl ⟨i, List.mem_append_left _ hi, hkind, hrow⟩
  · by_cases hover : ∃ i ∈ s.merged.internalKinds, i.kind = kind
    · obtain ⟨i, hi, hik⟩ := hover
      refine .inl ⟨i, hi, hik, ?_⟩
      rcases mem_merged_internalKinds.mp hi with hi | ⟨name, overlay, ho, hi⟩
      · exact absurd hik (hnone i hi)
      · by_contra hne
        exact h ⟨name, overlay, ho, i, hi, e, he, hkind.trans hik.symm,
          fun heq => hne (heq.symm.trans hrow)⟩
    · exact .inr ⟨fun i hi hik => hover ⟨i, hi, hik⟩, e, List.mem_append_left _ he, hkind, hrow⟩

/-- **The base is kept** exactly while no overlay shadows it. -/
theorem keepsBase_iff (h : Installed s) : KeepsBase s ↔ ¬Shadowed s := by
  constructor
  · rintro hkeeps ⟨name, overlay, ho, i, hi, e, he, hkind, hne⟩
    have hfree := (installed_iff.mp h).1
    have hbase : s.base.Kinds i.kind e.row :=
      .inr ⟨fun j hj => not_mem_base hfree ho hi hj, e, he, hkind, rfl⟩
    have hmerged : s.merged.Kinds i.kind i.row :=
      .inl ⟨i, mem_merged_internalKinds.mpr (.inr ⟨name, overlay, ho, hi⟩), rfl, rfl⟩
    obtain ⟨hperm, hmodule⟩ := hkeeps i.kind e.row hbase
    obtain ⟨hperm', hmodule'⟩ := readers_of_lookup ((lookup_kind h _ _).mpr hmerged)
    have hp : e.row.permission = i.row.permission := Option.some.inj (hperm.symm.trans hperm')
    have hm : e.row.commandModule = i.row.commandModule :=
      Option.some.inj (hmodule.symm.trans hmodule')
    have hrow : ∀ r r' : KindRow, r.permission = r'.permission →
        r.commandModule = r'.commandModule → r = r' := by
      rintro ⟨_, _⟩ ⟨_, _⟩ rfl rfl
      rfl
    exact hne (hrow _ _ hp hm)
  · intro hnot kind row hbase
    exact readers_of_lookup ((lookup_kind h kind row).mpr (merged_of_base hnot hbase))

/-! ## Runs -/

theorem not_shadowed_initial : ¬Shadowed initial := by
  rintro ⟨name, overlay, ho, -⟩
  cases ho.symm.trans (Ets.lookup_empty name)

theorem Shadowed.of_rebuilt (h : Shadowed s.rebuilt) : Shadowed s := h

theorem safe_of_installed (h : Installed s) (hnot : ¬Shadowed s) : Safe s := by
  refine ⟨(keepsBase_iff h).mpr hnot, lookup_slash h, lookup_kind h, ?_, ?_⟩
  · intro call
    rcases handleCall_cases h call with ⟨-, hcall⟩ | ⟨-, r, hcall⟩
    · rw [hcall]
      rfl
    · rw [hcall]
      rfl
  · intro call reason s' hcall
    rcases handleCall_cases h call with ⟨-, hok⟩ | ⟨-, r, herr⟩
    · cases hcall.symm.trans hok
    · obtain ⟨-, rfl⟩ := Prod.mk.inj (Option.some.inj (hcall.symm.trans herr))
      exact ⟨rfl, rfl⟩

/-- The invariant of careful runs. -/
structure OverlayInv (s : State) : Prop where
  installed : Installed s
  unshadowed : ¬Shadowed s

theorem OverlayInv.step {call : Call} {s' : State} (h : OverlayInv s) (hcareful : Careful s call)
    (hstep : step s call = some s') : OverlayInv s' := by
  refine ⟨h.installed.step hstep, ?_⟩
  rcases step_cases h.installed hstep with ⟨hfree, rfl⟩ | rfl
  · exact fun hshadow => hcareful hfree hshadow.of_rebuilt
  · exact h.unshadowed

/-- **Overlay safety.**  While no call that goes through leaves an overlay that
shadows the base, every state reached is safe. -/
theorem safe_of_careful (h : Reaches step Careful initial s) : Safe s := by
  have hinv : OverlayInv s :=
    h.invariant ⟨installed_initial, not_shadowed_initial⟩ fun _ _ _ ih hcareful hstep =>
      ih.step hcareful hstep
  exact safe_of_installed hinv.installed hinv.unshadowed

end

/-! ## An overlay beside the base and one over it -/

/-- `/cap:grant`, as the routes file has it. -/
def capGrant : SlashEntry where
  route := ⟨"/cap:grant", "cap_grant", false, false, []⟩
  aliases := []
  row := ⟨.str "cap.manage", "Esr.Commands.Cap.Grant"⟩

/-- An overlay with one internal kind, which asks for no permission. -/
def pluginKind (kind : String) : Snapshot := ⟨[], [⟨kind, ⟨.null, "Esr.Plugins.Cap.Open"⟩⟩]⟩

/-- A plugin with a kind of its own leaves the registry safe. -/
theorem safe_ownKind :
    ∃ s, s.permissionFor "cap_open" = some .null ∧ Safe s := by
  have hload : step initial (.load ⟨[capGrant], []⟩) =
      some (initial.candidate (.load ⟨[capGrant], []⟩)).rebuilt := rfl
  have hregister : step (initial.candidate (.load ⟨[capGrant], []⟩)).rebuilt
      (.registerOverlay "cap" (pluginKind "cap_open")) =
      some ((initial.candidate (.load ⟨[capGrant], []⟩)).rebuilt.candidate
        (.registerOverlay "cap" (pluginKind "cap_open"))).rebuilt := rfl
  refine ⟨_, ?_, safe_of_careful ⟨_, (Run.nil.snoc ?_ hload).snoc ?_ hregister⟩⟩
  · rfl
  · rintro - ⟨name, overlay, ho, -⟩
    cases ho.symm.trans (Ets.lookup_empty name)
  · rintro - ⟨name, overlay, ho, i, hi, e, he, hkind, -⟩
    have hrow : overlay = pluginKind "cap_open" := by
      have hlookup : (Ets.insert Ets.empty "cap" (pluginKind "cap_open")).lookup name =
        some overlay := ho
      rw [Ets.lookup_insert, Ets.lookup_empty] at hlookup
      split at hlookup
      · exact (Option.some.inj hlookup).symm
      · cases hlookup
    subst hrow
    obtain rfl := List.mem_singleton.mp hi
    obtain rfl := List.mem_singleton.mp he
    revert hkind
    decide

/-- **The overlay wins**: `cap_grant` of the base needs `cap.manage`, and after the
registration it needs nothing. -/
theorem not_safe_shadowed : ¬∀ s, Reaches step anyStep initial s → Safe s := by
  intro h
  have hload : step initial (.load ⟨[capGrant], []⟩) =
      some (initial.candidate (.load ⟨[capGrant], []⟩)).rebuilt := rfl
  have hregister : step (initial.candidate (.load ⟨[capGrant], []⟩)).rebuilt
      (.registerOverlay "cap" (pluginKind "cap_grant")) =
      some ((initial.candidate (.load ⟨[capGrant], []⟩)).rebuilt.candidate
        (.registerOverlay "cap" (pluginKind "cap_grant"))).rebuilt := rfl
  have hreach : Reaches step anyStep initial _ :=
    ⟨_, (Run.nil.snoc trivial hload).snoc trivial hregister⟩
  have hsafe := h _ hreach
  have hbase : (Snapshot.mk [capGrant] []).Kinds "cap_grant" capGrant.row :=
    .inr ⟨List.forall_mem_nil _, capGrant, List.mem_singleton_self _, rfl, rfl⟩
  cases (hsafe.keeps _ _ hbase).1

end SlashOverlays
end Esr
