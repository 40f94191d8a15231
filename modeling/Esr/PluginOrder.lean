import Mathlib.Data.String.Basic
import Esr.Kahn
import Esr.PluginLoader

/-! # The order plugins are started in

`Esr.Plugin.Loader.topo_sort_enabled/2` takes the plugins found on disk and the list of
enabled names, checks that every dependency of an enabled plugin is enabled, and orders
the enabled plugins by Kahn's algorithm.  The check asks only whether the dependency is
enabled: one that is enabled but not on disk is left to the algorithm, which waits for it
for ever and calls that a cycle.
-/
namespace Esr
namespace PluginOrder

/-- A manifest with its `depends_on.plugins`, which `start_plugin/2` does not read. -/
structure Manifest extends Plugin.Manifest where
  plugins : List String

/-- `raised` stands for a `Map.fetch!/2` of a name that is not there. -/
inductive Error where
  | missingDep (name dep : String)
  | cycle
  | raised
deriving DecidableEq

/-- `check_deps_present/2`: the first plugin with a dependency that is not enabled ends it. -/
def checkDepsPresent (enabledNames : List String) : List (String × Manifest) → Except Error Unit
  | [] => .ok ()
  | (name, manifest) :: rest =>
    match manifest.plugins.find? fun dep => dep ∉ enabledNames with
    | none => checkDepsPresent enabledNames rest
    | some dep => .error (.missingDep name dep)

/-- `Map.fetch!/2` for each name of the order. -/
def fetchAll (byName : Ets String Manifest) : List String → Except Error (List (String × Manifest))
  | [] => .ok []
  | name :: rest =>
    match byName.lookup name with
    | none => .error .raised
    | some manifest => (fetchAll byName rest).map fun order => (name, manifest) :: order

/-- `name_to_deps`: each name with what it depends on, the last plugin of a name winning. -/
def nameToDeps (enabled : List (String × Manifest)) : Ets String (Finset String) :=
  Ets.empty.insertEach (enabled.map fun p => (p.1, p.2.plugins.toFinset))

/-- `topo_sort/2`. -/
def topoSort (enabled : List (String × Manifest)) (byName : Ets String Manifest) :
    Except Error (List (String × Manifest)) :=
  match Kahn.sort (nameToDeps enabled).tab2list with
  | none => .error .cycle
  | some order => fetchAll byName order

section
variable (discovered : List (String × Manifest)) (enabledNames : List String)

/-- `Map.new(discovered)`. -/
def byName : Ets String Manifest := Ets.empty.insertEach discovered

/-- The plugins found that are enabled. -/
def enabled : List (String × Manifest) := discovered.filter fun p => p.1 ∈ enabledNames

/-- `topo_sort_enabled/2`. -/
def topoSortEnabled : Except Error (List (String × Manifest)) :=
  match checkDepsPresent enabledNames (enabled discovered enabledNames) with
  | .error e => .error e
  | .ok () => topoSort (enabled discovered enabledNames) (byName discovered)

/-! ## What it should return -/

/-- An enabled plugin `n` depends on `d`. -/
def Requires (n d : String) : Prop := ∃ m, (n, m) ∈ enabled discovered enabledNames ∧ d ∈ m.plugins

/-- Every dependency of an enabled plugin is enabled and found. -/
def Satisfied : Prop :=
  ∀ n d, Requires discovered enabledNames n d → d ∈ enabledNames ∧ d ∈ discovered.map Prod.fst

/-- Some enabled plugin depends on itself, through however many enabled plugins. -/
def HasCycle : Prop := ∃ n, Relation.TransGen (Requires discovered enabledNames) n n

/-- Every plugin comes after all its dependencies. -/
def DepsFirst (order : List (String × Manifest)) : Prop :=
  ∀ before n m after, order = before ++ (n, m) :: after →
    ∀ d ∈ m.plugins, d ∈ before.map Prod.fst

/-- The result says what is the case. -/
structure Reports (result : Except Error (List (String × Manifest))) : Prop where
  ok_iff : (∃ order, result = .ok order) ↔
    Satisfied discovered enabledNames ∧ ¬HasCycle discovered enabledNames
  order : ∀ order, result = .ok order →
    order.Nodup ∧ (∀ p, p ∈ order ↔ p ∈ enabled discovered enabledNames) ∧ DepsFirst order
  cycle : result = .error .cycle → HasCycle discovered enabledNames
  missing : ∀ e, result = .error e → e ≠ .cycle → ∃ n d, e = .missingDep n d ∧
    Requires discovered enabledNames n d ∧ (d ∉ enabledNames ∨ d ∉ discovered.map Prod.fst)

/-! ## The graph that is sorted -/

/-- Of several plugins of a name the last is kept. -/
def Kept (n : String) (m : Manifest) : Prop :=
  n ∈ enabledNames ∧ (byName discovered).lookup n = some m

/-- A kept plugin `n` depends on `d`. -/
def KeptRequires (n d : String) : Prop := ∃ m, Kept discovered enabledNames n m ∧ d ∈ m.plugins

/-- The nodes of the graph, each with what it depends on. -/
def graph : Kahn.Remaining String := (nameToDeps (enabled discovered enabledNames)).tab2list

variable {discovered enabledNames}

variable {n : String} {m : Manifest} {names : List String}

theorem mem_enabled : (n, m) ∈ enabled discovered enabledNames ↔
    (n, m) ∈ discovered ∧ n ∈ enabledNames := by
  rw [enabled, List.mem_filter, decide_eq_true_eq]

theorem mem_discovered_of_lookup (h : (byName discovered).lookup n = some m) :
    (n, m) ∈ discovered := by
  rw [byName, Ets.lookup_insertEach, Ets.lookup_empty, Option.or_none, Option.map_eq_some_iff] at h
  obtain ⟨⟨k, m'⟩, hfind, rfl⟩ := h
  obtain rfl : k = n := by simpa using List.find?_some hfind
  exact List.mem_reverse.mp (List.mem_of_find?_eq_some hfind)

theorem exists_lookup (h : n ∈ discovered.map Prod.fst) :
    ∃ m, (byName discovered).lookup n = some m := by
  rw [byName, Ets.lookup_insertEach, Ets.lookup_empty, Option.or_none]
  obtain ⟨p, hp, rfl⟩ := List.mem_map.mp h
  cases hfind : discovered.reverse.find? fun r => decide (r.1 = p.1) with
  | some r => exact ⟨r.2, rfl⟩
  | none => simpa using List.find?_eq_none.mp hfind p (List.mem_reverse.mpr hp)

theorem Kept.enabled (h : Kept discovered enabledNames n m) :
    (n, m) ∈ enabled discovered enabledNames :=
  mem_enabled.mpr ⟨mem_discovered_of_lookup h.2, h.1⟩

theorem mem_graph {s : Finset String} : (n, s) ∈ graph discovered enabledNames ↔
    ∃ m, Kept discovered enabledNames n m ∧ s = m.plugins.toFinset := by
  rw [graph, Ets.mem_tab2list, nameToDeps, PluginOrder.enabled,
    Ets.lookup_insertEach_filter_map (fun n => decide (n ∈ enabledNames))
      (fun m : Manifest => m.plugins.toFinset)]
  by_cases hn : n ∈ enabledNames
  · rw [if_pos (decide_eq_true hn), Option.map_eq_some_iff]
    constructor
    · rintro ⟨m, hm, rfl⟩
      exact ⟨m, ⟨hn, hm⟩, rfl⟩
    · rintro ⟨m, hm, rfl⟩
      exact ⟨m, hm.2, rfl⟩
  · rw [if_neg (by simpa using hn)]
    constructor
    · rintro ⟨⟩
    · rintro ⟨m, hm, -⟩
      exact absurd hm.1 hn

theorem nodup_graph : (Kahn.nodes (graph discovered enabledNames)).Nodup :=
  Ets.nodup_map_fst_tab2list _

theorem waits_graph {d : String} : Kahn.Waits (graph discovered enabledNames) n d ↔
    KeptRequires discovered enabledNames n d := by
  constructor
  · rintro ⟨s, hs, hd⟩
    obtain ⟨m, hm, rfl⟩ := mem_graph.mp hs
    exact ⟨m, hm, List.mem_toFinset.mp hd⟩
  · rintro ⟨m, hm, hd⟩
    exact ⟨_, mem_graph.mpr ⟨m, hm, rfl⟩, List.mem_toFinset.mpr hd⟩

theorem mem_nodes_graph : n ∈ Kahn.nodes (graph discovered enabledNames) ↔
    n ∈ enabledNames ∧ n ∈ discovered.map Prod.fst := by
  constructor
  · intro h
    obtain ⟨⟨k, s⟩, hp, rfl⟩ := List.mem_map.mp h
    obtain ⟨m, hm, -⟩ := mem_graph.mp hp
    exact ⟨hm.1, List.mem_map.mpr ⟨_, mem_discovered_of_lookup hm.2, rfl⟩⟩
  · rintro ⟨hn, hd⟩
    obtain ⟨m, hm⟩ := exists_lookup hd
    exact List.mem_map.mpr ⟨_, mem_graph.mpr ⟨m, ⟨hn, hm⟩, rfl⟩, rfl⟩

/-! ## The two stages -/

theorem checkDepsPresent_ok {ps : List (String × Manifest)}
    (h : checkDepsPresent enabledNames ps = .ok ()) :
    ∀ n m, (n, m) ∈ ps → ∀ d ∈ m.plugins, d ∈ enabledNames := by
  fun_induction checkDepsPresent enabledNames ps with
  | case1 => simp
  | case2 name manifest rest hfind ih =>
    intro n m hmem d hd
    rcases List.mem_cons.mp hmem with heq | hrest
    · obtain ⟨rfl, rfl⟩ := Prod.mk.inj heq
      simpa using List.find?_eq_none.mp hfind d hd
    · exact ih h n m hrest d hd
  | case3 => cases h

theorem checkDepsPresent_error {ps : List (String × Manifest)} {e : Error}
    (h : checkDepsPresent enabledNames ps = .error e) :
    ∃ n m d, e = .missingDep n d ∧ (n, m) ∈ ps ∧ d ∈ m.plugins ∧ d ∉ enabledNames := by
  fun_induction checkDepsPresent enabledNames ps with
  | case1 => cases h
  | case2 name manifest rest _ ih =>
    obtain ⟨n, m, d, he, hmem, hrest⟩ := ih h
    exact ⟨n, m, d, he, List.mem_cons_of_mem _ hmem, hrest⟩
  | case3 name manifest rest dep hfind =>
    refine ⟨name, manifest, dep, (Except.error.inj h).symm, List.mem_cons_self,
      List.mem_of_find?_eq_some hfind, ?_⟩
    simpa using List.find?_some hfind

theorem fetchAll_ok {byName : Ets String Manifest}
    (h : ∀ n ∈ names, ∃ m, byName.lookup n = some m) :
    ∃ order, fetchAll byName names = .ok order ∧ order.map Prod.fst = names ∧
      ∀ n m, (n, m) ∈ order → byName.lookup n = some m := by
  induction names with
  | nil => exact ⟨[], rfl, rfl, by simp⟩
  | cons name rest ih =>
    obtain ⟨m, hm⟩ := h name List.mem_cons_self
    obtain ⟨order, hfetch, hnames, hrows⟩ := ih fun n hn => h n (List.mem_cons_of_mem _ hn)
    refine ⟨(name, m) :: order, ?_, by rw [List.map_cons, hnames], fun n m' hmem => ?_⟩
    · rw [fetchAll, hm, hfetch]
      rfl
    · rcases List.mem_cons.mp hmem with heq | hrest
      · obtain ⟨rfl, rfl⟩ := Prod.mk.inj heq
        exact hm
      · exact hrows n m' hrest

/-- Some enabled plugin depends on a name that is not enabled. -/
def MissingDep (discovered : List (String × Manifest)) (enabledNames : List String) : Prop :=
  ∃ n d, Requires discovered enabledNames n d ∧ d ∉ enabledNames

/-- Some kept plugin depends on a name that was not found. -/
def KeptDangling (discovered : List (String × Manifest)) (enabledNames : List String) : Prop :=
  ∃ n d, KeptRequires discovered enabledNames n d ∧ d ∉ discovered.map Prod.fst

/-- Some kept plugin depends on itself, through however many kept plugins. -/
def KeptCycle (discovered : List (String × Manifest)) (enabledNames : List String) : Prop :=
  ∃ n, Relation.TransGen (KeptRequires discovered enabledNames) n n

/-- An order of the kept plugins. -/
structure IsOrder (discovered : List (String × Manifest)) (enabledNames : List String)
    (order : List (String × Manifest)) : Prop where
  nodup : order.Nodup
  mem : ∀ n m, (n, m) ∈ order ↔ Kept discovered enabledNames n m
  depsFirst : DepsFirst order

theorem KeptRequires.requires {d : String} (h : KeptRequires discovered enabledNames n d) :
    Requires discovered enabledNames n d :=
  h.elim fun m hm => ⟨m, hm.1.enabled, hm.2⟩

/-- The three results. -/
inductive Outcome (discovered : List (String × Manifest)) (enabledNames : List String) :
    Except Error (List (String × Manifest)) → Prop where
  | missing {n d : String} (hd : Requires discovered enabledNames n d) (hout : d ∉ enabledNames) :
      Outcome discovered enabledNames (.error (.missingDep n d))
  | stuck (hdeps : ¬MissingDep discovered enabledNames)
      (hstuck : KeptDangling discovered enabledNames ∨ KeptCycle discovered enabledNames) :
      Outcome discovered enabledNames (.error .cycle)
  | sorted {order : List (String × Manifest)} (hdeps : ¬MissingDep discovered enabledNames)
      (hfound : ¬KeptDangling discovered enabledNames) (hcycle : ¬KeptCycle discovered enabledNames)
      (horder : IsOrder discovered enabledNames order) :
      Outcome discovered enabledNames (.ok order)

theorem waits_graph_eq : Kahn.Waits (graph discovered enabledNames) =
    KeptRequires discovered enabledNames :=
  funext fun _ => funext fun _ => propext waits_graph

theorem closed_graph (h : ¬MissingDep discovered enabledNames) :
    Kahn.Closed (graph discovered enabledNames) ↔ ¬KeptDangling discovered enabledNames := by
  constructor
  · rintro hclosed ⟨n, d, hd, hout⟩
    exact hout (mem_nodes_graph.mp (hclosed n d (waits_graph.mpr hd))).2
  · intro hfound n d hd
    have hkept := waits_graph.mp hd
    have hin : d ∈ enabledNames := by
      by_contra hnot
      exact h ⟨n, d, hkept.requires, hnot⟩
    have hdisc : d ∈ discovered.map Prod.fst := by
      by_contra hnot
      exact hfound ⟨n, d, hkept, hnot⟩
    exact mem_nodes_graph.mpr ⟨hin, hdisc⟩

theorem acyclic_graph :
    Kahn.Acyclic (graph discovered enabledNames) ↔ ¬KeptCycle discovered enabledNames := by
  rw [Kahn.Acyclic, waits_graph_eq, KeptCycle, not_exists]

theorem isOrder_of_sort (h : Kahn.sort (graph discovered enabledNames) = some names) :
    ∃ order, fetchAll (byName discovered) names = .ok order ∧
      IsOrder discovered enabledNames order := by
  obtain ⟨hperm, hfirst⟩ := Kahn.sort_spec nodup_graph h
  have hmem : ∀ n, n ∈ names ↔ n ∈ enabledNames ∧ n ∈ discovered.map Prod.fst := fun n =>
    hperm.mem_iff.trans mem_nodes_graph
  have hfound : ∀ n ∈ names, ∃ m, (byName discovered).lookup n = some m := fun n hn =>
    exists_lookup ((hmem n).mp hn).2
  obtain ⟨order, hfetch, hnames, hrows⟩ := fetchAll_ok hfound
  refine ⟨order, hfetch, ?_, fun n m => ?_, fun before n m after hsplit d hd => ?_⟩
  · exact List.Nodup.of_map Prod.fst (hnames ▸ hperm.nodup_iff.mpr nodup_graph)
  · constructor
    · intro hin
      have hname : n ∈ names := hnames ▸ List.mem_map_of_mem hin
      exact ⟨((hmem n).mp hname).1, hrows n m hin⟩
    · rintro ⟨hn, hlookup⟩
      have hdisc := List.mem_map_of_mem (f := Prod.fst) (mem_discovered_of_lookup hlookup)
      have hname : n ∈ order.map Prod.fst := hnames ▸ (hmem n).mpr ⟨hn, hdisc⟩
      obtain ⟨⟨k, m'⟩, hin, rfl⟩ := List.mem_map.mp hname
      obtain rfl : m' = m := Option.some.inj ((hrows k m' hin).symm.trans hlookup)
      exact hin
  · have hin : (n, m) ∈ order := hsplit ▸ List.mem_append_right _ List.mem_cons_self
    have hname : n ∈ names := hnames ▸ List.mem_map_of_mem hin
    have hkept : Kept discovered enabledNames n m := ⟨((hmem n).mp hname).1, hrows n m hin⟩
    refine hfirst (before.map Prod.fst) n (after.map Prod.fst) ?_ d
      (waits_graph.mpr ⟨m, hkept, hd⟩)
    rw [← hnames, hsplit, List.map_append, List.map_cons]

theorem topoSortEnabled_of_sort_none
    (hcheck : checkDepsPresent enabledNames (enabled discovered enabledNames) = .ok ())
    (hsort : Kahn.sort (graph discovered enabledNames) = none) :
    topoSortEnabled discovered enabledNames = .error .cycle := by
  rw [graph] at hsort
  simp only [topoSortEnabled, hcheck, topoSort, hsort]

theorem topoSortEnabled_of_sort_some
    (hcheck : checkDepsPresent enabledNames (enabled discovered enabledNames) = .ok ())
    (hsort : Kahn.sort (graph discovered enabledNames) = some names) :
    topoSortEnabled discovered enabledNames = fetchAll (byName discovered) names := by
  rw [graph] at hsort
  simp only [topoSortEnabled, hcheck, topoSort, hsort]

/-- **What `topo_sort_enabled/2` returns.** -/
theorem topoSortEnabled_outcome :
    Outcome discovered enabledNames (topoSortEnabled discovered enabledNames) := by
  cases hcheck : checkDepsPresent enabledNames (enabled discovered enabledNames) with
  | error e =>
    obtain ⟨n, m, d, rfl, hmem, hd, hout⟩ := checkDepsPresent_error hcheck
    rw [topoSortEnabled, hcheck]
    exact .missing ⟨m, hmem, hd⟩ hout
  | ok _ =>
    have hdeps : ¬MissingDep discovered enabledNames := by
      rintro ⟨n, d, ⟨m, hmem, hd⟩, hout⟩
      exact hout (checkDepsPresent_ok hcheck n m hmem d hd)
    have hnodup : (Kahn.nodes (graph discovered enabledNames)).Nodup := nodup_graph
    have hsome := Kahn.sort_eq_some_iff hnodup
    rw [closed_graph hdeps, acyclic_graph] at hsome
    cases hsort : Kahn.sort (graph discovered enabledNames) with
    | none =>
      rw [topoSortEnabled_of_sort_none hcheck hsort]
      refine .stuck hdeps ?_
      by_contra hnot
      obtain ⟨order, horder⟩ := hsome.mpr (not_or.mp hnot)
      rw [hsort] at horder
      cases horder
    | some names =>
      obtain ⟨order, hfetch, horder⟩ := isOrder_of_sort hsort
      obtain ⟨hfound, hcycle⟩ := hsome.mp ⟨names, hsort⟩
      rw [topoSortEnabled_of_sort_some hcheck hsort, hfetch]
      exact .sorted hdeps hfound hcycle horder

/-! ## When the result says what is the case -/

/-- No two plugins of an enabled name were found. -/
def Distinct (discovered : List (String × Manifest)) (enabledNames : List String) : Prop :=
  ∀ n m m', (n, m) ∈ enabled discovered enabledNames →
    (n, m') ∈ enabled discovered enabledNames → m = m'

theorem hasCycle_of_kept (h : KeptCycle discovered enabledNames) :
    HasCycle discovered enabledNames :=
  h.elim fun n hn => ⟨n, hn.lift id fun _ _ => KeptRequires.requires⟩

theorem exists_kept (h : (n, m) ∈ enabled discovered enabledNames) :
    ∃ m', Kept discovered enabledNames n m' := by
  obtain ⟨hmem, hn⟩ := mem_enabled.mp h
  obtain ⟨m', hm'⟩ := exists_lookup (List.mem_map_of_mem (f := Prod.fst) hmem)
  exact ⟨m', hn, hm'⟩

theorem kept_iff (h : Distinct discovered enabledNames) :
    Kept discovered enabledNames n m ↔ (n, m) ∈ enabled discovered enabledNames := by
  constructor
  · exact Kept.enabled
  · intro hmem
    obtain ⟨m', hm'⟩ := exists_kept hmem
    exact h n m m' hmem hm'.enabled ▸ hm'

theorem requires_eq (h : Distinct discovered enabledNames) :
    Requires discovered enabledNames = KeptRequires discovered enabledNames :=
  funext fun _ => funext fun _ => propext (exists_congr fun _ => and_congr (kept_iff h).symm Iff.rfl)

theorem reports_sorted_iff {order : List (String × Manifest)}
    (hdeps : ¬MissingDep discovered enabledNames) (hfound : ¬KeptDangling discovered enabledNames)
    (hcycle : ¬KeptCycle discovered enabledNames) (h : IsOrder discovered enabledNames order) :
    Reports discovered enabledNames (.ok order) ↔ Distinct discovered enabledNames := by
  constructor
  · intro hr n m m' hm hm'
    have hlookup : ∀ m, (n, m) ∈ enabled discovered enabledNames →
        (byName discovered).lookup n = some m := fun m hm =>
      ((h.mem n m).mp (((hr.order order rfl).2.1 (n, m)).mpr hm)).2
    exact Option.some.inj ((hlookup m hm).symm.trans (hlookup m' hm'))
  · intro hd
    have hsat : Satisfied discovered enabledNames := by
      intro n d hreq
      have hkept : KeptRequires discovered enabledNames n d := requires_eq hd ▸ hreq
      refine ⟨?_, ?_⟩
      · by_contra hnot
        exact hdeps ⟨n, d, hreq, hnot⟩
      · by_contra hnot
        exact hfound ⟨n, d, hkept, hnot⟩
    have hacyclic : ¬HasCycle discovered enabledNames := by
      rw [HasCycle, requires_eq hd]
      exact hcycle
    refine ⟨⟨fun _ => ⟨hsat, hacyclic⟩, fun _ => ⟨order, rfl⟩⟩, ?_, ?_, ?_⟩
    · intro order' ho
      obtain rfl := Except.ok.inj ho
      exact ⟨h.nodup, fun ⟨n, m⟩ => (h.mem n m).trans (kept_iff hd), h.depsFirst⟩
    · rintro ⟨⟩
    · rintro e ⟨⟩

theorem reports_cycle_iff : Reports discovered enabledNames (.error .cycle) ↔
    HasCycle discovered enabledNames := by
  constructor
  · exact fun hr => hr.cycle rfl
  · intro hcycle
    refine ⟨⟨?_, fun h => absurd hcycle h.2⟩, ?_, fun _ => hcycle, ?_⟩
    · rintro ⟨order, ⟨⟩⟩
    · rintro order ⟨⟩
    · intro e he hne
      exact absurd (Except.error.inj he).symm hne

theorem reports_missing {d : String} (hd : Requires discovered enabledNames n d)
    (hout : d ∉ enabledNames) : Reports discovered enabledNames (.error (.missingDep n d)) := by
  refine ⟨⟨?_, fun h => absurd (h.1 n d hd).1 hout⟩, ?_, ?_, ?_⟩
  · rintro ⟨order, ⟨⟩⟩
  · rintro order ⟨⟩
  · rintro ⟨⟩
  · intro e he _
    exact ⟨n, d, (Except.error.inj he).symm, hd, Or.inl hout⟩

/-- **The result says what is the case exactly where** some dependency is not enabled; or
where a kept plugin with a dependency that was not found goes with a real cycle, and no
two plugins of an enabled name were found unless the kept ones cannot be ordered. -/
theorem reports_iff (discovered : List (String × Manifest)) (enabledNames : List String) :
    Reports discovered enabledNames (topoSortEnabled discovered enabledNames) ↔
      MissingDep discovered enabledNames ∨
        ((KeptDangling discovered enabledNames → HasCycle discovered enabledNames) ∧
          (Distinct discovered enabledNames ∨ KeptDangling discovered enabledNames ∨
            KeptCycle discovered enabledNames)) := by
  have hout : Outcome discovered enabledNames (topoSortEnabled discovered enabledNames) :=
    topoSortEnabled_outcome
  generalize topoSortEnabled discovered enabledNames = result at hout ⊢
  cases hout with
  | missing hd hnot => exact iff_of_true (reports_missing hd hnot) (Or.inl ⟨_, _, hd, hnot⟩)
  | stuck hdeps hstuck =>
    rw [reports_cycle_iff, or_iff_right hdeps, and_iff_left (Or.inr hstuck)]
    refine ⟨fun h _ => h, fun h => ?_⟩
    rcases hstuck with hdangling | hcycle
    · exact h hdangling
    · exact hasCycle_of_kept hcycle
  | sorted hdeps hfound hcycle horder =>
    rw [reports_sorted_iff hdeps hfound hcycle horder, or_iff_right hdeps,
      and_iff_right fun h => absurd h hfound]
    simp only [hfound, hcycle, or_false]

/-- A plugin that depends on another one. -/
def demo (name : String) (plugins : List String) : String × Manifest :=
  (name, { toManifest := Plugin.demo, plugins := plugins })

theorem topoSortEnabled_undiscovered :
    topoSortEnabled [demo "feishu" ["media"]] ["feishu", "media"] = .error .cycle := by
  have hsort : Kahn.sort (graph [demo "feishu" ["media"]] ["feishu", "media"]) = none := by
    unfold Kahn.sort
    rw [Kahn.loop]
    rfl
  exact topoSortEnabled_of_sort_none rfl hsort

/-- `feishu` depends on `media`, which is enabled and not on disk: a cycle, it says. -/
theorem not_reports_undiscovered :
    ¬Reports [demo "feishu" ["media"]] ["feishu", "media"]
      (topoSortEnabled [demo "feishu" ["media"]] ["feishu", "media"]) := by
  rw [topoSortEnabled_undiscovered, reports_cycle_iff]
  have hreq : ∀ n d, Requires [demo "feishu" ["media"]] ["feishu", "media"] n d →
      n = "feishu" ∧ d = "media" := by
    rintro n d ⟨m, hmem, hd⟩
    obtain ⟨hin, -⟩ := mem_enabled.mp hmem
    obtain ⟨rfl, rfl⟩ := Prod.mk.inj (List.mem_singleton.mp hin)
    exact ⟨rfl, List.mem_singleton.mp hd⟩
  rintro ⟨n, hn⟩
  obtain ⟨d, hfirst, -⟩ := Relation.TransGen.head'_iff.mp hn
  obtain ⟨d', -, hlast⟩ := Relation.TransGen.tail'_iff.mp hn
  have hne : "feishu" = "media" := (hreq n d hfirst).1.symm.trans (hreq d' n hlast).2
  exact absurd hne (by decide)

end
end PluginOrder
end Esr
