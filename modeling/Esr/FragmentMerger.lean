import Mathlib
import Esr.FiniteMaps
import Esr.Yaml

/-! # One map from many fragments

`Esr.Yaml.FragmentMerger` reads the fragments that the plugins contribute, one after the
other, and layers the user's override on what they hold.  A key that two of them hold is
an error, and `origins` is kept for its text alone; a file that is not there holds
nothing.  The result is the union of the fragments' maps under the override
(`mergeKeyed_isUnion`).
-/
namespace Esr
namespace FragmentMerger

open Yaml FiniteMaps

/-! ## The source -/

/-- `YamlElixir.read_from_string/1`.  A map that it returns holds no key twice. -/
structure YamlElixir (Error : Type) where
  readFromString : ByteArray → Except Error Value
  distinct : ∀ content m key es, readFromString content = .ok (.map m) →
    get key m = some (.map es) → (es.map Prod.fst).Nodup

/-- `fragment_ref()`. -/
structure FragmentRef where
  path : String
  topKey : String

/-- Why a file cannot be read: the error of `File.read/1`, or of the reader. -/
inductive ReadError (Error : Type) where
  | posix (reason : String)
  | yaml (reason : Error)

/-- `error()`. -/
inductive MergeError (Error : Type) where
  | duplicateKey (key : Value) (firstPath secondPath : String)
  | parseFailed (path : String) (reason : ReadError Error)
  | notAMap (path key : String)

variable {Error : Type}

/-- `extract_keyed/3`. -/
def extractKeyed (parsed : Value) (topKey path : String) : Except (MergeError Error) Entries :=
  match parsed with
  | .map parsed =>
      match get topKey parsed with
      | none | some .null => .ok []
      | some (.map value) => .ok value
      | some _ => .error (.notAMap path topKey)
  | _ => .error (.notAMap path "<root>")

/-- `load_keyed/2`, with `none` for `:skip`. -/
def loadKeyed (yaml : YamlElixir Error) (read : String → Except String ByteArray)
    (ref : FragmentRef) : Except (MergeError Error) (Option Entries) :=
  match read ref.path with
  | .ok content =>
      match yaml.readFromString content with
      | .ok parsed => (extractKeyed parsed ref.topKey ref.path).map some
      | .error reason => .error (.parseFailed ref.path (.yaml reason))
  | .error "enoent" => .ok none
  | .error reason => .error (.parseFailed ref.path (.posix reason))

/-- `absorb/4`. -/
def absorb (path : String) : Entries → Map Value Value → Map Value String →
    Except (MergeError Error) (Map Value Value × Map Value String)
  | [], acc, origins => .ok (acc, origins)
  | (key, value) :: contributions, acc, origins =>
      match origins.lookup key with
      | some priorPath => .error (.duplicateKey key priorPath path)
      | none => absorb path contributions (acc.insert key value) (origins.insert key path)

section
variable (yaml : YamlElixir Error) (read : String → Except String ByteArray)

/-- `merge_fragments/3`. -/
def mergeFragments : List FragmentRef → Map Value Value → Map Value String →
    Except (MergeError Error) (Map Value Value)
  | [], acc, _ => .ok acc
  | ref :: rest, acc, origins => do
      match ← loadKeyed yaml read ref with
      | some contributions =>
          let (acc, origins) ← absorb ref.path contributions acc origins
          mergeFragments rest acc origins
      | none => mergeFragments rest acc origins

/-- `apply_override/2`. -/
def applyOverride (base : Map Value Value) :
    Option FragmentRef → Except (MergeError Error) (Map Value Value)
  | none => .ok base
  | some ref => do
      match ← loadKeyed yaml read ref with
      | some overrideMap => .ok (ofRows overrideMap ∪ base)
      | none => .ok base

/-- `merge_keyed/2`. -/
def mergeKeyed (fragments : List FragmentRef) (userOverride : Option FragmentRef) :
    Except (MergeError Error) (Map Value Value) := do
  applyOverride yaml read (← mergeFragments yaml read fragments ∅ ∅) userOverride

end

/-! ## What a file contributes -/

/-- The file is not there, or is a map that holds the entries under the fragment's key. -/
inductive Holds (yaml : YamlElixir Error) (read : String → Except String ByteArray)
    (ref : FragmentRef) : Entries → Prop
  | absent (hread : read ref.path = .error "enoent") : Holds yaml read ref []
  | noKey {content : ByteArray} {parsed : Entries} (hread : read ref.path = .ok content)
      (hparsed : yaml.readFromString content = .ok (.map parsed))
      (hkey : get ref.topKey parsed = none ∨ get ref.topKey parsed = some .null) :
      Holds yaml read ref []
  | keyed {content : ByteArray} {parsed entries : Entries} (hread : read ref.path = .ok content)
      (hparsed : yaml.readFromString content = .ok (.map parsed))
      (hkey : get ref.topKey parsed = some (.map entries)) : Holds yaml read ref entries

section
variable (yaml : YamlElixir Error) (read : String → Except String ByteArray)

/-- The file is absent, or parses to a map whose top key is absent or a map. -/
def Mergeable (ref : FragmentRef) : Prop := ∃ entries, Holds yaml read ref entries

/-- The file contributes the entry. -/
def Contributes (ref : FragmentRef) (key value : Value) : Prop :=
  ∃ entries, Holds yaml read ref entries ∧ (key, value) ∈ entries

/-- The file contributes the key. -/
def HasKey (ref : FragmentRef) (key : Value) : Prop := ∃ value, Contributes yaml read ref key value

/-- The entries of a file as a map. -/
def mapOf (ref : FragmentRef) : Map Value Value :=
  match loadKeyed yaml read ref with
  | .ok (some entries) => ofRows entries
  | _ => ∅

end

section
variable {yaml : YamlElixir Error} {read : String → Except String ByteArray} {ref : FragmentRef}
  {entries : Entries}

theorem Holds.nodup (h : Holds yaml read ref entries) : (entries.map Prod.fst).Nodup := by
  rcases h with hread | ⟨hread, hparsed, hkey⟩ | ⟨hread, hparsed, hkey⟩
  · exact List.nodup_nil
  · exact List.nodup_nil
  · exact yaml.distinct _ _ _ _ hparsed hkey

theorem Holds.loadKeyed (h : Holds yaml read ref entries) :
    loadKeyed yaml read ref = .ok none ∧ entries = [] ∨
      loadKeyed yaml read ref = .ok (some entries) := by
  rcases h with hread | ⟨hread, hparsed, hkey⟩ | ⟨hread, hparsed, hkey⟩ <;>
    simp only [FragmentMerger.loadKeyed, hread]
  · exact .inl ⟨trivial, trivial⟩
  · refine .inr ?_
    rcases hkey with hkey | hkey <;> simp only [hparsed, extractKeyed, hkey] <;> rfl
  · refine .inr ?_
    simp only [hparsed, extractKeyed, hkey]
    rfl

theorem Holds.mapOf_eq (h : Holds yaml read ref entries) : mapOf yaml read ref = ofRows entries := by
  rcases h.loadKeyed with ⟨hload, rfl⟩ | hload <;> simp only [mapOf, hload]
  rfl

theorem lookup_mapOf (h : Mergeable yaml read ref) {key value : Value} :
    (mapOf yaml read ref).lookup key = some value ↔ Contributes yaml read ref key value := by
  obtain ⟨entries, h⟩ := h
  have hlookup : ∀ {entries}, Holds yaml read ref entries →
      ((mapOf yaml read ref).lookup key = some value ↔ (key, value) ∈ entries) := by
    intro entries h
    rw [h.mapOf_eq, lookup_ofRows h.nodup]
  constructor
  · intro hv
    exact ⟨entries, h, (hlookup h).mp hv⟩
  · rintro ⟨entries', h', hmem⟩
    exact (hlookup h').mpr hmem

theorem mem_mapOf (h : Mergeable yaml read ref) {key : Value} :
    key ∈ mapOf yaml read ref ↔ HasKey yaml read ref key := by
  rw [Finmap.mem_iff]
  exact exists_congr fun _ => lookup_mapOf h

/-! ## The fold -/

/-- `origins` has the keys of the map. -/
def SameKeys (acc : Map Value Value) (origins : Map Value String) : Prop :=
  ∀ key, key ∈ acc ↔ key ∈ origins

theorem SameKeys.insert {acc : Map Value Value} {origins : Map Value String}
    (h : SameKeys acc origins) (key value : Value) (path : String) :
    SameKeys (acc.insert key value) (origins.insert key path) := by
  intro a
  rw [Finmap.mem_insert, Finmap.mem_insert, h a]

theorem absorb_of_new (path : String) {entries : Entries} {acc : Map Value Value}
    {origins : Map Value String} (hnodup : (entries.map Prod.fst).Nodup)
    (hkeys : SameKeys acc origins) (hnew : ∀ e ∈ entries, e.1 ∉ acc) :
    ∃ origins', (absorb path entries acc origins : Except (MergeError Error) _) =
        .ok (acc ∪ ofRows entries, origins') ∧ SameKeys (acc ∪ ofRows entries) origins' := by
  induction entries generalizing acc origins with
  | nil =>
    rw [ofRows, Finmap.union_empty]
    exact ⟨origins, rfl, hkeys⟩
  | cons e entries ih =>
    obtain ⟨key, value⟩ := e
    obtain ⟨hnot, hrest⟩ := List.nodup_cons.mp hnodup
    have hkey : key ∉ acc := hnew _ List.mem_cons_self
    have horigin : origins.lookup key = none :=
      Finmap.lookup_eq_none.mpr fun hmem => hkey ((hkeys key).mpr hmem)
    rw [ofRows, union_insert value hkey]
    simp only [absorb, horigin]
    refine ih hrest (hkeys.insert key value path) fun e he hmem => ?_
    rcases Finmap.mem_insert.mp hmem with hkeyeq | hmem
    · exact hnot (List.mem_map.mpr ⟨e, he, hkeyeq⟩)
    · exact hnew e (List.mem_cons_of_mem _ he) hmem

theorem absorb_of_mem (path : String) {entries : Entries} {acc : Map Value Value}
    {origins : Map Value String} (hkeys : SameKeys acc origins) {e : Value × Value}
    (he : e ∈ entries) (hmem : e.1 ∈ acc) :
    ∃ reason, (absorb path entries acc origins : Except (MergeError Error) _) = .error reason := by
  induction entries generalizing acc origins with
  | nil => cases he
  | cons e' entries ih =>
    obtain ⟨key, value⟩ := e'
    rcases horigin : origins.lookup key with _ | priorPath <;> simp only [absorb, horigin]
    · have hne : e ≠ (key, value) := by
        rintro rfl
        exact Finmap.lookup_eq_none.mp horigin ((hkeys key).mp hmem)
      refine ih (hkeys.insert key value path) ?_ (Finmap.mem_insert.mpr (.inr hmem))
      exact (List.mem_cons.mp he).resolve_left hne
    · exact ⟨_, rfl⟩

theorem mergeFragments_cons {acc : Map Value Value} {origins : Map Value String}
    {rest : List FragmentRef} (h : Mergeable yaml read ref) (hkeys : SameKeys acc origins) :
    (acc.Disjoint (mapOf yaml read ref) ∧ ∃ origins',
      SameKeys (acc ∪ mapOf yaml read ref) origins' ∧
      mergeFragments yaml read (ref :: rest) acc origins =
        mergeFragments yaml read rest (acc ∪ mapOf yaml read ref) origins') ∨
    (¬ acc.Disjoint (mapOf yaml read ref) ∧
      ∃ reason, mergeFragments yaml read (ref :: rest) acc origins = .error reason) := by
  obtain ⟨entries, h⟩ := h
  rw [h.mapOf_eq]
  rcases h.loadKeyed with ⟨hload, rfl⟩ | hload
  · refine .inl ⟨?_, origins, ?_, ?_⟩
    · exact fun key _ hmem => Finmap.notMem_empty hmem
    · rw [ofRows, Finmap.union_empty]
      exact hkeys
    · rw [ofRows, Finmap.union_empty, mergeFragments, hload]
      rfl
  · by_cases hdisjoint : acc.Disjoint (ofRows entries)
    · have hnew : ∀ e ∈ entries, e.1 ∉ acc := fun e he hmem =>
        hdisjoint e.1 hmem (mem_ofRows.mpr (List.mem_map_of_mem he))
      obtain ⟨origins', habsorb, hkeys'⟩ := @absorb_of_new Error ref.path _ _ _ h.nodup hkeys hnew
      refine .inl ⟨hdisjoint, origins', hkeys', ?_⟩
      rw [mergeFragments, hload]
      simp only [bind, Except.bind, habsorb]
    · obtain ⟨key, hacc, hmem⟩ : ∃ key ∈ acc, key ∈ ofRows entries := by
        simpa [Finmap.Disjoint] using hdisjoint
      obtain ⟨e, he, rfl⟩ := List.mem_map.mp (mem_ofRows.mp hmem)
      obtain ⟨reason, habsorb⟩ := @absorb_of_mem Error ref.path _ _ _ hkeys _ he hacc
      refine .inr ⟨hdisjoint, reason, ?_⟩
      rw [mergeFragments, hload]
      simp only [bind, Except.bind, habsorb]

/-- **The fold unites maps that share no key, and stops at the first key that is there
already.** -/
theorem mergeFragments_iff {fragments : List FragmentRef}
    (hfragments : ∀ ref ∈ fragments, Mergeable yaml read ref) {acc m : Map Value Value}
    {origins : Map Value String} (hkeys : SameKeys acc origins) :
    mergeFragments yaml read fragments acc origins = .ok m ↔
      (acc :: fragments.map (mapOf yaml read)).Pairwise Finmap.Disjoint ∧
        m = acc ∪ unions (fragments.map (mapOf yaml read)) := by
  induction fragments generalizing acc origins with
  | nil => simp [mergeFragments, unions, eq_comm]
  | cons ref rest ih =>
    obtain ⟨hhead, hrest⟩ := List.forall_mem_cons.mp hfragments
    rw [List.map_cons, List.pairwise_cons, List.forall_mem_cons]
    rcases @mergeFragments_cons _ _ _ _ _ _ rest hhead hkeys with
      ⟨hdisjoint, origins', hkeys', hmerge⟩ | ⟨hshared, reason, hmerge⟩
    · rw [hmerge, ih hrest hkeys', unions, Finmap.union_assoc, List.pairwise_cons,
        List.pairwise_cons]
      refine and_congr_left fun _ => ?_
      simp only [Finmap.disjoint_union_left, forall₂_and]
      tauto
    · rw [hmerge]
      constructor
      · intro h
        cases h
      · rintro ⟨⟨⟨hdisjoint, -⟩, -⟩, -⟩
        exact absurd hdisjoint hshared

theorem applyOverride_eq {userOverride : Option FragmentRef}
    (hoverride : ∀ ref ∈ userOverride, Mergeable yaml read ref) (base : Map Value Value) :
    applyOverride yaml read base userOverride =
      .ok (((userOverride.map (mapOf yaml read)).getD ∅) ∪ base) := by
  rcases userOverride with _ | ref
  · rw [Option.map_none, Option.getD_none, Finmap.empty_union]
    rfl
  · obtain ⟨entries, h⟩ := hoverride ref rfl
    rw [Option.map_some, Option.getD_some, h.mapOf_eq]
    rcases h.loadKeyed with ⟨hload, rfl⟩ | hload <;> rw [applyOverride, hload]
    · rw [ofRows, Finmap.empty_union]
      rfl
    · rfl

theorem mergeKeyed_iff {fragments : List FragmentRef} {userOverride : Option FragmentRef}
    (hfragments : ∀ ref ∈ fragments, Mergeable yaml read ref)
    (hoverride : ∀ ref ∈ userOverride, Mergeable yaml read ref) {m : Map Value Value} :
    mergeKeyed yaml read fragments userOverride = .ok m ↔
      (fragments.map (mapOf yaml read)).Pairwise Finmap.Disjoint ∧
        m = ((userOverride.map (mapOf yaml read)).getD ∅) ∪
          unions (fragments.map (mapOf yaml read)) := by
  have hfold : ∀ base, mergeFragments yaml read fragments ∅ ∅ = .ok base ↔
      (fragments.map (mapOf yaml read)).Pairwise Finmap.Disjoint ∧
        base = unions (fragments.map (mapOf yaml read)) := by
    intro base
    rw [mergeFragments_iff hfragments (fun _ => Iff.rfl), List.pairwise_cons, Finmap.empty_union]
    refine and_congr_left fun _ => and_iff_right fun m' _ key hmem => ?_
    exact absurd hmem Finmap.notMem_empty
  rw [mergeKeyed]
  rcases hmerge : mergeFragments yaml read fragments ∅ ∅ with reason | base
  · constructor
    · intro h
      cases h
    · rintro ⟨hdisjoint, -⟩
      rw [(hfold _).mpr ⟨hdisjoint, rfl⟩] at hmerge
      cases hmerge
  · obtain ⟨hdisjoint, rfl⟩ := (hfold base).mp hmerge
    have hbind : (Except.ok (unions (fragments.map (mapOf yaml read))) >>= fun base =>
        applyOverride yaml read base userOverride) =
        applyOverride yaml read (unions (fragments.map (mapOf yaml read))) userOverride := rfl
    rw [hbind, applyOverride_eq hoverride, and_iff_right hdisjoint, Except.ok.injEq, eq_comm]

theorem disjoint_mapOf {ref ref' : FragmentRef} (h : Mergeable yaml read ref)
    (h' : Mergeable yaml read ref') :
    Finmap.Disjoint (mapOf yaml read ref) (mapOf yaml read ref') ↔
      ∀ key, ¬ (HasKey yaml read ref key ∧ HasKey yaml read ref' key) := by
  refine forall_congr' fun key => ?_
  rw [mem_mapOf h, mem_mapOf h', not_and]

theorem pairwise_mapOf {fragments : List FragmentRef}
    (hfragments : ∀ ref ∈ fragments, Mergeable yaml read ref) :
    (fragments.map (mapOf yaml read)).Pairwise Finmap.Disjoint ↔
      fragments.Pairwise fun ref ref' =>
        ∀ key, ¬ (HasKey yaml read ref key ∧ HasKey yaml read ref' key) := by
  rw [List.pairwise_map]
  exact List.Pairwise.iff_of_mem fun href href' =>
    disjoint_mapOf (hfragments _ href) (hfragments _ href')

/-- **The merge of mergeable files is their disjoint union under the override.**  It
succeeds exactly when no two fragments contribute the same key; it holds what the override
contributes, and under the other keys what the fragments do; and neither depends on the
order of the fragments. -/
theorem mergeKeyed_isUnion {fragments : List FragmentRef} {userOverride : Option FragmentRef}
    (hfragments : ∀ ref ∈ fragments, Mergeable yaml read ref)
    (hoverride : ∀ ref ∈ userOverride, Mergeable yaml read ref) :
    ((∃ m, mergeKeyed yaml read fragments userOverride = .ok m) ↔
      fragments.Pairwise fun ref ref' =>
        ∀ key, ¬ (HasKey yaml read ref key ∧ HasKey yaml read ref' key)) ∧
    (∀ m, mergeKeyed yaml read fragments userOverride = .ok m → ∀ key value,
      m.lookup key = some value ↔
        (∃ ref ∈ userOverride, Contributes yaml read ref key value) ∨
        (∀ ref ∈ userOverride, ¬ HasKey yaml read ref key) ∧
          ∃ ref ∈ fragments, Contributes yaml read ref key value) ∧
    ∀ fragments' : List FragmentRef, fragments.Perm fragments' → ∀ m,
      mergeKeyed yaml read fragments userOverride = .ok m ↔
        mergeKeyed yaml read fragments' userOverride = .ok m := by
  have hmerge := fun m => mergeKeyed_iff hfragments hoverride (m := m)
  refine ⟨?_, fun m hm key value => ?_, fun fragments' hperm m => ?_⟩
  · rw [exists_congr hmerge, exists_and_left, and_iff_left ⟨_, rfl⟩]
    exact pairwise_mapOf hfragments
  · obtain ⟨hdisjoint, rfl⟩ := (hmerge m).mp hm
    have hunions : (unions (fragments.map (mapOf yaml read))).lookup key = some value ↔
        ∃ ref ∈ fragments, Contributes yaml read ref key value := by
      rw [lookup_unions hdisjoint]
      simp only [List.mem_map, exists_exists_and_eq_and]
      exact exists_congr fun ref => and_congr_right fun href => lookup_mapOf (hfragments ref href)
    rcases userOverride with _ | ref
    · simp only [Option.map_none, Option.getD_none, Finmap.empty_union, hunions]
      simp
    · have href := hoverride ref rfl
      simp only [Option.map_some, Option.getD_some, Finmap.mem_lookup_union', Option.mem_def,
        hunions, lookup_mapOf href, mem_mapOf href]
      simp
  · have hfragments' : ∀ ref ∈ fragments', Mergeable yaml read ref :=
      fun ref href => hfragments ref (hperm.mem_iff.mpr href)
    have hmaps := hperm.map (mapOf yaml read)
    rw [hmerge m, mergeKeyed_iff hfragments' hoverride,
      hmaps.pairwise_iff fun h => Finmap.Disjoint.symm _ _ h]
    refine and_congr_right fun hdisjoint => ?_
    rw [unions_perm hmaps.symm hdisjoint]

end

/-! ## Two fragments and an override -/

/-- The files of two plugins and of a user who overrides one of them. -/
def sampleFiles : String → Except String ByteArray
  | "a.yaml" => .ok "agents:\n  alpha: A\n".toUTF8
  | "b.yaml" => .ok "agents:\n  beta: B\n".toUTF8
  | "user.yaml" => .ok "agents:\n  beta: C\n".toUTF8
  | _ => .error "enoent"

/-- What the reader gives for these files. -/
def sampleRead (content : ByteArray) : Except String Value :=
  if content = "agents:\n  alpha: A\n".toUTF8 then
    .ok (.map [(.str "agents", .map [(.str "alpha", .str "A")])])
  else if content = "agents:\n  beta: B\n".toUTF8 then
    .ok (.map [(.str "agents", .map [(.str "beta", .str "B")])])
  else if content = "agents:\n  beta: C\n".toUTF8 then
    .ok (.map [(.str "agents", .map [(.str "beta", .str "C")])])
  else .error "not one of these files"

def sampleYaml : YamlElixir String where
  readFromString := sampleRead
  distinct content m key es h hkey := by
    have hone : ∀ k v w : String,
        Yaml.get key [(.str k, .map [(.str v, .str w)])] = some (.map es) →
        (es.map Prod.fst).Nodup := by
      intro k v w h
      rw [get_cons] at h
      by_cases hk : (Value.str k).isStr key = true
      · rw [if_pos hk] at h
        obtain rfl := Value.map.inj (Option.some.inj h)
        exact List.nodup_singleton _
      · rw [if_neg hk] at h
        cases h
    rw [sampleRead] at h
    split_ifs at h <;> obtain rfl := Value.map.inj (Except.ok.inj h) <;> exact hone _ _ _ hkey

theorem mergeKeyed_isUnion_sample :
    ∃ m, mergeKeyed sampleYaml sampleFiles
        [⟨"a.yaml", "agents"⟩, ⟨"ghost.yaml", "agents"⟩, ⟨"b.yaml", "agents"⟩]
        (some ⟨"user.yaml", "agents"⟩) = .ok m ∧ m.lookup (.str "beta") = some (.str "C") := by
  have hreadA : sampleRead "agents:\n  alpha: A\n".toUTF8 =
      .ok (.map [(.str "agents", .map [(.str "alpha", .str "A")])]) := if_pos rfl
  have hreadB : sampleRead "agents:\n  beta: B\n".toUTF8 =
      .ok (.map [(.str "agents", .map [(.str "beta", .str "B")])]) := by
    rw [sampleRead, if_neg (by decide), if_pos rfl]
  have hreadC : sampleRead "agents:\n  beta: C\n".toUTF8 =
      .ok (.map [(.str "agents", .map [(.str "beta", .str "C")])]) := by
    rw [sampleRead, if_neg (by decide), if_neg (by decide), if_pos rfl]
  have halpha : Holds sampleYaml sampleFiles ⟨"a.yaml", "agents"⟩ [(.str "alpha", .str "A")] :=
    .keyed rfl hreadA rfl
  have hghost : Holds sampleYaml sampleFiles ⟨"ghost.yaml", "agents"⟩ [] := .absent rfl
  have hbeta : Holds sampleYaml sampleFiles ⟨"b.yaml", "agents"⟩ [(.str "beta", .str "B")] :=
    .keyed rfl hreadB rfl
  have huser : Holds sampleYaml sampleFiles ⟨"user.yaml", "agents"⟩ [(.str "beta", .str "C")] :=
    .keyed rfl hreadC rfl
  have hfragments : ∀ ref ∈ [⟨"a.yaml", "agents"⟩, ⟨"ghost.yaml", "agents"⟩,
      ⟨"b.yaml", "agents"⟩], Mergeable sampleYaml sampleFiles ref := by
    rw [List.forall_mem_cons, List.forall_mem_cons, List.forall_mem_singleton]
    exact ⟨⟨_, halpha⟩, ⟨_, hghost⟩, _, hbeta⟩
  have hoverride : ∀ ref ∈ some ⟨"user.yaml", "agents"⟩, Mergeable sampleYaml sampleFiles ref := by
    rintro _ ⟨⟩
    exact ⟨_, huser⟩
  obtain ⟨hsuccess, hlookup, -⟩ := mergeKeyed_isUnion hfragments hoverride
  have hdisjoint : ([⟨"a.yaml", "agents"⟩, ⟨"ghost.yaml", "agents"⟩, ⟨"b.yaml", "agents"⟩].map
      (mapOf sampleYaml sampleFiles)).Pairwise Finmap.Disjoint := by
    simp only [List.map, halpha.mapOf_eq, hghost.mapOf_eq, hbeta.mapOf_eq]
    decide
  obtain ⟨m, hm⟩ := hsuccess.mpr ((pairwise_mapOf hfragments).mp hdisjoint)
  exact ⟨m, hm, (hlookup m hm _ _).mpr (.inl ⟨_, rfl, _, huser, List.mem_cons_self⟩)⟩

end FragmentMerger
end Esr
