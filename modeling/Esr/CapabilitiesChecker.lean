import Esr.CapabilityFile

/-! # The adapter's copy of `capabilities.yaml`

`CapabilitiesChecker.reload` reads the file that `FileLoader` loads and keeps a
snapshot of its own, so that an adapter can decide about a principal without
asking the runtime.  It takes every entry that has an id and does not look at what
the capabilities are, where the loader refuses the whole file for one bad entry.

`agree_iff` says when the two hold the same principals with the same lists
afterwards.
-/
namespace Esr
namespace CapabilitiesChecker
open Yaml

/-- What reading and parsing the file can raise.  Only `yaml.YAMLError` is caught. -/
inductive ReadError where
  | yamlError
  | uncaught
  deriving DecidableEq

/-- The truth value of a parsed object. -/
def truthy : Value → Bool
  | .null => false
  | .bool b => b
  | .int n => n ≠ 0
  | .float text => text ≠ "0.0" && text ≠ "-0.0"
  | .str s => s ≠ ""
  | .list l => !l.isEmpty
  | .map m => !m.isEmpty

/-- `v or default`. -/
def orDefault (v default : Value) : Value := if truthy v then v else default

/-- `list(v)`, which is also what a `for` runs over; `none` is a `TypeError`. -/
def iter : Value → Option (List Value)
  | .str s => some (s.toList.map fun c => .str (String.singleton c))
  | .list l => some l
  | .map m => some (m.map Prod.fst)
  | _ => none

/-- The object can be the key of a `dict`. -/
def hashable : Value → Bool
  | .list _ | .map _ => false
  | _ => true

/-- A `dict` as the assignments that built it, in order.  Only texts are looked
up in it, and a text equals no object but itself. -/
abbrev Snapshot := List (Value × List Value)

/-- `self._snapshot.get(principal_id)`: the last assignment to the key. -/
def Snapshot.held (s : Snapshot) (principalId : String) : Option (List Value) :=
  (s.reverse.find? fun row => row.1.isStr principalId).map Prod.snd

/-- `entry["id"]`, with `none` for an entry the comprehension passes over. -/
def idOf : Value → Option Value
  | .map m => get "id" m
  | _ => none

/-- `list(entry.get("capabilities", []))`. -/
def capabilitiesOf : Value → Option (List Value)
  | .map m => iter ((get "capabilities" m).getD (.list []))
  | _ => none

/-- The comprehension over the entries, `none` where an entry raises. -/
def snapshotOf : List Value → Option Snapshot
  | [] => some []
  | entry :: rest =>
      match idOf entry with
      | none => snapshotOf rest
      | some id =>
          (capabilitiesOf entry).bind fun held =>
            if hashable id then (snapshotOf rest).map fun s => (id, held) :: s else none

/-- `doc.get("principals") or []`, run over. -/
def principals (doc : Value) : Option (List Value) :=
  match orDefault doc (.map []) with
  | .map m => iter (orDefault ((get "principals" m).getD .null) (.list []))
  | _ => none

/-- The checker: its snapshot, and the modification time it was read at. -/
structure Checker (Mtime : Type) where
  snapshot : Snapshot
  mtime : Option Mtime

variable {Mtime : Type} [DecidableEq Mtime]

/-- `reload/0` on a file that does not exist, or on one with its modification time.
An exception leaves both fields as they were. -/
def reload (safeLoad : ByteArray → Except ReadError Value)
    (file : Option (ByteArray × Mtime)) (c : Checker Mtime) : Checker Mtime :=
  match file with
  | none => ⟨[], none⟩
  | some (bytes, mtime) =>
      if c.mtime = some mtime then c
      else
        match safeLoad bytes with
        | .error .yamlError => { c with mtime := some mtime }
        | .error .uncaught => c
        | .ok doc =>
            match (principals doc).bind snapshotOf with
            | none => c
            | some snapshot => ⟨snapshot, some mtime⟩

/-- The runtime's table and the adapter's snapshot hold the same principals, each
with the same list of capability strings. -/
def Same (t : Grants.Table) (s : Snapshot) : Prop :=
  (∀ row ∈ s, isText row.1 = true) ∧
    ∀ p, s.held p = (t.lookup p).map fun held => held.map Value.str

/-! ## What the file says -/

/-- The entries the adapter runs over; none where it raises first. -/
def entries (doc : Value) : List Value := (principals doc).getD []

/-- The entry is one of the principal. -/
def isFor (p : String) (entry : Value) : Bool := (idOf entry).any (Value.isStr p)

/-- The last entry of the principal. -/
def lastFor (p : String) (es : List Value) : Option Value := es.reverse.find? (isFor p)

/-- An entry on which the comprehension raises: an id that cannot be a key, or
capabilities that cannot be listed. -/
def EntryRaises (entry : Value) : Prop :=
  ∃ id, idOf entry = some id ∧ (hashable id = false ∨ capabilitiesOf entry = none)

/-- A document on which `reload` raises. -/
def Raises (doc : Value) : Prop :=
  principals doc = none ∨ ∃ entry ∈ entries doc, EntryRaises entry

/-- An entry that passes every check of the runtime's loader. -/
def EntryPasses (rt : CapRuntime) (entry : Value) : Prop :=
  ∃ m pid held, entry = .map m ∧ get "id" m = some (.str pid) ∧ pid ≠ "system:bootstrap" ∧
    get "capabilities" m = some (.list (List.map Value.str held)) ∧
    ∀ cap ∈ held, FileLoader.validateCap rt cap pid = .ok ()

/-- A document that passes every check of the runtime's loader. -/
def Passes (rt : CapRuntime) (doc : Value) : Prop :=
  ∃ m, doc = .map m ∧
    (get "principals" m = some (.map []) ∨
      ∃ es, (get "principals" m).getD (.list []) = .list es ∧ ∀ entry ∈ es, EntryPasses rt entry)

/-- The file lists what the table holds: every id is a text, and the last entry
of a principal lists what the table has for it. -/
def Lists (doc : Value) (t : Grants.Table) : Prop :=
  (∀ entry ∈ entries doc, ∀ id, idOf entry = some id → isText id = true) ∧
    ∀ p, (lastFor p (entries doc)).map capabilitiesOf =
      (t.lookup p).map fun held => some (held.map Value.str)

/-! ## The comprehension -/

@[simp] theorem snapshotOf_nil : snapshotOf [] = some [] := rfl

variable {entry doc : Value} {s : Snapshot} {es : List Value} {t t' : Grants.Table}

theorem snapshotOf_skip (h : idOf entry = none) (rest : List Value) :
    snapshotOf (entry :: rest) = snapshotOf rest := by
  rw [snapshotOf, h]

theorem snapshotOf_cons_eq_some {id : Value} (h : idOf entry = some id) {rest : List Value} :
    snapshotOf (entry :: rest) = some s ↔
      ∃ held s', hashable id = true ∧ capabilitiesOf entry = some held ∧
        snapshotOf rest = some s' ∧ s = (id, held) :: s' := by
  have hcons : snapshotOf (entry :: rest) = (capabilitiesOf entry).bind fun held =>
      if hashable id then (snapshotOf rest).map fun s => (id, held) :: s else none := by
    rw [snapshotOf, h]
  rw [hcons, Option.bind_eq_some_iff]
  constructor
  · rintro ⟨held, hheld, hs⟩
    split at hs
    · rename_i hhash
      obtain ⟨s', hs', rfl⟩ := Option.map_eq_some_iff.mp hs
      exact ⟨held, s', hhash, hheld, hs', rfl⟩
    · cases hs
  · rintro ⟨held, s', hhash, hheld, hs', rfl⟩
    exact ⟨held, hheld, by rw [if_pos hhash, hs', Option.map_some]⟩

theorem snapshotOf_isSome_iff :
    (∃ s, snapshotOf es = some s) ↔ ¬ ∃ entry ∈ es, EntryRaises entry := by
  induction es with
  | nil => simp
  | cons entry rest ih =>
    cases hid : idOf entry with
    | none =>
      have hquiet : ¬ EntryRaises entry := by
        rintro ⟨id, hsome, -⟩
        rw [hid] at hsome
        cases hsome
      rw [snapshotOf_skip hid, ih]
      simp [hquiet]
    | some id =>
      have hraise : EntryRaises entry ↔ hashable id = false ∨ capabilitiesOf entry = none := by
        simp [EntryRaises, hid]
      constructor
      · rintro ⟨s, hs⟩ ⟨e, he, hr⟩
        obtain ⟨held, s', hhash, hcaps, hrest, -⟩ := (snapshotOf_cons_eq_some hid).mp hs
        rcases List.mem_cons.mp he with rfl | he
        · rcases hraise.mp hr with hno | hno
          · simp [hhash] at hno
          · simp [hcaps] at hno
        · exact ih.mp ⟨s', hrest⟩ ⟨e, he, hr⟩
      · intro hquiet
        have hhead : ¬ EntryRaises entry := fun hr => hquiet ⟨entry, List.mem_cons_self, hr⟩
        rw [hraise, not_or] at hhead
        obtain ⟨s', hs'⟩ := ih.mpr fun ⟨e, he, hr⟩ => hquiet ⟨e, List.mem_cons_of_mem _ he, hr⟩
        obtain ⟨held, hheld⟩ := Option.ne_none_iff_exists'.mp hhead.2
        exact ⟨_, (snapshotOf_cons_eq_some hid).mpr
          ⟨held, s', by simpa using hhead.1, hheld, hs', rfl⟩⟩

theorem held_cons (row : Value × List Value) (s : Snapshot) (p : String) :
    Snapshot.held (row :: s) p = (s.held p).or (if row.1.isStr p then some row.2 else none) := by
  unfold Snapshot.held
  rw [List.reverse_cons, List.find?_append]
  cases hf : s.reverse.find? fun row => row.1.isStr p with
  | some r => simp
  | none => cases hrow : row.1.isStr p <;> simp [hrow]

theorem lastFor_cons (p : String) (entry : Value) (es : List Value) :
    lastFor p (entry :: es) = (lastFor p es).or (if isFor p entry then some entry else none) := by
  unfold lastFor
  rw [List.reverse_cons, List.find?_append]
  cases hf : es.reverse.find? (isFor p) with
  | some r => simp
  | none => cases hentry : isFor p entry <;> simp [hentry]

/-- What the comprehension holds for a principal is what its last entry lists, and
its keys are the ids met. -/
theorem snapshotOf_spec (h : snapshotOf es = some s) :
    (∀ p, (lastFor p es).map capabilitiesOf = (s.held p).map some) ∧
      ((∀ row ∈ s, isText row.1 = true) ↔
        ∀ entry ∈ es, ∀ id, idOf entry = some id → isText id = true) := by
  induction es generalizing s with
  | nil =>
    obtain rfl := Option.some.inj h
    exact ⟨fun p => rfl, by simp⟩
  | cons entry rest ih =>
    cases hid : idOf entry with
    | none =>
      rw [snapshotOf_skip hid] at h
      obtain ⟨hheld, hkeys⟩ := ih h
      refine ⟨fun p => ?_, ?_⟩
      · simp [lastFor_cons, isFor, hid, hheld p]
      · rw [hkeys, List.forall_mem_cons, hid]
        simp only [reduceCtorEq, false_implies, implies_true, true_and]
    | some id =>
      obtain ⟨held, s', hhash, hcaps, hrest, rfl⟩ := (snapshotOf_cons_eq_some hid).mp h
      obtain ⟨hheld, hkeys⟩ := ih hrest
      refine ⟨fun p => ?_, ?_⟩
      · rw [lastFor_cons, held_cons]
        have hp := hheld p
        cases hl : lastFor p rest with
        | some e =>
          rw [hl] at hp
          cases hs : s'.held p with
          | none => simp [hs] at hp
          | some c => simpa [hs] using hp
        | none =>
          rw [hl] at hp
          cases hs : s'.held p with
          | some c => simp [hs] at hp
          | none =>
            cases hstr : id.isStr p with
            | true => simp [isFor, hid, hstr, hcaps]
            | false => simp [isFor, hid, hstr]
      · rw [List.forall_mem_cons, List.forall_mem_cons, hkeys, hid]
        simp only [Option.some.injEq, forall_eq']

/-- The adapter's snapshot of the file agrees with a table exactly where the file
lists what the table holds. -/
theorem same_snapshotOf_iff (h : (principals doc).bind snapshotOf = some s) :
    Same t s ↔ Lists doc t := by
  obtain ⟨es, hes, hs⟩ := Option.bind_eq_some_iff.mp h
  obtain ⟨hheld, hkeys⟩ := snapshotOf_spec hs
  have hentries : entries doc = es := by rw [entries, hes]; rfl
  unfold Same Lists
  rw [hentries, hkeys]
  refine and_congr_right fun _ => forall_congr' fun p => ?_
  rw [hheld p]
  cases s.held p with
  | none => cases t.lookup p <;> simp
  | some caps => cases t.lookup p <;> simp

theorem raises_iff : Raises doc ↔ (principals doc).bind snapshotOf = none := by
  unfold Raises entries
  cases hp : principals doc with
  | none => simp
  | some es =>
    have hsome : (∃ s, snapshotOf es = some s) ↔ ¬ ∃ entry ∈ es, EntryRaises entry :=
      snapshotOf_isSome_iff
    cases hs : snapshotOf es with
    | none =>
      rw [hs] at hsome
      have hraise : ∃ entry ∈ es, EntryRaises entry := by simpa using hsome
      simpa [hs] using hraise
    | some s =>
      rw [hs] at hsome
      have hquiet : ¬ ∃ entry ∈ es, EntryRaises entry := hsome.mp ⟨s, rfl⟩
      simpa [hs] using hquiet

/-! ## The runtime's loader beside it -/

variable {rt : CapRuntime}

/-- The rows of a file as the adapter writes them. -/
def asRows (rows : List (String × List String)) : Snapshot :=
  rows.map fun row => (.str row.1, row.2.map Value.str)

theorem same_asRows (rows : List (String × List String)) :
    Same (Ets.empty.insertEach rows) (asRows rows) := by
  constructor
  · intro row hrow
    obtain ⟨row, -, rfl⟩ := List.mem_map.mp hrow
    rfl
  · intro p
    have hkey : ((fun row : Value × List Value => row.1.isStr p) ∘
        fun row : String × List String => (.str row.1, row.2.map Value.str)) =
        fun row => decide (row.1 = p) := by
      funext row
      exact Bool.beq_eq_decide_eq row.1 p
    unfold Snapshot.held asRows
    rw [Ets.lookup_insertEach, Ets.lookup_empty, Option.or_none, ← List.map_reverse,
      List.find?_map, hkey]
    cases rows.reverse.find? fun row => decide (row.1 = p) <;> rfl

theorem snapshotOf_of_rows {rows : List (String × List String)}
    (h : List.Forall₂ (fun entry row => FileLoader.validateEntry rt entry = .ok row) es rows) :
    snapshotOf es = some (asRows rows) := by
  induction h with
  | nil => rfl
  | @cons entry row es rows hrow _ ih =>
    obtain ⟨pid, held⟩ := row
    obtain ⟨m, rfl, hid, -, hcaps, -⟩ := FileLoader.validateEntry_eq_ok.mp hrow
    have hlist : capabilitiesOf (.map m) = some (held.map Value.str) := by
      simp [capabilitiesOf, hcaps, iter]
    have hkey : idOf (.map m) = some (.str pid) := hid
    exact (snapshotOf_cons_eq_some hkey).mpr ⟨_, _, rfl, hlist, ih, rfl⟩

theorem principals_map (m : Entries) :
    principals (.map m) = iter (orDefault ((get "principals" m).getD .null) (.list [])) := by
  cases m <;> rfl

theorem orDefault_list (es : List Value) : orDefault (.list es) (.list []) = .list es := by
  cases es <;> rfl

theorem entryPasses_iff :
    EntryPasses rt entry ↔ ∃ row, FileLoader.validateEntry rt entry = .ok row := by
  constructor
  · rintro ⟨m, pid, held, hentry⟩
    exact ⟨(pid, held), FileLoader.validateEntry_eq_ok.mpr ⟨m, hentry⟩⟩
  · rintro ⟨⟨pid, held⟩, hrow⟩
    obtain ⟨m, hentry⟩ := FileLoader.validateEntry_eq_ok.mp hrow
    exact ⟨m, pid, held, hentry⟩

theorem forall_passes_iff :
    (∀ entry ∈ es, EntryPasses rt entry) ↔ ∃ rows, List.Forall₂
      (fun entry row => FileLoader.validateEntry rt entry = .ok row) es rows := by
  induction es with
  | nil => exact ⟨fun _ => ⟨[], .nil⟩, fun _ => by simp⟩
  | cons entry es ih =>
    rw [List.forall_mem_cons, ih, entryPasses_iff]
    constructor
    · rintro ⟨⟨row, hrow⟩, rows, hrows⟩
      exact ⟨row :: rows, .cons hrow hrows⟩
    · rintro ⟨rows, hrows⟩
      cases hrows with
      | cons hrow hrest => exact ⟨⟨_, hrow⟩, _, hrest⟩

theorem loaded_of_passes (h : Passes rt doc) :
    ∃ t s, FileLoader.validate rt doc = .ok t ∧ (principals doc).bind snapshotOf = some s ∧
      Same t s := by
  obtain ⟨m, rfl, hnone | ⟨es, hes, hall⟩⟩ := h
  · refine ⟨Ets.empty, [], ?_, ?_, by simp, fun p => by simp [Snapshot.held]⟩
    · simp [FileLoader.validate, hnone]
    · rw [principals_map, hnone]
      rfl
  · obtain ⟨rows, hrows⟩ := forall_passes_iff.mp hall
    refine ⟨Ets.empty.insertEach rows, asRows rows, ?_, ?_, same_asRows rows⟩
    · simp only [FileLoader.validate, hes]
      exact FileLoader.validateEntries_eq_ok.mpr ⟨rows, hrows, rfl⟩
    · have hiter : principals (.map m) = some es := by
        rw [principals_map]
        cases hp : get "principals" m with
        | none =>
          rw [hp] at hes
          obtain rfl : [] = es := Value.list.inj hes
          rfl
        | some v =>
          rw [hp] at hes
          obtain rfl : v = .list es := hes
          exact congrArg iter (orDefault_list es)
      rw [hiter, Option.bind_some, snapshotOf_of_rows hrows]

theorem passes_of_loaded (h : FileLoader.validate rt doc = .ok t) : Passes rt doc := by
  unfold FileLoader.validate at h
  split at h
  · rename_i m
    refine ⟨m, rfl, ?_⟩
    split at h
    · rename_i es hes
      obtain ⟨rows, hrows, -⟩ := FileLoader.validateEntries_eq_ok.mp h
      exact Or.inr ⟨es, hes, forall_passes_iff.mpr ⟨rows, hrows⟩⟩
    · rename_i hes
      refine Or.inl ?_
      cases hp : get "principals" m with
      | none => simp [hp] at hes
      | some v => simpa [hp] using hes
    · cases h
    · cases h
  · cases h

theorem tableAfter_of_not_passes {bytes : ByteArray} (hrt : rt.readFromFile bytes = .ok doc)
    (h : ¬ Passes rt doc) :
    FileLoader.tableAfter rt (some bytes) t = t := by
  have hload : FileLoader.load rt (some bytes) = FileLoader.validate rt doc := by
    simp only [FileLoader.load, hrt]
  unfold FileLoader.tableAfter
  rw [hload]
  cases hv : FileLoader.validate rt doc with
  | ok t' => exact absurd (passes_of_loaded hv) h
  | error e => rfl

theorem tableAfter_of_validate {bytes : ByteArray} (hrt : rt.readFromFile bytes = .ok doc)
    (h : FileLoader.validate rt doc = .ok t') :
    FileLoader.tableAfter rt (some bytes) t = t' := by
  simp only [FileLoader.tableAfter, FileLoader.load, hrt, h]

theorem Same.congr (h : Same t s) (he : ∀ p, t'.lookup p = t.lookup p) : Same t' s :=
  ⟨h.1, fun p => by rw [h.2 p, he p]⟩

theorem Same.lookup_eq (h : Same t s) (h' : Same t' s) (p : String) : t'.lookup p = t.lookup p := by
  have hstr : Function.Injective Value.str := fun a b he => Value.str.inj he
  have hmap := (h'.2 p).symm.trans (h.2 p)
  exact Option.map_injective (List.map_injective_iff.mpr hstr) hmap

variable {safeLoad : ByteArray → Except ReadError Value} {bytes : ByteArray} {doc : Value}
  {t : Grants.Table} {c : Checker Mtime} {mtime : Mtime}

theorem reload_of_unchanged (h : c.mtime = some mtime) :
    reload safeLoad (some (bytes, mtime)) c = c := by
  simp only [reload, h, if_pos]

theorem reload_snapshot (hne : c.mtime ≠ some mtime) (hpy : safeLoad bytes = .ok doc) :
    (reload safeLoad (some (bytes, mtime)) c).snapshot =
      ((principals doc).bind snapshotOf).getD c.snapshot := by
  simp only [reload, if_neg hne, hpy]
  cases (principals doc).bind snapshotOf <;> rfl

/-- The runtime's table and the adapter's snapshot, the same before both read the
file, are the same afterwards exactly where the file lists what was held already;
or where the adapter does not read the file again and the loader refuses it; or
where the adapter reads it, and the loader accepts it or the adapter raises on it. -/
theorem agree_iff (hrt : rt.readFromFile bytes = .ok doc) (hpy : safeLoad bytes = .ok doc)
    (h : Same t c.snapshot) :
    Same (FileLoader.tableAfter rt (some bytes) t)
        (reload safeLoad (some (bytes, mtime)) c).snapshot ↔
      Lists doc t ∨ (c.mtime = some mtime ∧ ¬ Passes rt doc) ∨
        (c.mtime ≠ some mtime ∧ (Passes rt doc ∨ Raises doc)) := by
  by_cases hpass : Passes rt doc
  · obtain ⟨t', s, hload, hs, hsame⟩ := loaded_of_passes hpass
    rw [tableAfter_of_validate hrt hload]
    by_cases hgate : c.mtime = some mtime
    · -- the adapter keeps what it has, so the file must list just that
      rw [reload_of_unchanged hgate]
      have hlists : Same t' c.snapshot ↔ Lists doc t := by
        rw [← same_snapshotOf_iff hs]
        constructor
        · intro h'
          exact hsame.congr fun p => (h.lookup_eq h' p).symm
        · intro h'
          exact h.congr fun p => h'.lookup_eq hsame p
      simp [hlists, hgate, hpass]
    · rw [reload_snapshot hgate hpy, hs, Option.getD_some]
      simp [hsame, hgate, hpass]
  · rw [tableAfter_of_not_passes hrt hpass]
    by_cases hgate : c.mtime = some mtime
    · rw [reload_of_unchanged hgate]
      simp [h, hgate, hpass]
    · rw [reload_snapshot hgate hpy]
      cases hs : (principals doc).bind snapshotOf with
      | none =>
        have hraise : Raises doc := raises_iff.mpr hs
        simp [h, hgate, hraise]
      | some s =>
        have hquiet : ¬ Raises doc := fun hr => by
          rw [raises_iff.mp hr] at hs
          cases hs
        rw [Option.getD_some, same_snapshotOf_iff hs]
        simp [hgate, hpass, hquiet]

/-- A runtime in which one permission is declared. -/
def oneDeclared (doc : Value) : CapRuntime where
  readFromFile := fun _ => .ok doc
  declared := fun cap => cap == "msg.send"
  uuidForWorkspaceName := fun _ => none
  mkdirFault := none
  openFault := none

/-- A file of one entry that holds one capability. -/
def oneEntry (cap : String) : Value :=
  .map [(.str "principals", .list [.map
    [(.str "capabilities", .list [.str cap]), (.str "id", .str "ou_alice")]])]

theorem passes_oneEntry : Passes (oneDeclared (oneEntry "workspace:w/msg.send"))
    (oneEntry "workspace:w/msg.send") := by
  refine ⟨_, rfl, Or.inr ⟨_, rfl, ?_⟩⟩
  rw [List.forall_mem_singleton]
  refine ⟨_, "ou_alice", ["workspace:w/msg.send"], rfl, rfl, by decide, rfl, ?_⟩
  rw [List.forall_mem_singleton]
  rfl

theorem same_empty : Same Ets.empty [] := ⟨by simp, fun p => rfl⟩

theorem agree_oneEntry :
    Same (FileLoader.tableAfter (oneDeclared (oneEntry "workspace:w/msg.send"))
        (some ByteArray.empty) Ets.empty)
      (reload (fun _ => .ok (oneEntry "workspace:w/msg.send")) (some (ByteArray.empty, 1))
        ⟨[], none⟩).snapshot :=
  (agree_iff rfl rfl same_empty).mpr
    (Or.inr (Or.inr ⟨by simp, Or.inl passes_oneEntry⟩))

/-- A misspelt permission: the loader refuses the file and holds nothing, the
adapter holds the entry. -/
theorem not_agree_misspelt :
    Same Ets.empty [] ∧
      ¬ Same (FileLoader.tableAfter (oneDeclared (oneEntry "workspace:w/msg.snd"))
          (some ByteArray.empty) Ets.empty)
        (reload (fun _ => .ok (oneEntry "workspace:w/msg.snd")) (some (ByteArray.empty, 1))
          ⟨[], none⟩).snapshot := by
  refine ⟨same_empty, fun hsame => ?_⟩
  have hlookup := hsame.2 "ou_alice"
  have htable : (FileLoader.tableAfter (oneDeclared (oneEntry "workspace:w/msg.snd"))
      (some ByteArray.empty) Ets.empty).lookup "ou_alice" = none := rfl
  rw [htable] at hlookup
  cases hlookup

end CapabilitiesChecker
end Esr
