import Mathlib
import Esr.CapabilityFile

/-! # Which files the capability loader survives

The file watcher and the start of the runtime hand `load/1` whatever the YAML reader
makes of `capabilities.yaml`.  Three places have no clause for it: a document that is
not a map, `principals` that cannot be enumerated, and a capability that is not a
text.  The last one is met only when every entry before it, and every capability
before it in its own entry, has passed.

`total_iff` says of which files the load is what the module promises: an answer,
nothing kept that was not checked, and the grants as they were behind every answer
but `:ok`.  The first condition is the whole difference, for the other two hold of
every file.
-/
namespace Esr
namespace FileLoader
open Yaml

/-- What a caller of `load/1` sees. -/
inductive Outcome where
  | ok
  | error (reason : LoadError)
  | raised

/-- `load/1` on the grants table. -/
def loadInto (rt : CapRuntime) (file : Option ByteArray) (table : Grants.Table) :
    Outcome × Grants.Table :=
  match load rt file with
  | .ok snapshot => (.ok, snapshot)
  | .error .raised => (.raised, table)
  | .error reason => (.error reason, table)

variable (rt : CapRuntime)

/-! ## What the loader checks -/

/-- The scope of a grant. -/
def IsScope (scope : String) : Prop :=
  scope = "*" ∨ (stripPrefix "workspace:" scope).isSome ∨ (stripPrefix "session:" scope).isSome

/-- A capability the file may list: the wildcard, a declared one, or a scope in front
of a permission that is declared alone or together with its scope. -/
def Allowed (cap : String) : Prop :=
  cap = "*" ∨ ('/' ∉ cap.toList ∧ rt.declared cap) ∨
    ∃ scope perm, cap = scope ++ "/" ++ perm ∧ '/' ∉ scope.toList ∧ IsScope scope ∧
      (perm = "*" ∨ rt.declared perm ∨ rt.declared cap)

/-- The entry lists capabilities for a principal of its own. -/
def Lists (entry : Value) (caps : List Value) : Prop :=
  ∃ m pid, entry = .map m ∧ get "id" m = some (.str pid) ∧ pid ≠ "system:bootstrap" ∧
    get "capabilities" m = some (.list caps)

/-- An entry that passes. -/
def IsValid (entry : Value) : Prop :=
  ∃ held : List String, Lists entry (held.map Value.str) ∧ ∀ cap ∈ held, Allowed rt cap

/-- The entries of a document that has some. -/
def HasEntries (doc : Value) (entries : List Value) : Prop :=
  ∃ m, doc = .map m ∧
    ((get "principals" m).getD (.list []) = .list entries ∨
      get "principals" m = some (.map []) ∧ entries = [])

/-- The load of the file is total, and changes the grants only to what it checked. -/
structure Total (file : Option ByteArray) : Prop where
  returns : ∀ table, (loadInto rt file table).1 ≠ .raised
  kept : ∀ table, (loadInto rt file table).1 ≠ .ok → (loadInto rt file table).2 = table
  checked : ∀ table, (loadInto rt file table).1 = .ok → ∀ bytes doc, file = some bytes →
    rt.readFromFile bytes = .ok doc →
      ∃ entries, HasEntries doc entries ∧ ∀ entry ∈ entries, IsValid rt entry

/-! ## What it has no clause for -/

/-- The first capability that is not allowed is no text. -/
def ListsNoText (caps : List Value) : Prop :=
  ∃ (good : List String) (v : Value) (more : List Value),
    caps = good.map Value.str ++ v :: more ∧ (∀ cap ∈ good, Allowed rt cap) ∧ isText v = false

/-- The first entry that does not pass lists such capabilities. -/
def HasNoText (entries : List Value) : Prop :=
  ∃ good entry more caps, entries = good ++ entry :: more ∧ (∀ g ∈ good, IsValid rt g) ∧
    Lists entry caps ∧ ListsNoText rt caps

/-- A document every step of the loader has a clause for. -/
def Loadable (doc : Value) : Prop :=
  ∃ m, doc = .map m ∧
    ((∃ pairs, get "principals" m = some (.map pairs)) ∨
      ∃ entries, (get "principals" m).getD (.list []) = .list entries ∧ ¬HasNoText rt entries)

/-! ## One capability -/

variable {rt}

theorem validateScope_eq_ok {scope : String} : validateScope scope = .ok () ↔ IsScope scope := by
  rw [validateScope, IsScope]
  by_cases hall : scope = "*"
  · simp [hall]
  · by_cases hworkspace : (stripPrefix "workspace:" scope).isSome
    · simp [hworkspace]
    · by_cases hsession : (stripPrefix "session:" scope).isSome <;>
        simp [hall, hworkspace, hsession]

theorem validateScope_ne_raised (scope : String) : validateScope scope ≠ .error .raised := by
  rw [validateScope]
  split_ifs <;> rintro ⟨⟩

theorem validatePermWithFullFallback_eq_ok {perm cap pid : String} :
    validatePermWithFullFallback rt perm cap pid = .ok () ↔
      perm = "*" ∨ rt.declared perm ∨ rt.declared cap := by
  rw [validatePermWithFullFallback, validatePerm]
  by_cases hall : perm = "*"
  · simp [hall]
  · by_cases hperm : rt.declared perm
    · simp [hperm]
    · simp [hall, hperm]

theorem validatePermWithFullFallback_ne_raised (perm cap pid : String) :
    validatePermWithFullFallback rt perm cap pid ≠ .error .raised := by
  rw [validatePermWithFullFallback]
  split
  · rintro ⟨⟩
  · split_ifs <;> rintro ⟨⟩

theorem validateCap_eq_ok {cap pid : String} : validateCap rt cap pid = .ok () ↔ Allowed rt cap := by
  rw [validateCap, Allowed]
  by_cases hall : cap = "*"
  · simp [hall]
  rw [if_neg hall]
  by_cases hslash : '/' ∈ cap.toList
  · rw [if_neg (not_not.mpr hslash)]
    constructor
    · intro h
      split at h
      · rename_i scope perm hsplit
        obtain ⟨hcap, hscope⟩ := splitParts2_eq_pair.mp hsplit
        obtain ⟨⟨⟩, hvalid, hperm⟩ := bind_eq_ok.mp h
        exact .inr (.inr ⟨scope, perm, hcap, hscope, validateScope_eq_ok.mp hvalid,
          validatePermWithFullFallback_eq_ok.mp hperm⟩)
      · cases h
    · rintro (h | ⟨h, -⟩ | ⟨scope, perm, hcap, hscope, hvalid, hperm⟩)
      · exact (hall h).elim
      · exact (h hslash).elim
      · have hsplit : splitParts2 '/' cap = [scope, perm] := splitParts2_eq_pair.mpr ⟨hcap, hscope⟩
        rw [hsplit]
        exact bind_eq_ok.mpr ⟨(), validateScope_eq_ok.mpr hvalid,
          validatePermWithFullFallback_eq_ok.mpr hperm⟩
  · -- without a separator the capability is no scoped one
    rw [if_pos hslash]
    have hflat : ∀ scope perm : String, cap ≠ scope ++ "/" ++ perm := by
      rintro scope perm rfl
      exact hslash (by simp)
    by_cases hdecl : rt.declared cap
    · simp [hdecl, hslash]
    · simp [hall, hdecl, hflat]

theorem validateCap_ne_raised (cap pid : String) : validateCap rt cap pid ≠ .error .raised := by
  rw [validateCap]
  split_ifs
  · rintro ⟨⟩
  · split
    · intro h
      rcases bind_eq_error.mp h with hscope | ⟨-, -, hperm⟩
      · exact validateScope_ne_raised _ hscope
      · exact validatePermWithFullFallback_ne_raised _ _ _ hperm
    · rintro ⟨⟩
  · rintro ⟨⟩
  · rintro ⟨⟩

/-! ## The loops -/

variable {rest : List Value} {entry : Value} {file : Option ByteArray} {table : Grants.Table}

theorem listsNoText_cons {cap : String} :
    ListsNoText rt (.str cap :: rest) ↔ Allowed rt cap ∧ ListsNoText rt rest := by
  constructor
  · rintro ⟨good, v, more, he, hgood, hv⟩
    cases good with
    | nil =>
      obtain ⟨rfl, -⟩ := List.cons.inj he
      cases hv
    | cons c good =>
      obtain ⟨hc, hrest⟩ := List.cons.inj he
      obtain rfl := Value.str.inj hc
      obtain ⟨hcap, hgood⟩ := List.forall_mem_cons.mp hgood
      exact ⟨hcap, good, v, more, hrest, hgood, hv⟩
  · rintro ⟨hcap, good, v, more, rfl, hgood, hv⟩
    exact ⟨cap :: good, v, more, rfl, List.forall_mem_cons.mpr ⟨hcap, hgood⟩, hv⟩

theorem validateCaps_eq_raised {pid : String} {caps : List Value} :
    validateCaps rt pid caps = .error .raised ↔ ListsNoText rt caps := by
  induction caps using validateCaps.induct with
  | case1 =>
    rw [validateCaps]
    constructor
    · rintro ⟨⟩
    · rintro ⟨good, v, more, he, -⟩
      simp at he
  | case2 cap rest ih =>
    rw [validateCaps, listsNoText_cons, ← @validateCap_eq_ok rt cap pid, ← ih, bind_eq_error]
    constructor
    · rintro (h | ⟨⟨⟩, hcap, hrest⟩)
      · exact (validateCap_ne_raised cap pid h).elim
      · rcases bind_eq_error.mp hrest with h | ⟨held, -, ⟨⟩⟩
        exact ⟨hcap, h⟩
    · rintro ⟨hcap, hrest⟩
      exact .inr ⟨(), hcap, bind_eq_error.mpr (.inl hrest)⟩
  | case3 v rest hv =>
    have htext : isText v = false := by
      cases v with
      | str c => exact (hv c rfl).elim
      | _ => rfl
    have hraise : validateCaps rt pid (v :: rest) = .error .raised := by
      cases v with
      | str c => exact (hv c rfl).elim
      | _ => rfl
    exact iff_of_true hraise ⟨[], v, rest, rfl, by simp, htext⟩

theorem isValid_iff : IsValid rt entry ↔ ∃ row, validateEntry rt entry = .ok row := by
  constructor
  · rintro ⟨held, ⟨m, pid, hentry, hid, hboot, hcaps⟩, hall⟩
    exact ⟨(pid, held), validateEntry_eq_ok.mpr ⟨m, hentry, hid, hboot, hcaps,
      fun cap hcap => validateCap_eq_ok.mpr (hall cap hcap)⟩⟩
  · rintro ⟨⟨pid, held⟩, h⟩
    obtain ⟨m, hentry, hid, hboot, hcaps, hall⟩ := validateEntry_eq_ok.mp h
    exact ⟨held, ⟨m, pid, hentry, hid, hboot, hcaps⟩,
      fun cap hcap => validateCap_eq_ok.mp (hall cap hcap)⟩

theorem validateEntry_eq_raised :
    validateEntry rt entry = .error .raised ↔ ∃ caps, Lists entry caps ∧ ListsNoText rt caps := by
  constructor
  · intro h
    unfold validateEntry at h
    split at h
    · rename_i m
      split at h
      · rename_i caps pid hid
        split at h
        · cases h
        · rename_i hboot
          split at h
          · rename_i caps' hcaps
            rcases bind_eq_error.mp h with h | ⟨held, -, ⟨⟩⟩
            exact ⟨caps', ⟨m, pid, rfl, hid, hboot, hcaps⟩, validateCaps_eq_raised.mp h⟩
          · cases h
      · cases h
    · cases h
  · rintro ⟨caps, ⟨m, pid, rfl, hid, hboot, hcaps⟩, hnone⟩
    simp only [validateEntry, hid, hcaps, if_neg hboot]
    exact bind_eq_error.mpr (.inl (validateCaps_eq_raised.mpr hnone))

theorem hasNoText_cons (h : IsValid rt entry) :
    HasNoText rt (entry :: rest) ↔ HasNoText rt rest := by
  constructor
  · rintro ⟨good, bad, more, caps, he, hgood, hlists, hnone⟩
    cases good with
    | nil =>
      -- an entry that passes is not one with a capability that is no text
      obtain ⟨rfl, -⟩ := List.cons.inj he
      obtain ⟨row, hrow⟩ := isValid_iff.mp h
      rw [validateEntry_eq_raised.mpr ⟨caps, hlists, hnone⟩] at hrow
      cases hrow
    | cons g good =>
      exact ⟨good, bad, more, caps, (List.cons.inj he).2, (List.forall_mem_cons.mp hgood).2,
        hlists, hnone⟩
  · rintro ⟨good, bad, more, caps, rfl, hgood, hbad⟩
    exact ⟨entry :: good, bad, more, caps, rfl, List.forall_mem_cons.mpr ⟨h, hgood⟩, hbad⟩

theorem hasNoText_cons_of_not_valid (h : ¬IsValid rt entry) :
    HasNoText rt (entry :: rest) ↔ ∃ caps, Lists entry caps ∧ ListsNoText rt caps := by
  constructor
  · rintro ⟨good, bad, more, caps, he, hgood, hbad⟩
    cases good with
    | nil =>
      obtain ⟨rfl, -⟩ := List.cons.inj he
      exact ⟨caps, hbad⟩
    | cons g good =>
      obtain ⟨rfl, -⟩ := List.cons.inj he
      exact (h (List.forall_mem_cons.mp hgood).1).elim
  · rintro ⟨caps, hbad⟩
    exact ⟨[], entry, rest, caps, rfl, by simp, hbad⟩

theorem validateEntries_eq_raised {entries : List Value} {acc : Grants.Table} :
    validateEntries rt entries acc = .error .raised ↔ HasNoText rt entries := by
  induction entries generalizing acc with
  | nil =>
    constructor
    · rintro ⟨⟩
    · rintro ⟨good, bad, more, caps, he, -⟩
      simp at he
  | cons entry rest ih =>
    rw [validateEntries, bind_eq_error]
    by_cases hvalid : IsValid rt entry
    · obtain ⟨row, hrow⟩ := isValid_iff.mp hvalid
      rw [hasNoText_cons hvalid, hrow]
      constructor
      · rintro (⟨⟨⟩⟩ | ⟨row', -, h⟩)
        exact ih.mp h
      · exact fun h => .inr ⟨row, rfl, ih.mpr h⟩
    · rw [hasNoText_cons_of_not_valid hvalid, ← validateEntry_eq_raised]
      constructor
      · rintro (h | ⟨row, hrow, -⟩)
        · exact h
        · exact (hvalid (isValid_iff.mpr ⟨row, hrow⟩)).elim
      · exact .inl

/-! ## The document -/

theorem validate_eq_raised {doc : Value} : validate rt doc = .error .raised ↔ ¬Loadable rt doc := by
  cases doc with
  | map m =>
    cases hp : (get "principals" m).getD (.list []) with
    | list entries =>
      have hload : Loadable rt (.map m) ↔ ¬HasNoText rt entries := by
        constructor
        · rintro ⟨m', he, ⟨pairs, hpairs⟩ | ⟨entries', hentries, hno⟩⟩
          · obtain rfl := Value.map.inj he
            rw [hpairs] at hp
            cases hp
          · obtain rfl := Value.map.inj he
            rw [hp] at hentries
            obtain rfl := Value.list.inj hentries
            exact hno
        · exact fun hno => ⟨m, rfl, .inr ⟨entries, hp, hno⟩⟩
      rw [hload, not_not, ← @validateEntries_eq_raised rt entries Ets.empty]
      simp only [validate, hp]
    | map pairs =>
      have hpairs : get "principals" m = some (.map pairs) := by
        cases hget : get "principals" m with
        | none => simp [hget] at hp
        | some v => simpa [hget] using hp
      have hload : Loadable rt (.map m) := ⟨m, rfl, .inl ⟨pairs, hpairs⟩⟩
      refine iff_of_false ?_ (not_not.mpr hload)
      simp only [validate, hp]
      cases pairs with
      | nil => rintro ⟨⟩
      | cons pair pairs => rintro ⟨⟩
    | _ =>
      refine iff_of_true (by simp only [validate, hp]) ?_
      rintro ⟨m', he, ⟨pairs, hpairs⟩ | ⟨entries, hentries, -⟩⟩
      · obtain rfl := Value.map.inj he
        simp [hpairs] at hp
      · obtain rfl := Value.map.inj he
        simp [hentries] at hp
  | _ =>
    refine iff_of_true rfl ?_
    rintro ⟨m, ⟨⟩, -⟩

theorem checked_of_validate {doc : Value} {t : Grants.Table} (h : validate rt doc = .ok t) :
    ∃ entries, HasEntries doc entries ∧ ∀ entry ∈ entries, IsValid rt entry := by
  cases doc with
  | map m =>
    cases hp : (get "principals" m).getD (.list []) with
    | list entries =>
      simp only [validate, hp] at h
      obtain ⟨rows, hrows, -⟩ := validateEntries_eq_ok.mp h
      refine ⟨entries, ⟨m, rfl, .inl hp⟩, fun entry hentry => isValid_iff.mpr ?_⟩
      obtain ⟨i, hi, rfl⟩ := List.getElem_of_mem hentry
      exact ⟨_, hrows.get hi (hrows.length_eq ▸ hi)⟩
    | map pairs =>
      cases pairs with
      | nil =>
        refine ⟨[], ⟨m, rfl, .inr ⟨?_, rfl⟩⟩, by simp⟩
        cases hget : get "principals" m with
        | none => simp [hget] at hp
        | some v => simpa [hget] using hp
      | cons pair pairs =>
        simp only [validate, hp] at h
        cases h
    | _ =>
      simp only [validate, hp] at h
      cases h
  | _ => cases h

/-! ## The load -/

theorem loadInto_eq_raised :
    (loadInto rt file table).1 = .raised ↔ load rt file = .error .raised := by
  rw [loadInto]
  rcases load rt file with e | snapshot
  · cases e <;> simp
  · simp

theorem loadInto_eq_ok :
    (loadInto rt file table).1 = .ok ↔ ∃ snapshot, load rt file = .ok snapshot := by
  rw [loadInto]
  rcases load rt file with e | snapshot
  · cases e <;> simp
  · simp

theorem loadInto_snd (file : Option ByteArray) (table : Grants.Table) :
    (loadInto rt file table).2 = tableAfter rt file table := by
  rw [loadInto, tableAfter]
  rcases load rt file with e | snapshot
  · cases e <;> rfl
  · rfl

theorem loadInto_kept (h : (loadInto rt file table).1 ≠ .ok) :
    (loadInto rt file table).2 = table := by
  rw [loadInto_snd, tableAfter]
  cases hload : load rt file with
  | error e => rfl
  | ok snapshot => exact (h (loadInto_eq_ok.mpr ⟨snapshot, hload⟩)).elim

/-- The load is total exactly on the files whose document every step has a clause
for. -/
theorem total_iff {file : Option ByteArray} :
    Total rt file ↔
      ∀ bytes doc, file = some bytes → rt.readFromFile bytes = .ok doc → Loadable rt doc := by
  constructor
  · rintro h bytes doc rfl hread
    by_contra hload
    refine h.returns Ets.empty (loadInto_eq_raised.mpr ?_)
    rw [load, hread]
    exact validate_eq_raised.mpr hload
  · intro h
    refine ⟨fun table hraised => ?_, fun table hne => loadInto_kept hne, ?_⟩
    · have hload := loadInto_eq_raised.mp hraised
      cases file with
      | none => cases hload
      | some bytes =>
        rw [load] at hload
        cases hread : rt.readFromFile bytes with
        | error reason => simp [hread] at hload
        | ok doc =>
          rw [hread] at hload
          exact validate_eq_raised.mp hload (h bytes doc rfl hread)
    · rintro table hok bytes doc rfl hread
      obtain ⟨snapshot, hload⟩ := loadInto_eq_ok.mp hok
      rw [load, hread] at hload
      exact checked_of_validate hload

/-! ## A heading with nothing behind it -/

/-- The file whose only line is `principals:`. -/
def headingOnly : ByteArray := "principals:\n".toUTF8

/-- A runtime that declares nothing and reads that file as YAML does. -/
def bareRuntime : CapRuntime where
  readFromFile bytes :=
    if bytes = headingOnly then .ok (.map [(.str "principals", .null)]) else .error "not parsed"
  declared := fun _ => false
  uuidForWorkspaceName := fun _ => none
  mkdirFault := none
  openFault := none

/-- The load of that file raises. -/
theorem not_total_headingOnly :
    ¬Total bareRuntime (some headingOnly) ∧
      ∀ table, loadInto bareRuntime (some headingOnly) table = (.raised, table) := by
  have hload : load bareRuntime (some headingOnly) = .error .raised := by
    have hread : bareRuntime.readFromFile headingOnly =
        .ok (.map [(.str "principals", .null)]) := by
      simp [bareRuntime]
    simp only [load, hread]
    rfl
  have hinto : ∀ table, loadInto bareRuntime (some headingOnly) table = (.raised, table) := by
    intro table
    rw [loadInto, hload]
  exact ⟨fun h => h.returns Ets.empty (by rw [hinto]), hinto⟩

end FileLoader
end Esr
