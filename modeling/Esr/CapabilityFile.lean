import Esr.Fallible
import Esr.Grants
import Esr.Yaml

/-! # Loading `capabilities.yaml`

`Esr.Resource.Capability.FileLoader`: the file is parsed, every entry under
`principals` is checked, and only when all of them pass is the snapshot handed to
the grants table.  A file that fails anywhere leaves the table as it was.

`validateEntries_eq_ok` is what later modules use: a list of entries is accepted
when each of them is, and the snapshot is then their rows inserted in order, so
that of several entries of one principal the last one counts.
-/
namespace Esr

/-- What the loader and the commands that edit the file see of the rest of the
runtime: the YAML reader, the permission registry, the workspace names, and the
errors met when the directory is made and when the file is opened for writing. -/
structure CapRuntime where
  readFromFile : ByteArray → Except String Yaml.Value
  declared : String → Bool
  uuidForWorkspaceName : String → Option String
  mkdirFault : Option String
  openFault : Option String

namespace FileLoader
open Yaml

/-- What `load/1` fails with.  `raised` is an exception: a document that is not a
map, `principals` that cannot be enumerated, or a capability that is not a
string.  A map under `principals` is enumerated as pairs. -/
inductive LoadError where
  | yamlParse (reason : String)
  | reservedPrincipalId (entry : Value)
  | malformedEntry (entry : Value)
  | malformedPair (key value : Value)
  | unknownPermission (perm principalId : String)
  | malformedCap (cap principalId : String)
  | badScopePrefix (scope : String)
  | raised

/-- `validate_scope/1`.  An unknown workspace is only logged. -/
def validateScope (scope : String) : Except LoadError Unit :=
  if (stripPrefix "workspace:" scope).isSome then .ok ()
  else if scope = "*" then .ok ()
  else if (stripPrefix "session:" scope).isSome then .ok ()
  else .error (.badScopePrefix scope)

variable (rt : CapRuntime)

/-- `validate_perm/2`. -/
def validatePerm (perm pid : String) : Except LoadError Unit :=
  if perm = "*" then .ok ()
  else if rt.declared perm then .ok ()
  else .error (.unknownPermission perm pid)

/-- `validate_perm_with_full_fallback/3`. -/
def validatePermWithFullFallback (perm fullCap pid : String) : Except LoadError Unit :=
  match validatePerm rt perm pid with
  | .ok () => .ok ()
  | .error _ => if rt.declared fullCap then .ok () else .error (.unknownPermission perm pid)

/-- `validate_cap/2` on a string. -/
def validateCap (cap pid : String) : Except LoadError Unit :=
  if cap = "*" then .ok ()
  else if '/' ∉ cap.toList then
    if rt.declared cap then .ok () else .error (.unknownPermission cap pid)
  else
    match splitParts2 '/' cap with
    | [scope, perm] => do
        validateScope scope
        validatePermWithFullFallback rt perm cap pid
    | _ => .error (.malformedCap cap pid)

/-- The loop over an entry's capabilities: the list held, in order. -/
def validateCaps (pid : String) : List Value → Except LoadError (List String)
  | [] => .ok []
  | .str cap :: rest => do
      validateCap rt cap pid
      return cap :: (← validateCaps pid rest)
  | _ :: _ => .error .raised

/-- `validate_entry/1`. -/
def validateEntry : Value → Except LoadError (String × List String)
  | .map m =>
      match get "id" m, get "capabilities" m with
      | some (.str pid), caps =>
          if pid = "system:bootstrap" then .error (.reservedPrincipalId (.map m))
          else
            match caps with
            | some (.list caps) => do return (pid, ← validateCaps rt pid caps)
            | _ => .error (.malformedEntry (.map m))
      | _, _ => .error (.malformedEntry (.map m))
  | entry => .error (.malformedEntry entry)

/-- The loop over the entries. -/
def validateEntries : List Value → Grants.Table → Except LoadError Grants.Table
  | [], acc => .ok acc
  | entry :: rest, acc => do
      let row ← validateEntry rt entry
      validateEntries rest (acc.insert row.1 row.2)

/-- `validate/1`. -/
def validate : Value → Except LoadError Grants.Table
  | .map m =>
      match (get "principals" m).getD (.list []) with
      | .list principals => validateEntries rt principals Ets.empty
      | .map [] => .ok Ets.empty
      | .map ((key, value) :: _) => .error (.malformedPair key value)
      | _ => .error .raised
  | _ => .error .raised

/-- `load/1`, with `none` for a file that does not exist: the snapshot it hands
to the grants table. -/
def load : Option ByteArray → Except LoadError Grants.Table
  | none => .ok Ets.empty
  | some bytes =>
      match rt.readFromFile bytes with
      | .error reason => .error (.yamlParse reason)
      | .ok yaml => validate rt yaml

/-- The grants table once the file has been loaded. -/
def tableAfter (file : Option ByteArray) (table : Grants.Table) : Grants.Table :=
  match load rt file with
  | .ok snapshot => snapshot
  | .error _ => table

/-! ## What the loops accept -/

variable {rt}

theorem validateCaps_eq_ok {pid : String} {caps : List Value} {held : List String} :
    validateCaps rt pid caps = .ok held ↔
      caps = held.map Value.str ∧ ∀ cap ∈ held, validateCap rt cap pid = .ok () := by
  induction caps using validateCaps.induct generalizing held with
  | case1 =>
    unfold validateCaps
    cases held <;> simp
  | case2 cap rest ih =>
    unfold validateCaps
    simp only [bind_eq_ok, ih]
    constructor
    · rintro ⟨⟨⟩, hcap, held', ⟨rfl, hrest⟩, he⟩
      obtain rfl := Except.ok.inj he
      exact ⟨rfl, List.forall_mem_cons.mpr ⟨hcap, hrest⟩⟩
    · rintro ⟨he, hall⟩
      cases held with
      | nil => cases he
      | cons c held' =>
        obtain ⟨hc, hrest⟩ := List.cons.inj he
        obtain rfl := Value.str.inj hc
        obtain ⟨hcap, hall'⟩ := List.forall_mem_cons.mp hall
        exact ⟨(), hcap, held', ⟨hrest, hall'⟩, rfl⟩
  | case3 v rest hv =>
    -- a capability that is not a string raises, and is no string's value
    have hraise : validateCaps rt pid (v :: rest) = .error .raised := by
      cases v with
      | str c => exact (hv c rfl).elim
      | _ => rfl
    rw [hraise]
    constructor
    · intro h
      cases h
    · rintro ⟨he, -⟩
      cases held with
      | nil => cases he
      | cons c held' => exact absurd (List.cons.inj he).1 (hv c)

theorem validateEntry_eq_ok {entry : Value} {pid : String} {held : List String} :
    validateEntry rt entry = .ok (pid, held) ↔
      ∃ m, entry = .map m ∧ get "id" m = some (.str pid) ∧ pid ≠ "system:bootstrap" ∧
        get "capabilities" m = some (.list (held.map Value.str)) ∧
        ∀ cap ∈ held, validateCap rt cap pid = .ok () := by
  constructor
  · intro h
    unfold validateEntry at h
    split at h
    · rename_i m
      split at h
      · rename_i pid' caps hid
        split at h
        · cases h
        · rename_i hboot
          split at h
          · rename_i caps' hcaps
            obtain ⟨held', hheld, he⟩ := bind_eq_ok.mp h
            obtain ⟨rfl, rfl⟩ := Prod.mk.inj (Except.ok.inj he)
            obtain ⟨rfl, hall⟩ := validateCaps_eq_ok.mp hheld
            exact ⟨m, rfl, hid, hboot, hcaps, hall⟩
          · cases h
      · cases h
    · cases h
  · rintro ⟨m, rfl, hid, hboot, hcaps, hall⟩
    unfold validateEntry
    simp only [hid, hcaps, if_neg hboot]
    exact bind_eq_ok.mpr ⟨held, validateCaps_eq_ok.mpr ⟨rfl, hall⟩, rfl⟩

theorem validateEntries_eq_ok {entries : List Value} {acc t : Grants.Table} :
    validateEntries rt entries acc = .ok t ↔
      ∃ rows, List.Forall₂ (fun entry row => validateEntry rt entry = .ok row) entries rows ∧
        t = acc.insertEach rows := by
  induction entries generalizing acc with
  | nil =>
    constructor
    · intro h
      exact ⟨[], .nil, (Except.ok.inj h).symm⟩
    · rintro ⟨rows, hrows, rfl⟩
      cases hrows
      rfl
  | cons entry entries ih =>
    unfold validateEntries
    rw [bind_eq_ok]
    constructor
    · rintro ⟨row, hrow, hrest⟩
      obtain ⟨rows, hrows, ht⟩ := ih.mp hrest
      exact ⟨row :: rows, .cons hrow hrows, ht⟩
    · rintro ⟨rows, hrows, rfl⟩
      cases hrows with
      | cons hrow hrest => exact ⟨_, hrow, ih.mpr ⟨_, hrest, rfl⟩⟩

end FileLoader
end Esr
