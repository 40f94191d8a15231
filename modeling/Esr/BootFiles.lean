import Esr.CapCommands
import Esr.PathExpand

/-! # The files that are read at boot

The loaders of workspaces and of sessions read a JSON file and check some of its
fields, in the same steps.  A field that they do not check is taken apart by a function
with one clause, which raises on anything else.
-/
namespace Esr
namespace BootFiles
open Yaml

/-- What `File.read/1` fails with. -/
inductive ReadError where
  | enoent
  | other (reason : String)

/-- What a directory is to `File.exists?/1` and `File.ls!/1`. -/
inductive Dir where
  | missing
  | listing (entries : List String)
  | notListable

/-- The JSON and the YAML reader. -/
structure Readers where
  json : ByteArray → Option Value
  yaml : ByteArray → Except String Value

/-- What `load/2` fails with. -/
inductive LoadError where
  | fileMissing
  | fileReadFailed (reason : String)
  | jsonDecodeFailed
  | jsonNotObject
  | badSchemaVersion (v : Value)
  | missingField (field : String)
  | badUuid (v : Value)
  | nameMismatch (name : Value) (expected : String)
  | transientRepoBoundForbidden

/-- `File.ls!/1` behind `File.exists?/1`, with `none` where it raises. -/
def Dir.entries : Dir → Option (List String)
  | .missing => some []
  | .listing entries => some entries
  | .notListable => none

/-- `read_file/1`. -/
def readFile : Except ReadError ByteArray → Except LoadError ByteArray
  | .ok body => .ok body
  | .error .enoent => .error .fileMissing
  | .error (.other reason) => .error (.fileReadFailed reason)

/-- `decode_json/1`. -/
def decodeJson (rd : Readers) (body : ByteArray) : Except LoadError Entries :=
  match rd.json body with
  | some (.map doc) => .ok doc
  | some _ => .error .jsonNotObject
  | none => .error .jsonDecodeFailed

/-- `doc[field]`. -/
def field (key : String) (doc : Entries) : Value := (get key doc).getD .null

/-- `check_schema_version/1`. -/
def checkSchemaVersion (version : Int) (doc : Entries) : Except LoadError Unit :=
  match field "schema_version" doc with
  | .int n => if n = version then .ok () else .error (.badSchemaVersion (.int n))
  | v => .error (.badSchemaVersion v)

/-- The field is missing or `nil`. -/
def isNil (doc : Entries) (key : String) : Bool :=
  match field key doc with
  | .null => true
  | _ => false

/-- `check_required/2`. -/
def checkRequired (fields : List String) (doc : Entries) : Except LoadError Unit :=
  match fields.find? (isNil doc) with
  | none => .ok ()
  | some missing => .error (.missingField missing)

/-- `check_uuid/1`. -/
def checkUuid : Value → Except LoadError Unit
  | .str uuid =>
      if UuidTranslator.uuidShape uuid then .ok () else .error (.badUuid (.str uuid))
  | other => .error (.badUuid other)

/-- `Enum.map(doc[field] || [], f)`, with `none` where it raises: on a term that cannot
be enumerated, on an element `f` has no clause for, and on an entry of a map. -/
def mapField {α : Type} (f : Value → Option α) (v : Value) : Option (List α) :=
  match v with
  | .list elems => elems.mapM f
  | .map [] => some []
  | _ => none

/-- The term is a map with these keys. -/
def hasKeys (keys : List String) : Value → Bool
  | .map m => keys.all fun key => (get key m).isSome
  | _ => false

/-- The field is empty, or a list of maps with these keys. -/
def entriesHave (keys : List String) : Value → Bool
  | .null | .bool false | .map [] => true
  | .list elems => elems.all (hasKeys keys)
  | _ => false

/-- The uuid of a document that has passed the checks. -/
def uuidOf (doc : Entries) : String :=
  match field "id" doc with
  | .str uuid => uuid
  | _ => ""

/-! ## Loops that may raise -/

section Loops
variable {α β : Type} {f : α → Option β} {l : List α} {r : List β}

theorem mapM_eq_none_iff : l.mapM f = none ↔ ∃ a ∈ l, f a = none := by
  induction l with
  | nil => simp
  | cons a l ih =>
    rw [List.mapM_cons]
    cases ha : f a with
    | none => simp [ha]
    | some b =>
      cases hl : l.mapM f with
      | none => simpa [ha, hl] using ih.mp hl
      | some bs =>
        have hno : ¬∃ a ∈ l, f a = none := by
          intro h
          rw [ih.mpr h] at hl
          cases hl
        simpa [ha, hl] using hno

theorem filterMap_of_mapM (h : l.mapM f = some r) : l.filterMap f = r := by
  induction l generalizing r with
  | nil => simpa using h
  | cons a l ih =>
    rw [List.mapM_cons] at h
    obtain ⟨b, ha, hrest⟩ := Option.bind_eq_some_iff.mp h
    obtain ⟨bs, hl, hr⟩ := Option.bind_eq_some_iff.mp hrest
    obtain rfl := Option.some.inj hr
    rw [List.filterMap_cons_some ha, ih hl]

theorem map_of_mapM {γ : Type} {g : β → γ} {k : α → γ} (h : l.mapM f = some r)
    (hone : ∀ a b, f a = some b → g b = k a) : r.map g = l.map k := by
  induction l generalizing r with
  | nil =>
    obtain rfl : [] = r := by simpa using h
    rfl
  | cons a l ih =>
    rw [List.mapM_cons] at h
    obtain ⟨b, ha, hrest⟩ := Option.bind_eq_some_iff.mp h
    obtain ⟨bs, hl, hr⟩ := Option.bind_eq_some_iff.mp hrest
    obtain rfl := Option.some.inj hr
    rw [List.map_cons, List.map_cons, hone a b ha, ih hl]

end Loops

/-! ## What the checks say -/

theorem mapField_ne_none_iff {α : Type} {f : Value → Option α} {keys : List String}
    (hf : ∀ v, f v ≠ none ↔ hasKeys keys v = true) (key : String) (doc : Entries) :
    mapField f (getOr key (.list []) doc) ≠ none ↔ entriesHave keys (field key doc) = true := by
  have hlist : ∀ elems : List Value,
      elems.mapM f ≠ none ↔ elems.all (hasKeys keys) = true := by
    intro elems
    rw [Ne, mapM_eq_none_iff, List.all_eq_true]
    constructor
    · intro h v hv
      exact (hf v).mp fun hnone => h ⟨v, hv, hnone⟩
    · rintro h ⟨v, hv, hnone⟩
      exact (hf v).mpr (h v hv) hnone
  unfold getOr field
  cases get key doc with
  | none => simp [mapField, entriesHave]
  | some v =>
    cases v with
    | list elems => exact hlist elems
    | null => simp [mapField, entriesHave]
    | bool b => cases b <;> simp [mapField, entriesHave]
    | map m => cases m <;> simp [mapField, entriesHave]
    | int | float | str => simp [mapField, entriesHave]

theorem checkUuid_eq_ok {v : Value} :
    checkUuid v = .ok () ↔ ∃ uuid, v = .str uuid ∧ UuidTranslator.uuidShape uuid = true := by
  cases v with
  | str uuid =>
    unfold checkUuid
    by_cases hshape : UuidTranslator.uuidShape uuid = true
    · simp [hshape]
    · simp [hshape]
  | null | bool | int | float | list | map => simp [checkUuid]

theorem no_slash_of_uuidShape {uuid : String} (h : UuidTranslator.uuidShape uuid = true) :
    '/' ∉ uuid.toList := by
  intro hmem
  have hcs : '/' ∈ chompNewline uuid.toList := by
    unfold chompNewline
    split
    · rename_i hlast
      rw [← List.dropLast_append_getLast? '\n' hlast] at hmem
      rcases List.mem_append.mp hmem with hin | hin
      · exact hin
      · exact absurd (List.mem_singleton.mp hin) (by decide)
    · exact hmem
  unfold UuidTranslator.uuidShape at h
  obtain ⟨hlength, hall⟩ := Bool.and_eq_true_iff.mp h
  have hlength := eq_of_beq hlength
  rw [← List.map_snd_zip (Nat.le_of_eq hlength)] at hcs
  obtain ⟨⟨shape, c⟩, hpair, hc⟩ := List.mem_map.mp hcs
  have hshape : UuidTranslator.shapeChar shape c = true := List.all_eq_true.mp hall _ hpair
  obtain rfl : c = '/' := hc
  have hin := (List.of_mem_zip hpair).1
  have hnone : "hhhhhhhh-hhhh-4hhh-vhhh-hhhhhhhhhhhh".toList.all
      (fun shape => !UuidTranslator.shapeChar shape '/') = true := by decide
  have hno := List.all_eq_true.mp hnone shape hin
  rw [hshape] at hno
  cases hno

end BootFiles
end Esr
