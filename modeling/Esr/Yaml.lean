import Mathlib.Data.List.Sort
import Esr.Strings

/-! # YAML documents

The term `YamlElixir` reads a file into, with `Map.get/2` and `Map.put/3` on its
maps, and `Esr.Yaml.Writer`, which emits such a term again.  Commands that edit a
configuration file go through both: they read the file, change the term and
write the term back.

A map is the list of its entries in the runtime's key order, in which every
string comes after every other scalar, so `put` on a string key passes over the
other keys and stops in front of the first greater string.
-/
namespace Esr
namespace Yaml

/-- A term read from YAML.  A float is the text `to_string/1` gives for it. -/
inductive Value where
  | null
  | bool (b : Bool)
  | int (n : Int)
  | float (text : String)
  | str (s : String)
  | list (elems : List Value)
  | map (entries : List (Value × Value))

mutual

/-- `v === w`. -/
def Value.decEq : (v w : Value) → Decidable (v = w)
  | .null, .null => isTrue rfl
  | .bool b, .bool c => decidable_of_iff (b = c) (by rw [Value.bool.injEq])
  | .int n, .int m => decidable_of_iff (n = m) (by rw [Value.int.injEq])
  | .float s, .float t => decidable_of_iff (s = t) (by rw [Value.float.injEq])
  | .str s, .str t => decidable_of_iff (s = t) (by rw [Value.str.injEq])
  | .list vs, .list ws =>
    match decEqElems vs ws with
    | isTrue h => isTrue (congrArg Value.list h)
    | isFalse h => isFalse fun he => h (Value.list.inj he)
  | .map es, .map fs =>
    match decEqEntries es fs with
    | isTrue h => isTrue (congrArg Value.map h)
    | isFalse h => isFalse fun he => h (Value.map.inj he)
  | .null, .bool _ | .null, .int _ | .null, .float _ | .null, .str _ | .null, .list _
  | .null, .map _ | .bool _, .null | .bool _, .int _ | .bool _, .float _ | .bool _, .str _
  | .bool _, .list _ | .bool _, .map _ | .int _, .null | .int _, .bool _ | .int _, .float _
  | .int _, .str _ | .int _, .list _ | .int _, .map _ | .float _, .null | .float _, .bool _
  | .float _, .int _ | .float _, .str _ | .float _, .list _ | .float _, .map _ | .str _, .null
  | .str _, .bool _ | .str _, .int _ | .str _, .float _ | .str _, .list _ | .str _, .map _
  | .list _, .null | .list _, .bool _ | .list _, .int _ | .list _, .float _ | .list _, .str _
  | .list _, .map _ | .map _, .null | .map _, .bool _ | .map _, .int _ | .map _, .float _
  | .map _, .str _ | .map _, .list _ => isFalse nofun

def decEqElems : (vs ws : List Value) → Decidable (vs = ws)
  | [], [] => isTrue rfl
  | [], _ :: _ => isFalse nofun
  | _ :: _, [] => isFalse nofun
  | v :: vs, w :: ws =>
    match Value.decEq v w, decEqElems vs ws with
    | isTrue h, isTrue h' => isTrue (h ▸ h' ▸ rfl)
    | isFalse h, _ => isFalse fun he => h (List.cons.inj he).1
    | _, isFalse h => isFalse fun he => h (List.cons.inj he).2

def decEqEntries : (es fs : List (Value × Value)) → Decidable (es = fs)
  | [], [] => isTrue rfl
  | [], _ :: _ => isFalse nofun
  | _ :: _, [] => isFalse nofun
  | (k, v) :: es, (k', v') :: fs =>
    match Value.decEq k k', Value.decEq v v', decEqEntries es fs with
    | isTrue h, isTrue h', isTrue h'' => isTrue (h ▸ h' ▸ h'' ▸ rfl)
    | isFalse h, _, _ => isFalse fun he => h (Prod.mk.inj (List.cons.inj he).1).1
    | _, isFalse h, _ => isFalse fun he => h (Prod.mk.inj (List.cons.inj he).1).2
    | _, _, isFalse h => isFalse fun he => h (List.cons.inj he).2

end

instance : DecidableEq Value := Value.decEq
/-- The entries of a map. -/
abbrev Entries := List (Value × Value)

/-- `v == s` for a string `s`. -/
def Value.isStr (s : String) : Value → Bool
  | .str t => t == s
  | _ => false

/-- `Map.get/2` with a string key. -/
def get (key : String) (m : Entries) : Option Value :=
  (m.find? fun e => e.1.isStr key).map Prod.snd

/-- `Map.get(m, key) || default`: a missing key, `nil` and `false` all give the
default. -/
def getOr (key : String) (default : Value) (m : Entries) : Value :=
  match get key m with
  | none | some .null | some (.bool false) => default
  | some v => v

/-- The key comes after the string `key` in the runtime's order. -/
def Value.isAfter (key : String) : Value → Bool
  | .str k => decide (key < k)
  | _ => false

/-- `Map.put/3` with a string key. -/
def put (key : String) (v : Value) : Entries → Entries
  | [] => [(.str key, v)]
  | e :: rest =>
      if e.1.isStr key then (.str key, v) :: rest
      else if e.1.isAfter key then (.str key, v) :: e :: rest
      else e :: put key v rest

/-- A map or `nil`: what `term[key]` can read. -/
def readable : Value → Bool
  | .map _ | .null => true
  | _ => false

/-- The term is a text. -/
def isText : Value → Bool
  | .str _ => true
  | _ => false

@[simp] theorem Value.isStr_str (s t : String) : (Value.str t).isStr s = (t == s) := rfl

theorem Value.isStr_iff {s : String} {v : Value} : v.isStr s = true ↔ v = .str s := by
  cases v <;> simp [isStr]

theorem get_cons (key : String) (e : Value × Value) (m : Entries) :
    get key (e :: m) = if e.1.isStr key then some e.2 else get key m := by
  unfold get
  rw [List.find?_cons]
  cases e.1.isStr key <;> rfl

theorem get_put_self (key : String) (v : Value) (m : Entries) :
    get key (put key v m) = some v := by
  induction m with
  | nil => simp [put, get_cons]
  | cons e m ih =>
    unfold put
    split
    · simp [get_cons]
    · rename_i hne
      split
      · simp [get_cons]
      · rw [get_cons, if_neg hne, ih]

theorem get_put_of_ne {key key' : String} (v : Value) (m : Entries) (hne : key' ≠ key) :
    get key' (put key v m) = get key' m := by
  have hskip : (Value.str key).isStr key' = false := by simpa using hne.symm
  induction m with
  | nil => simp [put, get_cons, hskip]
  | cons e m ih =>
    unfold put
    split
    · rename_i he
      have hother : e.1.isStr key' = false := by rw [Value.isStr_iff.mp he, hskip]
      simp [get_cons, hskip, hother]
    · split
      · simp [get_cons, hskip]
      · rw [get_cons, get_cons, ih]

/-! ## The writer -/

namespace Writer

/-- Why `encode/1` gives no text: a map key that `to_string/1` has no text for
raises, and a scalar position holding a map or a list throws. -/
inductive EncodeError where
  | raised
  | unsupportedType (v : Value)

/-- `List.to_string/1`: code points, binaries and nested lists of these. -/
def charsToString : List Value → Option String
  | [] => some ""
  | .int n :: rest =>
      if 0 ≤ n ∧ n.toNat.isValidChar then
        (charsToString rest).map fun s => String.singleton (Char.ofNat n.toNat) ++ s
      else none
  | .str t :: rest => (charsToString rest).map fun s => t ++ s
  | .list l :: rest => (charsToString l).bind fun t => (charsToString rest).map fun s => t ++ s
  | _ :: _ => none

/-- `to_string/1`, with `none` where it raises. -/
def toStr : Value → Option String
  | .null => some ""
  | .bool b => some (if b then "true" else "false")
  | .int n => some (toString n)
  | .float text => some text
  | .str s => some s
  | .list l => charsToString l
  | .map _ => none

/-- `to_string/1` has a text for the term. -/
def hasText (v : Value) : Bool := (toStr v).isSome

/-- `Regex.match?(~r/^[0-9]+$/, s)`. -/
def allDigits (s : String) : Bool :=
  let ds := chompNewline s.toList
  !ds.isEmpty && ds.all fun c => '0' ≤ c && c ≤ '9'

/-- The text between double quotes. -/
def quoted (s : String) : String := "\"" ++ s ++ "\""

/-- `String.replace(s, "\"", "\\\"")`. -/
def escapeQuotes (s : String) : String :=
  String.ofList (s.toList.flatMap fun c => if c = '"' then ['\\', '"'] else [c])

/-- `encode_scalar/1` on a string. -/
def encodeString (s : String) : String :=
  if s = "" then "\"\""
  else if allDigits s then quoted s
  else if s ∈ ["true", "false", "null", "yes", "no", "on", "off"] then quoted s
  else if s.toList.any ":#\"\n'".toList.contains then quoted (escapeQuotes s)
  else if (s.toList.take 1).any "-*&!%@`|>[\x7b?".toList.contains then quoted s
  else s

/-- `encode_scalar/1`. -/
def encodeScalar : Value → Except EncodeError String
  | .null => .ok "null"
  | .bool b => .ok (if b then "true" else "false")
  | .int n => .ok (toString n)
  | .float text => .ok text
  | .str s => .ok (encodeString s)
  | v => .error (.unsupportedType v)

/-- `pad/1`. -/
def pad (n : Nat) : String := String.ofList (List.replicate n ' ')

/-- `Enum.sort_by(fn {k, _} -> to_string(k) end)` on lines that carry their key. -/
def sortLines (lines : List (String × Except EncodeError String)) :
    List (String × Except EncodeError String) :=
  lines.insertionSort fun a b => a.1 ≤ b.1

/-- What `emit/2` puts for an entry of a map; `inner` is the text of the value. -/
def entryText (indent : Nat) (k v : Value) (inner : Except EncodeError String) :
    Except EncodeError String := do
  let key ← encodeScalar k
  match v with
  | .map [] => return pad indent ++ key ++ ": {}"
  | .list [] => return pad indent ++ key ++ ": []"
  | .map _ | .list _ => return pad indent ++ key ++ ":\n" ++ (← inner)
  | _ => return pad indent ++ key ++ ": " ++ (← encodeScalar v)

/-- What `emit/2` puts for an element of a list; `inner` is the element's text. -/
def itemText (indent : Nat) (item : Value) (inner : Except EncodeError String) :
    Except EncodeError String := do
  match item with
  | .map _ | .list _ => return pad indent ++ "- " ++ trimLeading (← inner)
  | _ => return pad indent ++ "- " ++ (← encodeScalar item)

mutual

/-- `emit/2`. -/
def emit (indent : Nat) : Value → Except EncodeError String
  | .map entries => do
      let lines ← emitEntries indent entries
      let texts ← (sortLines lines).mapM Prod.snd
      return "\n".intercalate texts
  | .list [] => .ok "[]"
  | .list elems => do return "\n".intercalate (← emitItems indent elems)
  | v => do return pad indent ++ (← encodeScalar v)

/-- The entries' texts, each beside the text its key sorts by.  All keys are
turned into sort texts before any entry is emitted. -/
def emitEntries (indent : Nat) :
    Entries → Except EncodeError (List (String × Except EncodeError String))
  | [] => .ok []
  | (k, v) :: rest =>
      match toStr k with
      | none => .error .raised
      | some name => do
          return (name, entryText indent k v (emit (indent + 2) v)) :: (← emitEntries indent rest)

/-- The elements' texts. -/
def emitItems (indent : Nat) : List Value → Except EncodeError (List String)
  | [] => .ok []
  | item :: rest => do
      let text ← itemText indent item (emit (indent + 2) item)
      return text :: (← emitItems indent rest)

end

/-- `encode/1`. -/
def encode (data : Value) : Except EncodeError String := do return (← emit 0 data) ++ "\n"

end Writer
end Yaml
end Esr
