import Mathlib.Data.List.Sort
import Mathlib.Data.Rat.Defs
import Esr.Fallible

/-! # What a Python handler can hand back

The objects a handler may return, as far as the worker that called it looks at them,
and the exceptions it may raise.  An object of no built-in kind is what the worker
asks of it: whether it has a `model_dump` and what that gives, and what running over
it gives.

`_to_json_native` makes lists of the sets in a state.  It runs through lists, tuples
and dicts, and leaves what is in a set as it is: `encodable_toJsonNative_iff` says
which states come out as JSON.
-/
namespace Esr

/-- An exception: the name of its class, whether that is a subclass of `Exception`,
and what `str` gives.  `mute` is one whose `__str__` raises. -/
inductive Raised where
  | spoken (cls : String) (isException : Bool) (message : String)
  | mute (cls : String) (isException : Bool) (why : Raised)

namespace Raised

/-- `type(exc).__name__`. -/
def cls : Raised → String
  | spoken cls _ _ | mute cls _ _ => cls

/-- `except Exception` catches it. -/
def isException : Raised → Bool
  | spoken _ b _ | mute _ b _ => b

/-- `str(exc)`. -/
def text : Raised → Except Raised String
  | spoken _ _ message => .ok message
  | mute _ _ why => .error why

end Raised

/-- A `KeyError` for the key, whose text is the key's `repr`. -/
def keyError (key : String) : Raised := .spoken "KeyError" true ("'" ++ key ++ "'")

def typeError (message : String) : Raised := .spoken "TypeError" true message

def attributeError (message : String) : Raised := .spoken "AttributeError" true message

def valueError (message : String) : Raised := .spoken "ValueError" true message

/-- `Emit`, `Route`, `InvokeCommand`, `Reply` and `SendInput`.  The first and the third
have put their dict in a `MappingProxyType`; no other field is checked. -/
inductive Action (V : Type) where
  | emit (adapter action : V) (args : List (V × V))
  | route (target msg : V)
  | invokeCommand (name : V) (params : List (V × V))
  | reply (text replyToMessageId : V)
  | sendInput (text : V)

/-- An object.  A set, frozen or not, has its elements in the order it is run
through; a float is a finite one, and any other is an object of its own. -/
inductive Py where
  | none
  | bool (b : Bool)
  | int (n : Int)
  | float (value : Rat)
  | str (s : String)
  | list (elems : List Py)
  | tuple (elems : List Py)
  | set (elems : List Py)
  | dict (entries : List (Py × Py))
  | action (a : Action Py)
  | object (cls : String) (modelDump : Option (Except Raised (List (Py × Py))))
      (iter : Option (List Py × Option Raised))

namespace Py

/-- `type(v).__name__`. -/
def className : Py → String
  | none => "NoneType"
  | bool _ => "bool"
  | int _ => "int"
  | float _ => "float"
  | str _ => "str"
  | list _ => "list"
  | tuple _ => "tuple"
  | set _ => "set"
  | dict _ => "dict"
  | action (.emit ..) => "Emit"
  | action (.route ..) => "Route"
  | action (.invokeCommand ..) => "InvokeCommand"
  | action (.reply ..) => "Reply"
  | action (.sendInput _) => "SendInput"
  | object cls _ _ => cls

/-- What running over the object gives, and the exception it ends in; `none` for an
object that cannot be run over. -/
def iterate : Py → Option (List Py × Option Raised)
  | list elems | tuple elems | set elems => some (elems, .none)
  | dict entries => some (entries.map Prod.fst, .none)
  | str s => some (s.toList.map fun c => str (String.singleton c), .none)
  | object _ _ iter => iter
  | _ => .none

/-- A scalar of JSON. -/
def isScalar : Py → Bool
  | none | bool _ | int _ | float _ | str _ => true
  | _ => false

/-- The object is this text. -/
def isKey (key : String) : Py → Bool
  | str s => s == key
  | _ => false

/-! ## `_to_json_native` -/

section
variable (str : Py → Except Raised String)

/-- `sorted(value, key=str)`. -/
def sortedByStr (elems : List Py) : Except Raised (List Py) := do
  let keys ← elems.mapM str
  return ((keys.zip elems).mergeSort fun a b => decide (a.1 ≤ b.1)).map Prod.snd

mutual

/-- `_to_json_native`. -/
def toJsonNative : Py → Except Raised Py
  | set elems => do return list (← sortedByStr str elems)
  | dict entries => do return dict (← entriesToJsonNative entries)
  | list elems => do return list (← elemsToJsonNative elems)
  | tuple elems => do return list (← elemsToJsonNative elems)
  | v => .ok v

def elemsToJsonNative : List Py → Except Raised (List Py)
  | [] => .ok []
  | v :: rest => do
      let v' ← toJsonNative v
      return v' :: (← elemsToJsonNative rest)

def entriesToJsonNative : List (Py × Py) → Except Raised (List (Py × Py))
  | [] => .ok []
  | (k, v) :: rest => do
      let v' ← toJsonNative v
      return (k, v') :: (← entriesToJsonNative rest)

end

end

/-! ## Which objects are JSON -/

mutual

/-- `json.dumps` takes it. -/
def Encodable : Py → Prop
  | list elems | tuple elems => ElemsEncodable elems
  | dict entries => EntriesEncodable entries
  | v => v.isScalar = true

def ElemsEncodable : List Py → Prop
  | [] => True
  | v :: rest => v.Encodable ∧ ElemsEncodable rest

def EntriesEncodable : List (Py × Py) → Prop
  | [] => True
  | (k, v) :: rest => k.isScalar = true ∧ v.Encodable ∧ EntriesEncodable rest

end

mutual

/-- Built from sets, tuples, lists and dicts of scalars. -/
def Plain : Py → Prop
  | list elems | tuple elems | set elems => ElemsPlain elems
  | dict entries => EntriesPlain entries
  | v => v.isScalar = true

def ElemsPlain : List Py → Prop
  | [] => True
  | v :: rest => v.Plain ∧ ElemsPlain rest

def EntriesPlain : List (Py × Py) → Prop
  | [] => True
  | (k, v) :: rest => k.Plain ∧ v.Plain ∧ EntriesPlain rest

end

mutual

/-- The keys are scalars, and a set holds only what is JSON as it is: no set, and no
tuple that holds one. -/
def SetsFlat : Py → Prop
  | list elems | tuple elems => ElemsSetsFlat elems
  | set elems => ElemsEncodable elems
  | dict entries => EntriesSetsFlat entries
  | v => v.isScalar = true

def ElemsSetsFlat : List Py → Prop
  | [] => True
  | v :: rest => v.SetsFlat ∧ ElemsSetsFlat rest

def EntriesSetsFlat : List (Py × Py) → Prop
  | [] => True
  | (k, v) :: rest => k.isScalar = true ∧ v.SetsFlat ∧ EntriesSetsFlat rest

end

mutual

/-- The elements of the sets met on the way have a text to be sorted by. -/
def Sortable (str : Py → Except Raised String) : Py → Prop
  | list elems | tuple elems => ElemsSortable str elems
  | set elems => ∀ v ∈ elems, ∃ text, str v = .ok text
  | dict entries => EntriesSortable str entries
  | _ => True

def ElemsSortable (str : Py → Except Raised String) : List Py → Prop
  | [] => True
  | v :: rest => v.Sortable str ∧ ElemsSortable str rest

def EntriesSortable (str : Py → Except Raised String) : List (Py × Py) → Prop
  | [] => True
  | (_, v) :: rest => v.Sortable str ∧ EntriesSortable str rest

end

/-! ## Lists of objects -/

theorem elemsEncodable_iff {elems : List Py} : ElemsEncodable elems ↔ ∀ v ∈ elems, v.Encodable := by
  induction elems with
  | nil => simp [ElemsEncodable]
  | cons v rest ih => rw [ElemsEncodable, ih, List.forall_mem_cons]

theorem entriesEncodable_iff {entries : List (Py × Py)} :
    EntriesEncodable entries ↔ ∀ e ∈ entries, e.1.isScalar = true ∧ e.2.Encodable := by
  induction entries with
  | nil => simp [EntriesEncodable]
  | cons e rest ih => rw [EntriesEncodable, ih, List.forall_mem_cons, and_assoc]

variable {str : Py → Except Raised String}

theorem sortedByStr_perm {elems sorted : List Py} (h : sortedByStr str elems = .ok sorted) :
    sorted.Perm elems := by
  obtain ⟨keys, hkeys, he⟩ := bind_eq_ok.mp h
  obtain rfl := Except.ok.inj he
  have hlen : keys.length = elems.length := (mapM_eq_ok.mp hkeys).length_eq.symm
  calc
    (((keys.zip elems).mergeSort fun a b => decide (a.1 ≤ b.1)).map Prod.snd).Perm
        ((keys.zip elems).map Prod.snd) := (List.mergeSort_perm _ _).map _
    _ = elems := List.map_snd_zip hlen.ge

theorem exists_sortedByStr {elems : List Py} :
    (∃ sorted, sortedByStr str elems = .ok sorted) ↔ ∀ v ∈ elems, ∃ text, str v = .ok text := by
  rw [← exists_mapM_eq_ok]
  constructor
  · rintro ⟨sorted, h⟩
    obtain ⟨keys, hkeys, -⟩ := bind_eq_ok.mp h
    exact ⟨keys, hkeys⟩
  · rintro ⟨keys, hkeys⟩
    exact ⟨_, bind_eq_ok.mpr ⟨keys, hkeys, rfl⟩⟩

/-! ## What comes out -/

mutual

theorem exists_toJsonNative : (v : Py) → ((∃ u, toJsonNative str v = .ok u) ↔ v.Sortable str)
  | set elems => by
    rw [toJsonNative, Sortable, ← exists_sortedByStr]
    exact ⟨fun ⟨u, hu⟩ => (bind_eq_ok.mp hu).imp fun sorted h => h.1,
      fun ⟨sorted, h⟩ => ⟨list sorted, bind_eq_ok.mpr ⟨sorted, h, rfl⟩⟩⟩
  | dict entries => by
    rw [toJsonNative, Sortable, ← exists_entriesToJsonNative entries]
    exact ⟨fun ⟨u, hu⟩ => (bind_eq_ok.mp hu).imp fun _ h => h.1,
      fun ⟨out, h⟩ => ⟨dict out, bind_eq_ok.mpr ⟨out, h, rfl⟩⟩⟩
  | list elems => by
    rw [toJsonNative, Sortable, ← exists_elemsToJsonNative elems]
    exact ⟨fun ⟨u, hu⟩ => (bind_eq_ok.mp hu).imp fun _ h => h.1,
      fun ⟨out, h⟩ => ⟨list out, bind_eq_ok.mpr ⟨out, h, rfl⟩⟩⟩
  | tuple elems => by
    rw [toJsonNative, Sortable, ← exists_elemsToJsonNative elems]
    exact ⟨fun ⟨u, hu⟩ => (bind_eq_ok.mp hu).imp fun _ h => h.1,
      fun ⟨out, h⟩ => ⟨list out, bind_eq_ok.mpr ⟨out, h, rfl⟩⟩⟩
  | .none | .bool _ | .int _ | .float _ | .str _ | .action _ | .object _ _ _ =>
    iff_of_true ⟨_, rfl⟩ trivial

theorem exists_elemsToJsonNative : (elems : List Py) →
    ((∃ out, elemsToJsonNative str elems = .ok out) ↔ ElemsSortable str elems)
  | [] => iff_of_true ⟨[], rfl⟩ trivial
  | v :: rest => by
    rw [elemsToJsonNative, ElemsSortable, ← exists_toJsonNative v, ← exists_elemsToJsonNative rest]
    constructor
    · rintro ⟨out, h⟩
      obtain ⟨u, hu, hrest⟩ := bind_eq_ok.mp h
      obtain ⟨out', hout, -⟩ := bind_eq_ok.mp hrest
      exact ⟨⟨u, hu⟩, out', hout⟩
    · rintro ⟨⟨u, hu⟩, out, hout⟩
      exact ⟨u :: out, bind_eq_ok.mpr ⟨u, hu, bind_eq_ok.mpr ⟨out, hout, rfl⟩⟩⟩

theorem exists_entriesToJsonNative : (entries : List (Py × Py)) →
    ((∃ out, entriesToJsonNative str entries = .ok out) ↔ EntriesSortable str entries)
  | [] => iff_of_true ⟨[], rfl⟩ trivial
  | (k, v) :: rest => by
    rw [entriesToJsonNative, EntriesSortable, ← exists_toJsonNative v,
      ← exists_entriesToJsonNative rest]
    constructor
    · rintro ⟨out, h⟩
      obtain ⟨u, hu, hrest⟩ := bind_eq_ok.mp h
      obtain ⟨out', hout, -⟩ := bind_eq_ok.mp hrest
      exact ⟨⟨u, hu⟩, out', hout⟩
    · rintro ⟨⟨u, hu⟩, out, hout⟩
      exact ⟨(k, u) :: out, bind_eq_ok.mpr ⟨u, hu, bind_eq_ok.mpr ⟨out, hout, rfl⟩⟩⟩

end

mutual

theorem encodable_toJsonNative_iff : (v : Py) → {u : Py} → toJsonNative str v = .ok u →
    (u.Encodable ↔ v.SetsFlat)
  | set elems, u, h => by
    obtain ⟨sorted, hsorted, he⟩ := bind_eq_ok.mp h
    obtain rfl := Except.ok.inj he
    rw [Encodable, SetsFlat, elemsEncodable_iff, elemsEncodable_iff]
    exact forall_congr' fun v => by rw [(sortedByStr_perm hsorted).mem_iff]
  | dict entries, u, h => by
    obtain ⟨out, hout, he⟩ := bind_eq_ok.mp h
    obtain rfl := Except.ok.inj he
    exact encodable_entriesToJsonNative_iff entries hout
  | list elems, u, h => by
    obtain ⟨out, hout, he⟩ := bind_eq_ok.mp h
    obtain rfl := Except.ok.inj he
    exact encodable_elemsToJsonNative_iff elems hout
  | tuple elems, u, h => by
    obtain ⟨out, hout, he⟩ := bind_eq_ok.mp h
    obtain rfl := Except.ok.inj he
    exact encodable_elemsToJsonNative_iff elems hout
  | .none, _, rfl | .bool _, _, rfl | .int _, _, rfl | .float _, _, rfl | .str _, _, rfl
  | .action _, _, rfl | .object _ _ _, _, rfl => Iff.rfl

theorem encodable_elemsToJsonNative_iff : (elems : List Py) → {out : List Py} →
    elemsToJsonNative str elems = .ok out → (ElemsEncodable out ↔ ElemsSetsFlat elems)
  | [], _, rfl => Iff.rfl
  | v :: rest, out, h => by
    obtain ⟨u, hu, hrest⟩ := bind_eq_ok.mp h
    obtain ⟨out', hout, he⟩ := bind_eq_ok.mp hrest
    obtain rfl := Except.ok.inj he
    rw [ElemsEncodable, ElemsSetsFlat, encodable_toJsonNative_iff v hu,
      encodable_elemsToJsonNative_iff rest hout]

theorem encodable_entriesToJsonNative_iff : (entries : List (Py × Py)) → {out : List (Py × Py)} →
    entriesToJsonNative str entries = .ok out → (EntriesEncodable out ↔ EntriesSetsFlat entries)
  | [], _, rfl => Iff.rfl
  | (k, v) :: rest, out, h => by
    obtain ⟨u, hu, hrest⟩ := bind_eq_ok.mp h
    obtain ⟨out', hout, he⟩ := bind_eq_ok.mp hrest
    obtain rfl := Except.ok.inj he
    rw [EntriesEncodable, EntriesSetsFlat, encodable_toJsonNative_iff v hu,
      encodable_entriesToJsonNative_iff rest hout]

end

end Py
end Esr
