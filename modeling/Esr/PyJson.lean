import Esr.PyObjects

/-! # JSON in Python

The values `json.loads` gives, and what the code that receives them does to them
without looking at what they are: subscripts, `get`, `dict`, the comparison with a
number.
-/
namespace Esr
namespace PyJson

/-- A JSON value. -/
inductive Json where
  | null
  | bool (b : Bool)
  | int (n : Int)
  | float (value : Rat)
  | str (s : String)
  | list (elems : List Json)
  | object (fields : List (String × Json))

abbrev Fields := List (String × Json)

/-- The value of a key. -/
def get (key : String) (fields : Fields) : Option Json :=
  (fields.find? fun f => f.1 = key).map Prod.snd

namespace Json

/-- `type(v).__name__`. -/
def className : Json → String
  | null => "NoneType"
  | bool _ => "bool"
  | int _ => "int"
  | float _ => "float"
  | str _ => "str"
  | list _ => "list"
  | object _ => "dict"

/-- The value can be the key of a dict. -/
def hashable : Json → Bool
  | list _ | object _ => false
  | _ => true

/-- `v[key]`. -/
def subscript (key : String) : Json → Except Raised Json
  | object fields =>
      match get key fields with
      | some v => .ok v
      | none => .error (keyError key)
  | list _ => .error (typeError "list indices must be integers or slices, not str")
  | str _ => .error (typeError "string indices must be integers, not 'str'")
  | v => .error (typeError ("'" ++ v.className ++ "' object is not subscriptable"))

/-- `v.get(key, default)`. -/
def getMethod (v : Json) (key : String) (default : Json) : Except Raised Json :=
  match v with
  | object fields => .ok ((get key fields).getD default)
  | v => .error (attributeError ("'" ++ v.className ++ "' object has no attribute 'get'"))

/-- What running over the value gives. -/
def elements : Json → Option (List Json)
  | str s => some (s.toList.map fun c => str (String.singleton c))
  | list elems => some elems
  | object fields => some (fields.map fun f => str f.1)
  | _ => none

/-- The elements as the pairs of a dict; `i` counts them. -/
def pairs (i : Nat) : List Json → Except Raised (List (Json × Json))
  | [] => .ok []
  | e :: rest =>
      match e.elements with
      | none => .error (typeError
          ("cannot convert dictionary update sequence element #" ++ toString i ++ " to a sequence"))
      | some [k, v] =>
          if k.hashable then do return (k, v) :: (← pairs (i + 1) rest)
          else .error (typeError ("unhashable type: '" ++ k.className ++ "'"))
      | some elems => .error (valueError
          ("dictionary update sequence element #" ++ toString i ++ " has length " ++
            toString elems.length ++ "; 2 is required"))

/-- `dict(v)`, as the assignments that build it. -/
def toDict : Json → Except Raised (List (Json × Json))
  | object fields => .ok (fields.map fun f => (str f.1, f.2))
  | v =>
      match v.elements with
      | none => .error (typeError ("'" ++ v.className ++ "' object is not iterable"))
      | some elems => pairs 0 elems

/-- `v == n` for an integer. -/
def isInt (n : Int) : Json → Bool
  | bool b => (if b then 1 else 0) == n
  | int m => m == n
  | float q => q == n
  | _ => false

end Json

end PyJson
end Esr
