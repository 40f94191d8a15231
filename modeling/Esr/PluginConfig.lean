import Mathlib.Logic.Function.Basic
import Esr.YamlUnquoted

/-! # Plugin configuration

`Esr.Plugin.Config`: the configuration of a plugin is merged from three layers, each a file with a
flat map in it.  A key is stored in a layer, or deleted from it, by reading the file, changing
the map and writing the whole of it again, with an encoder that the module brings along.

The reader of YAML is a parameter.  `Safe` says which maps the encoder writes so that they are
read back.
-/
namespace Esr
namespace PluginConfig
open Yaml
open Yaml.Writer (toStr escapeQuotes pad quoted Conforms fragment IsFloatText)

inductive Layer where
  | global
  | user
  | workspace
deriving DecidableEq

/-- A layer with a greater rank takes precedence. -/
def Layer.rank : Layer → Nat
  | global => 0
  | user => 1
  | workspace => 2

/-- The text of each layer's `config.yaml`, if there is one. -/
abbrev Files := Layer → Option String

/-- Why the module raises. -/
inductive Failure where
  | parseError
  | rootNotMap (root : Value)
  | notEncoded

/-- `Map.get/2` with any key. -/
def lookup (k : Value) (m : Entries) : Option Value := (m.find? fun e => e.1 = k).map Prod.snd

/-- `Map.delete/2` with a string key. -/
def delete (key : String) (m : Entries) : Entries := m.filter fun e => !e.1.isStr key

section
variable (read : String → Option Value)

/-- `read_layer/1`. -/
def readLayer : Option String → Except Failure Entries
  | none => .ok []
  | some content =>
      if content = "" then .ok []
      else match read content with
        | some (.map parsed) => .ok parsed
        | some .null => .ok []
        | some other => .error (.rootNotMap other)
        | none => .error .parseError

/-- `merge_layer/2`, the entries of the merged map in no particular order. -/
def mergeLayer (base overlay : Entries) : Entries :=
  base.filter (fun e => (lookup e.1 overlay).isNone) ++ overlay

/-- `resolve/2`. -/
def resolve (files : Files) : Except Failure Entries := do
  let global ← readLayer read (files .global)
  let user ← readLayer read (files .user)
  let workspace ← readLayer read (files .workspace)
  return mergeLayer (mergeLayer global user) workspace

/-! ## The encoder -/

/-- The order in which the runtime goes through the entries of a map: by their keys. -/
structure Enumeration where
  order : {α : Type} → List (Value × α) → List (Value × α)
  perm : ∀ {α : Type} (rows : List (Value × α)), (order rows).Perm rows

variable (enum : Enumeration)

/-- The text of a map from those of its entries. -/
def joined (rows : List (Value × String)) : String :=
  if rows.isEmpty then "\x7b\x7d\n" else "\n".intercalate ((enum.order rows).map Prod.snd) ++ "\n"

/-- What the encoder puts for an entry; `inner` is the text of the value, if it is a map. -/
def entryText (indent : Nat) (k v : Value) (inner : Option String) : Option String := do
  let keyStr := pad (2 * indent) ++ (← toStr k) ++ ":"
  match v with
  | .map _ => return keyStr ++ "\n" ++ (← inner)
  | .str s => return keyStr ++ " " ++ quoted (escapeQuotes s)
  | v => return keyStr ++ " " ++ (← toStr v)

/-- The texts of the entries, each with its key; none if `to_string/1` raises for one of them. -/
def entryTexts (indent : Nat) : Entries → Option (List (Value × String))
  | [] => some []
  | (k, v) :: rest => do
      let inner := match v with
        | .map es => (entryTexts (indent + 1) es).map (joined enum)
        | _ => none
      let text ← entryText indent k v inner
      return (k, text) :: (← entryTexts indent rest)

/-- `yaml_encode/2`. -/
def yamlEncode (indent : Nat) (es : Entries) : Option String :=
  (entryTexts enum indent es).map (joined enum)

/-! ## Changes -/

/-- `update_config_yaml/2`: what is written. -/
def updateConfigYaml (file : Option String) (updater : Entries → Entries) : Except Failure String := do
  let currentCfg ← readLayer read file
  match yamlEncode enum 0 (updater currentCfg) with
  | some yamlContent => return yamlContent
  | none => throw .notEncoded

/-- `store_layer/4`. -/
def storeLayer (l : Layer) (key : String) (value : Value) (files : Files) : Except Failure Files := do
  let yamlContent ← updateConfigYaml read enum (files l) fun cfg => put key value cfg
  return Function.update files l (some yamlContent)

/-- `delete_layer/3`. -/
def deleteLayer (l : Layer) (key : String) (files : Files) : Except Failure Files := do
  let yamlContent ← updateConfigYaml read enum (files l) fun cfg => delete key cfg
  return Function.update files l (some yamlContent)

/-- The values that the encoder is written for. -/
inductive Setting where
  | str (s : String)
  | bool (b : Bool)
  | int (n : Int)

def Setting.value : Setting → Value
  | str s => .str s
  | bool b => .bool b
  | int n => .int n

/-- A call that changes a layer. -/
inductive Change where
  | store (key : String) (setting : Setting)
  | delete (key : String)

namespace Change

def key : Change → String
  | store key _ => key
  | delete key => key

/-- What becomes of the map. -/
def apply : Change → Entries → Entries
  | store key setting => put key setting.value
  | delete key => PluginConfig.delete key

def run (l : Layer) : Change → Files → Except Failure Files
  | store key setting => storeLayer read enum l key setting.value
  | delete key => deleteLayer read enum l key

theorem run_eq (l : Layer) (change : Change) (files : Files) :
    change.run read enum l files =
      (updateConfigYaml read enum (files l) change.apply).map fun yamlContent =>
        Function.update files l (some yamlContent) := by
  cases change with
  | store key setting =>
    have happly : (store key setting).apply = fun cfg => put key setting.value cfg := rfl
    rw [run, storeLayer, happly]
    cases updateConfigYaml read enum (files l) fun cfg => put key setting.value cfg <;> rfl
  | delete key =>
    have happly : (delete key).apply = fun cfg => PluginConfig.delete key cfg := rfl
    rw [run, deleteLayer, happly]
    cases updateConfigYaml read enum (files l) fun cfg => PluginConfig.delete key cfg <;> rfl

end Change

/-! ## Correctness -/

/-- `read_layer/1` accepts every layer. -/
def Accepted (files : Files) : Prop := ∀ m, ∃ es, readLayer read (files m) = .ok es

/-- What `resolve/2` gives for the key: the stored value, unless a layer with precedence sets the
key; or what the other layers give for the deleted key. -/
def Change.Resolved (l : Layer) (files files' : Files) : Change → Prop
  | .store key setting =>
      (∀ m es, l.rank < m.rank → readLayer read (files m) = .ok es → lookup (.str key) es = none) →
        ∃ es, resolve read files' = .ok es ∧ lookup (.str key) es = some setting.value
  | .delete key => ∃ es others, resolve read files' = .ok es ∧
      resolve read (Function.update files l none) = .ok others ∧
        lookup (.str key) es = lookup (.str key) others

/-- The change did what it is for, and nothing else. -/
structure Outcome (l : Layer) (change : Change) (files files' : Files) : Prop where
  resolved : change.Resolved read l files files'
  kept : ∃ es es', readLayer read (files l) = .ok es ∧ readLayer read (files' l) = .ok es' ∧
    ∀ k, k ≠ .str change.key → lookup k es' = lookup k es
  others : ∀ m, m ≠ l → readLayer read (files' m) = readLayer read (files m)

/-- **A correct change** of a layer with this file: whatever the other layers are. -/
def Correct (l : Layer) (change : Change) (file : Option String) : Prop :=
  ∀ files : Files, files l = file → Accepted read files →
    ∃ files', change.run read enum l files = .ok files' ∧ Outcome read l change files files'

end

/-! ## Safe maps -/

/-- The keys are not the same, and the first comes before the second if both are texts. -/
structure Precedes (e e' : Value × Value) : Prop where
  distinct : e.1 ≠ e'.1
  ordered : ∀ s t, e.1 = .str s → e'.1 = .str t → s < t

/-- **A term** that a reader gives: the texts among the keys of a map are in order, and no key is
there twice.  The text of a float is the one that the reader gives for it as well. -/
inductive IsTerm (floatText : String → String) : Value → Prop
  | null : IsTerm floatText .null
  | bool (b : Bool) : IsTerm floatText (.bool b)
  | int (n : Int) : IsTerm floatText (.int n)
  | float (t : String) (ht : IsFloatText t) (hread : floatText t = t) : IsTerm floatText (.float t)
  | str (s : String) : IsTerm floatText (.str s)
  | list (vs : List Value) (h : ∀ v ∈ vs, IsTerm floatText v) : IsTerm floatText (.list vs)
  | map (es : Entries) (horder : es.Pairwise Precedes) (hkeys : ∀ e ∈ es, IsTerm floatText e.1)
      (h : ∀ e ∈ es, IsTerm floatText e.2) : IsTerm floatText (.map es)

/-- The content of a layer. -/
structure Content (floatText : String → String) where
  entries : Entries
  term : IsTerm floatText (.map entries)

/-- The key is a text that is read as itself when it stands as it is. -/
def isKey : Value → Bool
  | .str s => Reader.isBareKey s
  | _ => false

/-- The line of the key separates documents. -/
def isSeparator : Value → Bool
  | .str s => Reader.isMarker ⟨0, s.toList ++ [':']⟩
  | _ => false

/-- Nothing in the text but its quotes has to be escaped. -/
def isUnescaped (s : String) : Bool := s.toList.all fun c => Reader.isJson c && c ≠ '\\'

/-- The value is read back behind its key. -/
inductive SafeValue : Value → Prop
  | null : SafeValue .null
  | bool (b : Bool) : SafeValue (.bool b)
  | int (n : Int) : SafeValue (.int n)
  | float (t : String) : SafeValue (.float t)
  | str (s : String) (h : isUnescaped s = true) : SafeValue (.str s)
  | map (es : Entries) (hne : es ≠ []) (hkeys : ∀ e ∈ es, isKey e.1 = true)
      (h : ∀ e ∈ es, SafeValue e.2) : SafeValue (.map es)

/-- **A safe map**: what the encoder writes of it is read as it. -/
structure Safe (es : Entries) : Prop where
  keys : ∀ e ∈ es, isKey e.1 = true
  separators : ∀ e ∈ es, isSeparator e.1 = false
  values : ∀ e ∈ es, SafeValue e.2

/-- What the encoder writes of the map is a document of the fragment. -/
def Legible (enum : Enumeration) (floatText : String → String) (es : Entries) : Prop :=
  ∃ text v, yamlEncode enum 0 es = some text ∧ Reader.read (fragment floatText) text = some v

end PluginConfig
end Esr
