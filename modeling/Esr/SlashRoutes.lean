import Esr.Ets
import Esr.Yaml

/-! # The slash-route registry

`Esr.Resource.SlashRoute.Registry` keeps two tables: the routes under the slash
texts that call them, and under every kind, slash or internal, the permission it
requires.  `lookup` resolves a text by its longest
prefix, in words, that is a key; `lookupPrefix` says what to answer when there is
none.

The tables are arbitrary here: a kind need not have the permission of the slash
route it belongs to, as internal kinds overwrite the rows of slash kinds.
-/
namespace Esr
open Yaml

/-- An argument of a route; `default` is `null` where there is none. -/
structure ArgSpec where
  name : String
  required : Bool
  default : Value

/-- A route, with the fields the handler reads. -/
structure SlashRoute where
  slash : String
  kind : String
  requiresWorkspaceBinding : Bool
  requiresUserBinding : Bool
  args : List ArgSpec

/-- The two tables.  The row of a kind is its permission, which is what the YAML
file has: `null` for a kind that needs none. -/
structure SlashRegistry where
  slashTable : Ets String SlashRoute
  kindTable : Ets String Value

namespace SlashRegistry
variable (reg : SlashRegistry)

/-- `keys_in_text/1`: the prefixes of the text in words, longest first.  The range
`1..0` of a blank text counts down, so it gives the empty key twice. -/
def keysInText (text : String) : List String :=
  let parts := words (trim text)
  let lengths := if parts = [] then [0, 1] else ((List.range parts.length).map (· + 1)).reverse
  lengths.map fun n => " ".intercalate (parts.take n)

/-- `lookup/1`.  The fallback on the first word finds nothing new, as it is a
prefix; on a blank text the word is `nil`, which is no key. -/
def lookup (text : String) : Option SlashRoute :=
  match (keysInText text).findSome? reg.slashTable.lookup with
  | some route => some route
  | none => (words (trim text)).head?.bind reg.slashTable.lookup

/-- What `lookup_prefix/1` answers. -/
inductive PrefixResult where
  | resourceHelp (resource : Option String)
  | unknownMethod (resource method : String)
  | unknownResource (name : String)
  | noMatch

/-- `__lookup_prefix_known_resource?/1`: some slash route begins with the name.
No two routes have one kind, so `list_slashes/0` drops none. -/
def knownResource (name : String) : Bool :=
  reg.slashTable.tab2list.any fun row => (stripPrefix ("/" ++ name ++ ":") row.2.slash).isSome

/-- `__lookup_prefix_slash_exists?/1`. -/
def slashExists (slash : String) : Bool := (reg.slashTable.lookup slash).isSome

/-- `lookup_prefix/1`. -/
def lookupPrefix (text : String) : PrefixResult :=
  if text = "/" then .resourceHelp none
  else
    match stripPrefix "/" text with
    | none => .noMatch
    | some rest =>
        match splitParts2 ':' ((unicodeWords rest).head?.getD "") with
        | [resource, method] =>
            if method = "help" then
              if reg.knownResource resource then .resourceHelp (some resource)
              else .unknownResource resource
            else if reg.slashExists ("/" ++ resource ++ ":" ++ method) then .noMatch
            else if reg.knownResource resource then .unknownMethod resource method
            else .unknownResource resource
        | [resource] =>
            if reg.slashExists ("/" ++ resource) then .noMatch
            else if reg.knownResource resource then .resourceHelp (some resource)
            else .unknownResource resource
        | _ => .noMatch

/-- `permission_for/1`. -/
def permissionFor (kind : String) : Option Value := reg.kindTable.lookup kind

end SlashRegistry
end Esr
