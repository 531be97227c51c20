import PluginKernel.Assoc
import PluginKernel.Binary64.Shortest
import PluginKernel.Text.Quoted

/-!
# Structured values

The values that configuration blocks, stored records and messages are made of. The members of an
object are sorted by name, so equal objects are equal values. A number is whole or binary: `5` and
`5.0` are different values.
-/

namespace PluginKernel

/-- A structured value. -/
inductive Json where
  /-- The absent value. -/
  | null
  /-- A truth value. -/
  | bool (b : Bool)
  /-- A whole number. -/
  | int (n : Int)
  /-- A binary number. -/
  | float (x : Binary64)
  /-- A text. -/
  | str (s : String)
  /-- A list of values. -/
  | arr (items : List Json)
  /-- An object: named members, sorted by name. -/
  | obj (members : List (String × Json))
deriving Inhabited

namespace Json

/-- The object with these members, in any order; of several with one name the last counts. -/
def ofMembers (members : List (String × Json)) : Json := .obj (Assoc.ofList members)

/-- The text of a value that is one. -/
def text? : Json → Option String
  | .str s => some s
  | _ => none

/-- The members of a value that is an object. -/
def members? : Json → Option (Assoc Json)
  | .obj ms => some ms
  | _ => none

/-- What a message calls a value. -/
def describe : Json → String
  | .null => "null"
  | .bool b => "boolean `" ++ (if b then "true" else "false") ++ "`"
  | .int n => "integer `" ++ Text.showInt n ++ "`"
  | .float x => "floating point `" ++ String.ofList x.positional ++ "`"
  | .str s => "string " ++ Text.quote s
  | .arr _ => "sequence"
  | .obj _ => "map"

end Json

end PluginKernel
