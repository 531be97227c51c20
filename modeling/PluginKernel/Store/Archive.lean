import PluginKernel.Store.Rows

/-!
# Tables as text

A table is kept in a file as text: a line that says what it is, and then a line for each row, which
is the list of the row's parts as JSON. A text without lines is a table without rows.
-/

namespace PluginKernel.Store

namespace Row

/-- A row as JSON. -/
def encode (r : Row) : Json := .arr [.str r.path, .str r.parent, .str r.name, .str r.record]

/-- The row that a value stands for. -/
def decode? : Json → Option Row
  | .arr [.str path, .str parent, .str name, .str record] => some ⟨path, parent, name, record⟩
  | _ => none

@[simp] theorem decode?_encode (r : Row) : decode? r.encode = some r := rfl

end Row

namespace Rows

/-- The first line of a table. -/
def heading : String := "dataflow_statistics"

/-- A table as text. -/
def encode (t : Rows) : String :=
  heading ++ "\n" ++ String.join (t.rows.map fun r => r.encode.print ++ "\n")

/-- The table that a text stands for. -/
def decode? (text : String) : Option Rows :=
  match Text.lines text with
  | [] => some empty
  | first :: rest =>
    if first = heading then
      (rest.mapM fun line => (Json.parse? line).bind Row.decode?).map Rows.mk
    else none

end Rows

end PluginKernel.Store
