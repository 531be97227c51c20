import PluginKernel.Json.Parser
import PluginKernel.Json.Printer
import PluginKernel.Store.Basic
import PluginKernel.Store.Like

/-!
# Stores in a table

One row for each record: its path, the path split at the last slash into parent and name, and the
record as JSON text. The children of a path are the names of the rows it is the parent of, and the
next segments of the parents below it, found by pattern.

Rows may also come from elsewhere, so a path may be unnormalized, a parent and a name need not fit
it, and a text need not be a record. A write to a path that has a row leaves the parent and the name
as they are.

A database may bound the length of its patterns, and then it refuses to list the children of a path
whose pattern is longer. There is no such bound here.
-/

namespace PluginKernel.Store

/-- One row of the table. -/
structure Row where
  /-- The path, the key of the row. -/
  path : String
  /-- The path before its last slash; empty if it has none. -/
  parent : String
  /-- The path behind its last slash. -/
  name : String
  /-- The record as text. -/
  record : String
deriving DecidableEq, Repr

namespace Row

/-- The row of a path, taken as it is. -/
def of (path : List Char) (record : String) : Row :=
  let (parent, name) := Text.splitLast '/' path
  ⟨String.ofList path, String.ofList (parent.getD []), String.ofList name, record⟩

end Row

/-- A table of records. -/
structure Rows where
  /-- The rows, no two with one path. -/
  rows : List Row
deriving DecidableEq, Repr

namespace Rows

/-- A table without rows. -/
def empty : Rows := ⟨[]⟩

/-- Add a row, in place of the one with its path. -/
def put (t : Rows) (row : Row) : Rows := ⟨row :: t.rows.filter (·.path != row.path)⟩

/-- The row of a path. -/
def find? (t : Rows) (path : String) : Option Row := t.rows.find? (·.path = normalize path)

/-- The row of a path once a record is written to it: a row that is there keeps all else. -/
def rowFor (t : Rows) (path record : String) : Row :=
  match t.find? path with
  | some row => { row with record }
  | none => Row.of (normalChars path) record

@[simp] theorem path_rowFor (t : Rows) (path record : String) :
    (t.rowFor path record).path = normalize path := by
  rw [rowFor]
  split
  · next row hrow => simpa using List.find?_some hrow
  · rfl

@[simp] theorem record_rowFor (t : Rows) (path record : String) :
    (t.rowFor path record).record = record := by
  rw [rowFor]
  split <;> rfl

/-- Create or replace a record. -/
def write (t : Rows) (path : String) (record : Assoc Json) : Rows :=
  t.put (t.rowFor path (Json.obj record).print)

theorem rows_write (t : Rows) (path : String) (record : Assoc Json) :
    (t.write path record).rows = t.rowFor path (Json.obj record).print ::
      t.rows.filter (·.path != normalize path) := by
  rw [write, put, path_rowFor]

/-- The children of a path. -/
def list (t : Rows) (path : String) : List String :=
  let parent := normalChars path
  let leaves := (t.rows.filter (·.parent.toList = parent)).map Row.name
  let below := t.rows.filter fun row => like (literalPattern parent ++ ['/', '%']) row.parent.toList
  let directories := below.filterMap fun row =>
    (Text.stripFront? (parent ++ ['/']) row.parent.toList).map fun rest =>
      String.ofList ((Text.splitFirst '/' rest).1 ++ ['/'])
  sortNames (leaves ++ directories)

/-- The record at a path. -/
def read (t : Rows) (path : String) : Except StatisticError (Option (Assoc Json)) :=
  match t.find? path with
  | none => .ok none
  | some row =>
    match Json.parse? row.record with
    | none => .error .notJson
    | some (.obj members) => .ok (some members)
    | some _ => .error (.malformedRecord path .notObject)

instance : RecordStore Rows where
  write t path record := .ok (t.write path record)
  list t path := .ok (t.list path)
  read t path := t.read path

end Rows

end PluginKernel.Store
