import PluginKernel.Store.Basic

/-!
# Stores in memory

Records in a map from normalized paths. The children of a path come from the keys that start with it
and a slash. No key starts with a slash, so the root has no children that way.
-/

namespace PluginKernel.Store

/-- A store that lives as long as its process. -/
structure Tree where
  /-- The records by normalized path. -/
  records : Assoc (Assoc Json)

namespace Tree

/-- A store without records. -/
def empty : Tree := ⟨[]⟩

/-- Create or replace a record. -/
def write (t : Tree) (path : String) (record : Assoc Json) : Tree :=
  ⟨Assoc.insert (normalize path) record t.records⟩

/-- The paths of all records, in increasing order. -/
def paths (t : Tree) : List String := Assoc.keys t.records

/-- The children of a path. -/
def list (t : Tree) (path : String) : List String :=
  sortNames (t.paths.filterMap fun key =>
    (Text.stripFront? (normalChars path ++ ['/']) key.toList).map childOf)

/-- The record at a path. -/
def read (t : Tree) (path : String) : Option (Assoc Json) := Assoc.get? (normalize path) t.records

/-- What is written at a path is read at every spelling of it, and nowhere else. -/
theorem read_write (t : Tree) (p q : String) (record : Assoc Json) :
    (t.write p record).read q = if normalize p = normalize q then some record else t.read q :=
  Assoc.get?_insert _ _ _ _

instance : RecordStore Tree where
  write t path record := .ok (t.write path record)
  list t path := .ok (t.list path)
  read t path := .ok (t.read path)

end Tree

end PluginKernel.Store
