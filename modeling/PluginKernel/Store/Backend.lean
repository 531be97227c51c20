import PluginKernel.Store.Faulty
import PluginKernel.Store.Rows
import PluginKernel.Store.Tree

/-!
# The kinds of store

A host keeps its records in memory or in a table. Both answer alike, but for the root: only a table
lists the records that have no directory.
-/

namespace PluginKernel.Store

/-- A store of either kind. -/
inductive Backend where
  | memory (tree : Tree)
  | table (rows : Rows)

namespace Backend

/-- The paths of all records, if the store can tell. -/
def paths? : Backend → Option (List String)
  | .memory tree => some tree.paths
  | .table _ => none

instance : RecordStore Backend where
  write
    | .memory tree, path, record => (RecordStore.write tree path record).map memory
    | .table rows, path, record => (RecordStore.write rows path record).map table
  list
    | .memory tree, path => RecordStore.list tree path
    | .table rows, path => RecordStore.list rows path
  read
    | .memory tree, path => RecordStore.read tree path
    | .table rows, path => RecordStore.read rows path

end Backend

end PluginKernel.Store
