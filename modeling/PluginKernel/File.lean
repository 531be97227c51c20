/-!
# Reading files

Why a file cannot be read.
-/

namespace PluginKernel

/-- Why a file cannot be read. -/
inductive FileError where
  /-- There is none. -/
  | missing
  | isDirectory
  /-- A file stands where a directory should be. -/
  | notDirectory
deriving DecidableEq, Repr

/-- The wording of each cause. -/
def FileError.message : FileError → String
  | .missing => "No such file or directory (os error 2)"
  | .isDirectory => "Is a directory (os error 21)"
  | .notDirectory => "Not a directory (os error 20)"

end PluginKernel
