import PluginKernel.File
import PluginKernel.Platform
import PluginKernel.Store.Connection
import PluginKernel.Store.Rows
import PluginKernel.Tls.Development

/-!
# The machine that the program runs on

What the program finds on its machine: files and directories, places that other programs listen on,
and what its plugins run on. A file holds bytes, or a database of statistics.

A path is followed step by step, from the root if it begins with a slash and else from the directory
that the program runs in. Empty segments and single dots lead nowhere, and a double dot leads back
by one. Whatever a step is made from must be a directory, so nothing is found behind a directory
that is missing, even if the path leaves it again.

The path of a database is not followed like that. It is read as a text in which a double dot takes
back the step in front of it, whatever there is on the machine, and in which slashes and dots at the
end do not count. So a database may be made at a path at which nothing is found.

Links and permissions are left out. So is what else becomes of a few paths of databases: one that
begins with `file:` is the name of a resource, and one that enters a file as if it were a directory
is refused even if it leaves it again.
-/

namespace PluginKernel.CommandLine

/-- What a file holds. -/
inductive FileContent where
  | bytes (bytes : Text.Bytes)
  /-- A database of statistics. -/
  | database (rows : Store.Rows)

/-- A place on a machine: the names that lead to it from the root. -/
abbrev Place := List String

/-- What the program finds on its machine. -/
structure Machine where
  /-- The files, no two at one place. -/
  files : List (Place × FileContent) := []
  /-- The directory that the program runs in. -/
  directory : Place := []
  /-- Directories that need not have a file in them. -/
  directories : List Place := []
  /-- The places that other programs listen on. -/
  occupied : List Endpoint := []
  /-- Makes certificates for a host. -/
  certificates : String → Tls.DevelopmentCertificates
  /-- What plugins run on. -/
  platform : Platform

namespace Machine

/-- The segments of a path. -/
def segments (path : String) : List String := (path.toList.splitOn '/').map String.ofList

/-- The segments of a path that lead somewhere. -/
def steps (path : String) : List String := (segments path).filter fun s => s != "" && s != "."

/-- Whether a path can only lead to a directory. -/
def endsInDirectory (path : String) : Bool :=
  match (segments path).getLast? with
  | some last => last = "" || last = "." || last = ".."
  | none => true

/-- The place that a path starts from. -/
def origin (m : Machine) (path : String) : Place :=
  if path.toList.head? == some '/' then [] else m.directory

/-- Go on from a place. -/
def goOn (place : Place) (step : String) : Place :=
  if step = ".." then place.dropLast else place ++ [step]

/-- Whether there is a directory at a place if there is no file. -/
def hasDirectory (m : Machine) (place : Place) : Bool :=
  place.isPrefixOf m.directory || m.directories.any place.isPrefixOf ||
    m.files.any fun f => place.isPrefixOf f.1.dropLast

/-- The file at a place. -/
def look (m : Machine) (place : Place) : Except FileError FileContent :=
  match m.files.lookup place with
  | some content => .ok content
  | none => .error (if m.hasDirectory place then .isDirectory else .missing)

/-- Follow some steps from a place. -/
def follow (m : Machine) (place : Place) : List String → Except FileError Place
  | [] => .ok place
  | step :: rest =>
    match m.look place with
    | .ok _ => .error .notDirectory
    | .error .isDirectory => m.follow (goOn place step) rest
    | .error e => .error e

/-- The file that a path leads to if it is followed. -/
def find (m : Machine) (path : String) : Except FileError FileContent :=
  if path.isEmpty then .error .missing
  else do
    let place ← m.follow (m.origin path) (steps path)
    let content ← m.look place
    if endsInDirectory path then .error .notDirectory else .ok content

/-- Whether there is something at a path. -/
def exists? (m : Machine) (path : String) : Bool :=
  match m.find path with
  | .ok _ | .error .isDirectory => true
  | .error _ => false

/-- The bytes of a file. What stands in a database is not looked into here. -/
def readBytes (m : Machine) (path : String) : Except FileError Text.Bytes :=
  (m.find path).map fun
    | .bytes b => b
    | .database _ => []

/-- The place that a path comes to if it is read as a text. -/
def place (m : Machine) (path : String) : Place := (steps path).foldl goOn (m.origin path)

/-- Whether a file can be made for the database at a path. -/
def canCreate (m : Machine) (path : String) : Bool :=
  match m.look (m.place path), m.look (m.place path).dropLast with
  | .error .missing, .error .isDirectory => true
  | _, _ => false

/-- Keep a database in a file. -/
def keep (m : Machine) (path : String) (rows : Store.Rows) : Machine :=
  { m with files := (m.place path, .database rows) :: m.files.filter (·.1 != m.place path) }

/-- The rows in a file, if it holds a database; a file without bytes is an empty one. -/
def rows? : FileContent → Option Store.Rows
  | .database rows => some rows
  | .bytes b => if b.isEmpty then some .empty else none

/-- What a file gives as a database: nothing if there is no file, and no rows if its bytes are not
those of a database. -/
def databaseAt (m : Machine) (path : String) : Option (Option Store.Rows) :=
  (m.files.lookup (m.place path)).map rows?

end Machine

end PluginKernel.CommandLine
