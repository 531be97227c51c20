import PluginKernel.CommandLine.Program
import PluginKernel.Store.Archive

/-!
# Command line

The outermost layer: it reads the files that a command line names, hands them to the program, writes
the databases back, and prints. Certificates and keys are not looked into, so each key fits each
certificate, and those that are made on the spot are placeholders.
-/

namespace PluginKernel.CommandLine

/-- The files that an invocation may read. -/
def namedFiles : Invocation → List String
  | .paths _ => []
  | .digest artifact => [artifact]
  | .run a =>
    a.config.toList ++ a.artifact.toList ++
      (match a.credentials with
        | some (cert, key) => [cert, key]
        | none => [])
  | .stats _ => []

/-- The files that an invocation may read as databases: the path itself and what it leads to. -/
def namedDatabases (i : Invocation) : List String :=
  let path? : Option String := match i with
    | .run a => a.database
    | .stats a => some a.database
    | _ => none
  path?.toList.flatMap fun path =>
    match Store.Database.ofPath path with
    | .ok (.file name _) => [path, name]
    | _ => [path]

/-- A section of PEM text with no particular content. -/
def placeholder (label : String) : String :=
  "-----BEGIN " ++ label ++ "-----\nAAAA\n-----END " ++ label ++ "-----\n"

/-- The machine with the program in a directory, and with no file read yet. -/
def emptyMachine (directory : String) : Machine where
  directory := Machine.steps directory
  certificates _ :=
    ⟨placeholder "CERTIFICATE", placeholder "CERTIFICATE", placeholder "PRIVATE KEY"⟩
  platform := .unconnected { certified := fun _ => some 0, owned := fun _ _ => some 0 }

/-- The bytes of a file, if it can be read. -/
def readFile? (path : String) : IO (Option Text.Bytes) := do
  try
    let bytes ← IO.FS.readBinFile path
    return some bytes.toList
  catch _ => return none

/-- What a file holds as a database, if it holds one. -/
def contentOf (bytes : Text.Bytes) : FileContent :=
  match (Text.ofUtf8? bytes).bind fun cs => Store.Rows.decode? (String.ofList cs) with
  | some rows => .database rows
  | none => .bytes bytes

/-- The path from the root to a place. -/
def pathTo (place : Place) : String := "/" ++ "/".intercalate place

/-- Whether there is a directory at a path. -/
def hasDirectory (path : String) : IO Bool := do
  try
    let _ ← IO.FS.realPath (path ++ "/.")
    return true
  catch _ => return false

/-- Add the directories that a path goes through, as far as they are there. -/
def addDirectories (m : Machine) (path : String) : IO Machine := do
  let steps := Machine.steps path
  let passed := (List.range (steps.length + 1)).map fun n =>
    (steps.take n).foldl Machine.goOn (m.origin path)
  let there ← passed.filterM fun place => hasDirectory (pathTo place)
  return { m with directories := there ++ m.directories }

/-- Add a file to a machine, if it can be read. -/
def addFile (m : Machine) (path : String) : IO Machine := do
  match ← readFile? path with
  | some bytes => return { m with files := (m.place path, .bytes bytes) :: m.files }
  | none => return m

/-- Add the file that holds the database at a path, if it can be read. -/
def addDatabase (m : Machine) (path : String) : IO Machine := do
  match ← readFile? (pathTo (m.place path)) with
  | some bytes => return { m with files := (m.place path, contentOf bytes) :: m.files }
  | none => return m

/-- Write the databases of a machine back. -/
def writeDatabases (m : Machine) : IO Unit :=
  m.files.forM fun (place, content) =>
    match content with
    | .database rows => IO.FS.writeFile (pathTo place) rows.encode
    | .bytes _ => pure ()

/-- Wait for as long as an invocation asks for: some seconds, or until the input ends. -/
def hold (i : Invocation) : IO Unit := do
  match i with
  | .run a =>
    if a.holdSeconds = 0 then
      let _ ← (← IO.getStdin).readToEnd
    else
      IO.sleep (UInt32.ofNat (a.holdSeconds * 1000))
  | _ => pure ()

/-- Run the program and give its exit code. -/
def runProgram (words : List String) : IO UInt32 := do
  match Invocation.read words with
  | .error e =>
    IO.eprintln e.message
    return UInt32.ofNat (usageCode e)
  | .ok i =>
    let m := emptyMachine (← IO.currentDir).toString
    let m ← (namedFiles i ++ namedDatabases i).foldlM addDirectories m
    let m ← (namedFiles i).foldlM addFile m
    let m ← (namedDatabases i).foldlM addDatabase m
    let (m, outcome) := i.execute m
    if outcome.failure.isNone then hold i
    writeDatabases m
    outcome.output.forM IO.println
    IO.eprint outcome.errorText
    return UInt32.ofNat outcome.code

end PluginKernel.CommandLine

/-- The program. -/
def main (words : List String) : IO UInt32 := PluginKernel.CommandLine.runProgram words
