import PluginKernel.CommandLine.Invocation
import PluginKernel.CommandLine.Machine

/-!
# What an invocation leads to

An invocation prints texts, and either succeeds or says what went wrong and, if it was caused by
something else, what that was. A command line that cannot be read fails in a way of its own.
-/

namespace PluginKernel.CommandLine

/-- Why an invocation fails. -/
structure Failure where
  /-- What went wrong. -/
  message : String
  /-- What caused it. -/
  cause : Option String := none
deriving DecidableEq, Repr

namespace Failure

/-- A text with four spaces in front of each line. -/
def indented (s : String) : String :=
  String.ofList (['\n'].intercalate
    ((s.toList.splitOn '\n').map fun line => "    ".toList ++ line))

/-- The text of a failure. -/
def report (f : Failure) : String :=
  "Error: " ++ f.message ++ "\n" ++
    match f.cause with
    | some cause => "\nCaused by:\n" ++ indented cause ++ "\n"
    | none => ""

end Failure

/-- What an invocation leads to. -/
structure Outcome where
  /-- The texts that it prints, each followed by a line break. -/
  output : List String := []
  /-- The texts that it prints about errors, each followed by a line break. -/
  complaints : List String := []
  /-- Why it fails, if it does. -/
  failure : Option Failure := none
deriving DecidableEq, Repr

namespace Outcome

/-- An invocation that fails at once. -/
def failed (message : String) (cause : Option String := none) : Outcome where
  failure := some ⟨message, cause⟩

/-- The number that tells whether an invocation succeeded. -/
def code (o : Outcome) : Nat := if o.failure.isSome then 1 else 0

/-- The lines of some printed texts. -/
def printedLines (texts : List String) : List String :=
  Text.lines (String.join (texts.map (· ++ "\n")))

/-- Everything that is said about errors. -/
def errorText (o : Outcome) : String :=
  String.join (o.complaints.map (· ++ "\n")) ++
    match o.failure with
    | some f => f.report
    | none => ""

end Outcome

/-- The number that stands for a command line that cannot be read. -/
def usageCode : UsageError → Nat
  | .help => 0
  | _ => 2

/-- A database that has been opened. -/
structure OpenDatabase where
  /-- Where it is kept. -/
  database : Store.Database
  rows : Store.Rows

/-- Open a database of statistics. -/
def Machine.openDatabase (m : Machine) (path : String) : Except Failure OpenDatabase := do
  let (database, rows) ←
    (Store.Database.openAt (some Store.Rows.empty) m.databaseAt m.canCreate path).mapError
      fun e => { message := e.message }
  match rows with
  | some rows => pure ⟨database, rows⟩
  | none =>
    throw
      { message := "error returned from database: " ++ notDatabase
        cause := some notDatabase }
where
  /-- What a file that is not a database gives. -/
  notDatabase : String := "(code: 26) file is not a database"

/-- Keep what stands in an open database. -/
def Machine.close (m : Machine) (d : OpenDatabase) : Machine :=
  match d.database with
  | .inMemory => m
  | .file name _ => m.keep name d.rows

end PluginKernel.CommandLine
