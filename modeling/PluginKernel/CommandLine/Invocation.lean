import PluginKernel.CommandLine.Grammar
import PluginKernel.Plugin.Choices
import PluginKernel.Text.Decimal

/-!
# Invocations

The program has four commands: one names what a plugin needs, one computes the digest of a file, one
runs a plugin for a while, and one shows the statistics that were recorded. Two options, on logging,
may stand in front of a command and behind it.
-/

namespace PluginKernel.CommandLine

/-- How a plugin is to be run. -/
structure RunArguments where
  /-- The name of the plugin. -/
  plugin : String
  /-- The identifier under which statistics are recorded; if there is none, the plugin's name. -/
  argosId : Option String
  /-- A file with the common configuration, which wins over host and port. -/
  config : Option String
  /-- The host to listen on. -/
  host : String
  /-- The port to listen on. -/
  port : UInt16
  /-- Files with the certificate and the key. -/
  credentials : Option (String × String)
  /-- The database for statistics. -/
  database : Option String
  /-- The plugin's file. -/
  artifact : Option String
  /-- The digest that the plugin's file should have. -/
  digest : Option String
  /-- How many seconds the plugin runs; 0 stands for until it is interrupted. -/
  holdSeconds : Nat
deriving DecidableEq, Repr

/-- Which statistics are to be shown. -/
structure StatsArguments where
  database : String
  /-- The identifier under which they were recorded. -/
  argosId : String
  flow : String
  flowGroup : String
  /-- The path that all records are below. -/
  basePath : String
  /-- The name of the identifier. -/
  idName : String
deriving DecidableEq, Repr

/-- What the program is asked to do. -/
inductive Invocation where
  /-- Name what a plugin needs. -/
  | paths (plugin : String)
  /-- Compute the digest of a file. -/
  | digest (artifact : String)
  /-- Run a plugin. -/
  | run (a : RunArguments)
  /-- Show statistics. -/
  | stats (a : StatsArguments)
deriving DecidableEq, Repr

namespace Invocation

/-- A path has at least one character. -/
def isPath (s : String) : Bool := !s.isEmpty

/-- The port that a text spells. -/
def port? (s : String) : Option UInt16 :=
  match Text.readInt64 s.toList with
  | .ok n => if 0 ≤ n.toInt && n.toInt ≤ 65535 then some (UInt16.ofNat n.toInt.toNat) else none
  | .error _ => none

/-- The number of seconds that a text spells. -/
def seconds? (s : String) : Option Nat :=
  let digits := match s.toList with
    | '+' :: rest => rest
    | cs => cs
  if digits.isEmpty || !digits.all Text.isDigit then none
  else if Text.digitsValue digits ≤ Text.uint64Max then some (Text.digitsValue digits)
  else none

/-- The options that every command has. -/
def sharedRules : List OptionRule :=
  [{ name := "log-level" }, { name := "json-logs", takesValue := false }]

/-- The options of running a plugin. -/
def runRules : List OptionRule :=
  sharedRules ++
    [{ name := "plugin" }, { name := "argos-id" }, { name := "config", accepts := isPath },
      { name := "host" }, { name := "port", accepts := fun s => (port? s).isSome },
      { name := "cert", accepts := isPath, companion := some "key" },
      { name := "key", accepts := isPath, companion := some "cert" },
      { name := "db", accepts := isPath }, { name := "artifact", accepts := isPath },
      { name := "sha256", companion := some "artifact" },
      { name := "hold-secs", accepts := fun s => (seconds? s).isSome }]

/-- The options of showing statistics. -/
def statsRules : List OptionRule :=
  sharedRules ++
    [{ name := "db", accepts := isPath, isRequired := true },
      { name := "argos-id", isRequired := true }, { name := "flow", isRequired := true },
      { name := "flow-group" }, { name := "base-path" }, { name := "id-name" }]

/-- The words behind a command. -/
def readWords (rules : List OptionRule) (words : List String) : Except UsageError Words := do
  let w ← Words.read rules false {} words
  w.check rules
  pure w

/-- The arguments of running a plugin. -/
def readRun (words : List String) : Except UsageError RunArguments := do
  let w ← readWords runRules words
  w.noArgument
  pure
    { plugin := (w.value? "plugin").getD "healthcheck"
      argosId := w.value? "argos-id"
      config := w.value? "config"
      host := (w.value? "host").getD "127.0.0.1"
      port := ((w.value? "port").bind port?).getD 0
      credentials :=
        match w.value? "cert", w.value? "key" with
        | some cert, some key => some (cert, key)
        | _, _ => none
      database := w.value? "db"
      artifact := w.value? "artifact"
      digest := w.value? "sha256"
      holdSeconds := ((w.value? "hold-secs").bind seconds?).getD 0 }

/-- The arguments of showing statistics. -/
def readStats (words : List String) : Except UsageError StatsArguments := do
  let w ← readWords statsRules words
  w.noArgument
  pure
    { database := (w.value? "db").getD ""
      argosId := (w.value? "argos-id").getD ""
      flow := (w.value? "flow").getD ""
      flowGroup := (w.value? "flow-group").getD "System"
      basePath := (w.value? "base-path").getD FilingPlace.usualBasePath
      idName := (w.value? "id-name").getD FilingPlace.usualIdName }

/-- The names of all commands. -/
def commands : List String := ["paths", "digest", "run", "stats"]

/-- What a command is asked to do. -/
def readCommand (command : String) (words : List String) : Except UsageError Invocation :=
  match command with
  | "paths" => do
    let w ← readWords sharedRules words
    return .paths (← w.onlyArgument fun _ => true)
  | "digest" => do
    let w ← readWords sharedRules words
    return .digest (← w.onlyArgument isPath)
  | "run" => return .run (← readRun words)
  | "stats" => return .stats (← readStats words)
  | "help" =>
    match words with
    | [] => throw .help
    | word :: _ => throw (if commands.contains word then .help else .unknownCommand word)
  | word => throw (.unknownCommand word)

/-- What a command line asks the program to do. -/
def read (words : List String) : Except UsageError Invocation := do
  let w ← Words.read sharedRules true {} words
  match w.arguments with
  | [] => throw .noCommand
  | command :: rest => readCommand command rest

end Invocation

end PluginKernel.CommandLine
