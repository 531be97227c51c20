import PluginKernel.CommandLine.Outcome
import PluginKernel.Ledger.Storage

/-!
# Showing statistics

The statistics of one flow are read from a database and shown in columns, one line for each. The
database must be there already.
-/

namespace PluginKernel.CommandLine

/-- A text with spaces behind it, up to a width. -/
def padRight (width : Nat) (s : String) : String :=
  String.ofList (s.toList ++ List.replicate (width - s.length) ' ')

/-- The line that shows a statistic. -/
def statsLine (s : Statistic) : String :=
  padRight 6 (if s.isFailure then "FAILED" else "ok") ++ " " ++ padRight 24 s.stateName ++
    " code=" ++ padRight 4 s.stateCode ++ " mode=" ++ Text.showInt s.mode.toInt ++
    " elapsed=" ++ s.timeSplit

namespace StatsArguments

/-- Where the statistics are filed. -/
def filing (a : StatsArguments) : Filing := ⟨a.basePath, a.idName, a.argosId⟩

/-- What is shown of a store. -/
def lines {σ : Type} [RecordStore σ] (a : StatsArguments) (store : σ) : List String :=
  match (Ledger.stored a.filing a.flowGroup a.flow store).1 with
  | [] => ["No statistics recorded for " ++ a.flowGroup ++ "/" ++ a.flow ++ "."]
  | found => found.map statsLine

/-- Show statistics. -/
def execute (a : StatsArguments) (m : Machine) : Machine × Outcome :=
  if !m.exists? a.database then (m, .failed ("database not found: " ++ a.database))
  else
    match m.openDatabase a.database with
    | .error f => (m, { failure := some f })
    | .ok d => (m.close d, { output := a.lines d.rows })

end StatsArguments

end PluginKernel.CommandLine
