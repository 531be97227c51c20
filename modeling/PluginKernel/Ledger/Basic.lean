import PluginKernel.Ledger.Statistic
import PluginKernel.Log

/-!
# Ledgers

A ledger is the timeline of one run: statistics in the order they were recorded. It only grows.
Entries are logged in one of two ways: each when it is recorded, if the ledger logs as it goes, or
all of them whenever the ledger is finished. What an operation logs is a function beside it, so that
the ledger itself stays a plain value.
-/

namespace PluginKernel

/-- The timeline of one run. -/
structure Ledger where
  /-- The name under which the ledger is delivered. -/
  name : String
  /-- The reading of the clock, in nanoseconds, when the ledger was opened. -/
  opened : Nat
  /-- Whether entries are logged as they are recorded. -/
  logsEntries : Bool
  /-- The entries, oldest first. -/
  statistics : List Statistic
  /-- Whether the ledger has been finished. -/
  finished : Bool
deriving DecidableEq

/-- The place in a timeline that a failure is charged to. -/
structure Milestone where
  flowGroup : String
  flowName : String
  stateName : String
  /-- The short code of the state. -/
  stateCode : String
deriving DecidableEq, Repr

namespace Statistic

/-- The place of a statistic in its timeline. -/
def milestone (s : Statistic) : Milestone := ⟨s.flowGroup, s.flowName, s.stateName, s.stateCode⟩

/-- The line that a statistic is logged with. -/
def logEvent (ledger : String) (s : Statistic) : LogEvent where
  severity := if s.isFailure then .warn else .info
  message := s.flowName ++ "-" ++ s.stateName
  fields := [("ledger", ledger), ("flow_group", s.flowGroup), ("state_code", s.stateCode),
    ("elapsed", s.timeSplit)]

end Statistic

namespace Ledger

/-- A ledger without entries, opened at a reading of the clock. -/
def new (name : String) (logsEntries : Bool) (now : Nat) : Ledger :=
  ⟨name, now, logsEntries, [], false⟩

/-- The number of entries. -/
def size (l : Ledger) : Nat := l.statistics.length

/-- Append an entry. -/
def push (l : Ledger) (s : Statistic) : Ledger := { l with statistics := l.statistics ++ [s] }

/-- What recording an entry logs. -/
def pushEvents (l : Ledger) (s : Statistic) : List LogEvent :=
  if l.logsEntries then [s.logEvent l.name] else []

/-- The time since the ledger was opened. A time too long for a duration counts as the longest. -/
def elapsed (l : Ledger) (now : Nat) : Duration :=
  (Duration.ofNanos? ((now - l.opened : Nat) : Int)).getD Duration.longest

/-- The place of the last entry, to which a failure is charged. -/
def lastMilestone? (l : Ledger) : Option Milestone := l.statistics.getLast?.map Statistic.milestone

/-- Mark the ledger as finished. -/
def finish (l : Ledger) : Ledger := { l with finished := true }

/-- What finishing a ledger logs: all entries, unless they have been logged one by one. -/
def finishEvents (l : Ledger) : List LogEvent :=
  if l.logsEntries then [] else l.statistics.map (Statistic.logEvent l.name)

/-- Give the ledger another name. -/
def rename (l : Ledger) (name : String) : Ledger := { l with name := name }

@[simp] theorem statistics_push (l : Ledger) (s : Statistic) :
    (l.push s).statistics = l.statistics ++ [s] := rfl

@[simp] theorem statistics_finish (l : Ledger) : l.finish.statistics = l.statistics := rfl

@[simp] theorem lastMilestone?_push (l : Ledger) (s : Statistic) :
    (l.push s).lastMilestone? = some s.milestone := by simp [lastMilestone?, push]

end Ledger

end PluginKernel
