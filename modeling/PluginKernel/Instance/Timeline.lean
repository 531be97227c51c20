import PluginKernel.Ledger.Basic

/-!
# The timeline of a run

A run is what happens between a start and the next stop. Its ledger opens with the start, then holds
the failures that were reported, and closes with the stop. After each of these the ledger is
finished under the identifier of the plugin, and a copy is sent out.
-/

namespace PluginKernel

namespace Milestone

/-- The group of all milestones of a run. -/
def systemGroup : String := "System"

/-- The start of a run. -/
def startUp (plugin : String) : Milestone := ⟨systemGroup, plugin, "Start up", "1"⟩

/-- The end of a run. -/
def shutdown (plugin : String) : Milestone := ⟨systemGroup, plugin, "Shutdown", "0"⟩

/-- The failure that is charged to a milestone. The name of a milestone is marked as a failure
once. -/
def failed (m : Milestone) : Milestone :=
  if Text.contains Outcome.failureMark m.stateName then m
  else { m with stateName := m.stateName ++ " " ++ Outcome.failureMark }

/-- The statistic that records a milestone. -/
def statistic (m : Milestone) (mode : Int64) (elapsed : Duration) : Statistic :=
  .of m.flowGroup m.flowName m.stateName m.stateCode mode elapsed

end Milestone

namespace Ledger

/-- A ledger with one more milestone, finished under a name. -/
def record (l : Ledger) (name : String) (m : Milestone) (mode : Int64) (now : Nat) : Ledger :=
  ((l.push (m.statistic mode (l.elapsed now))).rename name).finish

/-- What recording a milestone logs. -/
def recordEvents (l : Ledger) (name : String) (m : Milestone) (mode : Int64) (now : Nat) :
    List LogEvent :=
  l.pushEvents (m.statistic mode (l.elapsed now)) ++ (l.record name m mode now).finishEvents

/-- The ledger of a run that starts now. -/
def start (name plugin : String) (now : Nat) : Ledger :=
  (new name false now).record name (.startUp plugin) Outcome.successMode now

/-- What starting a run logs. -/
def startEvents (name plugin : String) (now : Nat) : List LogEvent :=
  (new name false now).recordEvents name (.startUp plugin) Outcome.successMode now

@[simp] theorem statistics_record (l : Ledger) (name : String) (m : Milestone) (mode : Int64)
    (now : Nat) :
    (l.record name m mode now).statistics = l.statistics ++ [m.statistic mode (l.elapsed now)] :=
  rfl

@[simp] theorem size_record (l : Ledger) (name : String) (m : Milestone) (mode : Int64)
    (now : Nat) : (l.record name m mode now).size = l.size + 1 := by simp [size]

end Ledger

end PluginKernel
