import PluginKernel.Duration.Text
import PluginKernel.Text.Search

/-!
# Statistics

A statistic says that a flow reached a state, and when: the time since its ledger was opened, never
negative. It counts as a failure if its mode says so or its state has a name that contains the word
`Failure`.
-/

namespace PluginKernel

/-- How a state was reached. -/
inductive Outcome where
  /-- As it should be. -/
  | success
  /-- By something going wrong. -/
  | failure
deriving DecidableEq, Repr

namespace Outcome

/-- The mode of a state that was reached as it should be. -/
def successMode : Int64 := 1

/-- The mode of a state that was reached by something going wrong. -/
def failureMode : Int64 := 2

/-- The word by which the name of a state marks a failure. -/
def failureMark : String := "Failure"

/-- The outcome that a mode and the name of a state stand for. -/
def classify (mode : Int64) (stateName : String) : Outcome :=
  if mode == failureMode || Text.contains failureMark stateName then .failure else .success

end Outcome

/-- The moment a flow reached a state. -/
structure Statistic where
  flowGroup : String
  flowName : String
  stateName : String
  /-- The short code of the state, under which it is stored. -/
  stateCode : String
  /-- A number that says how the state was reached. -/
  mode : Int64
  /-- The time since the ledger was opened. -/
  elapsed : Duration
  /-- Time does not run backwards. -/
  elapsed_nonneg : 0 ≤ elapsed.nanos
deriving DecidableEq

namespace Statistic

/-- A statistic with these parts; a negative time counts as none. -/
def of (flowGroup flowName stateName stateCode : String) (mode : Int64) (elapsed : Duration) :
    Statistic where
  flowGroup := flowGroup
  flowName := flowName
  stateName := stateName
  stateCode := stateCode
  mode := mode
  elapsed := elapsed.max Duration.zero
  elapsed_nonneg := by
    unfold Duration.max
    split
    · exact Int.le_refl 0
    · next h => exact Int.not_lt.1 h

/-- How the state was reached. -/
def outcome (s : Statistic) : Outcome := Outcome.classify s.mode s.stateName

/-- Whether the state was reached by something going wrong. -/
def isFailure (s : Statistic) : Bool := s.outcome == .failure

/-- The elapsed time at storage resolution, as text. -/
def timeSplit (s : Statistic) : String := s.elapsed.truncate.format

end Statistic

end PluginKernel
