import PluginKernel.Ledger.Error
import PluginKernel.Ledger.Statistic

/-!
# Stored statistics

The record of a statistic is an object of five texts and the mode. Its elapsed time is the text of
the duration at storage resolution.

A record that was stored by someone else is accepted if the five texts are there. Its mode may be a
number or a text that spells one, and counts as zero otherwise; a time that cannot be read counts as
none.
-/

namespace PluginKernel

/-- A statistic as it is stored. -/
structure StoredStatistic where
  flowGroup : String
  flowName : String
  stateName : String
  /-- The short code of the state. -/
  stateCode : String
  /-- The elapsed time as text. -/
  timeSplit : String
  /-- A number that says how the state was reached. -/
  mode : Int64
deriving DecidableEq

namespace StoredStatistic

/-- The stored form of a statistic. -/
def ofStatistic (s : Statistic) : StoredStatistic where
  flowGroup := s.flowGroup
  flowName := s.flowName
  stateName := s.stateName
  stateCode := s.stateCode
  timeSplit := s.timeSplit
  mode := s.mode

/-- The statistic that a record stands for. -/
def toStatistic (r : StoredStatistic) : Statistic :=
  .of r.flowGroup r.flowName r.stateName r.stateCode r.mode
    ((Duration.parse? r.timeSplit).getD Duration.zero)

/-- The members of a record, sorted by name. -/
def toMembers (r : StoredStatistic) : Assoc Json :=
  [("flowGroup", .str r.flowGroup), ("flowName", .str r.flowName), ("mode", .int r.mode.toInt),
    ("stateCode", .str r.stateCode), ("stateName", .str r.stateName),
    ("timeSplit", .str r.timeSplit)]

/-- The mode that a value stands for; zero if it stands for none. -/
def modeOf : Json → Int64
  | .int n => (Text.toInt64? n).getD 0
  | .str s =>
    match Text.readInt64 (Text.trimBoth Text.isBlank s.toList) with
    | .ok n => n
    | .error _ => 0
  | _ => 0

/-- The members that must be texts. -/
def textMembers : List String := ["flowGroup", "flowName", "stateName", "stateCode", "timeSplit"]

/-- Whether a member may have this value. -/
def checkMember (name : String) (v : Json) : Except DecodeError Unit :=
  if textMembers.contains name then v.asText.map fun _ => () else .ok ()

/-- The record with these members. -/
def ofMembers? (members : Assoc Json) : Except DecodeError StoredStatistic := do
  Json.checkMembers checkMember members
  let flowGroup ← Json.requiredText "flowGroup" members
  let flowName ← Json.requiredText "flowName" members
  let stateName ← Json.requiredText "stateName" members
  let stateCode ← Json.requiredText "stateCode" members
  let timeSplit ← Json.requiredText "timeSplit" members
  pure ⟨flowGroup, flowName, stateName, stateCode, timeSplit,
    ((Assoc.get? "mode" members).map modeOf).getD 0⟩

/-- The record stored at a path with these members. -/
def read (path : String) (members : Assoc Json) : Except StatisticError StoredStatistic :=
  (ofMembers? members).mapError fun cause => .malformedRecord path (.undecodable cause)

end StoredStatistic

end PluginKernel
