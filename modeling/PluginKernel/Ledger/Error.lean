import PluginKernel.Duration.Text
import PluginKernel.Json.Decode

/-!
# What can go wrong with statistics

The failures of ledgers, stored records and stores.
-/

namespace PluginKernel

/-- Why a stored record is malformed. -/
inductive RecordFault where
  /-- It is a value other than an object. -/
  | notObject
  /-- A member is missing or of the wrong kind. -/
  | undecodable (cause : DecodeError)

/-- The wording of each fault. -/
def RecordFault.message : RecordFault → String
  | .notObject => "stored record is not an object"
  | .undecodable cause => cause.message

/-- What can go wrong with statistics. -/
inductive StatisticError where
  /-- A ledger has no entry yet. -/
  | emptyLedger
  /-- A text is not a duration. -/
  | invalidDuration (input : String)
  /-- A stored record is malformed. -/
  | malformedRecord (path : String) (fault : RecordFault)
  /-- A stored text is not JSON. Where it stops being so is left out. -/
  | notJson
  /-- A store does not answer, or something else went wrong. -/
  | other (message : String)

/-- The wording of each failure. -/
def StatisticError.message : StatisticError → String
  | .emptyLedger => "no dataflow statistic recorded yet"
  | .invalidDuration input => "invalid duration " ++ Text.quote input
  | .malformedRecord path fault =>
    "stored record at " ++ path ++ " is malformed: " ++ fault.message
  | .notJson => "json syntax error"
  | .other message => message

/-- The duration that a text spells. A text that spells none is named in the failure. -/
def Duration.read (s : String) : Except StatisticError Duration :=
  match parse? s with
  | some d => .ok d
  | none => .error (.invalidDuration s)

end PluginKernel
