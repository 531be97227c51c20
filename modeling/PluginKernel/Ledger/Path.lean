import PluginKernel.Text.Blank

/-!
# Where statistics are filed

A ledger is filed under a base path, the name of an identifier and its value. Below that there is a
directory for each flow, with one record for each state code.
-/

namespace PluginKernel

/-- Where the records of a ledger are filed. -/
structure Filing where
  /-- The path that all records are below; slashes at its end do not count. -/
  basePath : String
  /-- The name of the identifier. -/
  idName : String
  /-- The identifier. -/
  id : String
deriving DecidableEq, Repr

namespace Filing

/-- A text without the slashes at its end. -/
def withoutTrailingSlashes (path : String) : String :=
  String.ofList (Text.trimEnd (· == '/') path.toList)

/-- The directory of a flow. -/
def flowDirectory (filing : Filing) (flowGroup flowName : String) : String :=
  withoutTrailingSlashes filing.basePath ++ "/" ++ filing.idName ++ "/" ++ filing.id ++
    "/DataFlowStatistics/DataFlowGroup/" ++ flowGroup ++ "/dataFlowName/" ++ flowName

/-- The record of a state of a flow. -/
def recordPath (filing : Filing) (flowGroup flowName stateCode : String) : String :=
  filing.flowDirectory flowGroup flowName ++ "/" ++ stateCode

end Filing

end PluginKernel
