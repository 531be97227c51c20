/-!
# Log events

What the kernel tells an operator: a severity, a message and named texts. An event is one line, so
nothing that comes from outside may bring a line break into it.
-/

namespace PluginKernel

/-- How much an event matters. -/
inductive Severity where
  /-- Something happened as it should. -/
  | info
  /-- Something went wrong and was coped with. -/
  | warn
deriving DecidableEq, Repr

/-- One line of the log. -/
structure LogEvent where
  /-- How much it matters. -/
  severity : Severity
  /-- What happened. -/
  message : String
  /-- The circumstances, by name. -/
  fields : List (String × String)
deriving DecidableEq, Repr

namespace LogEvent

/-- An event that reports progress. -/
def info (message : String) (fields : List (String × String) := []) : LogEvent :=
  ⟨.info, message, fields⟩

/-- An event that reports a problem. -/
def warn (message : String) (fields : List (String × String) := []) : LogEvent :=
  ⟨.warn, message, fields⟩

end LogEvent

end PluginKernel
