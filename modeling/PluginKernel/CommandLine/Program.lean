import PluginKernel.CommandLine.Run
import PluginKernel.CommandLine.Stats
import PluginKernel.Sha256

/-!
# The program

What the program does with a command line on a machine.
-/

namespace PluginKernel.CommandLine

namespace Invocation

/-- Compute the digest of a file. -/
def digestOf (artifact : String) (m : Machine) : Outcome :=
  match m.readBytes artifact with
  | .ok bytes => { output := [Sha256.hexDigest bytes ++ "  " ++ artifact] }
  | .error e => .failed e.message

/-- Do what an invocation asks for. -/
def execute (i : Invocation) (m : Machine) : Machine × Outcome :=
  match i with
  | .paths plugin => (m, { output := requiredNames plugin })
  | .digest artifact => (m, digestOf artifact m)
  | .run a => a.execute m
  | .stats a => a.execute m

end Invocation

/-- Do what a command line asks for. -/
def execute (words : List String) (m : Machine) : Except UsageError (Machine × Outcome) :=
  (Invocation.read words).map (·.execute m)

end PluginKernel.CommandLine
