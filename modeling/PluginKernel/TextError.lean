import PluginKernel.Ledger.Error
import PluginKernel.Plugin.Error

/-!
# Failures in context

A failure that comes from below is passed on with a text in front that says what was being done. An
absence becomes a failure with that text.
-/

namespace PluginKernel

/-- A type of failures that can carry any text. -/
class TextError (ε : Type) where
  /-- The failure with a text. -/
  ofText : String → ε

instance : TextError ConfigError := ⟨.other⟩
instance : TextError StatisticError := ⟨.other⟩
instance : TextError TlsError := ⟨.other⟩
instance : TextError PluginError := ⟨.other⟩

/-- Say what was being done when a failure with a text occurred. -/
def inContext {ε α : Type} [TextError ε] (context : String) : Except String α → Except ε α
  | .ok a => .ok a
  | .error cause => .error (TextError.ofText (context ++ ": " ++ cause))

/-- Say what was being done when nothing was found. -/
def presentIn {ε α : Type} [TextError ε] (context : String) : Option α → Except ε α
  | some a => .ok a
  | none => .error (TextError.ofText context)

end PluginKernel
