/-!
# The lifecycle lock

Starting and stopping a plugin exclude each other by a lock. Those who ask for it while it is held
wait in line; when it is let go, the first in line holds it at once. The holder may also hand it on.
-/

namespace PluginKernel

/-- A lock and those who wait for it. -/
structure Lock where
  /-- Who holds it. -/
  holder : Option Nat := none
  /-- Who waits for it, first come first. -/
  line : List Nat := []
deriving DecidableEq, Repr

namespace Lock

/-- A lock that nobody holds. -/
def free : Lock := {}

/-- Whether somebody holds the lock. -/
def isHeld (l : Lock) : Bool := l.holder.isSome

/-- Ask for the lock. -/
def ask (l : Lock) (t : Nat) : Lock :=
  match l.holder with
  | none => { l with holder := some t }
  | some _ => { l with line := l.line ++ [t] }

/-- Let go of the lock. -/
def release (l : Lock) : Lock := ⟨l.line.head?, l.line.tail⟩

/-- Hand the lock on to another. -/
def handTo (l : Lock) (t : Nat) : Lock := { l with holder := some t }

end Lock

end PluginKernel
