import PluginKernel.Yaml.Cursor

/-!
# Folding lines

Between two words of a scalar that runs over several lines, the white space is folded: one line end
becomes a space, several become all but the first of them, and blanks around them vanish. Without a
line end the blanks are kept. A line or paragraph separator is kept in any case.
-/

namespace PluginKernel.Yaml

/-- The white space behind the last word of a scalar. -/
structure Gap where
  /-- The blanks, as long as no line has ended. -/
  blanks : List Char
  /-- The first line end. -/
  first : List Char
  /-- The further line ends. -/
  further : List Char
  /-- Whether a line has ended. -/
  broken : Bool
deriving DecidableEq, Repr

namespace Gap

/-- No white space. -/
def none : Gap := ⟨[], [], [], false⟩

/-- Add a blank; behind a line end it does not count. -/
def addBlank (g : Gap) (c : Char) : Gap :=
  if g.broken then g else { g with blanks := g.blanks ++ [c] }

/-- Add a line end as it is read. -/
def addBreak (g : Gap) (c : Char) : Gap :=
  if g.broken then { g with further := g.further ++ [c] }
  else { g with blanks := [], first := [c], broken := true }

/-- What the white space is folded to. -/
def folded (g : Gap) : List Char :=
  if g.broken then
    if g.first == ['\n'] then
      if g.further.isEmpty then [' '] else g.further
    else g.first ++ g.further
  else g.blanks

end Gap

end PluginKernel.Yaml
