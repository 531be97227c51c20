/-!
# Searching and splitting text

Parts of a text are found by their characters; the first or the last occurrence counts, as the name
of each function says.
-/

namespace PluginKernel.Text

/-- Whether a list occurs in another without a gap. -/
def occursIn {α : Type} [BEq α] (needle : List α) : List α → Bool
  | [] => needle.isEmpty
  | c :: cs => needle.isPrefixOf (c :: cs) || occursIn needle cs

/-- Whether a text occurs in another. -/
def contains (needle hay : String) : Bool := occursIn needle.toList hay.toList

/-- What follows `front` in a list that starts with it. -/
def stripFront? {α : Type} [BEq α] : List α → List α → Option (List α)
  | [], cs => some cs
  | _ :: _, [] => none
  | p :: ps, c :: cs => if p == c then stripFront? ps cs else none

/-- What stands before the first occurrence of a character and, if there is one, what follows
it. -/
def splitFirst (sep : Char) (cs : List Char) : List Char × Option (List Char) :=
  match cs.dropWhile (· != sep) with
  | [] => (cs, none)
  | _ :: rest => (cs.takeWhile (· != sep), some rest)

/-- What stands before the last occurrence of a character, if there is one, and what follows it. -/
def splitLast (sep : Char) (cs : List Char) : Option (List Char) × List Char :=
  match splitFirst sep cs.reverse with
  | (back, none) => (none, back.reverse)
  | (back, some front) => (some front.reverse, back.reverse)

/-- The lines of a text. A line break ends a line, and a carriage return before it does not
count. -/
def lines (text : String) : List String :=
  let parts := text.toList.splitOn '\n'
  let parts := if parts.getLast? == some [] then parts.dropLast else parts
  parts.map fun line => String.ofList (if line.getLast? == some '\r' then line.dropLast else line)

end PluginKernel.Text
