/-!
# White space and control characters

The two character classes the kernel asks about. *Blank* is Unicode's property `White_Space`: it is
what is stripped from numbers that arrive as text. *Control* is the general category `Cc`: it is
what must not reach a log line from outside.
-/

namespace PluginKernel.Text

/-- The characters with Unicode's property `White_Space`. -/
def isBlank (c : Char) : Bool :=
  let n := c.toNat
  (0x09 ≤ n && n ≤ 0x0D) || n == 0x20 || n == 0x85 || n == 0xA0 || n == 0x1680 ||
    (0x2000 ≤ n && n ≤ 0x200A) || n == 0x2028 || n == 0x2029 || n == 0x202F || n == 0x205F ||
    n == 0x3000

/-- The characters of Unicode's general category `Cc`. -/
def isControl (c : Char) : Bool :=
  let n := c.toNat
  n < 0x20 || (0x7F ≤ n && n ≤ 0x9F)

/-- Drop from both ends of a list the longest run of elements that satisfy `p`. -/
def trimBoth {α : Type} (p : α → Bool) (cs : List α) : List α :=
  ((cs.dropWhile p).reverse.dropWhile p).reverse

/-- Drop from the end of a list the longest run of elements that satisfy `p`. -/
def trimEnd {α : Type} (p : α → Bool) (cs : List α) : List α :=
  (cs.reverse.dropWhile p).reverse

/-- Replace each control character by an underscore, so that a value taken from outside cannot
start a line of its own in a log. -/
def sanitize (s : String) : String :=
  String.ofList (s.toList.map fun c => if isControl c then '_' else c)

end PluginKernel.Text
