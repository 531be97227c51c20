import PluginKernel.Text.Decimal
import PluginKernel.Text.Utf8

/-!
# The characters of YAML

A stream is UTF-8 text without control characters other than tab, line feed, carriage return and
next line. Five characters end a line; a carriage return and a line feed behind it end one line
together. Reading a line end gives a line feed, but the line and paragraph separators are kept.
-/

namespace PluginKernel.Yaml

open Text

/-- The characters that may occur in a stream. -/
def isAllowed (c : Char) : Bool :=
  let n := c.toNat
  n == 0x09 || n == 0x0A || n == 0x0D || (0x20 ≤ n && n ≤ 0x7E) || n == 0x85 ||
    (0xA0 ≤ n && n ≤ 0xFFFD) || 0x10000 ≤ n

/-- The characters of a stream. -/
def characters? (bytes : Bytes) : Option (List Char) :=
  (ofUtf8? bytes).bind fun cs => if cs.all isAllowed then some cs else none

/-- The characters that end a line. -/
def isBreak (c : Char) : Bool :=
  c == '\n' || c == '\r' || c == '\u0085' || c == '\u2028' || c == '\u2029'

/-- The characters that separate words within a line. -/
def isBlank (c : Char) : Bool := c == ' ' || c == '\t'

/-- What a line end is read as. -/
def breakChar (c : Char) : Char := if c == '\u2028' || c == '\u2029' then c else '\n'

/-- Whether a text is at its end, at a line end, or at a blank. -/
def startsBlank : List Char → Bool
  | [] => true
  | c :: _ => isBlank c || isBreak c

/-- Whether a text is at its end or at a line end. -/
def startsBreak : List Char → Bool
  | [] => true
  | c :: _ => isBreak c

/-- Whether a text starts with a character. -/
def startsWith (c : Char) : List Char → Bool
  | [] => false
  | d :: _ => d == c

/-- Whether a text starts with one of some characters. -/
def startsWithAny (cs : List Char) : List Char → Bool
  | [] => false
  | d :: _ => cs.contains d

/-- Whether a text starts with the mark that opens a document. -/
def startsDocument : List Char → Bool
  | '-' :: '-' :: '-' :: rest => startsBlank rest
  | _ => false

/-- Whether a text starts with the mark that closes a document. -/
def endsDocument : List Char → Bool
  | '.' :: '.' :: '.' :: rest => startsBlank rest
  | _ => false

/-- The characters of names: ASCII letters and digits, the underscore and the hyphen. -/
def isNameChar (c : Char) : Bool := c.isAlphanum || c == '_' || c == '-'

/-- The byte order mark. -/
def byteOrderMark : Char := '\ufeff'

end PluginKernel.Yaml
