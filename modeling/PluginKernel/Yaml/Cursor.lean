import PluginKernel.Yaml.Character

/-!
# Positions in a stream

A cursor is a position with the text that follows it. Columns count characters from the last line
end; the index counts all characters.
-/

namespace PluginKernel.Yaml

/-- A position. -/
structure Mark where
  /-- The number of characters before it. -/
  index : Nat
  /-- The number of lines before it. -/
  line : Nat
  /-- The number of characters before it in its line. -/
  column : Nat
deriving DecidableEq, Repr

namespace Mark

/-- The position behind some characters of a line. -/
def right (m : Mark) (n : Nat := 1) : Mark := ⟨m.index + n, m.line, m.column + n⟩

/-- The position behind a line end of so many characters. -/
def down (m : Mark) (n : Nat := 1) : Mark := ⟨m.index + n, m.line + 1, 0⟩

end Mark

/-- A position and the text that follows it. -/
structure Cursor where
  /-- The text. -/
  rest : List Char
  /-- The position. -/
  mark : Mark

namespace Cursor

/-- The cursor behind some characters of a line. -/
def skip (c : Cursor) (n : Nat := 1) : Cursor := ⟨c.rest.drop n, c.mark.right n⟩

/-- The cursor behind the characters of a line that satisfy `p`. -/
def skipWhile (p : Char → Bool) (c : Cursor) : Cursor :=
  ⟨c.rest.dropWhile p, c.mark.right (c.rest.takeWhile p).length⟩

/-- The characters at the front that satisfy `p`, and the cursor behind them. -/
def takeWhile (p : Char → Bool) (c : Cursor) : List Char × Cursor :=
  (c.rest.takeWhile p, c.skipWhile p)

/-- The line end at the front as it is read, if there is one, and the cursor behind it. -/
def takeBreak (c : Cursor) : List Char × Cursor :=
  match c.rest with
  | '\r' :: '\n' :: rest => (['\n'], ⟨rest, c.mark.down 2⟩)
  | d :: rest => if isBreak d then ([breakChar d], ⟨rest, c.mark.down⟩) else ([], c)
  | [] => ([], c)

/-- The cursor behind the line end at the front, if there is one. -/
def skipBreak (c : Cursor) : Cursor := c.takeBreak.2

/-- The cursor behind the blanks and the comment that may close a line. -/
def skipComment (c : Cursor) : Cursor :=
  let c := c.skipWhile isBlank
  if startsWith '#' c.rest then c.skipWhile (!isBreak ·) else c

/-- The cursor behind the rest of a line that holds nothing but blanks and a comment. -/
def finishLine? (c : Cursor) : Option Cursor :=
  let c := c.skipComment
  if startsBreak c.rest then some c.skipBreak else none

end Cursor

end PluginKernel.Yaml
