import PluginKernel.Yaml.Cursor

/-!
# Block scalars

A block scalar is a run of lines indented deeper than the block that holds it. Its header says
whether lines are kept or folded, how the line ends behind the last line are treated, and possibly
how deep the lines are indented; otherwise the first line that is not empty says so. Folding joins
two lines by a space unless one of them starts with a blank.
-/

namespace PluginKernel.Yaml

open Text

/-- What becomes of the line ends behind the last line. -/
inductive Chomping where
  /-- All are dropped. -/
  | strip
  /-- The first is kept. -/
  | clip
  /-- All are kept. -/
  | keep
deriving DecidableEq, Repr

/-- The header of a block scalar. -/
structure BlockHeader where
  /-- What becomes of the line ends at the end. -/
  chomping : Chomping
  /-- The extra indentation of the lines; zero if it is to be found out. -/
  increment : Nat

/-- The chomping that a character stands for. -/
def chomping? : Char → Option Chomping
  | '+' => some .keep
  | '-' => some .strip
  | _ => none

/-- The chomping at the front of a text, if there is one. -/
def takeChomping (cs : List Char) : Option Chomping :=
  match cs with
  | c :: _ => chomping? c
  | [] => none

/-- The digit at the front of a text, if there is one. -/
def takeIncrement (cs : List Char) : Option Nat :=
  match cs with
  | c :: _ => if isDigit c then some (digitValue c) else none
  | [] => none

/-- The header of a block scalar, in either order, and the cursor behind it. -/
def blockHeader? (c : Cursor) : Option (BlockHeader × Cursor) :=
  match takeChomping c.rest with
  | some chomping =>
    let c := c.skip
    match takeIncrement c.rest with
    | some 0 => none
    | some n => some (⟨chomping, n⟩, c.skip)
    | none => some (⟨chomping, 0⟩, c)
  | none =>
    match takeIncrement c.rest with
    | some 0 => none
    | some n =>
      let c := c.skip
      match takeChomping c.rest with
      | some chomping => some (⟨chomping, n⟩, c.skip)
      | none => some (⟨.clip, n⟩, c)
    | none => some (⟨.clip, 0⟩, c)

/-- Empty lines: the line ends read, the greatest column reached, and the cursor behind. -/
structure EmptyLines where
  /-- The line ends as they are read, in order. -/
  breaks : List Char
  /-- The greatest column that indentation reached. -/
  deepest : Nat
  /-- Where the next line that is not empty starts. -/
  cursor : Cursor

/-- Read indentation and empty lines. An indentation of zero is not known yet, so every space counts
as indentation. A tab must not stand where indentation is expected. -/
def emptyLinesFrom (indent deepest : Nat) (breaks : List Char) (m : Mark) :
    List Char → Option EmptyLines
  | [] => some ⟨breaks.reverse, max deepest m.column, ⟨[], m⟩⟩
  | c :: rest =>
    let deepest := max deepest m.column
    let indenting := indent == 0 || m.column < indent
    if indenting && c == ' ' then emptyLinesFrom indent deepest breaks m.right rest
    else if indenting && c == '\t' then none
    else if c == '\r' && startsWith '\n' rest then
      emptyLinesFrom indent deepest breaks ⟨m.index + 1, m.line, m.column⟩ rest
    else if isBreak c then emptyLinesFrom indent deepest (breakChar c :: breaks) m.down rest
    else some ⟨breaks.reverse, deepest, ⟨c :: rest, m⟩⟩

/-- A block scalar in the middle of being read. -/
structure BlockState where
  /-- The characters so far. -/
  text : List Char
  /-- The line end behind the last line, if there is one. -/
  last : List Char
  /-- The line ends of the empty lines behind it. -/
  empty : List Char
  /-- Whether the last line starts with a blank. -/
  startsBlank : Bool

namespace BlockState

/-- Add a line. Between two folded lines that start with no blank, the line end is dropped, and a
space stands for it if no empty line does. -/
def addLine (literal : Bool) (s : BlockState) (line last empty : List Char) : BlockState :=
  let indented := startsWithAny [' ', '\t'] line
  let between :=
    if !literal && s.last == ['\n'] && !s.startsBlank && !indented then
      if s.empty.isEmpty then [' '] else s.empty
    else s.last ++ s.empty
  ⟨s.text ++ between ++ line, last, empty, indented⟩

/-- The scalar once the lines are over. -/
def finish (chomping : Chomping) (s : BlockState) : List Char :=
  match chomping with
  | .strip => s.text
  | .clip => s.text ++ s.last
  | .keep => s.text ++ s.last ++ s.empty

end BlockState

/-- Read the lines of a block scalar that are indented by `indent`; at most `fuel` lines. -/
def blockLines? (literal : Bool) (indent : Nat) (s : BlockState) (c : Cursor) :
    Nat → Option (BlockState × Cursor)
  | 0 => some (s, c)
  | fuel + 1 =>
    if c.mark.column == indent && !c.rest.isEmpty then
      let (line, behind) := c.takeWhile (!isBreak ·)
      let (last, next) := behind.takeBreak
      (emptyLinesFrom indent 0 [] next.mark next.rest).bind fun lines =>
        blockLines? literal indent (s.addLine literal line last lines.breaks) lines.cursor fuel
    else some (s, c)

/-- The block scalar whose indicator has been read, inside a block of this indentation, and the
cursor behind it. -/
def blockScalar? (literal : Bool) (blockIndent : Int) (c : Cursor) :
    Option (List Char × Cursor) := do
  let (header, c) ← blockHeader? c
  let c ← c.finishLine?
  let given :=
    if header.increment = 0 then 0
    else if 0 ≤ blockIndent then blockIndent.toNat + header.increment else header.increment
  let lines ← emptyLinesFrom given 0 [] c.mark c.rest
  let indent :=
    if given = 0 then max (max lines.deepest (blockIndent + 1).toNat) 1 else given
  let (s, c) ← blockLines? literal indent ⟨[], [], lines.breaks, false⟩ lines.cursor
    (lines.cursor.rest.length + 1)
  pure (s.finish header.chomping, c)

end PluginKernel.Yaml
