import PluginKernel.Yaml.Block
import PluginKernel.Yaml.Plain
import PluginKernel.Yaml.Quoted
import PluginKernel.Yaml.Tag

/-!
# Tokens of YAML

A stream is cut into the marks of its structure, names, tags and scalars. Block structure comes from
columns: a token deeper than the block it stands in opens a block, and a token further out closes
all blocks deeper than its column.

A key shows only at the colon behind it. So each place where a key could start is remembered, one
for each flow collection around it, and the key's own mark is put there afterwards. A remembered
place must lie on the line of the colon and within 1024 characters of it.
-/

namespace PluginKernel.Yaml

open Text

/-- A token. -/
inductive Token where
  /-- The directive that gives the version of the language. -/
  | version (major minor : Nat)
  /-- The directive that declares a tag handle. -/
  | tagDirective (d : TagDirective)
  /-- The mark that opens a document. -/
  | documentStart
  /-- The mark that closes a document. -/
  | documentEnd
  /-- A block sequence begins. -/
  | blockSequenceStart
  /-- A block mapping begins. -/
  | blockMappingStart
  /-- A block collection ends. -/
  | blockEnd
  /-- A flow sequence begins. -/
  | flowSequenceStart
  | flowSequenceEnd
  /-- A flow mapping begins. -/
  | flowMappingStart
  | flowMappingEnd
  /-- An entry of a block sequence begins. -/
  | blockEntry
  /-- An entry of a flow collection ends. -/
  | flowEntry
  /-- A key begins. -/
  | key
  /-- A value begins. -/
  | value
  /-- The name of a node that is to be repeated. -/
  | alias (name : List Char)
  /-- The name given to a node. -/
  | anchor (name : List Char)
  /-- The tag of a node. -/
  | tag (t : TagToken)
  /-- A scalar: its characters, and whether it stands without quotes. -/
  | scalar (text : List Char) (plain : Bool)
deriving DecidableEq, Repr

/-- A place where a key may have started. -/
structure KeyPlace where
  /-- The number of tokens before it. -/
  tokens : Nat
  /-- Its position. -/
  mark : Mark
  /-- Whether nothing but a key can stand there. -/
  required : Bool

/-- How far a stream has been cut into tokens. -/
structure Scan where
  /-- Where the next token is sought. -/
  cursor : Cursor
  /-- The tokens so far, the last one first. -/
  tokens : List Token
  /-- The column of the innermost block, or minus one outside all blocks. -/
  indent : Int
  /-- The columns of the blocks around it. -/
  outer : List Int
  /-- Whether a key may start here. -/
  keyAllowed : Bool
  /-- The place where a key may have started outside the flow collections that are open, or in the
  innermost of them. -/
  place : Option KeyPlace
  /-- The same for each flow collection around, the innermost first. -/
  outerPlaces : List (Option KeyPlace)

namespace Scan

/-- The beginning of a stream. -/
def start (cs : List Char) : Scan where
  cursor := ⟨cs, ⟨0, 0, 0⟩⟩
  tokens := []
  indent := -1
  outer := []
  keyAllowed := true
  place := none
  outerPlaces := []

/-- Whether a flow collection is open. -/
def inFlow (s : Scan) : Bool := !s.outerPlaces.isEmpty

/-- Add a token. -/
def push (s : Scan) (t : Token) : Scan := { s with tokens := t :: s.tokens }

/-- Add a token behind the first `n`. -/
def pushAt (s : Scan) (n : Nat) (t : Token) : Scan :=
  { s with tokens := s.tokens.insertIdx (s.tokens.length - n) t }

/-- Move the cursor. -/
def goto (s : Scan) (c : Cursor) : Scan := { s with cursor := c }

/-- Move the cursor by some characters of a line. -/
def skip (s : Scan) (n : Nat := 1) : Scan := { s with cursor := s.cursor.skip n }

/-- Say whether a key may start next. -/
def allowKey (s : Scan) (allowed : Bool) : Scan := { s with keyAllowed := allowed }

/-- Close the blocks that are deeper than a column. -/
def closeBlocks (s : Scan) (column : Int) : Scan :=
  if s.inFlow then s else go s s.outer
where
  /-- Close blocks one by one, given the columns of those around. -/
  go (s : Scan) : List Int → Scan
    | [] => s
    | i :: outer =>
      if column < s.indent then
        go { s with tokens := .blockEnd :: s.tokens, indent := i, outer := outer } outer
      else s

/-- Open a block at a column, unless that is not deeper than the innermost block. Its mark goes
behind the first `n` tokens. -/
def openBlock (s : Scan) (column n : Nat) (t : Token) : Scan :=
  if !s.inFlow && s.indent < column then
    { s.pushAt n t with indent := column, outer := s.indent :: s.outer }
  else s

/-- Forget the place where a key may have started; a key must not be missing there. -/
def forgetPlace? (s : Scan) : Option Scan :=
  if s.place.any (·.required) then none else some { s with place := none }

/-- Remember this place as one where a key may start, if one may. -/
def rememberPlace? (s : Scan) : Option Scan :=
  if s.keyAllowed then
    s.forgetPlace?.map fun s =>
      { s with
        place := some ⟨s.tokens.length, s.cursor.mark,
          !s.inFlow && s.indent == s.cursor.mark.column⟩ }
  else some s

/-- Whether a place lies too far back for a key to start there. -/
def isStale (m : Mark) (p : KeyPlace) : Bool :=
  p.mark.line < m.line || p.mark.index + 1024 < m.index

/-- Forget a place that lies too far back; a key must not be missing there. -/
def refresh? (m : Mark) : Option KeyPlace → Option (Option KeyPlace)
  | none => some none
  | some p => if isStale m p then (if p.required then none else some none) else some (some p)

/-- Forget the places that lie too far back. -/
def refreshPlaces? (s : Scan) : Option Scan := do
  let outerPlaces ← s.outerPlaces.mapM (refresh? s.cursor.mark)
  let place ← refresh? s.cursor.mark s.place
  pure { s with place, outerPlaces }

/-- Move to the next token: over blanks, comments and line ends; at most `fuel` lines. Behind a line
end in block context a key may start. A tab does not count as a blank where one may. -/
def toToken (s : Scan) : Nat → Scan
  | 0 => s
  | fuel + 1 =>
    let c := s.cursor
    let c := if c.mark.index == 0 && startsWith byteOrderMark c.rest then c.skip else c
    let tabs := s.inFlow || !s.keyAllowed
    let c := c.skipWhile fun d => d == ' ' || (tabs && d == '\t')
    let c := if startsWith '#' c.rest then c.skipWhile (!isBreak ·) else c
    if !c.rest.isEmpty && startsBreak c.rest then
      toToken { s with cursor := c.skipBreak, keyAllowed := s.keyAllowed || !s.inFlow } fuel
    else s.goto c

/-- Leave all blocks, for something that belongs to no node. -/
def leaveAll? (s : Scan) : Option Scan := (s.closeBlocks (-1)).forgetPlace?.map (·.allowKey false)

/-- Read one number of a version. -/
def versionNumber? (c : Cursor) : Option (Nat × Cursor) :=
  let (ds, c) := c.takeWhile isDigit
  if ds.isEmpty || 9 < ds.length then none else some (digitsValue ds, c)

/-- Read a directive. -/
def directive? (s : Scan) : Option Scan := do
  let s ← s.leaveAll?
  let (name, c) := s.cursor.skip.takeWhile isNameChar
  if name.isEmpty || !startsBlank c.rest then none
  let (t, c) ←
    if name = "YAML".toList then do
      let (major, c) ← versionNumber? (c.skipWhile isBlank)
      if !startsWith '.' c.rest then none
      let (minor, c) ← versionNumber? c.skip
      pure (Token.version major minor, c)
    else if name = "TAG".toList then do
      let (d, c) ← TagDirective.take? c
      pure (Token.tagDirective d, c)
    else none
  let c ← c.finishLine?
  pure ((s.push t).goto c)

/-- Read a document mark. -/
def documentMark? (s : Scan) (t : Token) : Option Scan :=
  s.leaveAll?.map fun s => (s.push t).skip 3

/-- Read the mark that opens a flow collection. -/
def openFlow? (s : Scan) (t : Token) : Option Scan :=
  s.rememberPlace?.map fun s =>
    { (s.push t).skip with
      keyAllowed := true, place := none, outerPlaces := s.place :: s.outerPlaces }

/-- Read the mark that closes a flow collection. -/
def closeFlow? (s : Scan) (t : Token) : Option Scan :=
  s.forgetPlace?.map fun s =>
    let s := ((s.push t).skip).allowKey false
    match s.outerPlaces with
    | [] => s
    | p :: ps => { s with place := p, outerPlaces := ps }

/-- Read the comma of a flow collection. -/
def flowEntry? (s : Scan) : Option Scan :=
  s.forgetPlace?.map fun s => ((s.push .flowEntry).skip).allowKey true

/-- Read the mark of an entry of a block sequence. -/
def blockEntry? (s : Scan) : Option Scan :=
  if !s.inFlow && !s.keyAllowed then none
  else
    (s.openBlock s.cursor.mark.column s.tokens.length .blockSequenceStart).forgetPlace?.map fun s =>
      ((s.push .blockEntry).skip).allowKey true

/-- Read the mark of a key. -/
def key? (s : Scan) : Option Scan :=
  if !s.inFlow && !s.keyAllowed then none
  else
    (s.openBlock s.cursor.mark.column s.tokens.length .blockMappingStart).forgetPlace?.map fun s =>
      ((s.push .key).skip).allowKey (!s.inFlow)

/-- Read the mark of a value. If a key may have started before it, its mark is put there. -/
def value? (s : Scan) : Option Scan :=
  match s.place with
  | some p =>
    let s := (s.pushAt p.tokens .key).openBlock p.mark.column p.tokens .blockMappingStart
    some ({ ((s.push .value).skip) with place := none, keyAllowed := false })
  | none =>
    if !s.inFlow && !s.keyAllowed then none
    else
      let s := s.openBlock s.cursor.mark.column s.tokens.length .blockMappingStart
      some (((s.push .value).skip).allowKey (!s.inFlow))

/-- The characters that may follow a name. -/
def nameEnds : List Char := ['?', ':', ',', ']', '\x7d', '%', '@', '\x60']

/-- Read the name of an alias or an anchor. -/
def name? (s : Scan) (make : List Char → Token) : Option Scan := do
  let s ← s.rememberPlace?
  let (name, c) := s.cursor.skip.takeWhile isNameChar
  if name.isEmpty || !(startsBlank c.rest || startsWithAny nameEnds c.rest) then none
  pure (((s.push (make name)).goto c).allowKey false)

/-- Read a tag. -/
def tag? (s : Scan) : Option Scan := do
  let s ← s.rememberPlace?
  let (t, c) ← tagToken? s.inFlow s.cursor
  pure (((s.push (.tag t)).goto c).allowKey false)

/-- Read a block scalar. -/
def block? (s : Scan) (literal : Bool) : Option Scan := do
  let s ← s.forgetPlace?
  let (text, c) ← blockScalar? literal s.indent s.cursor.skip
  pure (((s.push (.scalar text false)).goto c).allowKey true)

/-- Read a scalar in quotes. -/
def quoted? (s : Scan) (single : Bool) : Option Scan := do
  let s ← s.rememberPlace?
  let (text, c) ← quotedScalar? single s.cursor.skip
  pure (((s.push (.scalar text false)).goto c).allowKey false)

/-- Read a plain scalar. -/
def plain? (s : Scan) : Option Scan := do
  let s ← s.rememberPlace?
  let (text, broken, c) ← plainScalar? s.inFlow s.indent s.cursor
  pure (((s.push (.scalar text true)).goto c).allowKey broken)

/-- The characters with which a plain scalar cannot start. -/
def indicators : List Char :=
  ['-', '?', ':', ',', '[', ']', '\x7b', '\x7d', '#', '&', '*', '!', '|', '>', '\'', '"', '%', '@',
    '\x60']

/-- Whether a plain scalar may start with a character before a text. In block context a hyphen, a
question mark and a colon may if no blank follows, and a hyphen everywhere. -/
def startsPlain (inFlow : Bool) (c : Char) (rest : List Char) : Bool :=
  (!isBlank c && !isBreak c && !indicators.contains c) ||
    (c == '-' && !startsWithAny [' ', '\t'] rest) ||
    (!inFlow && (c == '?' || c == ':') && !startsBlank rest)

/-- Read the token at the cursor. -/
def token? (s : Scan) : Option Scan :=
  match s.cursor.rest with
  | [] => none
  | c :: rest =>
    let atMargin := s.cursor.mark.column == 0
    if atMargin && c == '%' then s.directive?
    else if atMargin && startsDocument (c :: rest) then s.documentMark? .documentStart
    else if atMargin && endsDocument (c :: rest) then s.documentMark? .documentEnd
    else if c == '[' then s.openFlow? .flowSequenceStart
    else if c == '\x7b' then s.openFlow? .flowMappingStart
    else if c == ']' then s.closeFlow? .flowSequenceEnd
    else if c == '\x7d' then s.closeFlow? .flowMappingEnd
    else if c == ',' then s.flowEntry?
    else if c == '-' && startsBlank rest then s.blockEntry?
    else if c == '?' && (s.inFlow || startsBlank rest) then s.key?
    else if c == ':' && (s.inFlow || startsBlank rest) then s.value?
    else if c == '*' then s.name? .alias
    else if c == '&' then s.name? .anchor
    else if c == '!' then s.tag?
    else if c == '|' && !s.inFlow then s.block? true
    else if c == '>' && !s.inFlow then s.block? false
    else if c == '\'' then s.quoted? true
    else if c == '"' then s.quoted? false
    else if startsPlain s.inFlow c rest then s.plain?
    else none

/-- Close the stream. -/
def finish? (s : Scan) : Option Scan := (s.closeBlocks (-1)).forgetPlace?

/-- Read all tokens; at most `fuel` of them. -/
def run? (s : Scan) : Nat → Option Scan
  | 0 => none
  | fuel + 1 => do
    let s ← (s.toToken (s.cursor.rest.length + 1)).refreshPlaces?
    let s := s.closeBlocks s.cursor.mark.column
    if s.cursor.rest.isEmpty then s.finish? else (← s.token?).run? fuel

end Scan

/-- The tokens of a stream. Each takes up some of the text. -/
def Token.ofChars? (cs : List Char) : Option (List Token) :=
  ((Scan.start cs).run? (cs.length + 2)).map fun s => s.tokens.reverse

end PluginKernel.Yaml
