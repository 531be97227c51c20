import PluginKernel.Yaml.Folding

/-!
# Plain scalars

A plain scalar has no quotes. It ends before a comment, before a colon that a blank follows, at a
document mark, inside a flow collection at the characters that structure it, and in block context
where a line is indented no deeper than the block that holds it.
-/

namespace PluginKernel.Yaml

/-- The characters that structure a flow collection. -/
def flowIndicators : List Char := [',', '[', ']', '\x7b', '\x7d']

/-- Whether a plain scalar ends before a text that does not start with white space. -/
def endsPlain (inFlow : Bool) : List Char → Bool
  | ':' :: rest => startsBlank rest
  | c :: _ => inFlow && flowIndicators.contains c
  | [] => true

/-- Whether a text is a colon that nothing may follow like this inside a flow collection. -/
def isMisplacedColon (inFlow : Bool) : List Char → Bool
  | ':' :: rest => inFlow && startsWithAny ('?' :: flowIndicators) rest
  | _ => false

/-- Where a plain scalar stands in the middle of being read. -/
structure PlainState where
  /-- The characters so far, the last one first. -/
  text : List Char
  /-- The white space behind them. -/
  gap : Gap
  /-- Whether a word has just begun or is about to: only then can a comment start. -/
  fresh : Bool

/-- The scalar read so far, whether its last white space ended a line, and the cursor behind it. -/
def PlainState.finish (s : PlainState) (c : Cursor) : List Char × Bool × Cursor :=
  (s.text.reverse, s.gap.broken, c)

/-- Read on in a plain scalar whose lines are indented by at least `indent`. -/
def plainFrom (inFlow : Bool) (indent : Int) (s : PlainState) (m : Mark) :
    List Char → Option (List Char × Bool × Cursor)
  | [] => some (s.finish ⟨[], m⟩)
  | '\r' :: '\n' :: rest =>
    plainFrom inFlow indent { s with gap := s.gap.addBreak '\n', fresh := true } (m.down 2) rest
  | c :: rest =>
    let here : Cursor := ⟨c :: rest, m⟩
    if isBlank c then
      if s.gap.broken && m.column < indent && c == '\t' then none
      else plainFrom inFlow indent { s with gap := s.gap.addBlank c, fresh := true } m.right rest
    else if isBreak c then
      plainFrom inFlow indent { s with gap := s.gap.addBreak (breakChar c), fresh := true }
        m.down rest
    else if s.fresh && !s.text.isEmpty && !inFlow && m.column < indent then some (s.finish here)
    else if s.fresh && m.column == 0 &&
        (startsDocument (c :: rest) || endsDocument (c :: rest)) then
      some (s.finish here)
    else if s.fresh && c == '#' then some (s.finish here)
    else if isMisplacedColon inFlow (c :: rest) then none
    else if endsPlain inFlow (c :: rest) then some (s.finish here)
    else
      plainFrom inFlow indent ⟨c :: (s.gap.folded.reverse ++ s.text), Gap.none, false⟩ m.right rest

/-- The plain scalar at a cursor inside a block of this indentation, whether white space that ends a
line follows it, and the cursor behind both. -/
def plainScalar? (inFlow : Bool) (blockIndent : Int) (c : Cursor) :
    Option (List Char × Bool × Cursor) :=
  plainFrom inFlow (blockIndent + 1) ⟨[], Gap.none, true⟩ c.mark c.rest

end PluginKernel.Yaml
