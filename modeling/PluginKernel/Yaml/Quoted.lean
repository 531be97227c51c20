import PluginKernel.Yaml.Folding

/-!
# Quoted scalars

A scalar in single quotes knows one escape, the doubled quote. In double quotes a backslash starts
an escape: a letter, a code point in two, four or eight hexadecimal digits, or a line end, which
then vanishes together with the indentation of the next line. Lines are folded in both.
-/

namespace PluginKernel.Yaml

open Text

/-- The character that an escape of one letter stands for. -/
def escape? : Char → Option Char
  | '0' => some '\x00'
  | 'a' => some '\x07'
  | 'b' => some '\x08'
  | 't' => some '\t'
  | '\t' => some '\t'
  | 'n' => some '\n'
  | 'v' => some '\x0b'
  | 'f' => some '\x0c'
  | 'r' => some '\r'
  | 'e' => some '\x1b'
  | ' ' => some ' '
  | '"' => some '"'
  | '/' => some '/'
  | '\\' => some '\\'
  | 'N' => some '\u0085'
  | '_' => some '\u00a0'
  | 'L' => some '\u2028'
  | 'P' => some '\u2029'
  | _ => none

/-- How many hexadecimal digits an escape of a code point has. -/
def escapeLength? : Char → Option Nat
  | 'x' => some 2
  | 'u' => some 4
  | 'U' => some 8
  | _ => none

/-- The character whose code point some hexadecimal digits spell. -/
def hexChar? (cs : List Char) : Option Char := do
  let n ← cs.foldlM (fun n c => (hexValue? c).map (16 * n + ·)) 0
  if n.isValidChar then some (Char.ofNat n) else none

/-- The scalar read so far: its characters, the last one first, and the white space behind them. -/
structure QuotedState where
  /-- The characters so far, the last one first. -/
  text : List Char
  /-- The white space behind them. -/
  gap : Gap
  /-- How many of the next characters belong to an escape that has been read. -/
  skip : Nat

namespace QuotedState

/-- Add a character behind the white space. -/
def push (s : QuotedState) (c : Char) (skip : Nat := 0) : QuotedState :=
  ⟨c :: (s.gap.folded.reverse ++ s.text), Gap.none, skip⟩

/-- Let a line end that is escaped follow: nothing stands for it, and blanks behind it vanish. -/
def joinLine (s : QuotedState) (skip : Nat) : QuotedState :=
  ⟨s.gap.folded.reverse ++ s.text, ⟨[], [], [], true⟩, skip⟩

end QuotedState

/-- Read on in a scalar in single or double quotes. -/
def quotedFrom (single : Bool) (s : QuotedState) (m : Mark) :
    List Char → Option (List Char × Cursor)
  | [] => none
  | c :: rest =>
    if 0 < s.skip then
      let next := if isBreak c then (if c == '\r' && startsWith '\n' rest then m.right else m.down)
        else m.right
      quotedFrom single { s with skip := s.skip - 1 } next rest
    else if m.column == 0 && (startsDocument (c :: rest) || endsDocument (c :: rest)) then none
    else if isBlank c then quotedFrom single { s with gap := s.gap.addBlank c } m.right rest
    else if c == '\r' && startsWith '\n' rest then
      quotedFrom single s m.right rest
    else if isBreak c then
      quotedFrom single { s with gap := s.gap.addBreak (breakChar c) } m.down rest
    else if single && c == '\'' && startsWith '\'' rest then
      quotedFrom single (s.push '\'' 1) m.right rest
    else if c == (if single then '\'' else '"') then
      some ((s.gap.folded.reverse ++ s.text).reverse, ⟨rest, m.right⟩)
    else if !single && c == '\\' then
      match rest with
      | [] => none
      | e :: more =>
        if isBreak e then
          quotedFrom single (s.joinLine (if e == '\r' && startsWith '\n' more then 2 else 1))
            m.right rest
        else
          match escapeLength? e with
          | some n =>
            if more.length < n then none
            else
              match hexChar? (more.take n) with
              | some d => quotedFrom single (s.push d (n + 1)) m.right rest
              | none => none
          | none =>
            match escape? e with
            | some d => quotedFrom single (s.push d 1) m.right rest
            | none => none
    else quotedFrom single (s.push c) m.right rest

/-- The quoted scalar whose opening quote has been read, and the cursor behind its closing quote. -/
def quotedScalar? (single : Bool) (c : Cursor) : Option (List Char × Cursor) :=
  quotedFrom single ⟨[], Gap.none, 0⟩ c.mark c.rest

end PluginKernel.Yaml
