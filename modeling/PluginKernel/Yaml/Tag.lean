import PluginKernel.Yaml.Cursor

/-!
# Tags

A tag names the type of a node. It is written in full between angle brackets, or as a handle and a
suffix, where a directive or a default gives the handle its meaning. A lone exclamation mark is a
tag of its own. Octets that cannot stand in a tag are written with a percent sign, so a tag is a
list of octets.
-/

namespace PluginKernel.Yaml

open Text

/-- A tag as written. -/
structure TagToken where
  /-- The handle; empty if the suffix is the whole tag. -/
  handle : List Char
  /-- What follows the handle. -/
  suffix : Bytes
deriving DecidableEq, Repr

/-- The characters of a tag's suffix, other than those of names. -/
def uriMarks : List Char :=
  [';', '/', '?', ':', '@', '&', '=', '+', '$', '.', '!', '~', '*', '\'', '(', ')']

/-- How many octets the character has that an octet starts; zero if it starts none. -/
def octetCount (b : UInt8) : Nat :=
  if b < 0x80 then 1
  else if 0xC0 ≤ b && b < 0xE0 then 2
  else if 0xE0 ≤ b && b < 0xF0 then 3
  else if 0xF0 ≤ b && b < 0xF8 then 4
  else 0

/-- Read the suffix of a tag; `verbatim` allows the characters that structure flow collections.
`pending` counts the escaped octets that the character in progress still needs. -/
def uriFrom (verbatim : Bool) (pending : Nat) (octets : Bytes) (m : Mark) :
    List Char → Option (Bytes × Cursor)
  | '%' :: h :: l :: rest =>
    match hexValue? h, hexValue? l with
    | some h, some l =>
      let b := UInt8.ofNat (16 * h + l)
      if pending == 0 then
        if octetCount b == 0 then none
        else uriFrom verbatim (octetCount b - 1) (b :: octets) (m.right 3) rest
      else if isContinuation b then uriFrom verbatim (pending - 1) (b :: octets) (m.right 3) rest
      else none
    | _, _ => none
  | c :: rest =>
    if c == '%' || pending != 0 then none
    else if isNameChar c || uriMarks.contains c || (verbatim && [',', '[', ']'].contains c) then
      uriFrom verbatim 0 (UInt8.ofNat c.toNat :: octets) m.right rest
    else some (octets.reverse, ⟨c :: rest, m⟩)
  | [] => if pending == 0 then some (octets.reverse, ⟨[], m⟩) else none

/-- The suffix of a tag at a cursor, and the cursor behind it. -/
def uri? (verbatim : Bool) (c : Cursor) : Option (Bytes × Cursor) :=
  uriFrom verbatim 0 [] c.mark c.rest

/-- The handle at a cursor and the cursor behind it: an exclamation mark, name characters, and
another exclamation mark if there is one. -/
def handle? (c : Cursor) : Option (List Char × Cursor) :=
  if startsWith '!' c.rest then
    let (name, c) := c.skip.takeWhile isNameChar
    if startsWith '!' c.rest then some ('!' :: name ++ ['!'], c.skip) else some ('!' :: name, c)
  else none

/-- The octets of ASCII characters. -/
def octetsOf (cs : List Char) : Bytes := cs.map fun c => UInt8.ofNat c.toNat

/-- The tag at a cursor, and the cursor behind it. -/
def tagToken? (inFlow : Bool) (c : Cursor) : Option (TagToken × Cursor) := do
  let (tag, c) ←
    match c.rest with
    | '!' :: '<' :: _ =>
      let (suffix, c) ← uri? true (c.skip 2)
      if suffix.isEmpty || !startsWith '>' c.rest then none
      pure ((⟨[], suffix⟩ : TagToken), c.skip)
    | _ =>
      let (handle, c) ← handle? c
      let (suffix, c) ← uri? false c
      if 2 ≤ handle.length && handle.getLast? == some '!' then
        if suffix.isEmpty then none
        pure (⟨handle, suffix⟩, c)
      else
        let suffix := octetsOf (handle.drop 1) ++ suffix
        if suffix.isEmpty then pure (⟨[], octetsOf ['!']⟩, c) else pure (⟨['!'], suffix⟩, c)
  if startsBlank c.rest || (inFlow && startsWith ',' c.rest) then some (tag, c) else none

/-- A tag directive: a handle and what it stands for. -/
structure TagDirective where
  handle : List Char
  /-- What the handle stands for. -/
  stem : Bytes
deriving DecidableEq, Repr

namespace TagDirective

/-- The directives in force without being written. -/
def defaults : List TagDirective :=
  [⟨['!'], octetsOf ['!']⟩, ⟨['!', '!'], octetsOf "tag:yaml.org,2002:".toList⟩]

/-- Whether a handle may be declared: an exclamation mark alone, or two around a name. -/
def isDeclarable (handle : List Char) : Bool := handle.length == 1 || handle.getLast? == some '!'

/-- The directive at a cursor behind its name, and the cursor behind it. -/
def take? (c : Cursor) : Option (TagDirective × Cursor) := do
  let (handle, c) ← handle? (c.skipWhile isBlank)
  if !isDeclarable handle then none
  if !startsWithAny [' ', '\t'] c.rest then none
  let (stem, c) ← uri? true (c.skipWhile isBlank)
  if stem.isEmpty || !startsBlank c.rest then none
  pure (⟨handle, stem⟩, c)

end TagDirective

namespace TagToken

/-- The tag that a token stands for, given the directives in force. -/
def resolve? (t : TagToken) (directives : List TagDirective) : Option Bytes :=
  if t.handle.isEmpty then some t.suffix
  else (directives.find? (·.handle == t.handle)).map fun d => d.stem ++ t.suffix

end TagToken

end PluginKernel.Yaml
