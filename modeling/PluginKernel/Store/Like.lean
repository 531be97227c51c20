/-!
# Matching by pattern

Patterns in which a percent sign stands for any run of characters and an underscore for any one,
unless an escape character stands before them. ASCII letters match in either case.
-/

namespace PluginKernel.Store

/-- One element of a pattern. -/
inductive LikeItem where
  /-- Any run of characters. -/
  | run
  /-- Any one character. -/
  | one
  /-- A character, in either case. -/
  | char (c : Char)
deriving DecidableEq, Repr

namespace LikeItem

/-- The elements of a pattern. An escape character at its end stands for itself. -/
def ofPattern (escape : Char) : List Char → List LikeItem
  | [] => []
  | [c] => [single escape c]
  | c :: d :: rest =>
    if c == escape then .char d :: ofPattern escape rest
    else single escape c :: ofPattern escape (d :: rest)
where
  /-- The element that a character stands for where it is not escaped. -/
  single (escape c : Char) : LikeItem :=
    if c == escape then .char c else if c == '%' then .run else if c == '_' then .one else .char c

/-- Whether two characters are the same but for the case of ASCII letters. -/
def sameLetter (c d : Char) : Bool := c.toLower == d.toLower

/-- Whether a text matches a pattern. -/
def isMatch : List LikeItem → List Char → Bool
  | [], cs => cs.isEmpty
  | .run :: items, cs => isMatch items cs || skip items cs
  | .one :: items, _ :: cs => isMatch items cs
  | .char c :: items, d :: cs => sameLetter c d && isMatch items cs
  | _ :: _, [] => false
where
  /-- Whether some end of a text but the text itself matches a pattern. -/
  skip (items : List LikeItem) : List Char → Bool
    | [] => false
    | _ :: cs => isMatch items cs || skip items cs

end LikeItem

/-- Write a text so that a pattern takes it literally, with the backslash as escape character. -/
def literalPattern (cs : List Char) : List Char :=
  cs.flatMap fun c => if c == '\\' || c == '%' || c == '_' then ['\\', c] else [c]

/-- Whether a text matches a pattern whose escape character is the backslash. -/
def like (pattern text : List Char) : Bool :=
  LikeItem.isMatch (LikeItem.ofPattern '\\' pattern) text

end PluginKernel.Store
