import PluginKernel.Json.Basic

/-!
# Writing structured values

The text of a value in JSON, without white space. Quotes, backslashes and control characters below
the space are escaped, and nothing else is. A binary number always has a fraction or an exponent, so
that it reads back as one.
-/

namespace PluginKernel.Json

open Text

/-- How one character stands in a JSON string. -/
def escapedChar (c : Char) : List Char :=
  if c == '"' then ['\\', '"']
  else if c == '\\' then ['\\', '\\']
  else if c == '\x08' then ['\\', 'b']
  else if c == '\x0c' then ['\\', 'f']
  else if c == '\n' then ['\\', 'n']
  else if c == '\r' then ['\\', 'r']
  else if c == '\t' then ['\\', 't']
  else if c.toNat < 0x20 then
    ['\\', 'u', '0', '0', hexDigit (c.toNat / 16), hexDigit (c.toNat % 16)]
  else [c]
where
  /-- A lower-case hexadecimal digit. -/
  hexDigit (n : Nat) : Char := Nat.digitChar n

/-- A text as a JSON string. -/
def stringChars (s : String) : List Char := '"' :: s.toList.flatMap escapedChar ++ ['"']

mutual

/-- The characters of a value. -/
def chars : Json → List Char
  | .null => ['n', 'u', 'l', 'l']
  | .bool true => ['t', 'r', 'u', 'e']
  | .bool false => ['f', 'a', 'l', 's', 'e']
  | .int n => signedDigits n
  | .float x => x.compact
  | .str s => stringChars s
  | .arr [] => ['[', ']']
  | .arr (v :: vs) => '[' :: chars v ++ itemChars vs ++ [']']
  | .obj [] => ['\x7b', '\x7d']
  | .obj ((k, v) :: ms) =>
    '\x7b' :: stringChars k ++ ':' :: chars v ++ memberChars ms ++ ['\x7d']
termination_by structural v => v

/-- The characters of further items, each behind a comma. -/
def itemChars : List Json → List Char
  | [] => []
  | v :: vs => ',' :: chars v ++ itemChars vs
termination_by structural vs => vs

/-- The characters of further members, each behind a comma. -/
def memberChars : List (String × Json) → List Char
  | [] => []
  | (k, v) :: ms => ',' :: stringChars k ++ ':' :: chars v ++ memberChars ms
termination_by structural ms => ms

end

/-- The text of a value. -/
def print (v : Json) : String := String.ofList v.chars

end PluginKernel.Json
