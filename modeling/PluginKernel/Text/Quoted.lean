import PluginKernel.Text.Printable

/-!
# Quoted text

The form in which messages and summaries show a text they were given: between double quotes, with
the quote, the backslash and every character that does not print on its own spelled out. The common
control characters have a letter of their own (`\n`, `\r`, `\t`, `\0`); every other character is
spelled by its code point, `\u` followed by lower-case hexadecimal digits in braces.
-/

namespace PluginKernel.Text

/-- The lower-case hexadecimal digits of a number, without padding. -/
def hexDigits (n : Nat) : List Char := Nat.toDigits 16 n

/-- How one character stands in quoted text. -/
def quotedChar (c : Char) : List Char :=
  if c == '"' then ['\\', '"']
  else if c == '\\' then ['\\', '\\']
  else if c == '\n' then ['\\', 'n']
  else if c == '\r' then ['\\', 'r']
  else if c == '\t' then ['\\', 't']
  else if c == '\x00' then ['\\', '0']
  else if isPrintable c then [c]
  else ['\\', 'u', '\x7b'] ++ hexDigits c.toNat ++ ['\x7d']

/-- A text between double quotes, with every character that does not print spelled out. -/
def quote (s : String) : String :=
  String.ofList ('"' :: s.toList.flatMap quotedChar ++ ['"'])

end PluginKernel.Text
