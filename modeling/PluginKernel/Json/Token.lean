import PluginKernel.Json.Numeral
import PluginKernel.Text.Hex

/-!
# Tokens of JSON text

A text is cut into brackets, commas, colons, texts and other scalars; white space between them is
dropped. Inside a JSON string control characters below the space are refused, and an escaped UTF-16
surrogate must come with its other half.
-/

namespace PluginKernel.Json

open Text

/-- A token. -/
inductive Token where
  /-- The bracket that opens a list. -/
  | openList
  /-- The bracket that closes a list. -/
  | closeList
  /-- The brace that opens an object. -/
  | openObject
  /-- The brace that closes an object. -/
  | closeObject
  /-- The comma between items. -/
  | comma
  /-- The colon behind a name. -/
  | colon
  /-- A text: a value or the name of a member. -/
  | text (s : String)
  /-- Any other scalar value. -/
  | scalar (v : Json)

namespace Token

/-- The white space of JSON. -/
def isSpace (c : Char) : Bool := c == ' ' || c == '\n' || c == '\t' || c == '\r'

/-- The character that a one-letter escape stands for. -/
def unescape? (c : Char) : Option Char :=
  if c == '"' || c == '\\' || c == '/' then some c
  else if c == 'b' then some '\x08'
  else if c == 'f' then some '\x0c'
  else if c == 'n' then some '\n'
  else if c == 'r' then some '\r'
  else if c == 't' then some '\t'
  else none

/-- The number of four hexadecimal digits. -/
def hexUnit? (a b c d : Char) : Option Nat := do
  let a ← hexValue? a
  let b ← hexValue? b
  let c ← hexValue? c
  let d ← hexValue? d
  pure (4096 * a + 256 * b + 16 * c + d)

/-- Whether a UTF-16 unit is the first half of a pair. -/
def isHighSurrogate (n : Nat) : Bool := 0xD800 ≤ n && n < 0xDC00

/-- Whether a UTF-16 unit is the second half of a pair. -/
def isLowSurrogate (n : Nat) : Bool := 0xDC00 ≤ n && n < 0xE000

/-- The character of a surrogate pair. -/
def pairChar (high low : Nat) : Char :=
  Char.ofNat (0x10000 + (high - 0xD800) * 1024 + (low - 0xDC00))

/-- The characters of a string whose opening quote has been read, and what follows its closing
quote. -/
def takeString? : List Char → Option (List Char × List Char)
  | [] => none
  | '"' :: rest => some ([], rest)
  | '\\' :: 'u' :: a :: b :: c :: d :: rest =>
    match hexUnit? a b c d with
    | none => none
    | some high =>
      if isHighSurrogate high then
        match rest with
        | '\\' :: 'u' :: a :: b :: c :: d :: rest =>
          match hexUnit? a b c d with
          | none => none
          | some low =>
            if isLowSurrogate low then
              (takeString? rest).map fun (cs, rest) => (pairChar high low :: cs, rest)
            else none
        | _ => none
      else if isLowSurrogate high then none
      else (takeString? rest).map fun (cs, rest) => (Char.ofNat high :: cs, rest)
  | '\\' :: c :: rest =>
    match unescape? c with
    | none => none
    | some c => (takeString? rest).map fun (cs, rest) => (c :: cs, rest)
  | c :: rest =>
    if c == '\\' || c.toNat < 0x20 then none
    else (takeString? rest).map fun (cs, rest) => (c :: cs, rest)

/-- A string takes up some of the text. -/
theorem takeString?_length_lt {cs s rest : List Char} (h : takeString? cs = some (s, rest)) :
    rest.length < cs.length := by
  fun_induction takeString? cs generalizing s rest
  all_goals first
    | (simp at h; done)
    | (simp only [Option.some.injEq, Prod.mk.injEq] at h
       obtain ⟨-, rfl⟩ := h
       simp only [List.length_cons]
       omega)
    | (rename_i ih
       simp only [Option.map_eq_some_iff, Prod.exists, Prod.mk.injEq] at h
       obtain ⟨a, b, hab, -, rfl⟩ := h
       have := ih hab
       simp only [List.length_cons]
       omega)

/-- The token at the front of a text that does not start with white space, and what follows it. -/
def take? : List Char → Option (Token × List Char)
  | '[' :: rest => some (openList, rest)
  | ']' :: rest => some (closeList, rest)
  | '\x7b' :: rest => some (openObject, rest)
  | '\x7d' :: rest => some (closeObject, rest)
  | ',' :: rest => some (comma, rest)
  | ':' :: rest => some (colon, rest)
  | '"' :: rest => (takeString? rest).map fun (cs, rest) => (text (String.ofList cs), rest)
  | 'n' :: 'u' :: 'l' :: 'l' :: rest => some (scalar .null, rest)
  | 't' :: 'r' :: 'u' :: 'e' :: rest => some (scalar (.bool true), rest)
  | 'f' :: 'a' :: 'l' :: 's' :: 'e' :: rest => some (scalar (.bool false), rest)
  | cs => do
    let (numeral, rest) ← Numeral.take? cs
    let v ← numeral.value?
    pure (scalar v, rest)

/-- A token takes up some of the text. -/
theorem take?_length_lt {cs rest : List Char} {t : Token} (h : take? cs = some (t, rest)) :
    rest.length < cs.length := by
  unfold take? at h
  split at h
  all_goals first
    | (simp only [Option.some.injEq, Prod.mk.injEq] at h
       obtain ⟨-, rfl⟩ := h
       simp only [List.length_cons]
       omega)
    | (simp only [Option.map_eq_some_iff, Prod.exists, Prod.mk.injEq] at h
       obtain ⟨a, b, hab, -, rfl⟩ := h
       have := takeString?_length_lt hab
       simp only [List.length_cons]
       omega)
    | (simp only [bind, Option.bind_eq_some_iff, Prod.exists, pure, Option.some.injEq,
         Prod.mk.injEq] at h
       obtain ⟨n, r, hn, -, -, -, rfl⟩ := h
       exact Numeral.take?_length_lt hn)

theorem dropSpace_length_le (cs : List Char) : (cs.dropWhile isSpace).length ≤ cs.length :=
  (List.dropWhile_suffix _).length_le

/-- The tokens of a text. -/
def ofChars? (cs : List Char) : Option (List Token) :=
  if (cs.dropWhile isSpace).isEmpty then some []
  else
    match _h : take? (cs.dropWhile isSpace) with
    | none => none
    | some (t, rest) => (ofChars? rest).map (t :: ·)
termination_by cs.length
decreasing_by exact Nat.lt_of_lt_of_le (take?_length_lt _h) (dropSpace_length_le cs)

end Token

end PluginKernel.Json
