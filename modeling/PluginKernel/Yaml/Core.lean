import PluginKernel.Binary64.Basic
import PluginKernel.Text.Decimal
import PluginKernel.Text.Hex
import PluginKernel.Text.Search

/-!
# What plain scalars stand for

The core schema: a plain scalar may spell the absent value, a truth value, a whole number in four
bases or a binary number, and is a text otherwise. A run of several digits that starts with a zero
is a text. Whole numbers have 64 bits; the ones that need up to 128 are not supported, and longer
ones are binary numbers.
-/

namespace PluginKernel.Yaml

open Text

/-- What a plain scalar stands for. -/
inductive CoreValue where
  /-- The absent value. -/
  | null
  /-- A truth value. -/
  | bool (b : Bool)
  /-- A whole number. -/
  | int (n : Int)
  /-- A whole number of more than 64 bits. -/
  | wideInt
  /-- A binary number; nothing if it is infinite or not a number. -/
  | float (x : Option Binary64)
  | text

namespace Core

/-- Whether a scalar spells the absent value. -/
def isNull (cs : List Char) : Bool :=
  ["null", "Null", "NULL", "~"].contains (String.ofList cs)

/-- The truth value that a scalar spells. -/
def bool? (cs : List Char) : Option Bool :=
  if ["true", "True", "TRUE"].contains (String.ofList cs) then some true
  else if ["false", "False", "FALSE"].contains (String.ofList cs) then some false
  else none

/-- The number of a scalar without sign that names its base. -/
def prefixed? (cs : List Char) : Option Nat :=
  match cs with
  | '0' :: 'x' :: rest => digitsIn? 16 rest
  | '0' :: 'o' :: rest => digitsIn? 8 rest
  | '0' :: 'b' :: rest => digitsIn? 2 rest
  | _ => none

/-- The sign of a scalar, and what follows it. -/
def takeSign : List Char → Bool × List Char
  | '-' :: rest => (true, rest)
  | '+' :: rest => (false, rest)
  | cs => (false, cs)

/-- Whether several digits start with a zero. -/
def hasLeadingZero (cs : List Char) : Bool :=
  let body := (takeSign cs).2
  1 < body.length && body.head? == some '0' && body.all isDigit

/-- The whole number that a scalar spells. -/
def int? (cs : List Char) : Option Int :=
  let (negative, body) := takeSign cs
  let magnitude := (prefixed? body).or (if hasLeadingZero cs then none else digitsIn? 10 body)
  magnitude.map fun n => if negative then -(n : Int) else n

/-- The binary number that digits with a point or a power of ten spell. -/
def decimal? (cs : List Char) : Option Binary64 :=
  let (negative, body) := takeSign cs
  let whole := body.takeWhile isDigit
  let (fraction, rest) :=
    match body.dropWhile isDigit with
    | '.' :: rest => (rest.takeWhile isDigit, rest.dropWhile isDigit)
    | rest => ([], rest)
  if whole.isEmpty && fraction.isEmpty then none
  else
    let power? : Option Int :=
      match rest with
      | [] => some 0
      | c :: rest =>
        if c == 'e' || c == 'E' then
          let (below, ds) := takeSign rest
          if ds.isEmpty || !ds.all isDigit then none
          else some (if below then -(digitsValue ds : Int) else digitsValue ds)
        else none
    power?.bind fun power =>
      Binary64.ofDecimal negative (digitsValue (whole ++ fraction)) (power - fraction.length)

/-- The binary number that a scalar spells; infinite ones and those that are no number have names of
their own. -/
def float? (cs : List Char) : Option (Option Binary64) :=
  let unsigned := (stripFront? ['+'] cs).getD cs
  let is (names : List String) (cs : List Char) : Bool := names.contains (String.ofList cs)
  if unsigned.length < cs.length && (takeSign unsigned).2.length < unsigned.length then none
  else if is [".inf", ".Inf", ".INF"] unsigned || is ["-.inf", "-.Inf", "-.INF"] cs then some none
  else if is [".nan", ".NaN", ".NAN"] cs then some none
  else (decimal? unsigned).map some

/-- Whether a number has 64 bits, with or without sign. -/
def fits (n : Int) : Bool := int64Min ≤ n && n ≤ uint64Max

/-- Whether a number has 128 bits, with or without sign. -/
def fitsWide (n : Int) : Bool := -(2 ^ (127 : Nat)) ≤ n && n < 2 ^ (128 : Nat)

/-- The value of a whole number, unless it has more than 128 bits. -/
def ofInt? (n : Int) : Option CoreValue :=
  if fits n then some (.int n) else if fitsWide n then some .wideInt else none

/-- The whole number that a scalar stands for, if it has at most 128 bits. -/
def intValue? (cs : List Char) : Option CoreValue := (int? cs).bind ofInt?

end Core

namespace CoreValue

open Yaml.Core

/-- What a plain scalar stands for. -/
def ofPlain (cs : List Char) : CoreValue :=
  if cs.isEmpty || isNull cs then null
  else
    match bool? cs with
    | some b => bool b
    | none =>
      match intValue? cs with
      | some v => v
      | none => if hasLeadingZero cs then text else ((float? cs).map float).getD text

end CoreValue

end PluginKernel.Yaml
