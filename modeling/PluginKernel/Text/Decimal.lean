/-!
# Whole numbers in decimal

Writing and reading whole numbers. Reading follows one grammar everywhere: at most one sign, then
ASCII digits, at least one; leading zeros carry no meaning. A reader is bounded by the range of
the number it is asked for, and says which of four things went wrong.
-/

-- A power of a natural number is that of the core library, here and in every module that uses this
-- one, whatever else is imported.
attribute [instance (20000)] instPowNat

namespace PluginKernel.Text

/-- An ASCII digit. -/
def isDigit (c : Char) : Bool := '0' ≤ c && c ≤ '9'

/-- The value of an ASCII digit. -/
def digitValue (c : Char) : Nat := c.toNat - '0'.toNat

/-- The value of a run of ASCII digits, most significant first. -/
def digitsValue (cs : List Char) : Nat := cs.foldl (fun n c => 10 * n + digitValue c) 0

/-- The decimal digits of a number, most significant first. -/
def digits (n : Nat) : List Char := Nat.toDigits 10 n

/-- A whole number in decimal, with a minus sign if it is negative. -/
def signedDigits (n : Int) : List Char :=
  if n < 0 then '-' :: digits n.natAbs else digits n.natAbs

/-- A whole number in decimal, as a text. -/
def showInt (n : Int) : String := String.ofList (signedDigits n)

/-- Why a text is not a whole number of the asked range. -/
inductive IntegerError where
  /-- There is nothing to read. -/
  | empty
  /-- A character is not a digit, or a sign stands alone. -/
  | invalidDigit
  /-- The number lies above the range. -/
  | tooLarge
  /-- The number lies below the range. -/
  | tooSmall
deriving DecidableEq, Repr

/-- The wording of each cause. -/
def IntegerError.message : IntegerError → String
  | .empty => "cannot parse integer from empty string"
  | .invalidDigit => "invalid digit found in string"
  | .tooLarge => "number too large to fit in target type"
  | .tooSmall => "number too small to fit in target type"

/-- The least 64-bit signed number. -/
def int64Min : Int := -9223372036854775808

/-- The greatest 64-bit signed number. -/
def int64Max : Int := 9223372036854775807

/-- The greatest 64-bit unsigned number. -/
def uint64Max : Nat := 18446744073709551615

/-- The 64-bit signed number that equals a whole number, if there is one. -/
def toInt64? (n : Int) : Option Int64 :=
  if int64Min ≤ n && n ≤ int64Max then some (Int64.ofInt n) else none

/-- Read a 64-bit signed number: at most one sign, then one or more ASCII digits. -/
def readInt64 (cs : List Char) : Except IntegerError Int64 :=
  match cs with
  | [] => .error .empty
  | c :: rest =>
    let negative := c == '-'
    let body := if c == '-' || c == '+' then rest else cs
    if body.isEmpty || !body.all isDigit then .error .invalidDigit
    else
      let magnitude : Int := digitsValue body
      match toInt64? (if negative then -magnitude else magnitude) with
      | some n => .ok n
      | none => .error (if negative then .tooSmall else .tooLarge)

end PluginKernel.Text
