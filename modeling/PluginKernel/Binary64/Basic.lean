import PluginKernel.Text.Decimal

/-!
# Binary floating point with 64 bits

The finite numbers of the 64-bit binary format: a sign and a mantissa scaled by a power of two.
Zero has two signs. Each number has one representation here: the mantissa is as large as it can be,
unless the exponent is at its lower limit.

Rounding takes a ratio of natural numbers to the nearest such number, ties to the even mantissa,
and fails where the nearest number would lie beyond the greatest one. Products, quotients and the
reading of decimal texts are roundings of exact ratios.
-/

namespace PluginKernel

/-- A finite number of the 64-bit binary format. -/
structure Binary64 where
  /-- Whether the sign is minus; zero has one too. -/
  negative : Bool
  mantissa : Nat
  /-- The power of two by which the mantissa is scaled. -/
  exponent : Int
  /-- The mantissa has 53 bits. -/
  mantissa_lt : mantissa < 2 ^ (53 : Nat)
  /-- The exponent is not below its lower limit. -/
  le_exponent : -1074 ≤ exponent
  /-- The exponent is not above its upper limit. -/
  exponent_le : exponent ≤ 971
  /-- Only at the lower limit of the exponent is the leading bit of the mantissa zero. -/
  normal : mantissa < 2 ^ (52 : Nat) → exponent = -1074
deriving DecidableEq

namespace Binary64

/-- Zero with a sign. -/
def zero (negative : Bool) : Binary64 where
  negative := negative
  mantissa := 0
  exponent := -1074
  mantissa_lt := by decide
  le_exponent := by decide
  exponent_le := by decide
  normal := fun _ => rfl

instance : Inhabited Binary64 := ⟨zero false⟩

/-- The number with these parts, if they are in range and in normal form. -/
def ofParts? (negative : Bool) (mantissa : Nat) (exponent : Int) : Option Binary64 :=
  if h : mantissa < 2 ^ (53 : Nat) ∧ -1074 ≤ exponent ∧ exponent ≤ 971 ∧
      (mantissa < 2 ^ (52 : Nat) → exponent = -1074) then
    some ⟨negative, mantissa, exponent, h.1, h.2.1, h.2.2.1, h.2.2.2⟩
  else none

/-- Whether the number is one of the two zeros. -/
def isZero (x : Binary64) : Bool := x.mantissa == 0

/-- `m` scaled by a power of two, as a ratio. -/
def scaled (m : Nat) (e : Int) : Nat × Nat :=
  if 0 ≤ e then (m * 2 ^ e.toNat, 1) else (m, 2 ^ (-e).toNat)

/-- The absolute value as a ratio. -/
def ratio (x : Binary64) : Nat × Nat := scaled x.mantissa x.exponent

/-- The quotient rounded to the nearest natural number, ties to the even one. -/
def divNearest (num den : Nat) : Nat :=
  let q := num / den
  let twice := 2 * (num % den)
  if twice < den || (twice == den && q % 2 == 0) then q else q + 1

/-- The exponent at which the mantissa of a positive ratio has its leading bit in place, or the
lower limit if that is greater. -/
def exponentOf (num den : Nat) : Int :=
  let guess : Int := (num.log2 : Int) - den.log2 - 52
  let (n, d) := scaled den guess
  let exact := if num * d < n * 2 ^ (52 : Nat) then guess - 1 else guess
  if exact < -1074 then -1074 else exact

/-- The number nearest to a ratio, ties to the even mantissa; `none` if it would lie beyond the
greatest number. -/
def round (negative : Bool) (num den : Nat) : Option Binary64 :=
  if num = 0 || den = 0 then some (zero negative)
  else
    let e := exponentOf num den
    let (n, d) := scaled den e
    let m := divNearest (num * d) n
    if m = 2 ^ (53 : Nat) then ofParts? negative (2 ^ (52 : Nat)) (e + 1) else ofParts? negative m e

/-- The product, rounded. -/
def mul (x y : Binary64) : Option Binary64 :=
  round (x.negative != y.negative) (x.ratio.1 * y.ratio.1) (x.ratio.2 * y.ratio.2)

/-- The quotient by a number other than zero, rounded. -/
def div (x y : Binary64) : Option Binary64 :=
  round (x.negative != y.negative) (x.ratio.1 * y.ratio.2) (x.ratio.2 * y.ratio.1)

/-- The number nearest to `significand` times a power of ten. Powers that would settle the answer
on their own are not computed. -/
def ofDecimal (negative : Bool) (significand : Nat) (exponent : Int) : Option Binary64 :=
  let magnitude := (significand.log2 : Int) * 30103 / 100000 + exponent
  if significand = 0 || magnitude < -400 then some (zero negative)
  else if 400 < magnitude then none
  else if 0 ≤ exponent then round negative (significand * 10 ^ exponent.toNat) 1
  else round negative significand (10 ^ (-exponent).toNat)

end Binary64

end PluginKernel
