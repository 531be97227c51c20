import PluginKernel.Binary64.Basic
import PluginKernel.Text.Decimal
import PluginKernel.Text.Blank

/-!
# The shortest decimal text of a binary number

Every real number closer to a binary number than to its neighbours rounds to it; a midpoint does if
the mantissa is even. Of the decimals in that interval the shortest is written, and of several the
nearest. The search goes through the grids of one to seventeen digits: if a point of a grid lies in
the interval, so does one of the number's two neighbours on that grid.

Two layouts of the digits are in use. `positional` writes every place, and a fraction always.
`compact` does so for moderate exponents only and writes the others with a power of ten.
-/

namespace PluginKernel.Binary64

open Text

/-- A number in decimal: the digits, and the position of the point counted from their front. -/
structure Digits where
  /-- The digits, the first of them not zero. -/
  digits : List Char
  /-- How many of the digits stand before the point; less than none if zeros follow the point. -/
  point : Int
deriving DecidableEq, Repr

/-- The decimal exponent of a positive ratio: the power of ten with which its first digit counts. -/
def decimalExponent (num den : Nat) : Int :=
  if den ≤ num then (digits (num / den)).length - 1
  else -((digits ((den + num - 1) / num - 1)).length : Int)

/-- A ratio divided by a power of ten. -/
def unscale (num den : Nat) (k : Int) : Nat × Nat :=
  if 0 ≤ k then (num, den * 10 ^ k.toNat) else (num * 10 ^ (-k).toNat, den)

/-- The interval of reals that round to a number, in quarters of the last mantissa bit: its lower
end, the number, its upper end, and whether the ends belong to it. -/
def interval (x : Binary64) : Nat × Nat × Nat × Bool :=
  let middle := 4 * x.mantissa
  let below := if x.mantissa == 2 ^ (52 : Nat) && x.exponent != -1074 then 1 else 2
  (middle - below, middle, middle + 2, x.mantissa % 2 == 0)

/-- The decimal with `n` digits that reads back as the number, if there is one: the digits as a
number, and the power of ten of the last. -/
def onGrid (x : Binary64) (top : Int) (n : Nat) : Option (Nat × Int) :=
  let (low, middle, high, closed) := x.interval
  let k := top - n + 1
  let (unit, den) := scaled 1 (x.exponent - 2)
  let (num, den) := unscale unit den k
  let floor := middle * num / den
  let inside (d : Nat) : Bool :=
    if closed then low * num ≤ d * den && d * den ≤ high * num
    else low * num < d * den && d * den < high * num
  let isNearerBelow := 2 * (middle * num - floor * den) ≤ den
  match inside floor, inside (floor + 1) with
  | true, true => some (if isNearerBelow then floor else floor + 1, k)
  | true, false => some (floor, k)
  | false, true => some (floor + 1, k)
  | false, false => none

/-- The first grid from `n` digits on that has a decimal for the number, out of `count` grids. -/
def searchGrids (x : Binary64) (top : Int) : Nat → Nat → Option (Nat × Int)
  | 0, _ => none
  | count + 1, n => (x.onGrid top n).or (searchGrids x top count (n + 1))

/-- The shortest decimal that reads back as the absolute value. -/
def shortest (x : Binary64) : Digits :=
  if x.isZero then ⟨['0'], 1⟩
  else
    let (num, den) := x.ratio
    let top := decimalExponent num den
    match x.searchGrids top 17 1 with
    | none => ⟨['0'], 1⟩
    | some (d, k) =>
      let all := digits d
      ⟨trimEnd (· == '0') all, all.length + k⟩

/-- So many zeros. -/
def zeros (n : Int) : List Char := List.replicate n.toNat '0'

/-- Digits with every place written out, and at least one behind the point. -/
def Digits.places (d : Digits) : List Char :=
  let n : Int := d.digits.length
  if d.point ≤ 0 then ['0', '.'] ++ zeros (-d.point) ++ d.digits
  else if d.point < n then d.digits.take d.point.toNat ++ '.' :: d.digits.drop d.point.toNat
  else d.digits ++ zeros (d.point - n) ++ ['.', '0']

/-- Digits with a power of ten. -/
def Digits.scientific (d : Digits) : List Char :=
  let tail := d.digits.drop 1
  d.digits.take 1 ++ (if tail.isEmpty then [] else '.' :: tail) ++
    'e' :: signedDigits (d.point - 1)

/-- A minus sign in front of what is negative. -/
def withSign (x : Binary64) (cs : List Char) : List Char := if x.negative then '-' :: cs else cs

/-- The shortest decimal with every place written out. -/
def positional (x : Binary64) : List Char := x.withSign x.shortest.places

/-- The shortest decimal, with a power of ten unless the point lies within or near the digits. -/
def compact (x : Binary64) : List Char :=
  let d := x.shortest
  x.withSign (if -5 < d.point && d.point ≤ 16 then d.places else d.scientific)

end PluginKernel.Binary64
