import PluginKernel.Json.Basic

/-!
# Numerals of JSON

A numeral is a sign, a whole part, a fraction and a power of ten. Without the last two it stands for
a whole number as long as 64 bits hold it. Every other numeral stands for a binary number, found in
two roundings: the digits that 64 bits hold are rounded first, then scaled by the rounded power of
ten. Digits of the whole part that no longer fit count as places; digits of the fraction that no
longer fit are dropped. A numeral beyond the greatest binary number stands for nothing.
-/

namespace PluginKernel.Json

open Text

/-- A numeral as written. -/
structure Numeral where
  /-- Whether it starts with a minus sign. -/
  negative : Bool
  /-- The digits before the point. -/
  whole : List Char
  /-- The digits behind the point, if there is one. -/
  fraction : Option (List Char)
  /-- The power of ten, if there is one: whether it is negative, and its digits. -/
  power : Option (Bool × List Char)

namespace Numeral

/-- Add digits to a number as long as 64 bits hold it; the digits that no longer fit are left. -/
def accumulate (n : Nat) : List Char → Nat × List Char
  | [] => (n, [])
  | c :: cs =>
    let m := 10 * n + digitValue c
    if m ≤ uint64Max then accumulate m cs else (n, c :: cs)

/-- The binary number nearest to ten to the `k`, for powers in range. -/
def tenTo (k : Nat) : Binary64 := (Binary64.round false (10 ^ k) 1).getD (Binary64.zero false)

/-- Divide `n` times by the greatest power of ten that the format can hold. Zero stays zero. -/
def divideOften : Nat → Binary64 → Option Binary64
  | 0, x => some x
  | n + 1, x => if x.isZero then some x else (x.div (tenTo 308)).bind (divideOften n)

/-- Scale a binary number by ten to the `e`, in steps that the format can hold. -/
def scale (x : Binary64) (e : Int) : Option Binary64 :=
  if e.natAbs ≤ 308 then
    if 0 ≤ e then x.mul (tenTo e.natAbs) else x.div (tenTo e.natAbs)
  else if 0 < e then
    if x.isZero then some x else none
  else
    let steps := (e.natAbs - 1) / 308
    (divideOften steps x).bind fun y => y.div (tenTo (e.natAbs - 308 * steps))

/-- The binary number that a significand and a power of ten stand for. -/
def ofScaled? (negative : Bool) (significand : Nat) (e : Int) : Option Json := do
  let x ← Binary64.round negative significand 1
  let y ← scale x e
  pure (.float y)

/-- The greatest power of ten that is read. -/
def powerMax : Nat := 2147483647

/-- What a numeral stands for. -/
def value? (numeral : Numeral) : Option Json :=
  let fraction := numeral.fraction.getD []
  let (s, wholeLeft) := accumulate 0 numeral.whole
  let (s', fractionLeft) := accumulate s fraction
  let places : Int := wholeLeft.length - (fraction.length - fractionLeft.length : Nat)
  match numeral.power with
  | none =>
    if numeral.fraction.isNone && wholeLeft.isEmpty then
      if !numeral.negative then some (.int s)
      else if s = 0 then some (.float (Binary64.zero true))
      else if (s : Int) ≤ -int64Min then some (.int (-s))
      else ofScaled? true s 0
    else ofScaled? numeral.negative s' places
  | some (below, ds) =>
    let e := digitsValue ds
    if powerMax < e then
      if s' ≠ 0 && !below then none else some (.float (Binary64.zero numeral.negative))
    else ofScaled? numeral.negative s' (if below then places - e else places + e)

/-- The digits at the front of a text, and what follows them. -/
def takeDigits (cs : List Char) : List Char × List Char :=
  (cs.takeWhile isDigit, cs.dropWhile isDigit)

/-- The sign of a power of ten, and what follows it. -/
def takePowerSign : List Char → Bool × List Char
  | '-' :: rest => (true, rest)
  | '+' :: rest => (false, rest)
  | cs => (false, cs)

/-- The fraction at the front of a text, if there is one, and what follows it; nothing if the point
has no digit behind it. -/
def takeFraction? : List Char → Option (Option (List Char) × List Char)
  | '.' :: rest =>
    let (ds, rest) := takeDigits rest
    if ds.isEmpty then none else some (some ds, rest)
  | cs => some (none, cs)

/-- The power of ten at the front of a text, if there is one, and what follows it; nothing if it has
no digits. -/
def takePower? : List Char → Option (Option (Bool × List Char) × List Char)
  | c :: rest =>
    if c == 'e' || c == 'E' then
      let (below, rest) := takePowerSign rest
      let (ds, rest) := takeDigits rest
      if ds.isEmpty then none else some (some (below, ds), rest)
    else some (none, c :: rest)
  | [] => some (none, [])

/-- The minus sign at the front of a text, and what follows it. -/
def takeMinus : List Char → Bool × List Char
  | '-' :: rest => (true, rest)
  | cs => (false, cs)

/-- The numeral at the front of a text, and what follows it. A whole part of several digits does not
start with a zero. -/
def take? (cs : List Char) : Option (Numeral × List Char) := do
  let (negative, rest) := takeMinus cs
  let (whole, rest) := takeDigits rest
  if whole.isEmpty || (whole.head? == some '0' && 1 < whole.length) then none
  let (fraction, rest) ← takeFraction? rest
  let (power, rest) ← takePower? rest
  pure (⟨negative, whole, fraction, power⟩, rest)

theorem takeDigits_length (cs : List Char) :
    (takeDigits cs).1.length + (takeDigits cs).2.length = cs.length := by
  unfold takeDigits
  rw [← List.length_append, List.takeWhile_append_dropWhile]

theorem takeMinus_length_le (cs : List Char) : (takeMinus cs).2.length ≤ cs.length := by
  unfold takeMinus; split <;> simp

theorem takePowerSign_length_le (cs : List Char) : (takePowerSign cs).2.length ≤ cs.length := by
  unfold takePowerSign; split <;> simp

theorem takeFraction?_length_le {cs rest : List Char} {f : Option (List Char)}
    (h : takeFraction? cs = some (f, rest)) : rest.length ≤ cs.length := by
  unfold takeFraction? at h
  split at h
  next r =>
    have hd := takeDigits_length r
    simp only at h
    split at h
    · simp at h
    · simp only [Option.some.injEq, Prod.mk.injEq] at h
      obtain ⟨-, rfl⟩ := h
      simp only [List.length_cons]
      omega
  · simp only [Option.some.injEq, Prod.mk.injEq] at h
    obtain ⟨-, rfl⟩ := h
    exact Nat.le_refl _

theorem takePower?_length_le {cs rest : List Char} {p : Option (Bool × List Char)}
    (h : takePower? cs = some (p, rest)) : rest.length ≤ cs.length := by
  unfold takePower? at h
  split at h
  next c r =>
    split at h
    · have hs := takePowerSign_length_le r
      have hd := takeDigits_length (takePowerSign r).2
      simp only at h
      split at h
      · simp at h
      · simp only [Option.some.injEq, Prod.mk.injEq] at h
        obtain ⟨-, rfl⟩ := h
        simp only [List.length_cons]
        omega
    · simp only [Option.some.injEq, Prod.mk.injEq] at h
      obtain ⟨-, rfl⟩ := h
      exact Nat.le_refl _
  · simp only [Option.some.injEq, Prod.mk.injEq] at h
    obtain ⟨-, rfl⟩ := h
    exact Nat.le_refl _

/-- A numeral takes up some of the text. -/
theorem take?_length_lt {cs rest : List Char} {n : Numeral} (h : take? cs = some (n, rest)) :
    rest.length < cs.length := by
  unfold take? at h
  have hm := takeMinus_length_le cs
  have hd := takeDigits_length (takeMinus cs).2
  simp only [bind, Option.bind] at h
  split at h
  · simp at h
  next hwhole =>
    split at h
    · simp at h
    next hf =>
      simp only at h
      split at h
      · simp at h
      next hp =>
        simp only [pure, Option.some.injEq, Prod.mk.injEq] at h
        obtain ⟨-, rfl⟩ := h
        have h1 := takeFraction?_length_le hf
        have h2 := takePower?_length_le hp
        have hne : (takeDigits (takeMinus cs).2).1 ≠ [] := by
          intro hnil
          simp [hnil] at hwhole
        have := List.length_pos_iff.2 hne
        omega

end Numeral

end PluginKernel.Json
