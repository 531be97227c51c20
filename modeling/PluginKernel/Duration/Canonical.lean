import PluginKernel.Duration.Grammar

/-!
# Canonical texts of durations

Which texts a duration is written as, without regard to how they are put together. Each span has one
form, and its size decides which: below a second a single number of nanoseconds, microseconds or
milliseconds, above it seconds, then minutes and seconds, then hours, minutes and seconds. Numbers
have no leading zeros and fractions no trailing ones, and in the longer forms every number but the
first is below sixty and is written even if it is zero.
-/

namespace PluginKernel.Duration

open Text

/-- A whole number as written: digits, with no zero in front of others. -/
structure Numeral (cs : List Char) : Prop where
  isDigit : ∀ c ∈ cs, isDigit c = true
  ne_nil : cs ≠ []
  /-- Only zero begins with a zero. -/
  lead : cs.head? = some '0' → cs = ['0']

/-- What may follow a whole number: nothing, or a point and up to `places` digits. -/
inductive Fraction (places : Nat) : List Char → Prop where
  /-- There is no point. -/
  | absent : Fraction places []
  /-- There is a point, and the last digit behind it is not a zero. -/
  | pointed {ds : List Char} (hdigits : ∀ c ∈ ds, isDigit c = true) (hne : ds ≠ [])
      (hle : ds.length ≤ places) (hlast : ds.getLast? ≠ some '0') : Fraction places ('.' :: ds)

/-- The texts of spans without a sign, for all spans that are not empty. -/
inductive CanonicalSpan : List Char → Prop where
  | nanoseconds {n : List Char} (hn : Numeral n) (hpos : 1 ≤ digitsValue n)
      (hle : digitsValue n ≤ 999) : CanonicalSpan (n ++ ['n', 's'])
  | microseconds {n f : List Char} (hn : Numeral n) (hpos : 1 ≤ digitsValue n)
      (hle : digitsValue n ≤ 999) (hf : Fraction 3 f) : CanonicalSpan (n ++ f ++ ['\u00b5', 's'])
  | milliseconds {n f : List Char} (hn : Numeral n) (hpos : 1 ≤ digitsValue n)
      (hle : digitsValue n ≤ 999) (hf : Fraction 6 f) : CanonicalSpan (n ++ f ++ ['m', 's'])
  | seconds {s f : List Char} (hs : Numeral s) (hpos : 1 ≤ digitsValue s)
      (hle : digitsValue s ≤ 59) (hf : Fraction 9 f) : CanonicalSpan (s ++ f ++ ['s'])
  | minutes {m s f : List Char} (hm : Numeral m) (hpos : 1 ≤ digitsValue m)
      (hmle : digitsValue m ≤ 59) (hs : Numeral s) (hsle : digitsValue s ≤ 59)
      (hf : Fraction 9 f) : CanonicalSpan (m ++ ['m'] ++ (s ++ f ++ ['s']))
  /-- Only this form can get out of range; its fraction is less than a second and does not count. -/
  | hours {h m s f : List Char} (hh : Numeral h) (hpos : 1 ≤ digitsValue h) (hm : Numeral m)
      (hmle : digitsValue m ≤ 59) (hs : Numeral s) (hsle : digitsValue s ≤ 59)
      (hf : Fraction 9 f)
      (hlimit : digitsValue h * 3600 + digitsValue m * 60 + digitsValue s < secondsLimit) :
      CanonicalSpan (h ++ ['h'] ++ (m ++ ['m'] ++ (s ++ f ++ ['s'])))

/-- A text that some duration is written as. -/
inductive Canonical (t : String) : Prop where
  /-- The empty span is zero seconds, without a sign. -/
  | zero (htext : t.toList = ['0', 's'])
  /-- Any other span may have a minus sign. -/
  | span {sign body : List Char} (hsign : sign = [] ∨ sign = ['-']) (hbody : CanonicalSpan body)
      (htext : t.toList = sign ++ body)

end PluginKernel.Duration
