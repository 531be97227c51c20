import PluginKernel.Duration.Basic
import PluginKernel.Text.Blank
import PluginKernel.Text.Decimal

/-!
# Durations as text

Stored elapsed times are texts such as `0s`, `40µs`, `120ms`, `1.5s`, `2m3.45s` or `1h0m0s`.

Writing picks the form by size. Below a second there is one component, in the largest of `ns`, `µs`
and `ms` that keeps a whole part; from a second on there are hours, minutes and seconds, where
leading components that are zero are left out and inner ones are not. Fractions have no trailing
zeros. A negative duration is a minus sign and the text of its absolute value.

Reading accepts more than writing produces: an optional sign followed either by a bare `0` or by one
or more components in any order, each a decimal number with or without a fraction and one of eight
spellings of the six units. Sums are taken in 128 bits, and each step that could leave them is
checked.
-/

namespace PluginKernel

/-- The units a component can have. -/
inductive TimeUnit where
  | nanosecond
  | microsecond
  | millisecond
  | second
  | minute
  | hour
deriving DecidableEq, Repr

namespace TimeUnit

/-- The length of a unit in nanoseconds. -/
def nanos : TimeUnit → Nat
  | nanosecond => 1
  | microsecond => 1000
  | millisecond => 1000000
  | second => 1000000000
  | minute => 60000000000
  | hour => 3600000000000

/-- The unit with this spelling. A microsecond has three: with the letter `u`, with the micro sign
and with the Greek letter. -/
def ofSpelling? (cs : List Char) : Option TimeUnit :=
  if cs = ['n', 's'] then some nanosecond
  else if cs = ['u', 's'] || cs = ['\u00b5', 's'] || cs = ['\u03bc', 's'] then some microsecond
  else if cs = ['m', 's'] then some millisecond
  else if cs = ['s'] then some second
  else if cs = ['m'] then some minute
  else if cs = ['h'] then some hour
  else none

end TimeUnit

namespace Duration

open Text

/-! ## Writing -/

/-- Digits of `n` padded with zeros on the left to `width`. -/
def padded (width n : Nat) : List Char :=
  List.replicate (width - (digits n).length) '0' ++ digits n

/-- The quotient of `value` by `unit` as a decimal number, where `unit` is the power of ten with
`places` zeros. Trailing zeros of the fraction are dropped, and the point with them if nothing is
left. -/
def decimal (value unit places : Nat) : List Char :=
  let rest := value % unit
  digits (value / unit) ++
    if rest = 0 then [] else '.' :: trimEnd (· == '0') (padded places rest)

/-- The text of a span of `n` nanoseconds, none of them negative. -/
def formatNanos (n : Nat) : List Char :=
  if n = 0 then ['0', 's']
  else if n < 1000 then digits n ++ ['n', 's']
  else if n < 1000000 then decimal n 1000 3 ++ ['\u00b5', 's']
  else if n < 1000000000 then decimal n 1000000 6 ++ ['m', 's']
  else
    let minutes := n / 60000000000
    let hours := minutes / 60
    (if hours = 0 then [] else digits hours ++ ['h']) ++
      (if minutes = 0 then [] else digits (minutes % 60) ++ ['m']) ++
      decimal (n % 60000000000) 1000000000 9 ++ ['s']

/-- The characters of a duration's text. -/
def formatChars (d : Duration) : List Char :=
  if d.isNegative then '-' :: formatNanos d.abs.nanos.toNat else formatNanos d.nanos.toNat

/-- The text of a duration. -/
def format (d : Duration) : String := String.ofList d.formatChars

/-! ## Reading -/

/-- One component as written: the digits before the point, those behind it, and the unit. -/
structure Component where
  /-- The digits before the point; there may be none. -/
  whole : List Char
  /-- The digits behind the point; there may be none. -/
  fraction : List Char
  unit : TimeUnit
deriving DecidableEq, Repr

/-- A unit is spelled up to the next digit or point. -/
def endsUnit (c : Char) : Bool := isDigit c || c == '.'

/-- Split a text behind the digits at its front and a point that may follow them with more digits:
the digits before the point, those behind it, and what is left. -/
def takeNumber (cs : List Char) : List Char × List Char × List Char :=
  let whole := cs.takeWhile isDigit
  match cs.dropWhile isDigit with
  | '.' :: rest => (whole, rest.takeWhile isDigit, rest.dropWhile isDigit)
  | rest => (whole, [], rest)

/-- The component at the front of a text, and what follows it. -/
def takeComponent (cs : List Char) : Option (Component × List Char) :=
  let (whole, fraction, rest) := takeNumber cs
  if whole.isEmpty && fraction.isEmpty then none
  else
    (TimeUnit.ofSpelling? (rest.takeWhile (!endsUnit ·))).map fun unit =>
      (⟨whole, fraction, unit⟩, rest.dropWhile (!endsUnit ·))

theorem takeNumber_length_le (cs : List Char) : (takeNumber cs).2.2.length ≤ cs.length := by
  have h : ∀ l : List Char, (l.dropWhile isDigit).length ≤ l.length := fun l =>
    (List.dropWhile_suffix _).length_le
  unfold takeNumber
  split
  next rest heq =>
    have h1 := h cs
    rw [heq] at h1
    have h2 := h rest
    simp only [List.length_cons] at h1
    simp only
    omega
  · exact h cs

/-- A component takes up some of the text. -/
theorem takeComponent_length_lt {cs rest : List Char} {c : Component}
    (h : takeComponent cs = some (c, rest)) : rest.length < cs.length := by
  simp only [takeComponent] at h
  split at h
  · simp at h
  · simp only [Option.map_eq_some_iff, Prod.mk.injEq] at h
    obtain ⟨unit, hu, -, rfl⟩ := h
    have hle := takeNumber_length_le cs
    generalize (takeNumber cs).2.2 = tail at hu hle
    have hne : tail.takeWhile (!endsUnit ·) ≠ [] := by
      intro hnil
      rw [hnil] at hu
      simp [TimeUnit.ofSpelling?] at hu
    have hsum := congrArg List.length
      (List.takeWhile_append_dropWhile (p := (!endsUnit ·)) (l := tail))
    have hpos := List.length_pos_iff.2 hne
    rw [List.length_append] at hsum
    omega

/-- The components of a text that consists of nothing else. -/
def components? (cs : List Char) : Option (List Component) :=
  if cs.isEmpty then some []
  else
    match _h : takeComponent cs with
    | none => none
    | some (c, rest) => (components? rest).map (c :: ·)
termination_by cs.length
decreasing_by exact takeComponent_length_lt _h

/-- A number that 128 bits hold. -/
def checked (n : Nat) : Option Nat := if n < 2 ^ (128 : Nat) then some n else none

/-- The digits of a fraction that count: digits behind the eighteenth are dropped. -/
def Component.kept (c : Component) : List Char := c.fraction.take 18

/-- The nanoseconds a fraction adds to its component, rounded down. -/
def Component.fractionNanos (c : Component) : Nat :=
  digitsValue c.kept * c.unit.nanos / 10 ^ c.kept.length

/-- The nanoseconds of a component, if every step stays within 128 bits. -/
def Component.nanos? (c : Component) : Option Nat := do
  let whole ← checked (digitsValue c.whole)
  let scaled ← checked (whole * c.unit.nanos)
  checked (scaled + c.fractionNanos)

/-- The nanoseconds of several components, if every step stays within 128 bits. -/
def sum? (cs : List Component) : Option Nat :=
  cs.foldlM (fun total c => do checked (total + (← c.nanos?))) 0

/-- The sign at the front of a text, and what follows it. -/
def takeSign : List Char → Bool × List Char
  | '-' :: rest => (true, rest)
  | '+' :: rest => (false, rest)
  | cs => (false, cs)

/-- The nanoseconds of a text without a sign. -/
def nanos? (cs : List Char) : Option Nat :=
  if cs = ['0'] then some 0
  else if cs.isEmpty then none
  else (components? cs).bind sum?

/-- The duration that a list of characters spells. -/
def parseChars? (cs : List Char) : Option Duration :=
  (nanos? (takeSign cs).2).bind fun n =>
    if h : n ≤ 9223372036854775807999999999 then
      if (takeSign cs).1 then some ⟨-(n : Int), by omega, by omega⟩
      else some ⟨n, by omega, by omega⟩
    else none

/-- The duration that a text spells, if it spells one. -/
def parse? (s : String) : Option Duration := parseChars? s.toList

end Duration

end PluginKernel
