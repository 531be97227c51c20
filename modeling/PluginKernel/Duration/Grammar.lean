import PluginKernel.Duration.Text

/-!
# The grammar of durations

Which texts spell a duration, and which one, without regard to how they are read. A text is a sign,
which may be missing, and either a bare zero or a row of components. The components add up, each of
them rounded down to whole nanoseconds by itself, and the sum has to be less than `2 ^ 63` seconds.
-/

namespace PluginKernel

/-- The spellings of a unit. -/
def TimeUnit.spellings : TimeUnit → List (List Char)
  | nanosecond => [['n', 's']]
  | microsecond => [['u', 's'], ['\u00b5', 's'], ['\u03bc', 's']]
  | millisecond => [['m', 's']]
  | second => [['s']]
  | minute => [['m']]
  | hour => [['h']]

namespace Duration

open Text

/-- A component as written: digits, possibly a point with more digits, and a spelling of the unit.
There is at least one digit. -/
inductive Component.Written : Component → List Char → Prop where
  /-- There is no point. -/
  | plain {whole spelling : List Char} {unit : TimeUnit} (hwhole : ∀ c ∈ whole, isDigit c = true)
      (hne : whole ≠ []) (hspelling : spelling ∈ unit.spellings) :
      Written ⟨whole, [], unit⟩ (whole ++ spelling)
  /-- There is a point; digits may be missing on one side of it. -/
  | pointed {whole fraction spelling : List Char} {unit : TimeUnit}
      (hwhole : ∀ c ∈ whole, isDigit c = true) (hfraction : ∀ c ∈ fraction, isDigit c = true)
      (hne : whole ≠ [] ∨ fraction ≠ []) (hspelling : spelling ∈ unit.spellings) :
      Written ⟨whole, fraction, unit⟩ (whole ++ '.' :: (fraction ++ spelling))

/-- Components as written, one after the other. -/
inductive Row : List Component → List Char → Prop where
  /-- There is none. -/
  | nil : Row [] []
  /-- The first one and the others. -/
  | cons {c : Component} {cs : List Component} {front rest : List Char} (hc : c.Written front)
      (hcs : Row cs rest) : Row (c :: cs) (front ++ rest)

/-- The nanoseconds of a component: those of its whole part, and those of the first eighteen digits
of its fraction rounded down. -/
def Component.value (c : Component) : Nat :=
  let places := Nat.min 18 c.fraction.length
  digitsValue c.whole * c.unit.nanos +
    digitsValue (c.fraction.take places) * c.unit.nanos / 10 ^ places

/-- The nanoseconds of several components. -/
def total : List Component → Nat
  | [] => 0
  | c :: cs => c.value + total cs

/-- A text without a sign and its nanoseconds. -/
inductive Magnitude : List Char → Nat → Prop where
  /-- A bare zero needs no unit. -/
  | zero : Magnitude ['0'] 0
  /-- Anything else is a row of components. -/
  | row {cs : List Component} {body : List Char} (hne : cs ≠ []) (h : Row cs body) :
      Magnitude body (total cs)

/-- A sign as written, and whether it is a minus. -/
inductive Sign : List Char → Bool → Prop where
  /-- There is none. -/
  | absent : Sign [] false
  /-- A plus changes nothing. -/
  | plus : Sign ['+'] false
  /-- A minus makes the duration point backwards. -/
  | minus : Sign ['-'] true

/-- The seconds below which the sum of the components has to be. -/
def secondsLimit : Nat := 2 ^ (63 : Nat)

/-- A text spells a duration. -/
inductive Spells (s : String) (d : Duration) : Prop where
  /-- The text is a sign and a magnitude in range, and the duration is their product. -/
  | intro {sign body : List Char} {negative : Bool} {n : Nat} (htext : s.toList = sign ++ body)
      (hsign : Sign sign negative) (hbody : Magnitude body n)
      (hrange : n < secondsLimit * nanosPerSecond)
      (hnanos : d.nanos = if negative then -(n : Int) else n)

end Duration

end PluginKernel
