/-!
# Durations

A duration is a whole number of nanoseconds of either sign. Its whole seconds are a 64-bit signed
number and its nanosecond part lies within one second of zero on the same side, which bounds the
total: the range is a second wider below than above, because 64-bit numbers are.

Elapsed times are stored in steps of ten milliseconds; `Duration.truncate` rounds toward zero to
that resolution.
-/

namespace PluginKernel

/-- Nanoseconds in a second. -/
def nanosPerSecond : Nat := 1000000000

/-- A signed span of time, counted in nanoseconds. -/
@[ext]
structure Duration where
  /-- The whole span in nanoseconds. -/
  nanos : Int
  /-- The whole seconds are not below the least 64-bit signed number. -/
  min_le : -9223372036854775808999999999 ≤ nanos
  /-- The whole seconds are not above the greatest 64-bit signed number. -/
  le_max : nanos ≤ 9223372036854775807999999999
deriving DecidableEq

namespace Duration

/-- The empty span. -/
def zero : Duration := ⟨0, by decide, by decide⟩

instance : Inhabited Duration := ⟨zero⟩

/-- The longest span. -/
def longest : Duration := ⟨9223372036854775807999999999, by decide, by decide⟩

/-- The span of so many nanoseconds, if it is in range. -/
def ofNanos? (n : Int) : Option Duration :=
  if h : -9223372036854775808999999999 ≤ n ∧ n ≤ 9223372036854775807999999999 then
    some ⟨n, h.1, h.2⟩
  else none

/-- The span of so many seconds and nanoseconds, if it is in range. The two may disagree in sign
and the nanoseconds may exceed a second: only their sum counts. -/
def ofSeconds? (seconds nanos : Int) : Option Duration :=
  ofNanos? (seconds * nanosPerSecond + nanos)

/-- The whole seconds of a span, rounded toward zero. -/
def seconds (d : Duration) : Int := d.nanos.tdiv nanosPerSecond

/-- What the whole seconds leave of a span; it has the sign of the span. -/
def subsecond (d : Duration) : Int := d.nanos.tmod nanosPerSecond

/-- Whether the span points backwards. -/
def isNegative (d : Duration) : Bool := d.nanos < 0

/-- The span without its sign. The spans whose whole seconds are the least 64-bit number have no
counterpart; they give the longest span. -/
def abs (d : Duration) : Duration :=
  if h : d.nanos ≤ -9223372036854775808000000000 then longest
  else ⟨d.nanos.natAbs, by omega, by have := d.le_max; omega⟩

/-- The later of two spans. -/
def max (d e : Duration) : Duration := if d.nanos < e.nanos then e else d

/-- The nanoseconds of one step of the storage resolution, ten milliseconds. -/
def resolution : Int := 10000000

/-- Rounding toward zero does not leave the interval between a number and zero. -/
theorem sub_tmod_mem (n : Int) {k : Int} (hk : 0 < k) :
    (0 ≤ n → 0 ≤ n - n.tmod k ∧ n - n.tmod k ≤ n) ∧
      (n < 0 → n ≤ n - n.tmod k ∧ n - n.tmod k ≤ 0) := by
  have hd := Int.mul_tdiv_add_tmod n k
  constructor
  · intro hn
    have h0 := Int.tmod_nonneg k hn
    have h1 : 0 ≤ k * n.tdiv k :=
      Int.mul_nonneg (Int.le_of_lt hk) (Int.tdiv_nonneg hn (Int.le_of_lt hk))
    omega
  · intro hn
    have h0 : 0 ≤ (-n).tmod k := Int.tmod_nonneg k (by omega)
    have h1 : 0 ≤ k * (-n).tdiv k := Int.mul_nonneg (Int.le_of_lt hk)
      (Int.tdiv_nonneg (by omega) (Int.le_of_lt hk))
    rw [Int.neg_tmod] at h0
    rw [Int.neg_tdiv, Int.mul_neg] at h1
    omega

/-- Round toward zero to the storage resolution. -/
def truncate (d : Duration) : Duration where
  nanos := d.nanos - d.nanos.tmod resolution
  min_le := by
    have h := sub_tmod_mem d.nanos (k := resolution) (by decide)
    have hl := d.min_le
    rcases Int.lt_or_le d.nanos 0 with hn | hn
    · have := h.2 hn; omega
    · have := h.1 hn; omega
  le_max := by
    have h := sub_tmod_mem d.nanos (k := resolution) (by decide)
    have hl := d.le_max
    rcases Int.lt_or_le d.nanos 0 with hn | hn
    · have := h.2 hn; omega
    · have := h.1 hn; omega

end Duration

end PluginKernel
