import PluginKernel.Proofs.Duration.RoundTrip
import PluginKernel.Proofs.Ledger.Records

/-!
# Rounding to the storage resolution

A span is stored as the multiple of ten milliseconds next to it, on the side of zero. `Rounds` says
so without a remainder: among the multiples that are not farther from zero it is the nearest one.

Rounding takes a remainder of the whole span, which may take 94 bits. It comes to the same to round
the nanoseconds behind the whole seconds, which fit 32 bits, because a second is a multiple of the
resolution; no step of that leaves its range. What follows needs only that for spans that do not
point backwards rounding takes the remainder off, and for the others it is the other way round.
-/

namespace PluginKernel.Duration

open Text

/-! ## The span next to a span -/

/-- A span is another one, rounded toward zero to the storage resolution. -/
structure Rounds (d t : Duration) : Prop where
  /-- It is a multiple of the resolution. -/
  multiple : resolution ∣ t.nanos
  /-- It is not farther from zero. -/
  within : t.nanos.natAbs ≤ d.nanos.natAbs
  /-- Every other such multiple is farther away. -/
  nearest : ∀ m, resolution ∣ m → m.natAbs ≤ d.nanos.natAbs → m ≠ t.nanos →
    (d.nanos - t.nanos).natAbs < (d.nanos - m).natAbs

/-- The span that points the other way, if there is one. -/
def neg? (d : Duration) : Option Duration := ofNanos? (-d.nanos)

theorem neg?_eq_some_iff {d e : Duration} : d.neg? = some e ↔ e.nanos = -d.nanos := by
  have hmin := e.min_le
  have hmax := e.le_max
  unfold neg? ofNanos?
  split
  next hrange =>
    rw [Option.some.injEq, Duration.ext_iff]
    exact eq_comm
  next hrange =>
    simp only [reduceCtorEq, false_iff]
    omega

/-- There is a span that points the other way unless the whole seconds are the least number. -/
theorem neg?_eq_none_iff {d : Duration} : d.neg? = none ↔ ¬ int64Min < d.seconds := by
  have hmin := d.min_le
  have hmax := d.le_max
  rw [int64Min_lt_seconds_iff]
  unfold neg? ofNanos?
  split
  · simp only [reduceCtorEq, false_iff]
    omega
  · simp only [true_iff]
    omega

/-! ## Remainders -/

theorem nanos_truncate_of_nonneg {d : Duration} (h : 0 ≤ d.nanos) :
    d.truncate.nanos = d.nanos - d.nanos % 10000000 := by
  show d.nanos - d.nanos.tmod 10000000 = _
  rw [Int.tmod_eq_emod_of_nonneg h]

theorem nanos_truncate_of_neg {d : Duration} (h : d.nanos < 0) :
    d.truncate.nanos = -(-d.nanos - -d.nanos % 10000000) := by
  show d.nanos - d.nanos.tmod 10000000 = _
  have hmod : d.nanos.tmod 10000000 = -((-d.nanos).tmod 10000000) := by
    rw [Int.neg_tmod, Int.neg_neg]
  rw [hmod, Int.tmod_eq_emod_of_nonneg (by omega)]
  omega

/-- Rounding gives the span that is next to a span on the side of zero. -/
theorem rounds_truncate (d : Duration) : Rounds d d.truncate := by
  rcases Int.lt_or_le d.nanos 0 with hneg | hnonneg
  · have ht := nanos_truncate_of_neg hneg
    refine ⟨?_, ?_, ?_⟩
    · rw [ht, resolution]
      omega
    · omega
    · intro m hm hle hne
      rw [resolution] at hm
      omega
  · have ht := nanos_truncate_of_nonneg hnonneg
    refine ⟨?_, ?_, ?_⟩
    · rw [ht, resolution]
      omega
    · omega
    · intro m hm hle hne
      rw [resolution] at hm
      omega

/-- No other span is next to it. -/
theorem rounds_iff {d t : Duration} : Rounds d t ↔ t = d.truncate := by
  refine ⟨fun h => ?_, fun h => h ▸ rounds_truncate d⟩
  have ht := rounds_truncate d
  by_contra hne
  have hne' : t.nanos ≠ d.truncate.nanos := fun heq => hne (Duration.ext heq)
  have hlt := h.nearest d.truncate.nanos ht.multiple ht.within hne'.symm
  have hlt' := ht.nearest t.nanos h.multiple h.within hne'
  exact Nat.lt_asymm hlt hlt'

/-- Rounding takes off less than the resolution. -/
theorem natAbs_sub_truncate_lt (d : Duration) :
    (d.nanos - d.truncate.nanos).natAbs < resolution.natAbs := by
  show _ < 10000000
  rcases Int.lt_or_le d.nanos 0 with hneg | hnonneg
  · rw [nanos_truncate_of_neg hneg]
    omega
  · rw [nanos_truncate_of_nonneg hnonneg]
    omega

/-- Rounding keeps the order of spans. -/
theorem truncate_mono {d e : Duration} (h : d.nanos ≤ e.nanos) :
    d.truncate.nanos ≤ e.truncate.nanos := by
  rcases Int.lt_or_le d.nanos 0 with hd | hd
  · rw [nanos_truncate_of_neg hd]
    rcases Int.lt_or_le e.nanos 0 with he | he
    · rw [nanos_truncate_of_neg he]
      omega
    · rw [nanos_truncate_of_nonneg he]
      omega
  · rw [nanos_truncate_of_nonneg hd, nanos_truncate_of_nonneg (Int.le_trans hd h)]
    omega

/-- Rounding and turning round can be done in either order, and in the same cases. -/
theorem neg?_truncate (d : Duration) : d.truncate.neg? = d.neg?.map truncate := by
  cases he : d.neg? with
  | none =>
    rw [neg?_eq_none_iff, int64Min_lt_seconds_iff] at he
    rw [Option.map_none, neg?_eq_none_iff, int64Min_lt_seconds_iff,
      nanos_truncate_of_neg (by omega)]
    omega
  | some e =>
    rw [neg?_eq_some_iff] at he
    rw [Option.map_some, neg?_eq_some_iff]
    rcases Int.lt_or_le d.nanos 0 with hd | hd
    · have he' : 0 ≤ e.nanos := by omega
      rw [nanos_truncate_of_neg hd, nanos_truncate_of_nonneg he', he]
      omega
    · rcases Int.lt_or_le e.nanos 0 with he' | he'
      · rw [nanos_truncate_of_nonneg hd, nanos_truncate_of_neg he', he]
        omega
      · rw [nanos_truncate_of_nonneg hd, nanos_truncate_of_nonneg he', he]
        omega

/-! ## In words -/

/-- The nanoseconds behind the whole seconds, rounded in 32-bit words. -/
def truncateSubsecond (nanos : Int32) : Int32 := nanos - nanos % (10 * 1000000)

/-- What the whole seconds leave of a span is less than a second. -/
theorem natAbs_subsecond_lt (d : Duration) : d.subsecond.natAbs < 1000000000 := by
  show (d.nanos.tmod 1000000000).natAbs < 1000000000
  rw [Int.natAbs_tmod]
  exact Nat.mod_lt _ (by decide)

/-- What the whole seconds leave of a span fits 32 bits. -/
theorem toInt_subsecond (d : Duration) : (Int32.ofInt d.subsecond).toInt = d.subsecond := by
  have hlt := d.natAbs_subsecond_lt
  exact Int32.toInt_ofInt_of_le (by omega) (by omega)

/-- Rounding in words leaves 32 bits at no step. -/
theorem toInt_truncateSubsecond (d : Duration) :
    (truncateSubsecond (Int32.ofInt d.subsecond)).toInt =
      d.subsecond - d.subsecond.tmod resolution := by
  have hlt := d.natAbs_subsecond_lt
  have hbetween := sub_tmod_mem d.subsecond (k := resolution) (by decide)
  have hstep : (10 * 1000000 : Int32).toInt = resolution := by decide
  have hhalf : ((2 ^ 32 : Nat) : Int) / 2 = 2147483648 := by decide
  have hhalf' : (((2 ^ 32 : Nat) : Int) + 1) / 2 = 2147483648 := by decide
  rw [truncateSubsecond, Int32.toInt_sub, Int32.toInt_mod, toInt_subsecond, hstep]
  refine Int.bmod_eq_of_le ?_ ?_
  · rw [hhalf]
    omega
  · rw [hhalf']
    omega

/-- A second is a multiple of the resolution, so it is enough to round what the whole seconds leave:
in words, and without leaving the range of a span, this comes to the same. -/
theorem ofSeconds?_truncateSubsecond (d : Duration) :
    ofSeconds? d.seconds (truncateSubsecond (Int32.ofInt d.subsecond)).toInt =
      some d.truncate := by
  have hsplit : d.seconds * nanosPerSecond + d.subsecond = d.nanos :=
    Int.tdiv_mul_add_tmod d.nanos nanosPerSecond
  have hrest : d.subsecond.tmod resolution = d.nanos.tmod resolution :=
    Int.tmod_tmod_of_dvd d.nanos (by decide)
  have hsum : d.seconds * nanosPerSecond + (d.subsecond - d.subsecond.tmod resolution) =
      d.truncate.nanos := by
    rw [hrest, ← Int.add_sub_assoc, hsplit]
    rfl
  rw [ofSeconds?, toInt_truncateSubsecond, hsum, ofNanos?,
    dif_pos ⟨d.truncate.min_le, d.truncate.le_max⟩]

/-! ## Text -/

theorem spells_format_of_least {d : Duration} (h : ¬ int64Min < d.seconds) :
    Spells d.format longestBack := by
  rw [int64Min_lt_seconds_iff] at h
  refine spells_format_of_neg (by omega) ?_
  rw [abs, dif_pos (by omega)]
  rfl

end PluginKernel.Duration
