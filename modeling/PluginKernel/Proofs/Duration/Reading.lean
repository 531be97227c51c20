import PluginKernel.Ledger.Error
import PluginKernel.Proofs.Duration.Components

/-!
# What is read as a duration

A text is read as a duration exactly if the grammar says that it spells this duration, and every
other text is refused by name. The arithmetic of reading is sound: what is computed without a check
fits into 128 bits whatever was written, and a check fails only if the sum is out of range anyway.
-/

namespace PluginKernel.Duration

open Text

/-! ## Signs -/

/-- What is taken off the front of a text is a sign. -/
theorem sign_takeSign (cs : List Char) :
    ∃ sign, Sign sign (takeSign cs).1 ∧ cs = sign ++ (takeSign cs).2 := by
  unfold takeSign
  split
  · exact ⟨_, .minus, rfl⟩
  · exact ⟨_, .plus, rfl⟩
  · exact ⟨_, .absent, rfl⟩

/-- A sign is taken off a text if a number follows. -/
theorem takeSign_append {sign body : List Char} {negative : Bool} (h : Sign sign negative)
    (hbody : ∀ c ∈ body.head?, endsUnit c = true) : takeSign (sign ++ body) = (negative, body) := by
  cases h with
  | plus => rfl
  | minus => rfl
  | absent =>
    rw [List.nil_append]
    unfold takeSign
    split
    · have hminus := hbody '-' rfl
      simp [endsUnit, isDigit] at hminus
    · have hplus := hbody '+' rfl
      simp [endsUnit, isDigit] at hplus
    · rfl

/-! ## Magnitudes -/

/-- A magnitude begins with a digit or a point. -/
theorem Magnitude.endsUnit_head? {body : List Char} {n : Nat} (h : Magnitude body n) :
    ∀ c ∈ body.head?, endsUnit c = true := by
  cases h with
  | zero => simp [endsUnit, isDigit]
  | row hne h => exact h.endsUnit_head?

theorem Row.eq_nil_iff {cs : List Component} {body : List Char} (h : Row cs body) :
    body = [] ↔ cs = [] := by
  cases h with
  | nil => simp
  | cons hc hcs => simp [hc.ne_nil]

/-- A bare zero is no row, because it lacks a unit. -/
theorem not_row_zero (cs : List Component) : ¬Row cs ['0'] := by
  intro h
  have hnone : components? ['0'] = none := by decide +kernel
  rw [components?_eq_some_iff.2 h] at hnone
  cases hnone

/-- Reading finds the magnitude that a text is, if it fits into 128 bits. -/
theorem nanos?_eq_some_iff {body : List Char} {n : Nat} :
    nanos? body = some n ↔ Magnitude body n ∧ n < 2 ^ (128 : Nat) := by
  unfold nanos?
  split
  next hzero =>
    subst hzero
    constructor
    · intro h
      cases h
      exact ⟨.zero, by decide⟩
    · rintro ⟨h, -⟩
      cases h with
      | zero => rfl
      | row hne h => exact absurd h (not_row_zero _)
  next hzero =>
    split
    next hempty =>
      rw [List.isEmpty_iff.1 hempty]
      constructor
      · intro h
        cases h
      · rintro ⟨h, -⟩
        cases h with
        | row hne h => exact absurd (h.eq_nil_iff.1 rfl) hne
    next hnonempty =>
      rw [Option.bind_eq_some_iff]
      constructor
      · rintro ⟨cs, hcs, hsum⟩
        have hrow := components?_eq_some_iff.1 hcs
        rw [sum?_eq, checked, Option.ite_none_right_eq_some] at hsum
        obtain ⟨hlt, hn⟩ := hsum
        cases hn
        refine ⟨.row (fun hnil => hnonempty ?_) hrow, hlt⟩
        rw [hrow.eq_nil_iff.2 hnil]
        rfl
      · rintro ⟨h, hlt⟩
        cases h with
        | zero => exact absurd rfl hzero
        | row hne h =>
          exact ⟨_, components?_eq_some_iff.2 h, by rw [sum?_eq, checked_eq_some hlt]⟩

/-! ## Texts -/

theorem limit_eq : secondsLimit * nanosPerSecond = 9223372036854775808000000000 := rfl

theorem limit_le : secondsLimit * nanosPerSecond ≤ 2 ^ (128 : Nat) := by decide

/-- A text is read as a duration exactly if it spells it. -/
theorem parse?_eq_some_iff {s : String} {d : Duration} : parse? s = some d ↔ Spells s d := by
  unfold parse? parseChars?
  rw [Option.bind_eq_some_iff]
  constructor
  · rintro ⟨n, hn, hd⟩
    obtain ⟨sign, hsign, htext⟩ := sign_takeSign s.toList
    split at hd
    next hle =>
      refine .intro htext hsign (nanos?_eq_some_iff.1 hn).1 (by rw [limit_eq]; omega) ?_
      split at hd <;> cases hd
      next hminus => rw [hminus, if_pos rfl]
      next hplus => rw [if_neg hplus]
    · cases hd
  · rintro ⟨htext, hsign, hbody, hrange, hnanos⟩
    rename_i sign body negative n
    have htake : takeSign s.toList = (negative, body) := by
      rw [htext, takeSign_append hsign hbody.endsUnit_head?]
    refine ⟨n, ?_, ?_⟩
    · rw [htake]
      exact nanos?_eq_some_iff.2 ⟨hbody, Nat.lt_of_lt_of_le hrange limit_le⟩
    · rw [limit_eq] at hrange
      rw [dif_pos (by omega), htake]
      cases negative with
      | true => exact congrArg some (Duration.ext hnanos.symm)
      | false => exact congrArg some (Duration.ext hnanos.symm)

theorem read_eq_ok_iff {s : String} {d : Duration} : read s = .ok d ↔ Spells s d := by
  rw [← parse?_eq_some_iff, read]
  cases parse? s <;> simp

/-- The digits that are kept of a fraction are digits, and there are at most eighteen of them. -/
theorem Component.Written.kept_lt {c : Component} {front : List Char} (h : c.Written front) :
    c.kept.length ≤ 18 ∧ digitsValue c.kept < 10 ^ c.kept.length := by
  refine ⟨by rw [Component.kept, List.length_take]; exact Nat.min_le_left _ _, digitsValue_lt ?_⟩
  intro d hd
  have hmem := List.mem_of_mem_take hd
  cases h with
  | plain => cases hmem
  | pointed hwhole hfraction hne hspelling => exact hfraction d hmem

/-- The steps of reading a fraction that are not checked stay within 128 bits. -/
theorem unchecked_lt {cs rest : List Char} {c : Component}
    (h : takeComponent cs = some (c, rest)) :
    10 ^ c.kept.length < 2 ^ (128 : Nat) ∧ digitsValue c.kept * c.unit.nanos < 2 ^ (128 : Nat) := by
  obtain ⟨front, hfront, -⟩ := written_of_takeComponent h
  obtain ⟨hlen, hvalue⟩ := hfront.kept_lt
  have hpow : 10 ^ c.kept.length ≤ 10 ^ (18 : Nat) := Nat.pow_le_pow_right (by decide) hlen
  have hmul : digitsValue c.kept * c.unit.nanos ≤ 10 ^ (18 : Nat) * 3600000000000 :=
    Nat.mul_le_mul (by omega) c.unit.nanos_le
  exact ⟨Nat.lt_of_le_of_lt hpow (by decide), Nat.lt_of_le_of_lt hmul (by decide)⟩

/-- A text is read as a duration exactly if the grammar says that it spells this duration; a text
that spells none is refused by name. Whatever component is met, the steps that are not checked stay
within 128 bits; and checks fail only for components whose sum is out of range. -/
theorem read_iff_spells (s : String) :
    (∀ d, read s = .ok d ↔ Spells s d) ∧
      ((∀ d, ¬Spells s d) → read s = .error (.invalidDuration s)) ∧
      (∀ cs rest c, takeComponent cs = some (c, rest) → 10 ^ c.kept.length < 2 ^ (128 : Nat) ∧
        digitsValue c.kept * c.unit.nanos < 2 ^ (128 : Nat)) ∧
      ∀ cs, sum? cs = none → secondsLimit * nanosPerSecond ≤ total cs := by
  refine ⟨fun d => read_eq_ok_iff, fun hnone => ?_, fun cs rest c => unchecked_lt, fun cs hcs => ?_⟩
  · rw [read]
    cases hparse : parse? s with
    | none => rfl
    | some d => exact absurd (parse?_eq_some_iff.1 hparse) (hnone d)
  · rw [sum?_eq, checked, ite_eq_right_iff] at hcs
    refine Nat.le_trans limit_le (Nat.not_lt.1 fun hlt => ?_)
    cases hcs hlt

/-- A text with a sign, two units and a fraction that is cut off, a text out of range by one
nanosecond, and a component that is far out of range. -/
theorem read_iff_spells_samples :
    (read "-1h.0000000019s" = .ok ⟨-3600000000001, by decide, by decide⟩ ∧
      Spells "-1h.0000000019s" ⟨-3600000000001, by decide, by decide⟩) ∧
    read "9223372036854775808s" = .error (.invalidDuration "9223372036854775808s") ∧
    digitsValue ['0', '0', '0', '0', '0', '0', '0', '0', '1', '9'] * TimeUnit.second.nanos <
      2 ^ (128 : Nat) ∧
    secondsLimit * nanosPerSecond ≤ total [⟨List.replicate 39 '9', [], .hour⟩] := by
  have hread : parse? "-1h.0000000019s" = some ⟨-3600000000001, by decide, by decide⟩ := by
    decide +kernel
  have hrefused : parse? "9223372036854775808s" = none := by decide +kernel
  have hok : read "-1h.0000000019s" = .ok ⟨-3600000000001, by decide, by decide⟩ := by
    rw [read, hread]
  refine ⟨⟨hok, ((read_iff_spells _).1 _).1 hok⟩, (read_iff_spells _).2.1 fun d hd => ?_, ?_, ?_⟩
  · rw [parse?_eq_some_iff.2 hd] at hrefused
    cases hrefused
  · exact ((read_iff_spells "").2.2.1
      ['.', '0', '0', '0', '0', '0', '0', '0', '0', '1', '9', 's'] []
      ⟨[], ['0', '0', '0', '0', '0', '0', '0', '0', '1', '9'], .second⟩ (by decide)).2
  · exact (read_iff_spells "").2.2.2 _ (by decide +kernel)

end PluginKernel.Duration
