import PluginKernel.Duration.Canonical
import PluginKernel.Proofs.Duration.RoundTrip

/-!
# Durations are written as canonical texts, and all canonical texts are written

A number is written as the numeral that has its value, and a remainder as the fraction that has it,
because digits are determined by their value and by how many they are. So the number of nanoseconds
can be recovered from a canonical text, its size tells which form it is written in, and what is
written is the text again.
-/

namespace PluginKernel.Duration

open Text

/-! ## Numerals -/

theorem numeral_digits (n : Nat) : Numeral (digits n) where
  isDigit _ := isDigit_of_mem_digits
  ne_nil := digits_ne_nil n
  lead h := by
    obtain ⟨ds, hds⟩ := List.head?_eq_some_iff.1 h
    have hlength := length_digits_of_head?_zero h
    rw [hds] at hlength ⊢
    rw [List.length_eq_zero_iff.1 (Nat.succ.inj hlength)]

/-- A numeral is what its value is written as. -/
theorem Numeral.eq_digits {cs : List Char} (h : Numeral cs) : digits (digitsValue cs) = cs := by
  by_cases hlead : cs.head? = some '0'
  · rw [h.lead hlead]
    rfl
  · obtain ⟨c, ds, rfl⟩ := List.exists_cons_of_ne_nil h.ne_nil
    refine eq_of_digitsValue_eq (fun _ => isDigit_of_mem_digits) h.isDigit ?_ (digitsValue_digits _)
    have hne : digitValue c ≠ 0 := fun hzero => hlead <| congrArg some <|
      eq_of_digitValue_eq (h.isDigit c List.mem_cons_self) rfl hzero
    have hle : 10 ^ ds.length ≤ digitsValue (c :: ds) := by
      rw [digitsValue_cons]
      exact Nat.le_add_right_of_le (Nat.le_mul_of_pos_right _ (Nat.pos_of_ne_zero hne))
    exact length_digits_eq hle (digitsValue_lt h.isDigit)

/-! ## Fractions -/

theorem trimEnd_concat_zeros {ds : List Char} (hlast : ds.getLast? ≠ some '0') (n : Nat) :
    trimEnd (· == '0') (ds ++ List.replicate n '0') = ds := by
  have hzeros : ∀ c ∈ List.replicate n '0', (c == '0') = true := fun c hc => by
    rw [List.eq_of_mem_replicate hc]
    rfl
  have hhead : ∀ c ∈ ds.reverse.head?, ¬(c == '0') = true := by
    intro c hc hzero
    rw [List.head?_reverse, eq_of_beq hzero] at hc
    exact hlast hc
  have hstop : ds.reverse.dropWhile (· == '0') = ds.reverse := by
    cases hds : ds.reverse with
    | nil => rfl
    | cons c rest =>
      rw [hds] at hhead
      exact List.dropWhile_cons_of_neg (hhead c rfl)
  rw [trimEnd, List.reverse_append, List.reverse_replicate,
    List.dropWhile_append_of_pos hzeros, hstop, List.reverse_reverse]

theorem getLast?_trimEnd (cs : List Char) : (trimEnd (· == '0') cs).getLast? ≠ some '0' := by
  intro h
  rw [trimEnd, List.getLast?_reverse] at h
  have hnot := List.head?_dropWhile_not (· == '0') cs.reverse
  rw [h] at hnot
  simp at hnot

/-- The fraction of a decimal number. -/
theorem fraction_fractionText (value : Nat) {places : Nat} (hp : 0 < places) :
    Fraction places (fractionText (fractionDigits value (10 ^ places) places)) := by
  unfold fractionText
  split
  · exact .absent
  next hne =>
    refine .pointed (fun _ => isDigit_of_mem_fractionDigits) hne
      (digitsValue_fractionDigits value hp).1 ?_
    unfold fractionDigits at hne ⊢
    split
    next hzero => exact absurd (if_pos hzero) hne
    · exact getLast?_trimEnd _

/-- A decimal number is a numeral and a fraction. -/
theorem exists_of_decimal (value places : Nat) (hp : 0 < places) :
    ∃ n f, decimal value (10 ^ places) places = n ++ f ∧ Numeral n ∧
      digitsValue n = value / 10 ^ places ∧ Fraction places f :=
  ⟨_, _, decimal_eq hp, numeral_digits _, digitsValue_digits _, fraction_fractionText value hp⟩

/-- The digits of a remainder are those of which it is the value, but for a power of ten. -/
theorem padded_eq {ds : List Char} (hdigits : ∀ c ∈ ds, isDigit c = true) {places : Nat}
    (hp : 0 < places) (hle : ds.length ≤ places) :
    padded places (10 ^ (places - ds.length) * digitsValue ds) =
      ds ++ List.replicate (places - ds.length) '0' := by
  have hvalue : digitsValue (ds ++ List.replicate (places - ds.length) '0') =
      10 ^ (places - ds.length) * digitsValue ds := by
    rw [digitsValue_append, digitsValue_replicate_zero, List.length_replicate, Nat.add_zero]
  have hdigits' : ∀ c ∈ ds ++ List.replicate (places - ds.length) '0', isDigit c = true := by
    intro c hc
    rcases List.mem_append.1 hc with hmem | hmem
    · exact hdigits c hmem
    · rw [List.eq_of_mem_replicate hmem]
      rfl
  have hlength : (ds ++ List.replicate (places - ds.length) '0').length = places := by
    rw [List.length_append, List.length_replicate]
    omega
  have hlt := digitsValue_lt hdigits'
  rw [hlength, hvalue] at hlt
  refine eq_of_digitsValue_eq (fun _ => isDigit_of_mem_padded _ _) hdigits' ?_ ?_
  · rw [length_padded hp hlt, hlength]
  · rw [digitsValue_padded, hvalue]

/-- A fraction has a value, and a decimal number with this remainder is written with it. -/
theorem Fraction.exists_remainder {places : Nat} {f : List Char} (h : Fraction places f)
    (hp : 0 < places) : ∃ r, r < 10 ^ places ∧ ∀ {n : List Char}, Numeral n →
      decimal (10 ^ places * digitsValue n + r) (10 ^ places) places = n ++ f := by
  have hpow : 0 < 10 ^ places := Nat.pow_pos (by decide)
  cases h with
  | absent =>
    refine ⟨0, hpow, fun {n} hn => ?_⟩
    rw [decimal_eq hp, fractionDigits, Nat.add_zero, Nat.mul_mod_right, if_pos rfl,
      Nat.mul_div_cancel_left _ hpow, hn.eq_digits, fractionText, if_pos rfl]
  | @pointed ds hdigits hne hle hlast =>
    have hpadded := padded_eq hdigits hp hle
    have hlt : 10 ^ (places - ds.length) * digitsValue ds < 10 ^ places := by
      have hsplit : 10 ^ places = 10 ^ (places - ds.length) * 10 ^ ds.length := by
        rw [← Nat.pow_add, Nat.sub_add_cancel hle]
      rw [hsplit]
      exact Nat.mul_lt_mul_of_pos_left (digitsValue_lt hdigits) (Nat.pow_pos (by decide))
    -- a fraction of zeros only would end in a zero
    have hpos : 10 ^ (places - ds.length) * digitsValue ds ≠ 0 := by
      intro hzero
      have hvalue : digitsValue ds = digitsValue (List.replicate ds.length '0') := by
        rw [digitsValue_replicate_zero]
        exact (Nat.mul_eq_zero.1 hzero).resolve_left (Nat.pow_pos (by decide)).ne'
      have hzeros : ds = List.replicate ds.length '0' := eq_of_digitsValue_eq hdigits
        (fun c hc => by rw [List.eq_of_mem_replicate hc]; rfl) (by simp) hvalue
      rw [hzeros] at hlast
      have hlength : ds.length ≠ 0 := fun h => hne (List.length_eq_zero_iff.1 h)
      exact hlast (by rw [List.getLast?_replicate, if_neg hlength])
    refine ⟨_, hlt, fun {n} hn => ?_⟩
    rw [decimal_eq hp, fractionDigits, Nat.mul_add_mod, Nat.mod_eq_of_lt hlt, if_neg hpos, hpadded,
      trimEnd_concat_zeros hlast, Nat.mul_add_div hpow, Nat.div_eq_of_lt hlt, Nat.add_zero,
      hn.eq_digits, fractionText, if_neg hne]

/-! ## Spans -/

/-- What a span that is not empty is written as is canonical. -/
theorem canonicalSpan_formatNanos {n : Nat} (hpos : 0 < n)
    (hlimit : n < secondsLimit * nanosPerSecond) : CanonicalSpan (formatNanos n) := by
  rw [limit_eq] at hlimit
  rw [formatNanos, if_neg (by omega)]
  by_cases h1 : n < 1000
  · rw [if_pos h1]
    exact .nanoseconds (numeral_digits n) (by rw [digitsValue_digits]; omega)
      (by rw [digitsValue_digits]; omega)
  by_cases h2 : n < 1000000
  · obtain ⟨w, f, hdecimal, hw, hvalue, hf⟩ := exists_of_decimal n 3 (by decide)
    rw [if_neg h1, if_pos h2, show decimal n 1000 3 = w ++ f from hdecimal]
    exact .microseconds hw (by omega) (by omega) hf
  by_cases h3 : n < 1000000000
  · obtain ⟨w, f, hdecimal, hw, hvalue, hf⟩ := exists_of_decimal n 6 (by decide)
    rw [if_neg h1, if_neg h2, if_pos h3, show decimal n 1000000 6 = w ++ f from hdecimal]
    exact .milliseconds hw (by omega) (by omega) hf
  obtain ⟨s, f, hdecimal, hs, hvalue, hf⟩ := exists_of_decimal (n % 60000000000) 9 (by decide)
  rw [if_neg h1, if_neg h2, if_neg h3]
  simp only [show decimal (n % 60000000000) 1000000000 9 = s ++ f from hdecimal, List.append_assoc]
  by_cases hm : n / 60000000000 = 0
  · rw [if_pos (by omega), if_pos hm, List.nil_append, List.nil_append, ← List.append_assoc]
    exact .seconds hs (by omega) (by omega) hf
  have hminutes := digitsValue_digits (n / 60000000000 % 60)
  by_cases hh : n / 60000000000 / 60 = 0
  · rw [if_pos hh, if_neg hm, List.nil_append, ← List.append_assoc s]
    exact .minutes (numeral_digits _) (by omega) (by omega) hs (by omega) hf
  · have hhours := digitsValue_digits (n / 60000000000 / 60)
    rw [if_neg hh, if_neg hm, ← List.append_assoc s]
    refine .hours (numeral_digits _) (by omega) (numeral_digits _) (by omega) hs (by omega) hf ?_
    rw [show secondsLimit = 9223372036854775808 from rfl]
    omega

/-- A span of at least a second is written as what its minutes and the rest are written as. -/
theorem formatNanos_clock {minutes rest : Nat} (hrest : rest < 60000000000)
    (h : 1000000000 ≤ minutes * 60000000000 + rest) :
    formatNanos (minutes * 60000000000 + rest) =
      (if minutes / 60 = 0 then [] else digits (minutes / 60) ++ ['h']) ++
        (if minutes = 0 then [] else digits (minutes % 60) ++ ['m']) ++
        decimal rest 1000000000 9 ++ ['s'] := by
  have hminutes : (minutes * 60000000000 + rest) / 60000000000 = minutes := by omega
  have hmod : (minutes * 60000000000 + rest) % 60000000000 = rest := by omega
  rw [formatNanos, if_neg (by omega), if_neg (by omega), if_neg (by omega), if_neg (by omega)]
  simp only [hminutes, hmod]

/-- A fraction of a second does not lead out of range. -/
theorem below_limit {whole r : Nat} (hwhole : whole < secondsLimit) (hr : r < 1000000000) :
    whole * 1000000000 + r < secondsLimit * nanosPerSecond := by
  rw [limit_eq]
  rw [show secondsLimit = 9223372036854775808 from rfl] at hwhole
  omega

/-- A canonical text is what some span that is not empty is written as. -/
theorem CanonicalSpan.exists_formatNanos {body : List Char} (h : CanonicalSpan body) :
    ∃ n, 0 < n ∧ n < secondsLimit * nanosPerSecond ∧ formatNanos n = body := by
  have hrange := limit_eq
  cases h with
  | nanoseconds hn hpos hle =>
    refine ⟨_, hpos, by omega, ?_⟩
    rw [formatNanos, if_neg (by omega), if_pos (by omega), hn.eq_digits]
  | @microseconds n f hn hpos hle hf =>
    obtain ⟨r, hr, hdecimal⟩ := hf.exists_remainder (by decide)
    refine ⟨10 ^ 3 * digitsValue n + r, by omega, by omega, ?_⟩
    rw [formatNanos, if_neg (by omega), if_neg (by omega), if_pos (by omega)]
    exact congrArg (· ++ _) (hdecimal hn)
  | @milliseconds n f hn hpos hle hf =>
    obtain ⟨r, hr, hdecimal⟩ := hf.exists_remainder (by decide)
    refine ⟨10 ^ 6 * digitsValue n + r, by omega, by omega, ?_⟩
    rw [formatNanos, if_neg (by omega), if_neg (by omega), if_neg (by omega), if_pos (by omega)]
    exact congrArg (· ++ _) (hdecimal hn)
  | @seconds s f hs hpos hle hf =>
    obtain ⟨r, hr, hdecimal⟩ := hf.exists_remainder (by decide)
    refine ⟨0 * 60000000000 + (10 ^ 9 * digitsValue s + r), by omega, by omega, ?_⟩
    rw [formatNanos_clock (by omega) (by omega), if_pos rfl, if_pos rfl]
    exact congrArg (· ++ ['s']) (hdecimal hs)
  | @minutes m s f hm hpos hmle hs hsle hf =>
    obtain ⟨r, hr, hdecimal⟩ := hf.exists_remainder (by decide)
    refine ⟨digitsValue m * 60000000000 + (10 ^ 9 * digitsValue s + r), by omega, by omega, ?_⟩
    rw [formatNanos_clock (by omega) (by omega), if_pos (by omega), if_neg (by omega),
      Nat.mod_eq_of_lt (by omega), hm.eq_digits, List.nil_append, List.append_assoc]
    exact congrArg (m ++ ['m'] ++ ·) (congrArg (· ++ ['s']) (hdecimal hs))
  | @hours h m s f hh hpos hm hmle hs hsle hf hlimit =>
    obtain ⟨r, hr, hdecimal⟩ := hf.exists_remainder (by decide)
    have hhours : (digitsValue h * 60 + digitsValue m) / 60 = digitsValue h := by omega
    have hminutes : (digitsValue h * 60 + digitsValue m) % 60 = digitsValue m := by omega
    have hsum : (digitsValue h * 60 + digitsValue m) * 60000000000 + (10 ^ 9 * digitsValue s + r) =
        (digitsValue h * 3600 + digitsValue m * 60 + digitsValue s) * 1000000000 + r := by omega
    have hlt := below_limit hlimit hr
    rw [← hsum] at hlt
    refine ⟨_, by omega, hlt, ?_⟩
    rw [formatNanos_clock (by omega) (by omega), hhours, hminutes, if_neg (by omega),
      if_neg (by omega), hh.eq_digits, hm.eq_digits, List.append_assoc, List.append_assoc]
    exact congrArg (h ++ ['h'] ++ ·) (congrArg (m ++ ['m'] ++ ·)
      (congrArg (· ++ ['s']) (hdecimal hs)))

/-! ## Durations -/

/-- The span of so many nanoseconds in a direction. -/
theorem exists_duration {n : Nat} (hpos : 0 < n) (hlimit : n < secondsLimit * nanosPerSecond)
    (negative : Bool) : ∃ d : Duration, int64Min < d.seconds ∧
      d.formatChars = (if negative then ['-'] else []) ++ formatNanos n := by
  rw [limit_eq] at hlimit
  cases negative with
  | false =>
    refine ⟨⟨n, by omega, by omega⟩, (int64Min_lt_seconds_iff _).2 (by simp only; omega), ?_⟩
    rw [formatChars_of_nonneg (Int.natCast_nonneg n)]
    rfl
  | true =>
    refine ⟨⟨-n, by omega, by omega⟩, (int64Min_lt_seconds_iff _).2 (by simp only; omega), ?_⟩
    rw [formatChars_of_neg (by simp only; omega), abs, dif_neg (by simp only; omega)]
    simp

theorem canonical_format (d : Duration) : Canonical d.format := by
  have hmin := d.min_le
  have hmax := d.le_max
  have htext : d.format.toList = d.formatChars := String.toList_ofList
  rcases Int.lt_trichotomy d.nanos 0 with hneg | hzero | hpos
  · have habs : 0 < d.abs.nanos ∧ d.abs.nanos ≤ 9223372036854775807999999999 := by
      refine ⟨?_, d.abs.le_max⟩
      unfold abs
      split
      · decide
      · simp only
        omega
    rw [formatChars_of_neg hneg] at htext
    exact .span (.inr rfl)
      (canonicalSpan_formatNanos (by omega) (by rw [limit_eq]; omega)) htext
  · rw [formatChars_of_nonneg (by omega), hzero] at htext
    exact .zero htext
  · rw [formatChars_of_nonneg (by omega)] at htext
    exact .span (.inl rfl)
      (canonicalSpan_formatNanos (by omega) (by rw [limit_eq]; omega)) htext

/-- A canonical text is what some duration with a counterpart is written as. -/
theorem Canonical.exists_format {t : String} (h : Canonical t) :
    ∃ d : Duration, int64Min < d.seconds ∧ d.format = t := by
  cases h with
  | zero htext =>
    exact ⟨.zero, by decide, String.toList_inj.1 (String.toList_ofList.trans htext.symm)⟩
  | @span sign body hsign hbody htext =>
    obtain ⟨n, hpos, hlimit, rfl⟩ := hbody.exists_formatNanos
    obtain ⟨negative, rfl⟩ : ∃ negative : Bool, (if negative then ['-'] else []) = sign := by
      rcases hsign with rfl | rfl
      · exact ⟨false, rfl⟩
      · exact ⟨true, rfl⟩
    obtain ⟨d, hd, hformat⟩ := exists_duration hpos hlimit negative
    refine ⟨d, hd, String.toList_inj.1 ?_⟩
    rw [format, String.toList_ofList, hformat, htext]

/-- Exactly the canonical texts are what durations are written as, and exactly these are read as a
duration that is written as the same text again. -/
theorem canonical_iff (t : String) :
    (Canonical t ↔ ∃ d : Duration, d.format = t) ∧
      (Canonical t ↔ ∃ d : Duration, read t = .ok d ∧ d.format = t) := by
  have hread : Canonical t → ∃ d : Duration, read t = .ok d ∧ d.format = t := by
    intro h
    obtain ⟨d, hd, rfl⟩ := h.exists_format
    exact ⟨d, read_eq_ok_iff.2 (spells_format hd), rfl⟩
  have hformat : (∃ d : Duration, d.format = t) → Canonical t := by
    rintro ⟨d, rfl⟩
    exact canonical_format d
  constructor
  · exact ⟨fun h => (hread h).imp fun _ hd => hd.2, hformat⟩
  · exact ⟨hread, fun h => hformat (h.imp fun _ hd => hd.2)⟩

end PluginKernel.Duration
