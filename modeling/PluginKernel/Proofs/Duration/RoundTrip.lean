import PluginKernel.Proofs.Duration.Reading

/-!
# The text of a span is read back

The text of a span is a row of components in the grammar of durations, and they add up to the span.
A fraction loses its trailing zeros and nothing else: the digits that are left, times the power of
ten that is missing, are the remainder that they were written for. So the text spells the span, and
what a text spells is what is read.

The absolute value of the shortest spans saturates. Their texts are all the same, and spell the
longest span pointing backwards.
-/

namespace PluginKernel.Duration

open Text

/-- A fraction as written: the point and the digits, or nothing if there are no digits. -/
def fractionText (fraction : List Char) : List Char :=
  if fraction = [] then [] else '.' :: fraction

/-! ## Fractions -/

/-- The digits of a remainder, without its trailing zeros. -/
def fractionDigits (value unit places : Nat) : List Char :=
  if value % unit = 0 then [] else trimEnd (· == '0') (padded places (value % unit))

theorem digitsValue_padded (width n : Nat) : digitsValue (padded width n) = n := by
  rw [padded, digitsValue_append, digitsValue_replicate_zero, Nat.mul_zero, Nat.zero_add,
    digitsValue_digits]

theorem length_padded {width n : Nat} (hw : 0 < width) (h : n < 10 ^ width) :
    (padded width n).length = width := by
  have hle := length_digits_le hw h
  rw [padded, List.length_append, List.length_replicate]
  omega

theorem isDigit_of_mem_padded (width n : Nat) {c : Char} (h : c ∈ padded width n) :
    isDigit c = true := by
  rcases List.mem_append.1 h with hc | hc
  · rw [List.eq_of_mem_replicate hc]
    rfl
  · exact isDigit_of_mem_digits hc

/-- Trailing zeros only multiply by a power of ten. -/
theorem digitsValue_trimEnd (cs : List Char) : (trimEnd (· == '0') cs).length ≤ cs.length ∧
    digitsValue cs = 10 ^ (cs.length - (trimEnd (· == '0') cs).length) *
      digitsValue (trimEnd (· == '0') cs) := by
  have hsplit : cs = trimEnd (· == '0') cs ++ (cs.reverse.takeWhile (· == '0')).reverse := by
    rw [trimEnd, ← List.reverse_append, List.takeWhile_append_dropWhile, List.reverse_reverse]
  generalize hback : (cs.reverse.takeWhile (· == '0')).reverse = back at hsplit
  have hzero : back = List.replicate back.length '0' := by
    refine List.eq_replicate_iff.2 ⟨rfl, fun c hc => ?_⟩
    rw [← hback, List.mem_reverse] at hc
    simpa using List.mem_takeWhile_imp hc
  have hlen := congrArg List.length hsplit
  rw [List.length_append] at hlen
  refine ⟨by omega, ?_⟩
  rw [show cs.length - (trimEnd (· == '0') cs).length = back.length by omega]
  have hvalue := congrArg digitsValue hsplit
  rw [digitsValue_append, hzero, digitsValue_replicate_zero, List.length_replicate,
    Nat.add_zero] at hvalue
  exact hvalue

theorem isDigit_of_mem_fractionDigits {value unit places : Nat} {c : Char}
    (h : c ∈ fractionDigits value unit places) : isDigit c = true := by
  unfold fractionDigits at h
  split at h
  · cases h
  · refine isDigit_of_mem_padded places (value % unit) ?_
    rw [trimEnd, List.mem_reverse] at h
    exact List.mem_reverse.1 ((List.dropWhile_suffix _).subset h)

/-- The digits of a fraction have the value of the remainder, but for a power of ten. -/
theorem digitsValue_fractionDigits (value : Nat) {places : Nat} (hp : 0 < places) :
    (fractionDigits value (10 ^ places) places).length ≤ places ∧
      value % 10 ^ places = 10 ^ (places - (fractionDigits value (10 ^ places) places).length) *
        digitsValue (fractionDigits value (10 ^ places) places) := by
  unfold fractionDigits
  split
  · next h => simp [h, digitsValue_nil]
  · have hpow : 0 < 10 ^ places := Nat.pow_pos (by decide)
    have hlen := length_padded hp (Nat.mod_lt value hpow)
    obtain ⟨hle, hvalue⟩ := digitsValue_trimEnd (padded places (value % 10 ^ places))
    rw [hlen] at hle hvalue
    rw [digitsValue_padded] at hvalue
    exact ⟨hle, hvalue⟩

theorem decimal_eq {value places : Nat} (hp : 0 < places) :
    decimal value (10 ^ places) places =
      digits (value / 10 ^ places) ++ fractionText (fractionDigits value (10 ^ places) places) := by
  by_cases h : value % 10 ^ places = 0
  · have hnil : fractionDigits value (10 ^ places) places = [] := if_pos h
    simp only [decimal, hnil, if_pos h, fractionText]
    rfl
  · have hne : fractionDigits value (10 ^ places) places ≠ [] := by
      intro hnil
      have hvalue := (digitsValue_fractionDigits value hp).2
      rw [hnil, digitsValue_nil, Nat.mul_zero] at hvalue
      exact h hvalue
    rw [fractionText, if_neg hne, fractionDigits, if_neg h]
    simp only [decimal, if_neg h]

/-! ## Components -/

/-- The component that a number of nanoseconds is written as in a unit. -/
def componentOf (value places : Nat) (unit : TimeUnit) : Component :=
  ⟨digits (value / 10 ^ places), fractionDigits value (10 ^ places) places, unit⟩

/-- A component without a fraction counts its unit so many times. -/
theorem value_whole (n : Nat) (unit : TimeUnit) :
    Component.value ⟨digits n, [], unit⟩ = n * unit.nanos := by
  simp [Component.value, digitsValue_nil]

/-- A number of nanoseconds is counted as it was written, whatever its unit. -/
theorem value_componentOf (value places : Nat) (unit : TimeUnit) (hp : 0 < places)
    (hle : places ≤ 18) (hunit : unit.nanos = 10 ^ places) :
    (componentOf value places unit).value = value := by
  obtain ⟨hlen, hrest⟩ := digitsValue_fractionDigits value hp
  rw [Component.value_eq, Component.fractionNanos, Component.kept, componentOf, hunit]
  simp only
  generalize fractionDigits value (10 ^ places) places = fraction at hlen hrest
  have hkept : fraction.take 18 = fraction := List.take_of_length_le (by omega)
  have hpow : 10 ^ places = 10 ^ (places - fraction.length) * 10 ^ fraction.length := by
    rw [← Nat.pow_add, Nat.sub_add_cancel hlen]
  have hfraction : digitsValue fraction * 10 ^ places / 10 ^ fraction.length =
      value % 10 ^ places := by
    rw [hrest, Nat.mul_comm _ (digitsValue fraction)]
    conv => lhs; rw [hpow, ← Nat.mul_assoc]
    exact Nat.mul_div_cancel _ (Nat.pow_pos (by decide))
  rw [hkept, hfraction, digitsValue_digits, Nat.mul_comm]
  exact Nat.div_add_mod value (10 ^ places)

theorem row_whole (n : Nat) (unit : TimeUnit) (spelling : List Char) {rest : List Char}
    {cs : List Component} (hs : spelling ∈ unit.spellings) (h : Row cs rest) :
    Row (⟨digits n, [], unit⟩ :: cs) (digits n ++ spelling ++ rest) :=
  .cons (.plain (fun _ => isDigit_of_mem_digits) (digits_ne_nil n) hs) h

/-- A decimal number with a unit is one component. -/
theorem row_decimal (value places : Nat) (unit : TimeUnit) (spelling : List Char)
    (hp : 0 < places) (hs : spelling ∈ unit.spellings) :
    Row [componentOf value places unit] (decimal value (10 ^ places) places ++ spelling) := by
  have hwritten : (componentOf value places unit).Written
      (decimal value (10 ^ places) places ++ spelling) := by
    rw [decimal_eq hp, componentOf, fractionText]
    split
    next hnil =>
      rw [hnil, List.append_nil]
      exact .plain (fun _ => isDigit_of_mem_digits) (digits_ne_nil _) hs
    next hne =>
      rw [List.append_assoc, List.cons_append]
      exact .pointed (fun _ => isDigit_of_mem_digits) (fun _ => isDigit_of_mem_fractionDigits)
        (Or.inl (digits_ne_nil _)) hs
  have hrow := Row.cons hwritten .nil
  rw [List.append_nil] at hrow
  exact hrow

theorem magnitude_decimal (value places : Nat) (unit : TimeUnit) (spelling : List Char)
    (hp : 0 < places) (hle : places ≤ 18) (hunit : unit.nanos = 10 ^ places)
    (hs : spelling ∈ unit.spellings) :
    Magnitude (decimal value (10 ^ places) places ++ spelling) value := by
  have hmagnitude := Magnitude.row (List.cons_ne_nil _ _)
    (row_decimal value places unit spelling hp hs)
  rw [total_cons, total_nil, Nat.add_zero, value_componentOf value places unit hp hle hunit]
    at hmagnitude
  exact hmagnitude

/-! ## Spans -/

/-- The text of a span of at least a second: hours and minutes as far as there are any, and seconds
with a fraction. -/
theorem magnitude_clock {n : Nat} (h : 1000000000 ≤ n) : Magnitude (formatNanos n) n := by
  have hseconds : Row [componentOf (n % 60000000000) 9 .second]
      (decimal (n % 60000000000) 1000000000 9 ++ ['s']) :=
    row_decimal _ 9 .second ['s'] (by decide) (by decide)
  have hvalue := value_componentOf (n % 60000000000) 9 .second (by decide) (by decide) rfl
  rw [formatNanos, if_neg (by omega), if_neg (by omega), if_neg (by omega), if_neg (by omega)]
  by_cases hm : n / 60000000000 = 0
  · have heq : n % 60000000000 = n := by omega
    rw [heq] at hseconds hvalue ⊢
    have hmagnitude := Magnitude.row (List.cons_ne_nil _ _) hseconds
    rw [total_cons, total_nil, hvalue] at hmagnitude
    simpa [hm] using hmagnitude
  · have hminutes := row_whole (n / 60000000000 % 60) .minute ['m'] (by decide) hseconds
    have hvalue' := value_whole (n / 60000000000 % 60) .minute
    by_cases hh : n / 60000000000 / 60 = 0
    · have hmagnitude := Magnitude.row (List.cons_ne_nil _ _) hminutes
      rw [total_cons, total_cons, total_nil, hvalue, hvalue', TimeUnit.nanos] at hmagnitude
      rw [show n / 60000000000 % 60 * 60000000000 + (n % 60000000000 + 0) = n by omega]
        at hmagnitude
      simpa [hm, hh] using hmagnitude
    · have hhours := row_whole (n / 60000000000 / 60) .hour ['h'] (by decide) hminutes
      have hvalue'' := value_whole (n / 60000000000 / 60) .hour
      have hmagnitude := Magnitude.row (List.cons_ne_nil _ _) hhours
      rw [total_cons, total_cons, total_cons, total_nil, hvalue, hvalue', hvalue'', TimeUnit.nanos,
        TimeUnit.nanos] at hmagnitude
      rw [show n / 60000000000 / 60 * 3600000000000 + (n / 60000000000 % 60 * 60000000000 +
        (n % 60000000000 + 0)) = n by omega] at hmagnitude
      simpa [hm, hh] using hmagnitude

/-- The text of a span is a magnitude, namely the span. -/
theorem magnitude_formatNanos (n : Nat) : Magnitude (formatNanos n) n := by
  by_cases h0 : n = 0
  · subst h0
    exact .row (List.cons_ne_nil _ _) (row_whole 0 .second ['s'] (by decide) .nil)
  by_cases h1 : n < 1000
  · have hwhole := Magnitude.row (List.cons_ne_nil _ _)
      (row_whole n .nanosecond ['n', 's'] (by decide) .nil)
    rw [total_cons, total_nil, value_whole, TimeUnit.nanos, Nat.mul_one, Nat.add_zero,
      List.append_nil] at hwhole
    rw [formatNanos, if_neg h0, if_pos h1]
    exact hwhole
  by_cases h2 : n < 1000000
  · rw [formatNanos, if_neg h0, if_neg h1, if_pos h2]
    exact magnitude_decimal n 3 .microsecond _ (by decide) (by decide) rfl (by decide)
  by_cases h3 : n < 1000000000
  · rw [formatNanos, if_neg h0, if_neg h1, if_neg h2, if_pos h3]
    exact magnitude_decimal n 6 .millisecond _ (by decide) (by decide) rfl (by decide)
  · exact magnitude_clock (by omega)

/-! ## Durations -/

/-- The shortest span that has a counterpart: the longest one, pointing backwards. -/
def longestBack : Duration := ⟨-9223372036854775807999999999, by decide, by decide⟩

/-- Whole seconds are rounded toward zero, so only the very shortest spans have the least number. -/
theorem int64Min_lt_seconds_iff (d : Duration) :
    int64Min < d.seconds ↔ -9223372036854775808000000000 < d.nanos := by
  rw [seconds, int64Min, show ((nanosPerSecond : Nat) : Int) = 1000000000 from rfl]
  rcases Int.lt_or_le d.nanos 0 with hneg | hnonneg
  · have hdiv : d.nanos.tdiv 1000000000 = -(-d.nanos / 1000000000) := by
      rw [← Int.tdiv_eq_ediv_of_nonneg (by omega), Int.neg_tdiv, Int.neg_neg]
    rw [hdiv]
    omega
  · rw [Int.tdiv_eq_ediv_of_nonneg hnonneg]
    omega

theorem formatChars_of_nonneg {d : Duration} (h : 0 ≤ d.nanos) :
    d.formatChars = formatNanos d.nanos.toNat := by
  rw [formatChars, isNegative, decide_eq_false (by omega), if_neg (by decide)]

theorem formatChars_of_neg {d : Duration} (h : d.nanos < 0) :
    d.formatChars = '-' :: formatNanos d.abs.nanos.toNat := by
  rw [formatChars, isNegative, decide_eq_true h, if_pos rfl]

/-- The text of a duration that does not point backwards spells it. -/
theorem spells_format_of_nonneg {d : Duration} (h : 0 ≤ d.nanos) : Spells d.format d := by
  have hle := d.le_max
  refine .intro ?_ .absent (magnitude_formatNanos d.nanos.toNat) ?_ ?_
  · rw [format, String.toList_ofList, formatChars_of_nonneg h, List.nil_append]
  · rw [limit_eq]
    omega
  · exact (Int.toNat_of_nonneg h).symm

/-- The text of a duration that points backwards spells the one that its absolute value is the
counterpart of. -/
theorem spells_format_of_neg {d e : Duration} (h : d.nanos < 0) (he : e.nanos = -d.abs.nanos) :
    Spells d.format e := by
  have hle := d.abs.le_max
  have hnonneg : 0 ≤ d.abs.nanos := by
    unfold abs
    split
    · decide
    · exact Int.natCast_nonneg _
  refine .intro ?_ .minus (magnitude_formatNanos d.abs.nanos.toNat) ?_ ?_
  · rw [format, String.toList_ofList, formatChars_of_neg h, List.singleton_append]
  · rw [limit_eq]
    omega
  · rw [he, if_pos rfl, Int.toNat_of_nonneg hnonneg]

/-- The text of a duration that does not point backwards is read as the duration. -/
theorem parse?_format_of_nonneg {d : Duration} (h : 0 ≤ d.nanos) : parse? d.format = some d :=
  parse?_eq_some_iff.2 (spells_format_of_nonneg h)

/-- A duration is spelled by its text, unless its absolute value saturates. -/
theorem spells_format {d : Duration} (h : int64Min < d.seconds) : Spells d.format d := by
  rw [int64Min_lt_seconds_iff] at h
  rcases Int.lt_or_le d.nanos 0 with hneg | hnonneg
  · refine spells_format_of_neg hneg ?_
    rw [abs, dif_neg (by omega)]
    simp only
    omega
  · exact spells_format_of_nonneg hnonneg

/-- The text of a duration is read as the duration, and no other duration of this kind has this
text, unless the whole seconds are the least 64-bit number. Then the text is read as the longest
duration, pointing backwards. -/
theorem read_format (d : Duration) :
    (int64Min < d.seconds → read d.format = .ok d ∧
      ∀ e : Duration, int64Min < e.seconds → e.format = d.format → e = d) ∧
    (d.seconds = int64Min → read d.format = .ok longestBack) := by
  refine ⟨fun h => ?_, fun h => ?_⟩
  · have hread := read_eq_ok_iff.2 (spells_format h)
    refine ⟨hread, fun e he heq => ?_⟩
    have hread' := read_eq_ok_iff.2 (spells_format he)
    rw [heq, hread] at hread'
    exact (Except.ok.inj hread').symm
  · have hle : d.nanos ≤ -9223372036854775808000000000 :=
      Int.not_lt.1 fun hlt => by
        have := (int64Min_lt_seconds_iff d).2 hlt
        omega
    refine read_eq_ok_iff.2 (spells_format_of_neg (by omega) ?_)
    rw [abs, dif_pos hle]
    rfl

/-- Just below a minute backwards, and the shortest duration of all. -/
theorem read_format_samples :
    read (format ⟨-59999999999, by decide, by decide⟩) =
        .ok ⟨-59999999999, by decide, by decide⟩ ∧
      (∀ e : Duration, int64Min < e.seconds →
        e.format = format ⟨-59999999999, by decide, by decide⟩ → e.nanos = -59999999999) ∧
      read (format ⟨-9223372036854775808999999999, by decide, by decide⟩) = .ok longestBack := by
  obtain ⟨hread, hunique⟩ :=
    (read_format ⟨-59999999999, by decide, by decide⟩).1 (by decide)
  refine ⟨hread, fun e he heq => congrArg nanos (hunique e he heq), ?_⟩
  exact (read_format ⟨-9223372036854775808999999999, by decide, by decide⟩).2 (by decide)

end PluginKernel.Duration
