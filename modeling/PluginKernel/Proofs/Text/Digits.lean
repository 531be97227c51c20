import PluginKernel.Text.Decimal

/-!
# Digits and their value

A run of digits has the value that is written with them, and leading zeros and digits further on
shift it as they do on paper.
-/

namespace PluginKernel.Text

theorem digitsValue_nil : digitsValue [] = 0 := rfl

@[simp] theorem digitsValue_digits (n : Nat) : digitsValue (digits n) = n :=
  Nat.ofDigitChars_ten_toDigits

theorem digitsValue_append (cs ds : List Char) :
    digitsValue (cs ++ ds) = 10 ^ ds.length * digitsValue cs + digitsValue ds := by
  have happend : digitsValue (cs ++ ds) = Nat.ofDigitChars 10 ds (digitsValue cs) :=
    Nat.ofDigitChars_append 0
  rw [happend, Nat.ofDigitChars_eq_ofDigitChars_zero]
  rfl

theorem digitsValue_cons (c : Char) (cs : List Char) :
    digitsValue (c :: cs) = 10 ^ cs.length * digitValue c + digitsValue cs := by
  have hcons := digitsValue_append [c] cs
  rwa [List.singleton_append, show digitsValue [c] = digitValue c from Nat.zero_add _] at hcons

theorem digitsValue_replicate_zero (n : Nat) : digitsValue (List.replicate n '0') = 0 :=
  Nat.ofDigitChars_replicate_zero

theorem digits_ne_nil (n : Nat) : digits n ≠ [] := Nat.toDigits_ne_nil

theorem isDigit_of_mem_digits {n : Nat} {c : Char} (h : c ∈ digits n) : isDigit c = true := by
  have hc := Nat.isDigit_of_mem_toDigits (by decide) (by decide) h
  simp only [Char.isDigit, Bool.and_eq_true, decide_eq_true_eq] at hc
  simp only [isDigit, Bool.and_eq_true, decide_eq_true_eq, Char.le_def]
  exact hc

/-- A number below a power of ten has no more digits than the power has zeros. -/
theorem length_digits_le {n k : Nat} (hk : 0 < k) (h : n < 10 ^ k) : (digits n).length ≤ k :=
  (Nat.length_toDigits_le_iff (by decide) hk).2 h

theorem digitValue_lt {c : Char} (h : isDigit c = true) : digitValue c < 10 := by
  simp only [isDigit, Bool.and_eq_true, decide_eq_true_eq, Char.le_def, UInt32.le_iff_toNat_le] at h
  have hle : c.toNat ≤ 57 := h.2
  have hzero : '0'.toNat = 48 := rfl
  rw [digitValue]
  omega

/-- Digits have a value below the power of ten with as many zeros. -/
theorem digitsValue_lt {cs : List Char} (h : ∀ c ∈ cs, isDigit c = true) :
    digitsValue cs < 10 ^ cs.length := by
  induction cs with
  | nil => decide
  | cons c cs ih =>
    have hc := digitValue_lt (h c List.mem_cons_self)
    have hcs := ih fun d hd => h d (List.mem_cons_of_mem _ hd)
    have hmul : 10 ^ cs.length * digitValue c ≤ 10 ^ cs.length * 9 :=
      Nat.mul_le_mul_left _ (by omega)
    rw [digitsValue_cons, List.length_cons, Nat.pow_succ]
    omega

/-- A digit is determined by its value. -/
theorem eq_of_digitValue_eq {c d : Char} (hc : isDigit c = true) (hd : isDigit d = true)
    (h : digitValue c = digitValue d) : c = d := by
  simp only [isDigit, Bool.and_eq_true, decide_eq_true_eq, Char.le_def, UInt32.le_iff_toNat_le]
    at hc hd
  have hzero : '0'.toNat = 48 := rfl
  have hcle : 48 ≤ c.toNat := hc.1
  have hdle : 48 ≤ d.toNat := hd.1
  rw [digitValue, digitValue, hzero] at h
  exact Char.toNat_inj.1 (by omega)

/-- Digits are determined by their value and by how many they are. -/
theorem eq_of_digitsValue_eq {cs ds : List Char} (hcs : ∀ c ∈ cs, isDigit c = true)
    (hds : ∀ d ∈ ds, isDigit d = true) (hlength : cs.length = ds.length)
    (hvalue : digitsValue cs = digitsValue ds) : cs = ds := by
  induction cs generalizing ds with
  | nil => exact (List.length_eq_zero_iff.1 hlength.symm).symm
  | cons c cs ih =>
    obtain ⟨d, ds, rfl⟩ := List.exists_cons_of_length_pos (l := ds)
      (by rw [← hlength]; exact Nat.succ_pos _)
    have hcs' : ∀ x ∈ cs, isDigit x = true := fun x hx => hcs x (List.mem_cons_of_mem _ hx)
    have hds' : ∀ x ∈ ds, isDigit x = true := fun x hx => hds x (List.mem_cons_of_mem _ hx)
    have hlength' : cs.length = ds.length := Nat.succ.inj hlength
    rw [digitsValue_cons, digitsValue_cons, hlength'] at hvalue
    have hlt : digitsValue cs < 10 ^ ds.length := hlength' ▸ digitsValue_lt hcs'
    have hlt' := digitsValue_lt hds'
    -- the first digit is the quotient by the power of ten, and the others are the remainder
    have hfirst := congrArg (· / 10 ^ ds.length) hvalue
    have hrest := congrArg (· % 10 ^ ds.length) hvalue
    simp only [Nat.mul_add_div (Nat.pow_pos (by decide : 0 < 10)), Nat.mul_add_mod,
      Nat.div_eq_of_lt hlt, Nat.div_eq_of_lt hlt', Nat.mod_eq_of_lt hlt, Nat.mod_eq_of_lt hlt',
      Nat.add_zero] at hfirst hrest
    rw [eq_of_digitValue_eq (hcs c List.mem_cons_self) (hds d List.mem_cons_self) hfirst,
      ih hcs' hds' hlength' hrest]

/-- Only the number zero is written with a leading zero. -/
theorem length_digits_of_head?_zero {n : Nat} (h : (digits n).head? = some '0') :
    (digits n).length = 1 := by
  obtain ⟨ds, hds⟩ := List.head?_eq_some_iff.1 h
  have hdigits : ∀ c ∈ ds, isDigit c = true := fun c hc =>
    isDigit_of_mem_digits (n := n) (by rw [hds]; exact List.mem_cons_of_mem _ hc)
  have hvalue : digitsValue ds = n := by
    have hn := digitsValue_digits n
    rw [hds, digitsValue_cons] at hn
    simpa [digitValue] using hn
  have hlt := digitsValue_lt hdigits
  cases ds with
  | nil => rw [hds]; rfl
  | cons d ds =>
    rw [hvalue] at hlt
    have hle := length_digits_le (Nat.zero_lt_succ _) hlt
    rw [hds] at hle
    simp only [List.length_cons] at hle
    omega

/-- A number that has as many digits as it needs. -/
theorem length_digits_eq {n k : Nat} (hle : 10 ^ k ≤ n) (hlt : n < 10 ^ (k + 1)) :
    (digits n).length = k + 1 := by
  have hupper := length_digits_le (Nat.succ_pos k) hlt
  rcases Nat.eq_zero_or_pos k with rfl | hk
  · have hpos := List.length_pos_iff.2 (digits_ne_nil n)
    omega
  · have hlower : ¬(digits n).length ≤ k := fun h =>
      Nat.not_lt.2 hle ((Nat.length_toDigits_le_iff (by decide) hk).1 h)
    omega

end PluginKernel.Text
