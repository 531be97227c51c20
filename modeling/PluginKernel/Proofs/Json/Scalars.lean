import PluginKernel.Json.Printer
import PluginKernel.Json.Token
import PluginKernel.Proofs.Text.Digits
import PluginKernel.Proofs.Text.Splitting

/-!
# Strings and whole numbers in JSON text

What is written for a text or a whole number is read as the same text or number, whatever stands
behind it, as long as that does not go on with the numeral.
-/

namespace PluginKernel.Json

open Text

/-! ## Strings -/

theorem hexValue?_hexDigit : ∀ n, n < 16 → hexValue? (escapedChar.hexDigit n) = some n := by
  decide

/-- The four digits that spell a character below the space. -/
theorem hexUnit?_control {n : Nat} (h : n < 0x20) :
    Token.hexUnit? '0' '0' (escapedChar.hexDigit (n / 16)) (escapedChar.hexDigit (n % 16)) =
      some n := by
  have hzero : hexValue? '0' = some 0 := by decide
  have hhigh := hexValue?_hexDigit (n / 16) (by omega)
  have hlow := hexValue?_hexDigit (n % 16) (by omega)
  simp only [Token.hexUnit?, hzero, hhigh, hlow, Option.bind_eq_bind, Option.bind_some]
  exact congrArg some (by omega)

/-- Each character is read as it was escaped. -/
theorem takeString?_escapedChar (c : Char) (rest : List Char) :
    Token.takeString? (escapedChar c ++ rest) =
      (Token.takeString? rest).map fun (cs, rest) => (c :: cs, rest) := by
  unfold escapedChar
  split_ifs with h1 h2 h3 h4 h5 h6 h7 h8
  · rw [beq_iff_eq.1 h1]
    simp [Token.takeString?, Token.unescape?]
  · rw [beq_iff_eq.1 h2]
    simp [Token.takeString?, Token.unescape?]
  · rw [beq_iff_eq.1 h3]
    simp [Token.takeString?, Token.unescape?]
  · rw [beq_iff_eq.1 h4]
    simp [Token.takeString?, Token.unescape?]
  · rw [beq_iff_eq.1 h5]
    simp [Token.takeString?, Token.unescape?]
  · rw [beq_iff_eq.1 h6]
    simp [Token.takeString?, Token.unescape?]
  · rw [beq_iff_eq.1 h7]
    simp [Token.takeString?, Token.unescape?]
  · have hhigh : Token.isHighSurrogate c.toNat = false := by
      simp [Token.isHighSurrogate]
      omega
    have hlow : Token.isLowSurrogate c.toNat = false := by
      simp [Token.isLowSurrogate]
      omega
    simp only [List.cons_append, List.nil_append]
    rw [Token.takeString?]
    simp only [hexUnit?_control h8, hhigh, hlow, Char.ofNat_toNat]
    rfl
  · have hplain : ¬(c == '\\' || decide (c.toNat < 0x20)) = true := by
      simp only [Bool.or_eq_true, decide_eq_true_eq, not_or]
      exact ⟨h2, h8⟩
    rw [List.singleton_append, Token.takeString?.eq_def]
    split
    · next h => cases h
    · next h =>
      rw [(List.cons.inj h).1] at h1
      exact absurd rfl h1
    · next h =>
      rw [(List.cons.inj h).1] at h2
      exact absurd rfl h2
    · next h =>
      rw [(List.cons.inj h).1] at h2
      exact absurd rfl h2
    · next h =>
      obtain ⟨rfl, rfl⟩ := List.cons.inj h
      rw [if_neg hplain]

/-- A string is read up to its closing quote. -/
theorem takeString?_body (cs rest : List Char) :
    Token.takeString? (cs.flatMap escapedChar ++ '"' :: rest) = some (cs, rest) := by
  induction cs with
  | nil => simp [Token.takeString?]
  | cons c cs ih =>
    rw [List.flatMap_cons, List.append_assoc, takeString?_escapedChar, ih, Option.map_some]

theorem take?_stringChars (s : String) (rest : List Char) :
    Token.take? (stringChars s ++ rest) = some (.text s, rest) := by
  rw [stringChars, List.cons_append, List.cons_append, List.append_assoc, Token.take?,
    List.singleton_append, takeString?_body, Option.map_some]
  simp only [String.ofList_toList]

/-! ## Whole numbers -/

/-- What may stand behind a value: the end of the text, or a character that no numeral goes on
with. -/
def Stops (rest : List Char) : Prop :=
  ∀ c ∈ rest.head?, c = ',' ∨ c = ']' ∨ c = '\x7d'

theorem stops_nil : Stops [] := fun _ hc => by cases hc

theorem stops_cons {c : Char} (h : c = ',' ∨ c = ']' ∨ c = '\x7d') (rest : List Char) :
    Stops (c :: rest) := fun d hd => by
  rw [← Option.mem_some_iff.1 hd]
  exact h

namespace Numeral

theorem accumulate_of_le (n : Nat) (cs : List Char) (h : Nat.ofDigitChars 10 cs n ≤ uint64Max) :
    accumulate n cs = (Nat.ofDigitChars 10 cs n, []) := by
  induction cs generalizing n with
  | nil => rfl
  | cons c cs ih =>
    have hstep : Nat.ofDigitChars 10 (c :: cs) n =
        Nat.ofDigitChars 10 cs (10 * n + digitValue c) := Nat.ofDigitChars_cons
    have hgrow : 10 * n + digitValue c ≤ Nat.ofDigitChars 10 cs (10 * n + digitValue c) := by
      rw [Nat.ofDigitChars_eq_ofDigitChars_zero]
      exact Nat.le_trans (Nat.le_mul_of_pos_left _ (Nat.pow_pos (by decide)))
        (Nat.le_add_right _ _)
    rw [hstep] at h ⊢
    rw [accumulate, if_pos (Nat.le_trans hgrow h), ih _ h]

/-- A numeral without a point and a power of ten stands for a whole number that 64 bits hold. -/
theorem value?_whole {n : Int} (hmin : int64Min ≤ n) (hmax : n ≤ uint64Max) :
    value? ⟨decide (n < 0), digits n.natAbs, none, none⟩ = some (.int n) := by
  have hvalue : Nat.ofDigitChars 10 (digits n.natAbs) 0 = n.natAbs := digitsValue_digits n.natAbs
  have hle : n.natAbs ≤ uint64Max := by
    simp only [int64Min, uint64Max] at *
    omega
  have hwhole := accumulate_of_le 0 (digits n.natAbs) (by rw [hvalue]; exact hle)
  rw [hvalue] at hwhole
  simp only [value?, hwhole, Option.isNone_none, List.isEmpty_nil, Bool.and_self, if_true]
  by_cases hneg : n < 0
  · have hne : ¬n.natAbs = 0 := by omega
    have hrange : (n.natAbs : Int) ≤ -int64Min := by omega
    rw [decide_eq_true hneg, if_neg (by decide), if_neg hne, if_pos hrange]
    exact congrArg (fun m => some (Json.int m)) (by omega)
  · rw [decide_eq_false hneg, if_pos (by decide)]
    exact congrArg (fun m => some (Json.int m)) (by omega)

theorem takeDigits_append {ds rest : List Char} (hds : ∀ c ∈ ds, isDigit c = true)
    (hrest : Stops rest) : takeDigits (ds ++ rest) = (ds, rest) := by
  have hstop : ∀ c ∈ rest.head?, isDigit c = false := by
    intro c hc
    rcases hrest c hc with rfl | rfl | rfl <;> rfl
  obtain ⟨htake, hdrop⟩ := takeWhile_append_stop ds rest hds hstop
  rw [takeDigits, htake, hdrop]

theorem takeFraction?_of_stops {rest : List Char} (h : Stops rest) :
    takeFraction? rest = some (none, rest) := by
  unfold takeFraction?
  split
  · rcases h '.' rfl with hc | hc | hc <;> exact absurd hc (by decide)
  · rfl

theorem takePower?_of_stops {rest : List Char} (h : Stops rest) :
    takePower? rest = some (none, rest) := by
  unfold takePower?
  split
  · next c cs =>
    have hc : ¬(c == 'e' || c == 'E') = true := by
      rcases h c rfl with rfl | rfl | rfl <;> decide
    rw [if_neg hc]
  · rfl

theorem takeMinus_signedDigits (n : Int) (rest : List Char) :
    takeMinus (signedDigits n ++ rest) = (decide (n < 0), digits n.natAbs ++ rest) := by
  unfold signedDigits
  split
  · next h => rw [decide_eq_true h, List.cons_append, takeMinus]
  · next h =>
    obtain ⟨d, ds, hds⟩ := List.exists_cons_of_ne_nil (digits_ne_nil n.natAbs)
    have hdigit := isDigit_of_mem_digits (n := n.natAbs) (c := d) (by simp [hds])
    rw [decide_eq_false h, hds, List.cons_append]
    unfold takeMinus
    split
    · next heq =>
      rw [(List.cons.inj heq).1] at hdigit
      cases hdigit
    · rfl

theorem take?_signedDigits (n : Int) {rest : List Char} (h : Stops rest) :
    take? (signedDigits n ++ rest) =
      some (⟨decide (n < 0), digits n.natAbs, none, none⟩, rest) := by
  have hwhole : ¬((digits n.natAbs).isEmpty ||
      (digits n.natAbs).head? == some '0' && decide (1 < (digits n.natAbs).length)) = true := by
    simp only [Bool.or_eq_true, List.isEmpty_iff, Bool.and_eq_true, beq_iff_eq,
      decide_eq_true_eq, not_or, not_and, Nat.not_lt]
    exact ⟨digits_ne_nil _, fun hzero => Nat.le_of_eq (length_digits_of_head?_zero hzero)⟩
  simp only [take?, takeMinus_signedDigits, takeDigits_append (fun _ => isDigit_of_mem_digits) h,
    takeFraction?_of_stops h, takePower?_of_stops h, if_neg hwhole, Option.bind_eq_bind,
    Option.bind_some, pure]

end Numeral

/-- A whole number begins with a minus sign or a digit. -/
theorem exists_cons_signedDigits (n : Int) :
    ∃ c cs, signedDigits n = c :: cs ∧ (c = '-' ∨ isDigit c = true) := by
  unfold signedDigits
  split
  · exact ⟨_, _, rfl, Or.inl rfl⟩
  · obtain ⟨d, ds, hds⟩ := List.exists_cons_of_ne_nil (digits_ne_nil n.natAbs)
    exact ⟨d, ds, hds, Or.inr (isDigit_of_mem_digits (n := n.natAbs) (by simp [hds]))⟩

theorem take?_signedDigits {n : Int} (hmin : int64Min ≤ n) (hmax : n ≤ uint64Max)
    {rest : List Char} (h : Stops rest) :
    Token.take? (signedDigits n ++ rest) = some (.scalar (.int n), rest) := by
  have hnumeral := Numeral.take?_signedDigits n h
  obtain ⟨c, cs, hcs, hc⟩ := exists_cons_signedDigits n
  rw [hcs, List.cons_append] at hnumeral ⊢
  -- No other token begins with a minus sign or a digit.
  unfold Token.take?
  split
  case h_11 => simp only [hnumeral, Numeral.value?_whole hmin hmax, Option.bind_eq_bind,
    Option.bind_some, pure]
  all_goals
    next heq =>
    rw [(List.cons.inj heq).1] at hc
    rcases hc with hc | hc <;> exact absurd hc (by decide)

end PluginKernel.Json
