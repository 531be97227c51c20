import PluginKernel.Proofs.Text.Digits
import PluginKernel.Proofs.Text.Splitting
import PluginKernel.Text.Blank

/-!
# Which texts spell a whole number

A text spells a whole number if it is at most one sign and then one or more digits, however many
they are. Reading a number of 64 bits finds what is spelled if 64 bits hold it, and fails otherwise:
`readInt64_eq_ok_iff`.
-/

namespace PluginKernel.Text

/-- A text spells a whole number. -/
inductive Spells : List Char → Int → Prop where
  /-- There is no sign. -/
  | bare {ds : List Char} (hne : ds ≠ []) (hds : ∀ d ∈ ds, isDigit d = true) :
      Spells ds (digitsValue ds)
  | plus {ds : List Char} (hne : ds ≠ []) (hds : ∀ d ∈ ds, isDigit d = true) :
      Spells ('+' :: ds) (digitsValue ds)
  | minus {ds : List Char} (hne : ds ≠ []) (hds : ∀ d ∈ ds, isDigit d = true) :
      Spells ('-' :: ds) (-(digitsValue ds : Int))

/-- A text spells a whole number, with blanks around it at most. -/
def SpellsAmidBlanks (s : String) (n : Int) : Prop :=
  ∃ front number back, s.toList = front ++ number ++ back ∧
    (∀ c ∈ front, isBlank c = true) ∧ (∀ c ∈ back, isBlank c = true) ∧ Spells number n

/-! ## Reading -/

theorem toInt64?_eq_some_iff {v : Int} {n : Int64} : toInt64? v = some n ↔ n.toInt = v := by
  have hrange : (decide (int64Min ≤ v) && decide (v ≤ int64Max)) = true ↔
      Int64.minValue.toInt ≤ v ∧ v ≤ Int64.maxValue.toInt := by
    rw [Bool.and_eq_true, decide_eq_true_eq, decide_eq_true_eq]
    rfl
  unfold toInt64?
  split
  next hin =>
    obtain ⟨hmin, hmax⟩ := hrange.1 hin
    rw [Option.some.injEq]
    constructor
    · rintro rfl
      exact Int64.toInt_ofInt_of_le hmin (Int.lt_of_le_of_lt hmax (by decide))
    · rintro rfl
      exact Int64.ofInt_toInt n
  next hout =>
    constructor
    · intro h
      cases h
    · rintro rfl
      exact absurd (hrange.2 ⟨n.minValue_le_toInt, n.toInt_le⟩) hout

/-- What is read behind a sign, or where there is none. -/
def readBody (negative : Bool) (body : List Char) : Except IntegerError Int64 :=
  if body.isEmpty || !body.all isDigit then .error .invalidDigit
  else
    match toInt64? (if negative then -(digitsValue body : Int) else digitsValue body) with
    | some n => .ok n
    | none => .error (if negative then .tooSmall else .tooLarge)

theorem readInt64_plus (body : List Char) : readInt64 ('+' :: body) = readBody false body := rfl

theorem readInt64_minus (body : List Char) : readInt64 ('-' :: body) = readBody true body := rfl

theorem readInt64_bare {c : Char} (rest : List Char) (hminus : c ≠ '-') (hplus : c ≠ '+') :
    readInt64 (c :: rest) = readBody false (c :: rest) := by
  have hnegative : (c == '-') = false := beq_eq_false_iff_ne.2 hminus
  have hpositive : (c == '+') = false := beq_eq_false_iff_ne.2 hplus
  simp only [readInt64, hnegative, hpositive, Bool.or_false, Bool.false_eq_true, if_false]
  rfl

theorem readBody_eq_ok_iff {negative : Bool} {body : List Char} {n : Int64} :
    readBody negative body = .ok n ↔ body ≠ [] ∧ (∀ d ∈ body, isDigit d = true) ∧
      n.toInt = if negative then -(digitsValue body : Int) else digitsValue body := by
  have hdigits : (body.isEmpty || !body.all isDigit) = false ↔
      body ≠ [] ∧ ∀ d ∈ body, isDigit d = true := by
    rw [Bool.or_eq_false_iff, Bool.not_eq_false', List.isEmpty_eq_false_iff, List.all_eq_true]
  rw [← and_assoc, ← hdigits, ← toInt64?_eq_some_iff, readBody]
  cases body.isEmpty || !body.all isDigit with
  | true => simp
  | false =>
    cases toInt64? (if negative then -(digitsValue body : Int) else digitsValue body) <;> simp

/-- A digit is no sign. -/
theorem ne_sign_of_isDigit {c : Char} (h : isDigit c = true) : c ≠ '-' ∧ c ≠ '+' := by
  constructor <;> rintro rfl <;> exact absurd h (by decide)

/-- A number of 64 bits is read exactly where it is spelled. -/
theorem readInt64_eq_ok_iff {cs : List Char} {n : Int64} :
    readInt64 cs = .ok n ↔ Spells cs n.toInt := by
  constructor
  · intro h
    cases cs with
    | nil => cases h
    | cons c rest =>
      by_cases hminus : c = '-'
      · subst hminus
        rw [readInt64_minus, readBody_eq_ok_iff, if_pos rfl] at h
        obtain ⟨hne, hdigits, hn⟩ := h
        exact hn ▸ .minus hne hdigits
      · by_cases hplus : c = '+'
        · subst hplus
          rw [readInt64_plus, readBody_eq_ok_iff, if_neg Bool.false_ne_true] at h
          obtain ⟨hne, hdigits, hn⟩ := h
          exact hn ▸ .plus hne hdigits
        · rw [readInt64_bare rest hminus hplus, readBody_eq_ok_iff,
            if_neg Bool.false_ne_true] at h
          obtain ⟨hne, hdigits, hn⟩ := h
          exact hn ▸ .bare hne hdigits
  · generalize hn : n.toInt = v
    intro h
    cases h with
    | bare hne hdigits =>
      obtain ⟨d, ds, rfl⟩ := List.exists_cons_of_ne_nil hne
      obtain ⟨hminus, hplus⟩ := ne_sign_of_isDigit (hdigits d List.mem_cons_self)
      rw [readInt64_bare ds hminus hplus, readBody_eq_ok_iff]
      exact ⟨hne, hdigits, hn⟩
    | plus hne hdigits =>
      rw [readInt64_plus, readBody_eq_ok_iff]
      exact ⟨hne, hdigits, hn⟩
    | minus hne hdigits =>
      rw [readInt64_minus, readBody_eq_ok_iff]
      exact ⟨hne, hdigits, hn⟩

/-! ## Blanks -/

/-- What spells a number has no blank in it. -/
theorem Spells.not_isBlank {cs : List Char} {v : Int} (h : Spells cs v) :
    cs ≠ [] ∧ ∀ c ∈ cs, isBlank c = false := by
  have hdigit : ∀ c, isDigit c = true → isBlank c = false := by
    intro c hc
    simp only [isDigit, Bool.and_eq_true, decide_eq_true_eq, Char.le_def, UInt32.le_iff_toNat_le]
      at hc
    have hlow : 48 ≤ c.toNat := hc.1
    have hhigh : c.toNat ≤ 57 := hc.2
    simp [isBlank]
    omega
  cases h with
  | bare hne hdigits => exact ⟨hne, fun c hc => hdigit c (hdigits c hc)⟩
  | plus hne hdigits | minus hne hdigits =>
    refine ⟨List.cons_ne_nil _ _, List.forall_mem_cons.2 ⟨by decide, fun c hc => ?_⟩⟩
    exact hdigit c (hdigits c hc)

/-- Stripping blanks leaves what spells the number, if anything does. -/
theorem spells_trimBoth_iff {s : String} {v : Int} :
    Spells (trimBoth isBlank s.toList) v ↔ SpellsAmidBlanks s v := by
  constructor
  · intro h
    obtain ⟨front, back, hfront, hback, hs⟩ :=
      eq_append_trimBoth_append (p := isBlank) s.toList
    exact ⟨front, _, back, hs, hfront, hback, h⟩
  · rintro ⟨front, number, back, hs, hfront, hback, h⟩
    obtain ⟨hne, hplain⟩ := h.not_isBlank
    rwa [hs, trimBoth_append_right hback, trimBoth_append_left hfront, trimBoth_eq_self hplain]

/-- A number of 64 bits is read of a text without its blanks exactly where it is spelled amid
them. -/
theorem readInt64_trimBoth_eq_ok_iff {s : String} {n : Int64} :
    readInt64 (trimBoth isBlank s.toList) = .ok n ↔ SpellsAmidBlanks s n.toInt := by
  rw [readInt64_eq_ok_iff, spells_trimBoth_iff]

/-! ## Writing -/

/-- The decimal digits of a number spell it. -/
theorem spells_signedDigits (v : Int) : Spells (signedDigits v) v := by
  have hdigits : ∀ d ∈ digits v.natAbs, isDigit d = true := fun d hd => isDigit_of_mem_digits hd
  have hvalue : (digitsValue (digits v.natAbs) : Int) = v.natAbs := by rw [digitsValue_digits]
  unfold signedDigits
  split
  next hneg =>
    have h := Spells.minus (digits_ne_nil v.natAbs) hdigits
    rwa [hvalue, show -(v.natAbs : Int) = v by omega] at h
  next hpos =>
    have h := Spells.bare (digits_ne_nil v.natAbs) hdigits
    rwa [hvalue, show (v.natAbs : Int) = v by omega] at h

theorem spellsAmidBlanks_showInt (v : Int) : SpellsAmidBlanks (showInt v) v :=
  ⟨[], signedDigits v, [], by rw [showInt, String.toList_ofList, List.nil_append, List.append_nil],
    List.forall_mem_nil _, List.forall_mem_nil _, spells_signedDigits v⟩

end PluginKernel.Text
