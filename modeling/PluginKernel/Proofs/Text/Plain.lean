import PluginKernel.Json.Decode
import PluginKernel.Text.Hex
import PluginKernel.Proofs.Duration.RoundTrip

/-!
# Texts without control characters

A text is plain if it has no control character in it, so that it stays on its line. Quoting and
sanitizing make any text plain, and whatever is written in digits is plain anyway: whole and binary
numbers, durations and digests.
-/

namespace PluginKernel

namespace Text

/-- A text has no control character in it. -/
def IsPlain (s : String) : Prop := ∀ c ∈ s.toList, isControl c = false

variable {s t : String} {cs ds : List Char}

/-- Whether there is a control character is found out by a look at all of them. -/
theorem forall_of_all (h : (cs.all fun c => !isControl c) = true) :
    ∀ c ∈ cs, isControl c = false := by
  simpa using h

instance (s : String) : Decidable (IsPlain s) :=
  decidable_of_iff ((s.toList.all fun c => !isControl c) = true)
    ⟨forall_of_all, fun h => List.all_eq_true.2 fun c hc => by rw [h c hc]; rfl⟩

@[simp] theorem isPlain_append : IsPlain (s ++ t) ↔ IsPlain s ∧ IsPlain t := by
  simp only [IsPlain, String.toList_append, List.mem_append, or_imp, forall_and]

theorem IsPlain.append (hs : IsPlain s) (ht : IsPlain t) : IsPlain (s ++ t) :=
  isPlain_append.2 ⟨hs, ht⟩

theorem isPlain_ofList : IsPlain (String.ofList cs) ↔ ∀ c ∈ cs, isControl c = false := by
  rw [IsPlain, String.toList_ofList]

/-- Sanitizing makes any text plain. -/
theorem isPlain_sanitize (s : String) : IsPlain (sanitize s) := by
  rw [sanitize, isPlain_ofList]
  intro c hc
  obtain ⟨d, -, rfl⟩ := List.mem_map.1 hc
  split
  · rfl
  · next h => exact Bool.eq_false_iff.2 h

/-! ## Digits -/

theorem isControl_digitChar (n : Nat) : isControl (Nat.digitChar n) = false := by
  by_cases h : n < 16
  · have hall : ∀ m < 16, isControl (Nat.digitChar m) = false := by decide
    exact hall n h
  · rw [Nat.digitChar_eq_star.2 (not_lt.1 h)]
    rfl

theorem isControl_of_mem_toDigits {b n : Nat} {c : Char} (h : c ∈ Nat.toDigits b n) :
    isControl c = false := by
  have hcore : ∀ (fuel n : Nat) (ds : List Char), (∀ c ∈ ds, isControl c = false) →
      ∀ c ∈ Nat.toDigitsCore b fuel n ds, isControl c = false := by
    intro fuel
    induction fuel with
    | zero => exact fun _ _ hds => hds
    | succ fuel ih =>
      intro n ds hds
      have hcons : ∀ c ∈ Nat.digitChar (n % b) :: ds, isControl c = false :=
        List.forall_mem_cons.2 ⟨isControl_digitChar _, hds⟩
      rw [Nat.toDigitsCore]
      split
      · exact hcons
      · exact ih _ _ hcons
  exact hcore _ _ _ (fun _ hc => absurd hc List.not_mem_nil) c h

theorem isPlain_showInt (n : Int) : IsPlain (showInt n) := by
  rw [showInt, isPlain_ofList, signedDigits]
  split
  · exact List.forall_mem_cons.2 ⟨rfl, fun _ => isControl_of_mem_toDigits⟩
  · exact fun _ => isControl_of_mem_toDigits

theorem isPlain_hex (bytes : Bytes) : IsPlain (hex bytes) := by
  rw [hex, isPlain_ofList]
  intro c hc
  obtain ⟨b, -, hb⟩ := List.mem_flatMap.1 hc
  simp only [List.mem_cons, List.not_mem_nil, or_false] at hb
  rcases hb with rfl | rfl <;> exact isControl_digitChar _

/-! ## Quoting -/

/-- What prints on its own is no control character. -/
theorem isControl_of_isPrintable {c : Char} (h : isPrintable c = true) : isControl c = false := by
  simp only [isPrintable] at h
  by_cases hascii : c.toNat < 0x80
  · rw [if_pos hascii, Bool.and_eq_true, decide_eq_true_eq, decide_eq_true_eq] at h
    simp only [isControl, Bool.or_eq_false_iff, Bool.and_eq_false_iff, decide_eq_false_iff_not]
    omega
  · rw [if_neg hascii, Bool.not_eq_true', ← Bool.not_eq_true, Array.any_eq_true'] at h
    have hrange : (0x80, 0xA0) ∈ unprintableRanges := by decide +kernel
    have hout : ¬ (0x80 ≤ c.toNat ∧ c.toNat ≤ 0xA0) := fun hin => h ⟨_, hrange, by simpa using hin⟩
    simp only [isControl, Bool.or_eq_false_iff, Bool.and_eq_false_iff, decide_eq_false_iff_not]
    omega

theorem isControl_of_mem_quotedChar (c : Char) : ∀ d ∈ quotedChar c, isControl d = false := by
  unfold quotedChar
  iterate 6
    split
    · exact forall_of_all rfl
  split
  · next hprints => exact List.forall_mem_singleton.2 (isControl_of_isPrintable hprints)
  · refine List.forall_mem_append.2
      ⟨List.forall_mem_append.2 ⟨forall_of_all rfl, ?_⟩, forall_of_all rfl⟩
    exact fun _ => isControl_of_mem_toDigits

/-- Quoting makes any text plain. -/
theorem isPlain_quote (s : String) : IsPlain (quote s) := by
  rw [quote, isPlain_ofList]
  intro c hc
  rw [List.cons_append, List.mem_cons, List.mem_append, List.mem_singleton] at hc
  rcases hc with rfl | hc | rfl
  · rfl
  · obtain ⟨d, -, hd⟩ := List.mem_flatMap.1 hc
    exact isControl_of_mem_quotedChar d c hd
  · rfl

end Text

/-! ## Numbers and values -/

open Text

theorem Duration.isControl_of_mem_decimal (value unit places : Nat) :
    ∀ c ∈ decimal value unit places, isControl c = false := by
  have hzeros : ∀ c ∈ padded places (value % unit), isControl c = false :=
    List.forall_mem_append.2 ⟨fun c hc => by rw [List.eq_of_mem_replicate hc]; rfl,
      fun _ => isControl_of_mem_toDigits⟩
  refine List.forall_mem_append.2 ⟨fun _ => isControl_of_mem_toDigits, ?_⟩
  split
  · exact fun _ hc => absurd hc List.not_mem_nil
  · refine List.forall_mem_cons.2 ⟨rfl, fun c hc => hzeros c ?_⟩
    exact List.mem_reverse.1 ((List.dropWhile_suffix _).subset (List.mem_reverse.1 hc))

/-- The text of a duration is plain. -/
theorem Duration.isPlain_format (d : Duration) : IsPlain d.format := by
  have hnanos : ∀ n, ∀ c ∈ formatNanos n, isControl c = false := by
    intro n
    unfold formatNanos
    split
    · exact forall_of_all rfl
    split
    · exact List.forall_mem_append.2 ⟨fun _ => isControl_of_mem_toDigits, forall_of_all rfl⟩
    split
    · exact List.forall_mem_append.2 ⟨isControl_of_mem_decimal _ _ _, forall_of_all rfl⟩
    split
    · exact List.forall_mem_append.2 ⟨isControl_of_mem_decimal _ _ _, forall_of_all rfl⟩
    refine List.forall_mem_append.2 ⟨List.forall_mem_append.2 ⟨List.forall_mem_append.2 ⟨?_, ?_⟩,
      isControl_of_mem_decimal _ _ _⟩, forall_of_all rfl⟩
    all_goals
      split
      · exact forall_of_all rfl
      · exact List.forall_mem_append.2 ⟨fun _ => isControl_of_mem_toDigits, forall_of_all rfl⟩
  rw [format, isPlain_ofList, formatChars]
  split
  · exact List.forall_mem_cons.2 ⟨rfl, hnanos _⟩
  · exact hnanos _

theorem Binary64.isPlain_positional (x : Binary64) : IsPlain (String.ofList x.positional) := by
  have hdigits : ∀ c ∈ x.shortest.digits, isControl c = false := by
    unfold shortest
    split
    · exact forall_of_all rfl
    dsimp only
    split
    · exact List.forall_mem_singleton.2 rfl
    · intro c hc
      have hmem := List.mem_reverse.1 ((List.dropWhile_suffix _).subset (List.mem_reverse.1 hc))
      exact isControl_of_mem_toDigits hmem
  have hzeros : ∀ n, ∀ c ∈ zeros n, isControl c = false := fun n c hc => by
    rw [List.eq_of_mem_replicate hc]
    rfl
  have hplaces : ∀ c ∈ x.shortest.places, isControl c = false := by
    unfold Digits.places
    dsimp only
    split
    · exact List.forall_mem_append.2
        ⟨List.forall_mem_append.2 ⟨forall_of_all rfl, hzeros _⟩, hdigits⟩
    split
    · exact List.forall_mem_append.2 ⟨fun c hc => hdigits c (List.mem_of_mem_take hc),
        List.forall_mem_cons.2 ⟨rfl, fun c hc => hdigits c (List.mem_of_mem_drop hc)⟩⟩
    · exact List.forall_mem_append.2
        ⟨List.forall_mem_append.2 ⟨hdigits, hzeros _⟩, forall_of_all rfl⟩
  rw [isPlain_ofList, positional, withSign]
  split
  · exact List.forall_mem_cons.2 ⟨rfl, hplaces⟩
  · exact hplaces

/-- What a message calls a value is plain, whatever the value. -/
theorem Json.isPlain_describe (v : Json) : IsPlain v.describe := by
  cases v with
  | null => exact (by decide : IsPlain "null")
  | bool b => cases b <;> exact .append (.append (by decide) (by decide)) (by decide)
  | int n => exact .append (.append (by decide) (isPlain_showInt n)) (by decide)
  | float x => exact .append (.append (by decide) x.isPlain_positional) (by decide)
  | str s => exact .append (by decide) (isPlain_quote s)
  | arr items => exact (by decide : IsPlain "sequence")
  | obj members => exact (by decide : IsPlain "map")

end PluginKernel
