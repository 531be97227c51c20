import PluginKernel.Config.Port
import PluginKernel.Proofs.Text.WholeNumbers

/-!
# Which settings stand for a port

A number stands for the port that it is, and a text for the port that it spells. Whether a port is
written as a number or as its digits makes no difference, not even to what is said when it is none.
-/

namespace PluginKernel.PortSetting

open Text

theorem port?_eq_some_iff {n : Int64} {port : UInt16} :
    port? n = some port ↔ n.toInt = port.toNat := by
  have hrange : (decide (0 ≤ n.toInt) && decide (n.toInt < 65536)) = true ↔
      0 ≤ n.toInt ∧ n.toInt < 65536 := by
    rw [Bool.and_eq_true, decide_eq_true_eq, decide_eq_true_eq]
  have hport : port.toNat < 65536 := port.toNat_lt
  unfold port?
  split
  next hin =>
    obtain ⟨hpos, hlt⟩ := hrange.1 hin
    have hsmall : n.toInt.toNat < UInt16.size := (Int.toNat_lt hpos).2 hlt
    have hnat : (UInt16.ofNat n.toInt.toNat).toNat = n.toInt.toNat :=
      UInt16.toNat_ofNat_of_lt' hsmall
    rw [Option.some.injEq, ← UInt16.toNat_inj, hnat]
    omega
  next hout =>
    have hno : ¬(n.toInt = port.toNat) := fun h => hout (hrange.2 (by omega))
    simp [hno]

theorem toInt_ofPort (port : UInt16) : (Int64.ofInt port.toNat).toInt = port.toNat := by
  have hlt : port.toNat < 65536 := port.toNat_lt
  have hmin : Int64.minValue.toInt ≤ 0 := by decide
  have hmax : (65536 : Int) ≤ Int64.maxValue.toInt := by decide
  exact Int64.toInt_ofInt_of_le (by omega) (by omega)

theorem resolve_text_eq_ok_iff {s : String} {port : UInt16} :
    (text s).resolve = .ok port ↔ SpellsAmidBlanks s port.toNat := by
  have hread : (text s).resolve = .ok port ↔
      ∃ n, readInt64 (trimBoth isBlank s.toList) = .ok n ∧ port? n = some port := by
    rw [resolve]
    cases readInt64 (trimBoth isBlank s.toList) with
    | error e => simp
    | ok n => cases hn : port? n <;> simp [hn]
  rw [hread]
  constructor
  · rintro ⟨n, hn, hport⟩
    rw [← port?_eq_some_iff.1 hport]
    exact readInt64_trimBoth_eq_ok_iff.1 hn
  · intro h
    refine ⟨Int64.ofInt port.toNat, readInt64_trimBoth_eq_ok_iff.2 ?_, ?_⟩
    · rwa [toInt_ofPort]
    · rw [port?_eq_some_iff, toInt_ofPort]

/-- Whatever stands for no port is refused as it was written. -/
theorem resolve_text_cases (s : String) :
    (∃ port, (text s).resolve = .ok port) ∨
      ∃ reason, (text s).resolve = .error (.invalidPort s reason) := by
  rw [resolve]
  split
  · exact .inr ⟨_, rfl⟩
  · split
    next port _ => exact .inl ⟨port, rfl⟩
    · exact .inr ⟨_, rfl⟩

/-- The digits of a number stand for what the number stands for, and are refused as it is. -/
theorem resolve_text_showInt (n : Int64) :
    (text (showInt n.toInt)).resolve = (number n).resolve := by
  have hread : readInt64 (trimBoth isBlank (showInt n.toInt).toList) = .ok n :=
    readInt64_trimBoth_eq_ok_iff.2 (spellsAmidBlanks_showInt n.toInt)
  simp only [resolve, hread]

/-- A text stands for a port exactly if it spells the number of the port, with blanks around it at
most, and is refused as it was written otherwise. A number and the text of its digits stand for the
same port, or are refused with the same error. -/
theorem resolves_spelled_ports :
    (∀ (s : String) (port : UInt16),
      (text s).resolve = .ok port ↔ SpellsAmidBlanks s port.toNat) ∧
    (∀ s : String, (∀ port : UInt16, ¬ SpellsAmidBlanks s port.toNat) →
      ∃ reason, (text s).resolve = .error (.invalidPort s reason)) ∧
    ∀ n : Int64, (number n).resolve = (text (showInt n.toInt)).resolve := by
  refine ⟨fun s port => resolve_text_eq_ok_iff, fun s hno => ?_, fun n => ?_⟩
  · rcases resolve_text_cases s with ⟨port, hport⟩ | hrefused
    · exact absurd (resolve_text_eq_ok_iff.1 hport) (hno port)
    · exact hrefused
  · exact (resolve_text_showInt n).symm

/-- A sign, a zero in front and blanks do not matter. The first number past the ports is refused. -/
theorem resolved_spellings : (text " +08443\t").resolve = .ok 8443 ∧
    ∃ reason, (text "65536").resolve = .error (.invalidPort "65536" reason) := by
  obtain ⟨haccepts, hrefuses, -⟩ := resolves_spelled_ports
  constructor
  · have hvalue : (digitsValue ['0', '8', '4', '4', '3'] : Int) = (8443 : UInt16).toNat := by decide
    have hspells : Spells ['+', '0', '8', '4', '4', '3'] (8443 : UInt16).toNat :=
      hvalue ▸ .plus (List.cons_ne_nil _ _) (List.all_eq_true.1 rfl)
    exact (haccepts _ _).2
      ⟨[' '], _, ['\t'], rfl, List.all_eq_true.1 rfl, List.all_eq_true.1 rfl, hspells⟩
  · refine hrefuses "65536" fun port hport => ?_
    have hrefused : (text "65536").resolve = .error (.invalidPort "65536" outOfRange) := rfl
    rw [(haccepts "65536" port).2 hport] at hrefused
    cases hrefused

end PluginKernel.PortSetting
