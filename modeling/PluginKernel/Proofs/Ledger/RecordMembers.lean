import PluginKernel.Proofs.Ledger.ForeignRecords
import PluginKernel.Proofs.Text.WholeNumbers

/-!
# What the members of a record say

Five members of a record must be texts. The mode is taken as it comes: a number of 64 bits, or a
text that spells one, counts, and anything else stands for zero. So no mode makes a record
malformed, and only a text that is missing or of another kind does.
-/

namespace PluginKernel.StoredStatistic

open Text

/-- The mode that a member stands for, or a missing member. -/
inductive ModeSaid : Option Json → Int64 → Prop where
  | number (n : Int64) : ModeSaid (some (.int n.toInt)) n
  | text {s : String} {n : Int64} (h : SpellsAmidBlanks s n.toInt) : ModeSaid (some (.str s)) n
  /-- There is no number of 64 bits and no text that spells one. -/
  | other {v : Option Json} (hnumber : ∀ n : Int64, v ≠ some (.int n.toInt))
      (htext : ∀ s, v = some (.str s) → ∀ n : Int64, ¬ SpellsAmidBlanks s n.toInt) : ModeSaid v 0

theorem modeSaid_modeOf (v : Json) : ModeSaid (some v) (modeOf v) := by
  cases v with
  | int n =>
    cases hn : toInt64? n with
    | some m =>
      rw [modeOf, hn, Option.getD_some, ← toInt64?_eq_some_iff.1 hn]
      exact .number m
    | none =>
      rw [modeOf, hn, Option.getD_none]
      refine .other (fun m hm => ?_) (by simp)
      have hint : n = m.toInt := by simpa using hm
      rw [hint, toInt64?_eq_some_iff.2 rfl] at hn
      cases hn
  | str s =>
    cases hread : readInt64 (trimBoth isBlank s.toList) with
    | ok n =>
      simp only [modeOf, hread]
      exact .text (readInt64_trimBoth_eq_ok_iff.1 hread)
    | error e =>
      simp only [modeOf, hread]
      refine .other (by simp) fun s' hs n hn => ?_
      cases hs
      rw [readInt64_trimBoth_eq_ok_iff.2 hn] at hread
      cases hread
  | _ => exact .other (by simp) (by simp)

theorem modeSaid_getD (v : Option Json) : ModeSaid v ((v.map modeOf).getD 0) := by
  cases v with
  | none => exact .other (by simp) (by simp)
  | some v => exact modeSaid_modeOf v

/-- In a map each name has one value, so it is a text that is there if it is found as one. -/
theorem hasTexts_iff {members : Assoc Json} (hmap : Assoc.Sorted members) :
    HasTexts members ↔ ∀ name ∈ ["flowGroup", "flowName", "stateName", "stateCode", "timeSplit"],
      ∃ text, Assoc.get? name members = some (.str text) := by
  refine ⟨fun h => h.exists_get?, fun h name hname => ?_⟩
  obtain ⟨text, htext⟩ := h name hname
  have hmem := Assoc.mem_of_get? htext
  refine ⟨List.mem_map_of_mem hmem, fun v hv => ⟨text, ?_⟩⟩
  rw [← hmap.get?_eq_some_iff, htext, Option.some.injEq] at hv
  exact hv.symm

/-- A record is accepted exactly if the five texts are there, whatever else is and whatever its mode
is. Then each text is the one that is there, and the mode is the one that is said. A record that is
not accepted is malformed, at the path under which it was read. -/
theorem accepted_iff_texts (path : String) {members : Assoc Json} (hmap : Assoc.Sorted members) :
    ((∃ r, read path members = .ok r) ↔
      ∀ name ∈ ["flowGroup", "flowName", "stateName", "stateCode", "timeSplit"],
        ∃ text, Assoc.get? name members = some (.str text)) ∧
    (∀ r, read path members = .ok r →
      Assoc.get? "flowGroup" members = some (.str r.flowGroup) ∧
      Assoc.get? "flowName" members = some (.str r.flowName) ∧
      Assoc.get? "stateName" members = some (.str r.stateName) ∧
      Assoc.get? "stateCode" members = some (.str r.stateCode) ∧
      Assoc.get? "timeSplit" members = some (.str r.timeSplit) ∧
      ModeSaid (Assoc.get? "mode" members) r.mode) ∧
    ∀ e, read path members = .error e → ∃ fault, e = .malformedRecord path fault := by
  refine ⟨?_, fun r hr => ?_, fun e he => ?_⟩
  · rw [← hasTexts_iff hmap]
    constructor
    · rintro ⟨r, hr⟩
      exact (read_eq_ok_iff.1 hr).texts
    · intro h
      obtain ⟨r, hr⟩ := h.exists_carriedBy
      exact ⟨r, read_eq_ok_iff.2 hr⟩
  · have h := read_eq_ok_iff.1 hr
    refine ⟨h.flowGroup, h.flowName, h.stateName, h.stateCode, h.timeSplit, ?_⟩
    rw [h.mode]
    exact modeSaid_getD _
  · have htexts : ¬ HasTexts members := by
      intro h
      obtain ⟨r, hr⟩ := h.exists_carriedBy
      rw [read_eq_ok_iff.2 hr] at he
      cases he
    obtain ⟨cause, hcause⟩ := read_eq_error path htexts
    rw [hcause] at he
    cases he
    exact ⟨_, rfl⟩

/-- A record whose mode is an object and whose time is no duration. -/
def oddRecord : Assoc Json :=
  [("flowGroup", .str ""), ("flowName", .str "p1"), ("mode", .obj [("n", .int 1)]),
    ("stateCode", .str "1"), ("stateName", .str "Start up"), ("timeSplit", .str "soon"),
    ("zone", .null)]

/-- A record with such a mode is accepted and its mode is zero, and it is malformed without the name
of its state. -/
theorem accepted_oddRecord :
    (∃ r, read "base/1" oddRecord = .ok r ∧ r.mode = 0) ∧
      ∃ fault, read "base/1" (Assoc.erase "stateName" oddRecord) =
        .error (.malformedRecord "base/1" fault) := by
  have hmap : Assoc.Sorted oddRecord := by decide
  constructor
  · obtain ⟨haccepted, hsays, -⟩ := accepted_iff_texts "base/1" hmap
    have htexts : ∀ name ∈ ["flowGroup", "flowName", "stateName", "stateCode", "timeSplit"],
        ∃ text, Assoc.get? name oddRecord = some (.str text) := by
      simp only [List.forall_mem_cons, List.not_mem_nil, false_imp_iff, implies_true, and_true]
      exact ⟨⟨_, rfl⟩, ⟨_, rfl⟩, ⟨_, rfl⟩, ⟨_, rfl⟩, ⟨_, rfl⟩⟩
    obtain ⟨r, hr⟩ := haccepted.2 htexts
    refine ⟨r, hr, ?_⟩
    obtain ⟨-, -, -, -, -, hmode⟩ := hsays r hr
    generalize hv : Assoc.get? "mode" oddRecord = v at hmode
    generalize r.mode = n at hmode
    cases hmode with
    | other => rfl
    | number n | text h => cases hv
  · obtain ⟨haccepted, -, hrefused⟩ := accepted_iff_texts "base/1" (hmap.erase "stateName")
    cases hread : read "base/1" (Assoc.erase "stateName" oddRecord) with
    | ok r =>
      obtain ⟨text, htext⟩ := haccepted.1 ⟨r, hread⟩ "stateName" (by decide)
      rw [Assoc.get?_erase, if_pos rfl] at htext
      cases htext
    | error e =>
      obtain ⟨fault, rfl⟩ := hrefused e hread
      exact ⟨fault, rfl⟩

end PluginKernel.StoredStatistic
