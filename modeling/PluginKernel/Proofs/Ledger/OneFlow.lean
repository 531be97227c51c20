import PluginKernel.Proofs.Ledger.Retrieval

/-!
# A store with one flow

Where all entries belong to one flow, the names of the flow need not be segments of a path. They may
have slashes in them, and the last one must only not end in one: all entries are filed in one
directory, and what is listed below it are their codes.
-/

namespace PluginKernel

open Store

/-- An entry of a flow, with a code that can be a segment of a path. -/
structure Statistic.IsOf (s : Statistic) (flowGroup flowName : String) : Prop where
  flowGroup : s.flowGroup = flowGroup
  flowName : s.flowName = flowName
  stateCode : IsSegment s.stateCode

namespace Ledger

variable {ss : List Statistic} {filing : Filing} {g f c : String}

theorem lastAmong_of_flow (hss : ∀ s ∈ ss, s.IsOf g f) (c : String) :
    lastAmong ss g f c = (ss.filter (·.stateCode = c)).getLast? := by
  have hall : ss.filter (fun s => s.flowGroup = g ∧ s.flowName = f) = ss :=
    List.filter_eq_self.2 fun s hs => decide_eq_true ⟨(hss s hs).flowGroup, (hss s hs).flowName⟩
  rw [lastAmong, hall]

/-- If a code has one entry only, however often it occurs, that is the last one. -/
theorem lastAmong_eq_of_mem {s : Statistic} (hss : ∀ s ∈ ss, s.IsOf g f) (hs : s ∈ ss)
    (honly : ∀ s' ∈ ss, s'.stateCode = s.stateCode → s' = s) :
    lastAmong ss g f s.stateCode = some s := by
  rw [lastAmong_of_flow hss]
  cases hlast : (ss.filter (·.stateCode = s.stateCode)).getLast? with
  | none =>
    have hnone := List.filter_eq_nil_iff.1 (List.getLast?_eq_none_iff.1 hlast) s hs
    exact absurd (decide_eq_true rfl) hnone
  | some s' =>
    obtain ⟨hs', hcode⟩ := List.mem_filter.1 (List.mem_of_getLast? hlast)
    rw [honly s' hs' (of_decide_eq_true hcode)]

theorem normalChars_writeOf {s : Statistic} (hs : s.IsOf g f) :
    normalChars (writeOf filing s).1 =
      filing.root ++ (Filing.flowChars g f ++ '/' :: s.stateCode.toList) := by
  rw [← hs.flowGroup, ← hs.flowName]
  exact Filing.normalChars_recordPath filing hs.stateCode

/-- A record is read as the last entry with its code. -/
theorem lastAt_recordPath_of_flow (hss : ∀ s ∈ ss, s.IsOf g f) (hc : IsSegment c) :
    lastAt (ss.map (writeOf filing)) (filing.recordPath g f c) =
      (lastAmong ss g f c).map fun s => (StoredStatistic.ofStatistic s).toMembers := by
  have hsame : ∀ s ∈ ss,
      (Store.normalize (writeOf filing s).1 = Store.normalize (filing.recordPath g f c) ↔
        s.stateCode = c) := by
    intro s hs
    rw [normalize_eq_normalize_iff, normalChars_writeOf (hss s hs),
      Filing.normalChars_recordPath filing hc, List.append_cancel_left_eq,
      List.append_cancel_left_eq, List.cons.injEq, String.toList_inj]
    exact and_iff_right rfl
  have hfilter : (ss.map (writeOf filing)).filter
      (fun w => Store.normalize w.1 = Store.normalize (filing.recordPath g f c)) =
        (ss.filter (·.stateCode = c)).map (writeOf filing) := by
    rw [List.filter_map]
    refine congrArg _ (List.filter_congr fun s hs => ?_)
    simp only [Function.comp_apply, hsame s hs]
  rw [lastAt, hfilter, List.getLast?_map, lastAmong_of_flow hss, Option.map_map]
  rfl

/-- Below the directory of the flow there are the codes of the entries. -/
theorem isChild_flowDirectory_of_flow (hss : ∀ s ∈ ss, s.IsOf g f) (hf : IsPathEnd f)
    (name : String) :
    IsChild (Written (ss.map (writeOf filing))) (Store.normalize (filing.flowDirectory g f)) name ↔
      name ∈ ss.map Statistic.stateCode := by
  rw [isChild_iff_below, toList_normalize, Filing.normalChars_flowDirectory filing hf]
  constructor
  · rintro ⟨key, below, ⟨w, hw, rfl⟩, hsplit, hname⟩
    obtain ⟨s, hs, rfl⟩ := List.mem_map.1 hw
    rw [toList_normalize, normalChars_writeOf (hss s hs), List.append_assoc,
      List.append_cancel_left_eq, List.append_cancel_left_eq, List.cons.injEq] at hsplit
    obtain ⟨-, rfl⟩ := hsplit
    rcases hname with ⟨-, hname⟩ | ⟨d, rest, -, hbelow, -⟩
    · exact List.mem_map.2 ⟨s, hs, (String.toList_inj.1 hname).symm⟩
    · exact absurd (by simp [hbelow]) (hss s hs).stateCode.2
  · intro hname
    obtain ⟨s, hs, rfl⟩ := List.mem_map.1 hname
    refine ⟨_, s.stateCode.toList, ⟨_, List.mem_map_of_mem hs, rfl⟩, ?_,
      Or.inl ⟨(hss s hs).stateCode.2, rfl⟩⟩
    rw [toList_normalize, normalChars_writeOf (hss s hs), List.append_assoc]

/-- What is retrieved of the flow from a store that holds entries of it and nothing else: the last
entry with each of their codes, in the order of the codes. -/
theorem stored_of_flow {σ : Type} [RecordStore σ] {store : σ} (hss : ∀ s ∈ ss, s.IsOf g f)
    (hf : IsPathEnd f) (hstore : Answers store (ss.map (writeOf filing))) :
    stored filing g f store =
      ((sortNames (ss.map Statistic.stateCode)).filterMap fun c =>
        (lastAmong ss g f c).map Statistic.atResolution, []) := by
  have hsegment : ∀ c ∈ ss.map Statistic.stateCode, IsSegment c := by
    intro c hc
    obtain ⟨s, hs, rfl⟩ := List.mem_map.1 hc
    exact (hss s hs).stateCode
  exact stored_of_answers hstore hf (isChild_flowDirectory_of_flow hss hf) hsegment
    fun c hc => lastAt_recordPath_of_flow hss (hsegment c hc)

end Ledger

end PluginKernel
