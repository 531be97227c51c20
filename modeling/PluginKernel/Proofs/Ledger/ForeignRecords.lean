import PluginKernel.Proofs.Json.Members
import PluginKernel.Proofs.Ledger.Records
import PluginKernel.Proofs.SortedMaps

/-!
# Records of others

A record that somebody else has stored is accepted exactly if its five texts are there, whatever its
mode is and whatever else it has: `read_eq_ok_iff`. To read it and store what it stands for makes it
*normal*. A normal record is accepted, its time can be read, is not negative and is at storage
resolution, and to do the same again changes nothing.
-/

namespace PluginKernel

namespace StoredStatistic

variable {path : String} {members : Assoc Json} {r : StoredStatistic}

/-! ## Which records are accepted -/

/-- The five texts are there: each of their names has a value, which is a text. -/
def HasTexts (members : Assoc Json) : Prop :=
  ∀ name ∈ textMembers, name ∈ Assoc.keys members ∧
    ∀ v, (name, v) ∈ members → ∃ text, v = .str text

/-- What the members say, if the five texts are there. -/
structure CarriedBy (members : Assoc Json) (r : StoredStatistic) : Prop where
  texts : HasTexts members
  flowGroup : Assoc.get? "flowGroup" members = some (.str r.flowGroup)
  flowName : Assoc.get? "flowName" members = some (.str r.flowName)
  stateName : Assoc.get? "stateName" members = some (.str r.stateName)
  stateCode : Assoc.get? "stateCode" members = some (.str r.stateCode)
  timeSplit : Assoc.get? "timeSplit" members = some (.str r.timeSplit)
  /-- The mode may be missing, and stands for zero then. -/
  mode : r.mode = ((Assoc.get? "mode" members).map modeOf).getD 0

theorem checkMember_eq_ok_iff {name : String} {v : Json} :
    checkMember name v = .ok () ↔ (name ∈ textMembers → ∃ text, v = .str text) := by
  unfold checkMember
  split
  next hname =>
    have hmem : name ∈ textMembers := List.contains_iff_mem.1 hname
    cases v <;> simp [Json.asText, Except.map, hmem]
  next hname =>
    have hmem : name ∉ textMembers := fun h => hname (List.contains_iff_mem.2 h)
    simp [hmem]

/-- A text that is there is found. -/
theorem HasTexts.exists_get? (h : HasTexts members) (name : String) (hname : name ∈ textMembers) :
    ∃ text, Assoc.get? name members = some (.str text) := by
  obtain ⟨hkey, htexts⟩ := h name hname
  obtain ⟨v, hv⟩ : ∃ v, Assoc.get? name members = some v :=
    Option.ne_none_iff_exists'.1 fun hnone => Assoc.get?_eq_none_iff.1 hnone hkey
  obtain ⟨text, rfl⟩ := htexts v (Assoc.mem_of_get? hv)
  exact ⟨text, hv⟩

theorem ofMembers?_eq_ok_iff : ofMembers? members = .ok r ↔ CarriedBy members r := by
  simp only [ofMembers?, bind_eq_ok_iff, Json.requiredText_eq_ok_iff, pure, Except.pure,
    Except.ok.injEq, Json.checkMembers_eq_ok_iff, checkMember_eq_ok_iff]
  constructor
  · rintro ⟨-, hcheck, g, hg, n, hn, state, hstate, code, hcode, time, htime, rfl⟩
    have hfound : ∀ name ∈ textMembers, ∃ v, Assoc.get? name members = some v := by
      simp only [textMembers, List.forall_mem_cons, List.not_mem_nil, false_imp_iff, implies_true,
        and_true]
      exact ⟨⟨_, hg⟩, ⟨_, hn⟩, ⟨_, hstate⟩, ⟨_, hcode⟩, ⟨_, htime⟩⟩
    refine ⟨fun name hname => ⟨?_, fun v hv => hcheck (name, v) hv hname⟩, hg, hn, hstate, hcode,
      htime, rfl⟩
    obtain ⟨v, hv⟩ := hfound name hname
    exact List.mem_map_of_mem (Assoc.mem_of_get? hv)
  · rintro ⟨htexts, hg, hn, hstate, hcode, htime, hmode⟩
    exact ⟨(), fun p hp hname => (htexts p.1 hname).2 p.2 hp, _, hg, _, hn, _, hstate, _, hcode, _,
      htime, by rw [← hmode]⟩

/-- A record is accepted as what its members carry. -/
theorem read_eq_ok_iff : read path members = .ok r ↔ CarriedBy members r := by
  rw [read, mapError_eq_ok_iff, ofMembers?_eq_ok_iff]

theorem HasTexts.exists_carriedBy (h : HasTexts members) : ∃ r, CarriedBy members r := by
  obtain ⟨g, hg⟩ := h.exists_get? "flowGroup" (by decide)
  obtain ⟨n, hn⟩ := h.exists_get? "flowName" (by decide)
  obtain ⟨state, hstate⟩ := h.exists_get? "stateName" (by decide)
  obtain ⟨code, hcode⟩ := h.exists_get? "stateCode" (by decide)
  obtain ⟨time, htime⟩ := h.exists_get? "timeSplit" (by decide)
  exact ⟨⟨g, n, state, code, time, _⟩, h, hg, hn, hstate, hcode, htime, rfl⟩

/-- A record is refused exactly if one of the five texts is not there, and the refusal names its
path. -/
theorem read_eq_error (path : String) (h : ¬ HasTexts members) :
    ∃ cause, read path members = .error (.malformedRecord path (.undecodable cause)) := by
  cases hm : ofMembers? members with
  | ok r => exact absurd (ofMembers?_eq_ok_iff.1 hm).texts h
  | error cause => exact ⟨cause, by rw [read, hm]; rfl⟩

/-! ## Normal records -/

/-- The members that are stored for what the members of a record stand for. -/
def normalize (path : String) (members : Assoc Json) : Except StatisticError (Assoc Json) :=
  (read path members).map fun r => (ofStatistic r.toStatistic).toMembers

/-- What is stored of a statistic is normal. -/
theorem normalize_toMembers (path : String) (s : Statistic) :
    normalize path (ofStatistic s).toMembers = .ok (ofStatistic s).toMembers := by
  rw [normalize, read_toMembers]
  show Except.ok (ofStatistic (ofStatistic s).toStatistic).toMembers = _
  rw [toStatistic_ofStatistic, ofStatistic_atResolution]

/-- The record of a statistic is read back as the statistic at storage resolution. A record of
somebody else, whatever its time and its mode are, is normal once it has been read and stored: it is
accepted under every path and stays the same from then on, and its time can be read and is neither
negative nor finer than the storage resolution. -/
theorem normal_after_once :
    (∀ (path flowGroup flowName stateName stateCode : String) (mode : Int64) (elapsed : Duration),
      let s := Statistic.of flowGroup flowName stateName stateCode mode elapsed
      ∃ r, read path (ofStatistic s).toMembers = .ok r ∧ r.toStatistic = s.atResolution ∧
        r.toStatistic.outcome = s.outcome) ∧
    ∀ (path : String) (members : Assoc Json) (r : StoredStatistic), read path members = .ok r →
      ∃ normal, normalize path members = .ok normal ∧
        (∀ path', normalize path' normal = .ok normal) ∧
        ∃ text d, Assoc.get? "timeSplit" normal = some (.str text) ∧
          Duration.parse? text = some d ∧ 0 ≤ d.nanos ∧ d.truncate = d := by
  constructor
  · intro path flowGroup flowName stateName stateCode mode elapsed s
    refine ⟨ofStatistic s, read_toMembers path _, toStatistic_ofStatistic s, ?_⟩
    rw [toStatistic_ofStatistic, Statistic.outcome_atResolution]
  · intro path members r hread
    let s := r.toStatistic
    have hnormal : normalize path members = .ok (ofStatistic s).toMembers := by
      rw [normalize, hread]
      rfl
    exact ⟨_, hnormal, fun path' => normalize_toMembers path' s, s.timeSplit, s.elapsed.truncate,
      rfl, s.parse?_timeSplit, s.atResolution.elapsed_nonneg, s.elapsed.truncate_truncate⟩

/-- A record of somebody else: its mode is a text, its time is finer than the storage resolution and
spelled in two components, and it has a member of its own. -/
def foreignRecord : Assoc Json :=
  [("author", .null), ("flowGroup", .str "System"), ("flowName", .str "p1"),
    ("mode", .str " +02\n"), ("stateCode", .str "1"), ("stateName", .str "Start up"),
    ("timeSplit", .str "+0.5m.0299s")]

theorem normal_of_foreignRecord : ∃ r normal, read "base/1" foreignRecord = .ok r ∧ r.mode = 2 ∧
    normalize "base/1" foreignRecord = .ok normal ∧ normalize "other/1" normal = .ok normal ∧
    Assoc.get? "timeSplit" normal = some (.str "30.02s") := by
  obtain ⟨r, hread, hmode, htime⟩ : ∃ r, read "base/1" foreignRecord = .ok r ∧ r.mode = 2 ∧
      r.timeSplit = "+0.5m.0299s" := ⟨_, rfl, by decide, rfl⟩
  obtain ⟨normal, hnormal, hsame, -⟩ :=
    normal_after_once.2 "base/1" foreignRecord r hread
  refine ⟨r, normal, hread, hmode, hnormal, hsame "other/1", ?_⟩
  rw [normalize, hread] at hnormal
  cases hnormal
  let d : Duration := ⟨30029900000, by decide, by decide⟩
  have hparse : Duration.parse? "+0.5m.0299s" = some d := by decide +kernel
  have hsplit : r.toStatistic.timeSplit = "30.02s" := by
    rw [toStatistic, htime, hparse]
    show (d.max Duration.zero).truncate.format = "30.02s"
    decide +kernel
  exact congrArg (fun time => some (Json.str time)) hsplit

end StoredStatistic

end PluginKernel
