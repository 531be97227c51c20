import PluginKernel.Ledger.Storage
import PluginKernel.Proofs.Ledger.Filing
import PluginKernel.Proofs.Ledger.Records
import PluginKernel.Proofs.Store.Agreement

/-!
# What is persisted is retrieved

Persisting a ledger makes one write for each entry. If the names of its entries are segments, two
entries share a path exactly if they share flow and code, so the store keeps the last entry of each
flow and code; and below the directory of a flow there are the codes of the flow and nothing else.
-/

namespace PluginKernel

open Store

/-- The names of a statistic can be segments of a path. -/
structure Statistic.IsNamed (s : Statistic) : Prop where
  flowGroup : IsSegment s.flowGroup
  flowName : IsSegment s.flowName
  stateCode : IsSegment s.stateCode

namespace Ledger

/-! ## Persisting -/

/-- The write that files an entry. -/
def writeOf (filing : Filing) (s : Statistic) : String × Assoc Json :=
  (pathOf filing s, (StoredStatistic.ofStatistic s).toMembers)

/-- Where every write of a ledger succeeds, persisting it makes these writes and reports them. -/
theorem foldl_persistEntry {σ : Type} [RecordStore σ] {filing : Filing} {ss : List Statistic}
    {p : Persisting σ} {store : σ} (h : writeAll p.store (ss.map (writeOf filing)) = .ok store) :
    ss.foldl (persistEntry filing) p =
      { p with store := store
               summary := { p.summary with written := p.summary.written + ss.length } } := by
  induction ss generalizing p with
  | nil =>
    cases h
    rfl
  | cons s ss ih =>
    rw [List.map_cons, writeAll, List.foldlM_cons] at h
    cases hw : RecordStore.write p.store (writeOf filing s).1 (writeOf filing s).2 with
    | error e =>
      rw [hw] at h
      cases h
    | ok next =>
      rw [hw] at h
      have hentry : persistEntry filing p s =
          { p with store := next
                   summary := { p.summary with written := p.summary.written + 1 } } := by
        rw [persistEntry, show RecordStore.write p.store (pathOf filing s)
          (StoredStatistic.ofStatistic s).toMembers = .ok next from hw]
      have hrest : writeAll next (ss.map (writeOf filing)) = .ok store := h
      rw [List.foldl_cons, hentry, ih hrest, List.length_cons]
      simp only [Nat.add_assoc, Nat.add_comm 1]

theorem parse?_print_writeOf (filing : Filing) (ss : List Statistic) :
    ∀ w ∈ ss.map (writeOf filing), Json.parse? (Json.obj w.2).print = some (.obj w.2) := by
  intro w hw
  obtain ⟨s, -, rfl⟩ := List.mem_map.1 hw
  exact StoredStatistic.parse?_print_toMembers _

/-! ## What the store holds -/

/-- The entries of a flow. -/
def entriesOf (l : Ledger) (flowGroup flowName : String) : List Statistic :=
  l.statistics.filter fun s => s.flowGroup = flowGroup ∧ s.flowName = flowName

/-- The last entry of a flow with a code. -/
def lastEntry? (l : Ledger) (flowGroup flowName stateCode : String) : Option Statistic :=
  ((l.entriesOf flowGroup flowName).filter (·.stateCode = stateCode)).getLast?

/-- The last of some entries with a flow and a code. -/
def lastAmong (ss : List Statistic) (flowGroup flowName stateCode : String) : Option Statistic :=
  ((ss.filter fun s => s.flowGroup = flowGroup ∧ s.flowName = flowName).filter
    (·.stateCode = stateCode)).getLast?

theorem lastEntry?_eq_lastAmong (l : Ledger) (flowGroup flowName stateCode : String) :
    l.lastEntry? flowGroup flowName stateCode =
      lastAmong l.statistics flowGroup flowName stateCode := rfl

variable {l : Ledger} {ss : List Statistic} {filing filing' : Filing} {g f c : String}

/-- A record is read as the last entry of its flow and code. -/
theorem lastAt_recordPath (hss : ∀ s ∈ ss, s.IsNamed) (hroot : filing'.root = filing.root)
    (hg : IsSegment g) (hf : IsSegment f) (hc : IsSegment c) :
    lastAt (ss.map (writeOf filing)) (filing'.recordPath g f c) =
      (lastAmong ss g f c).map fun s => (StoredStatistic.ofStatistic s).toMembers := by
  have hsame : ∀ s ∈ ss,
      (Store.normalize (writeOf filing s).1 = Store.normalize (filing'.recordPath g f c) ↔
        s.flowGroup = g ∧ s.flowName = f ∧ s.stateCode = c) := by
    intro s hs
    obtain ⟨hsg, hsf, hsc⟩ := hss s hs
    exact Filing.normalize_recordPath_inj hroot hsg hg hsf hf hsc hc
  have hfilter : (ss.map (writeOf filing)).filter
      (fun w => Store.normalize w.1 = Store.normalize (filing'.recordPath g f c)) =
        ((ss.filter fun s => s.flowGroup = g ∧ s.flowName = f).filter
          (·.stateCode = c)).map (writeOf filing) := by
    rw [List.filter_map, List.filter_filter]
    refine congrArg _ (List.filter_congr fun s hs => ?_)
    simp only [Function.comp_apply, hsame s hs]
    by_cases hflow : s.stateCode = c <;> simp [hflow]
  rw [lastAt, hfilter, List.getLast?_map, lastAmong, Option.map_map]
  rfl

/-- Below the directory of a flow there are the codes of its entries. -/
theorem isChild_flowDirectory_iff (hl : ∀ s ∈ l.statistics, s.IsNamed)
    (hroot : filing'.root = filing.root) (hg : IsSegment g) (hf : IsSegment f) (name : String) :
    IsChild (Written (l.statistics.map (writeOf filing)))
        (Store.normalize (filing'.flowDirectory g f)) name ↔
      name ∈ (l.entriesOf g f).map Statistic.stateCode := by
  have hkey : ∀ s ∈ l.statistics, normalChars (writeOf filing s).1 =
      filing'.root ++ (Filing.flowChars s.flowGroup s.flowName ++ '/' :: s.stateCode.toList) := by
    intro s hs
    rw [hroot]
    exact Filing.normalChars_recordPath filing (hl s hs).stateCode
  rw [isChild_iff_below, toList_normalize, Filing.normalChars_flowDirectory filing' hf.isPathEnd]
  constructor
  · rintro ⟨key, below, ⟨w, hw, rfl⟩, hsplit, hname⟩
    obtain ⟨s, hs, rfl⟩ := List.mem_map.1 hw
    obtain ⟨hsg, hsf, hsc⟩ := hl s hs
    rw [toList_normalize, hkey s hs, List.append_assoc, List.append_cancel_left_eq] at hsplit
    obtain ⟨heq, heq', hbelow⟩ := Filing.flowChars_inj hsg.2 hg.2 hsf.2 hf.2 hsplit
    rcases hname with ⟨-, hname⟩ | ⟨d, rest, -, rfl, -⟩
    · refine List.mem_map.2 ⟨s, ?_, ?_⟩
      · simp [entriesOf, hs, heq, heq']
      · rw [← String.toList_inj, hname, hbelow]
    · exact absurd (by simp [hbelow]) hsc.2
  · intro hname
    obtain ⟨s, hmem, rfl⟩ := List.mem_map.1 hname
    obtain ⟨hs, hflow⟩ := List.mem_filter.1 hmem
    obtain ⟨heq, heq'⟩ := of_decide_eq_true hflow
    refine ⟨_, s.stateCode.toList, ⟨_, List.mem_map_of_mem hs, rfl⟩, ?_,
      Or.inl ⟨(hl s hs).stateCode.2, rfl⟩⟩
    rw [toList_normalize, hkey s hs, heq, heq', List.append_assoc]

/-! ## Retrieving -/

/-- The code of an entry has a last entry. -/
theorem exists_lastEntry? (h : c ∈ (l.entriesOf g f).map Statistic.stateCode) :
    ∃ s, l.lastEntry? g f c = some s := by
  obtain ⟨s, hs, hc⟩ := List.mem_map.1 h
  refine Option.ne_none_iff_exists'.1 fun hnone => ?_
  have hnil := List.getLast?_eq_none_iff.1 hnone
  have hmem : s ∈ (l.entriesOf g f).filter (·.stateCode = c) := by simp [hs, hc]
  rw [hnil] at hmem
  cases hmem

/-- An entry whose record is at its path is read with its time at storage resolution. -/
theorem readEntry_of_read {σ : Type} [RecordStore σ] {store : σ} {entry : Option Statistic}
    (h : RecordStore.read store (filing.recordPath g f c) =
      .ok (entry.map fun s => (StoredStatistic.ofStatistic s).toMembers)) :
    readEntry store (filing.flowDirectory g f) c = .ok (entry.map Statistic.atResolution) := by
  rw [readEntry, show filing.flowDirectory g f ++ "/" ++ c = filing.recordPath g f c from rfl, h]
  cases entry with
  | none => rfl
  | some s =>
    simp only [Option.map_some, StoredStatistic.read_toMembers]
    rw [StoredStatistic.toStatistic_ofStatistic]

/-- What is read under a code is the entry whose record was written last at its path. -/
theorem readEntry_eq_ok {σ : Type} [RecordStore σ] {store : σ} {ws : List (String × Assoc Json)}
    {entry : Option Statistic} (hstore : Answers store ws)
    (hentry : lastAt ws (filing.recordPath g f c) =
      entry.map fun s => (StoredStatistic.ofStatistic s).toMembers) :
    readEntry store (filing.flowDirectory g f) c = .ok (entry.map Statistic.atResolution) :=
  readEntry_of_read (by rw [hstore.read, hentry])

/-- What is retrieved of a flow from a store that answers as some writes say: for each of the codes
below the directory of the flow, in the order of the codes, the entry whose record was written last
at its path. -/
theorem stored_of_answers {σ : Type} [RecordStore σ] {store : σ} {ws : List (String × Assoc Json)}
    {codes : List String} {found : String → Option Statistic} (hstore : Answers store ws)
    (hf : IsPathEnd f)
    (hchild : ∀ name, IsChild (Written ws) (Store.normalize (filing.flowDirectory g f)) name ↔
      name ∈ codes)
    (hsegment : ∀ c ∈ codes, IsSegment c)
    (hentry : ∀ c ∈ codes, lastAt ws (filing.recordPath g f c) =
      (found c).map fun s => (StoredStatistic.ofStatistic s).toMembers) :
    stored filing g f store =
      ((sortNames codes).filterMap fun c => (found c).map Statistic.atResolution, []) := by
  obtain ⟨names, hlist, hmem⟩ := hstore.list _ (Filing.flowDirectory_ne_nil filing hf)
  have hcodes : sortNames names = sortNames codes :=
    sortNames_eq_of_mem_iff fun name => (hmem name).trans (hchild name)
  have hsorted : ∀ c ∈ sortNames codes, c ∈ codes := fun c => (mem_sortNames c codes).1
  rw [stored, hlist, hcodes]
  generalize sortNames codes = sorted at hsorted
  have hfilter : sorted.filter (!isDirectory ·) = sorted :=
    List.filter_eq_self.2 fun c hc => by
      simp [isDirectory_of_notMem (hsegment c (hsorted c hc)).2]
  have hresults : sorted.map (readEntry store (filing.flowDirectory g f)) =
      sorted.map fun c => .ok ((found c).map Statistic.atResolution) :=
    List.map_congr_left fun c hc => readEntry_eq_ok hstore (hentry c (hsorted c hc))
  simp only [readEntries, hfilter, hresults, List.filterMap_map]
  refine Prod.ext rfl ?_
  simp

/-- What is retrieved of a flow from a store that holds a ledger: the last entry with each of the
codes of the flow, in the order of the codes. -/
theorem stored_eq {σ : Type} [RecordStore σ] {store : σ} (hl : ∀ s ∈ l.statistics, s.IsNamed)
    (hroot : filing'.root = filing.root) (hg : IsSegment g) (hf : IsSegment f)
    (hstore : Answers store (l.statistics.map (writeOf filing))) :
    stored filing' g f store =
      ((sortNames ((l.entriesOf g f).map Statistic.stateCode)).filterMap fun c =>
        (l.lastEntry? g f c).map Statistic.atResolution, []) := by
  have hsegment : ∀ c ∈ (l.entriesOf g f).map Statistic.stateCode, IsSegment c := by
    intro c hc
    obtain ⟨s, hs, rfl⟩ := List.mem_map.1 hc
    exact (hl s (List.mem_filter.1 hs).1).stateCode
  exact stored_of_answers hstore hf.isPathEnd (isChild_flowDirectory_iff hl hroot hg hf) hsegment
    fun c hc => lastAt_recordPath hl hroot hg hf (hsegment c hc)

/-- A ledger whose entries have segments for names is persisted in an empty store without a failure,
and then each of its flows is retrieved: for every code of the flow, in the order of the bytes of
the codes, the last entry with it at storage resolution. How many slashes stand at the ends of the
base path makes no difference. -/
theorem retrieve_persist (l : Ledger) (filing filing' : Filing) {backend : Backend}
    (hempty : backend = .memory .empty ∨ backend = .table .empty)
    (hl : ∀ s ∈ l.statistics, s.IsNamed)
    (hbase : Store.normalize filing'.basePath = Store.normalize filing.basePath)
    (hname : filing'.idName = filing.idName) (hid : filing'.id = filing.id) (hg : IsSegment g)
    (hf : IsSegment f) (target : Ledger) : ∃ (store : Backend) (codes : List String)
      (entries : List Statistic),
      l.persist filing backend = ⟨store, ⟨l.size, 0⟩, []⟩ ∧
      (codes.Pairwise fun a b => Text.utf8 a < Text.utf8 b) ∧
      (∀ c, c ∈ codes ↔
        ∃ s ∈ l.statistics, s.flowGroup = g ∧ s.flowName = f ∧ s.stateCode = c) ∧
      (entries.map some = codes.map fun c => (l.lastEntry? g f c).map Statistic.atResolution) ∧
      target.retrieve filing' g f store =
        { target with statistics := target.statistics ++ entries } ∧
      (stored filing' g f store).1.length = codes.length := by
  obtain ⟨store, hwrites, hstore⟩ := Answers.of_backend hempty
    (parse?_print_writeOf filing l.statistics)
  have hstored := stored_eq hl (Filing.root_congr hbase hname hid) hg hf hstore
  generalize hcs : sortNames ((l.entriesOf g f).map Statistic.stateCode) = codes at hstored
  generalize hes : (codes.filterMap fun c => (l.lastEntry? g f c).map Statistic.atResolution) =
    entries at hstored
  have hentries : entries.map some =
      codes.map fun c => (l.lastEntry? g f c).map Statistic.atResolution := by
    have hmem : ∀ c ∈ codes, c ∈ (l.entriesOf g f).map Statistic.stateCode := fun c hc => by
      rw [← hcs, mem_sortNames] at hc
      exact hc
    rw [← hes]
    clear hcs hes hstored
    induction codes with
    | nil => rfl
    | cons c codes ih =>
      obtain ⟨s, hs⟩ := exists_lastEntry? (hmem c List.mem_cons_self)
      rw [List.filterMap_cons, List.map_cons, hs, Option.map_some]
      simp only [List.map_cons]
      rw [ih fun d hd => hmem d (List.mem_cons_of_mem _ hd)]
  refine ⟨store, codes, entries, ?_, ?_, ?_, hentries, ?_, ?_⟩
  · rw [persist, foldl_persistEntry hwrites, Nat.zero_add]
    rfl
  · rw [← hcs]
    exact pairwise_utf8_sortNames _
  · intro c
    rw [← hcs, mem_sortNames]
    simp [entriesOf, and_assoc]
  · rw [retrieve, hstored]
  · have hlength := congrArg List.length hentries
    rw [List.length_map, List.length_map] at hlength
    rw [hstored, hlength]

/-- A timeline in which a failure follows a start that has its code. -/
def sampleTimeline : Ledger where
  name := "argos-1"
  opened := 0
  logsEntries := false
  statistics := [
    .of "System" "p1" "Start up" "1" 1 Duration.zero,
    .of "System" "p1" "Start up Failure" "1" 2 ⟨1234567890, by decide, by decide⟩,
    .of "System" "p1" "Shutdown" "0" 1 ⟨5000000000, by decide, by decide⟩]
  finished := true

/-- The failure is what is retrieved under the code, at another spelling of the base path. -/
theorem retrieve_sampleTimeline : ∃ (store : Backend) (entries : List Statistic),
    sampleTimeline.persist ⟨"base/", "argosId", "7"⟩ (.table .empty) = ⟨store, ⟨3, 0⟩, []⟩ ∧
      (new "read" false 0).retrieve ⟨"/base", "argosId", "7"⟩ "System" "p1" store =
        { new "read" false 0 with statistics := entries } ∧
      ∃ e ∈ entries, e.stateName = "Start up Failure" ∧ e.elapsed.nanos = 1230000000 := by
  have hsystem : IsSegment "System" := ⟨by decide, by decide⟩
  have hp1 : IsSegment "p1" := ⟨by decide, by decide⟩
  have hnamed : ∀ s ∈ sampleTimeline.statistics, s.IsNamed := by
    intro s hs
    simp only [sampleTimeline, List.mem_cons, List.not_mem_nil, or_false] at hs
    rcases hs with rfl | rfl | rfl <;>
      exact ⟨⟨by decide, by decide⟩, ⟨by decide, by decide⟩, ⟨by decide, by decide⟩⟩
  obtain ⟨store, codes, entries, hpersist, -, hcodes, hentries, hretrieve, -⟩ :=
    retrieve_persist sampleTimeline ⟨"base/", "argosId", "7"⟩ ⟨"/base", "argosId", "7"⟩
      (Or.inr rfl) hnamed (by decide +kernel) rfl rfl hsystem hp1 (new "read" false 0)
  refine ⟨store, entries, hpersist, hretrieve, ?_⟩
  have hone : "1" ∈ codes := (hcodes "1").2
    ⟨.of "System" "p1" "Start up" "1" 1 Duration.zero, by simp [sampleTimeline], rfl, rfl, rfl⟩
  have hmem := List.mem_map_of_mem (f := fun c =>
    (sampleTimeline.lastEntry? "System" "p1" c).map Statistic.atResolution) hone
  rw [← hentries] at hmem
  obtain ⟨e, he, heq⟩ := List.mem_map.1 hmem
  have hlast : (sampleTimeline.lastEntry? "System" "p1" "1").map Statistic.atResolution =
      some (.of "System" "p1" "Start up Failure" "1" 2 ⟨1230000000, by decide, by decide⟩) := by
    decide +kernel
  rw [hlast, Option.some.injEq] at heq
  exact ⟨e, he, by rw [heq]; rfl, by rw [heq]; rfl⟩

end Ledger

end PluginKernel
