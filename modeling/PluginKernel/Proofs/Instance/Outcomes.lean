import PluginKernel.Proofs.Instance.Keeping

/-!
# The stored outcome of a flow

What the store holds once all queued ledgers are kept, for every order in which tasks take their
turns. A snapshot is queued after its lock was released, so a task with a later snapshot may queue
it first. Then the older snapshot is kept last, and its entries replace newer ones. If nobody is
overtaken this does not happen, and an outcome is replaced by later outcomes of its flow and code
only: those of the same run, and those of later runs.
-/

namespace PluginKernel.Instance

open Ledger (lastAmong)

variable {σ : Type}

/-- All queued ledgers have been kept. -/
def Drained (j : Instance σ) : Prop :=
  j.state.outbox = [] ∧ j.tasks[0]? = some (.keeper .receive)

/-- An entry is what is stored under its flow and code. -/
def Stores [RecordStore σ] (j : Instance σ) (filing : Filing) (s : Statistic) : Prop :=
  RecordStore.read j.state.store (Ledger.pathOf filing s) =
    .ok (some (StoredStatistic.ofStatistic s).toMembers)

variable [RecordStore σ] [Store.LawfulStore σ] {i j : Instance σ} {ts : List (Turn σ)}
  {filing : Filing}

/-- Whoever overtakes whom, the last queued entry with a flow and a code is what is stored. -/
theorem stores_of_lastAmong (hi : i.Fresh) (h : i.History ts j)
    (hfiling : i.setup.filing? = some filing) (hwrites : ∀ x ∈ ts, x.WriteSucceeds)
    (hdrained : j.Drained) (hnamed : ∀ l ∈ queued ts, ∀ s ∈ l.statistics, s.IsNamed)
    {s : Statistic} (hs : lastAmong ((queued ts).flatMap Ledger.statistics) s.flowGroup s.flowName
      s.stateCode = some s) : j.Stores filing s := by
  obtain ⟨x, stored, hkept⟩ := kept_of_history hi h hfiling hwrites
  obtain ⟨houtbox, hkeeper⟩ := hdrained
  obtain rfl : x = .receive := by
    have hsame := hkept.keeper.symm.trans hkeeper
    cases hsame
    rfl
  have hstored : stored = (queued ts).flatMap Ledger.statistics := by
    have hentries : stored ++ [] ++ j.state.outbox.flatMap Ledger.statistics = _ := hkept.entries
    rwa [houtbox, List.flatMap_nil, List.append_nil, List.append_nil] at hentries
  have hall : ∀ s ∈ (queued ts).flatMap Ledger.statistics, s.IsNamed := by
    intro s hs
    obtain ⟨l, hl, hmem⟩ := List.mem_flatMap.1 hs
    exact hnamed l hl s hmem
  obtain ⟨hg, hf, hc⟩ := hall s (Ledger.of_lastAmong_eq_some hs).1
  have hread := hkept.store (Ledger.pathOf filing s)
  rw [hstored, Ledger.pathOf, Ledger.lastAt_recordPath hall rfl hg hf hc, hs] at hread
  exact hread

/-- Whatever a host does and in whatever order tasks take their turns: each snapshot opens a run or
has one entry more than the one taken before it, and each is queued once or in the hand of one task.
Once the queue is drained and no write was refused, the last entry that was queued with a flow and a
code is what is stored under them.

As long as nobody is overtaken between taking a snapshot and queueing it, snapshots are queued in
the order in which they were taken. When nothing is left in hand, what a snapshot says last of a
flow and a code is then stored, unless an entry with them was recorded later; so no recorded failure
is replaced by an older success. -/
theorem stores_last_outcome (hi : i.Fresh) (h : i.History ts j) :
    Timelines (taken ts) ∧
      (taken ts).Perm (queued ts ++ (holders ts).filterMap j.inHand) ∧
      (holders ts).Nodup ∧ (∀ t, t ∈ holders ts ↔ (j.inHand t).isSome) ∧
      (InTurn ts → queued ts <+: taken ts) ∧
      ∀ filing, i.setup.filing? = some filing → (∀ x ∈ ts, x.WriteSucceeds) → j.Drained →
        (∀ l ∈ taken ts, ∀ s ∈ l.statistics, s.IsNamed) →
          (∀ s, lastAmong ((queued ts).flatMap Ledger.statistics) s.flowGroup s.flowName
              s.stateCode = some s → j.Stores filing s) ∧
            (InTurn ts → (∀ t, j.inHand t = none) →
              ∀ past l later s, taken ts = past ++ l :: later →
                l.lastEntry? s.flowGroup s.flowName s.stateCode = some s →
                (∀ l' ∈ later, ∀ e ∈ l'.statistics.getLast?, ¬(e.flowGroup = s.flowGroup ∧
                  e.flowName = s.flowName ∧ e.stateCode = s.stateCode)) →
                j.Stores filing s) := by
  have haccounted := accounted_of_history hi h
  refine ⟨haccounted.timelines, haccounted.perm, haccounted.nodup, haccounted.mem_holders,
    fun horder => ?_, ?_⟩
  · rw [haccounted.order horder]
    exact List.prefix_append _ _
  · intro filing hfiling hwrites hdrained hnamed
    have hqueued : ∀ l ∈ queued ts, ∀ s ∈ l.statistics, s.IsNamed := fun l hl =>
      hnamed l (haccounted.perm.mem_iff.2 (List.mem_append_left _ hl))
    have hlast := fun s => stores_of_lastAmong hi h hfiling hwrites hdrained hqueued (s := s)
    refine ⟨hlast, fun horder hhands past l later s hsplit hs hlater => hlast s ?_⟩
    have hnone : (holders ts).filterMap j.inHand = [] :=
      List.filterMap_eq_nil_iff.2 fun t _ => hhands t
    have hall : taken ts = queued ts := by
      rw [haccounted.order horder, hnone, List.append_nil]
    have htimelines := haccounted.timelines
    rw [hsplit] at htimelines
    rw [← hall, hsplit]
    exact htimelines.lastAmong_eq hs hlater

/-! ## A start and a report -/

/-- A plugin that is called to start, and whose host reports an error. -/
def reportedStart : Instance Store.Tree :=
  ((initial sampleSetup 16 .empty).act (.call (.start "p1"))).act (.report (.other "disk full"))

/-- The same plugin, with a stop and another start called for as well. -/
def restarted : Instance Store.Tree :=
  (reportedStart.act (.call (.stop "p1"))).act (.call (.start "p1"))

/-- Where its statistics are filed. -/
def sampleFiling : Filing := ⟨"base", "argosId", "argos-1"⟩

/-- The start of a run. -/
def startUpEntry : Statistic := (Milestone.startUp "p1").statistic Outcome.successMode .zero

/-- An error, charged to the start. -/
def failureEntry : Statistic :=
  (Milestone.startUp "p1").failed.statistic Outcome.failureMode .zero

/-- The end of the run. -/
def shutdownEntry : Statistic := (Milestone.shutdown "p1").statistic Outcome.successMode .zero

/-- A snapshot of a run with some entries. -/
def sampleSnapshot (entries : List Statistic) : Ledger := ⟨"argos-1", 0, false, entries, true⟩

theorem isNamed_of_mem_sampleSnapshot (entries : List (List Statistic))
    (h : ∀ ss ∈ entries, ∀ s ∈ ss, s = startUpEntry ∨ s = failureEntry ∨ s = shutdownEntry) :
    ∀ l ∈ entries.map sampleSnapshot, ∀ s ∈ l.statistics, s.IsNamed := by
  intro l hl s hs
  obtain ⟨ss, hss, rfl⟩ := List.mem_map.1 hl
  rcases h ss hss s hs with rfl | rfl | rfl <;>
    exact ⟨⟨by decide, by decide⟩, ⟨by decide, by decide⟩, ⟨by decide, by decide⟩⟩

theorem writeSucceeds_tree (x : Turn Store.Tree) : x.WriteSucceeds := by
  intro k hk filing l s rest summary hpersist
  exact ⟨_, rfl⟩

omit [RecordStore σ] [Store.LawfulStore σ] in
/-- Nothing is in hand if no task has anything in hand. -/
theorem inHand_eq_none_of_tasks {n : Nat} (h : j.tasks.map Task.inHand = List.replicate n none)
    (t : Nat) : j.inHand t = none := by
  rw [inHand]
  cases htask : j.tasks[t]? with
  | none => rfl
  | some task =>
    have hmem : task.inHand ∈ j.tasks.map Task.inHand :=
      List.mem_map_of_mem (List.mem_of_getElem? htask)
    rw [h] at hmem
    exact List.eq_of_mem_replicate hmem

/-- Turns that end with the queue drained and nothing in hand. -/
theorem exists_drained (i : Instance Store.Tree) (us : List Nat) (n : Nat)
    (hrun : (i.steps? us).map (fun j => (j.state.outbox, j.tasks[0]?, j.tasks.map Task.inHand)) =
      some ([], some (.keeper .receive), List.replicate n none)) :
    ∃ j, i.steps? us = some j ∧ j.Drained ∧ ∀ t, j.inHand t = none := by
  obtain ⟨j, hj, hseen⟩ := Option.map_eq_some_iff.1 hrun
  obtain ⟨houtbox, hseen⟩ := Prod.mk.inj hseen
  obtain ⟨hkeeper, hhands⟩ := Prod.mk.inj hseen
  exact ⟨j, hj, ⟨houtbox, hkeeper⟩, inHand_eq_none_of_tasks hhands⟩

theorem history_reportedStart {us : List Nat} {j : Instance Store.Tree}
    (h : reportedStart.steps? us = some j) :
    (initial sampleSetup 16 .empty).History (reportedStart.turns us) j :=
  ((History.refl.act (.call (.start "p1"))).act (.report (.other "disk full"))).turns h

theorem history_restarted {us : List Nat} {j : Instance Store.Tree}
    (h : restarted.steps? us = some j) :
    (initial sampleSetup 16 .empty).History (restarted.turns us) j :=
  ((((History.refl.act (.call (.start "p1"))).act (.report (.other "disk full"))).act
    (.call (.stop "p1"))).act (.call (.start "p1"))).turns h

/-- The start goes on until it has queued its snapshot; then the report takes and queues the next;
then both are kept. -/
def orderlyTurns : List Nat := [3, 3, 3, 3, 3, 3, 3, 3, 3, 3, 4, 4, 4, 0, 0, 0, 0, 0, 0, 0, 0, 0]

/-- The start has released the lock, but the report takes and queues the next snapshot first. -/
def overtakingTurns : List Nat := [3, 3, 3, 3, 3, 3, 3, 3, 3, 4, 4, 4, 3, 0, 0, 0, 0, 0, 0, 0, 0, 0]

/-- The start, the report, the stop with its server, the other start, and then the keeper. -/
def restartTurns : List Nat :=
  [3, 3, 3, 3, 3, 3, 3, 3, 3, 3, 4, 4, 4, 4, 7, 7, 5, 5, 5, 5, 5, 7, 5, 5, 5, 5, 5,
    6, 6, 6, 6, 6, 6, 6, 6, 6, 6, 0, 0, 0, 0, 0, 0, 0, 0, 0, 0, 0, 0, 0, 0, 0, 0, 0, 0, 0]

/-- If the start is not overtaken, the failure is what is stored. -/
theorem stores_failure_of_orderlyTurns : ∃ j, reportedStart.steps? orderlyTurns = some j ∧
    InTurn (reportedStart.turns orderlyTurns) ∧
      taken (reportedStart.turns orderlyTurns) =
        [sampleSnapshot [startUpEntry], sampleSnapshot [startUpEntry, failureEntry]] ∧
      j.Stores sampleFiling failureEntry := by
  have htaken : taken (reportedStart.turns orderlyTurns) =
      [[startUpEntry], [startUpEntry, failureEntry]].map sampleSnapshot := by with_unfolding_all rfl
  have horder : InTurn (reportedStart.turns orderlyTurns) := by with_unfolding_all rfl
  have hnamed := isNamed_of_mem_sampleSnapshot [[startUpEntry], [startUpEntry, failureEntry]]
    (by simp)
  rw [← htaken] at hnamed
  obtain ⟨j, hj, hdrained, hhands⟩ := exists_drained reportedStart orderlyTurns 6
    (by with_unfolding_all rfl)
  obtain ⟨-, -, -, -, -, hstores⟩ :=
    stores_last_outcome (fresh_initial _ _ _) (history_reportedStart hj)
  refine ⟨j, hj, horder, htaken, ?_⟩
  exact (hstores sampleFiling rfl (fun x _ => writeSucceeds_tree x) hdrained hnamed).2 horder hhands
    [sampleSnapshot [startUpEntry]] _ [] failureEntry htaken (by with_unfolding_all rfl) (by simp)

/-- An outcome can go backwards, in two ways. A report overtakes a start: the snapshots of the run
are queued in the other order, and what is stored is the success although the ledger has the failure
last. Or nobody is overtaken, but a second run records its start: what is stored is the success of
this start although the ledger of the first run has the failure last. -/
theorem stores_success_after_failure :
    (∃ j, (initial sampleSetup 16 .empty).History (reportedStart.turns overtakingTurns) j ∧
      j.Drained ∧ (∀ t, j.inHand t = none) ∧
      taken (reportedStart.turns overtakingTurns) =
        [sampleSnapshot [startUpEntry], sampleSnapshot [startUpEntry, failureEntry]] ∧
      queued (reportedStart.turns overtakingTurns) =
        [sampleSnapshot [startUpEntry, failureEntry], sampleSnapshot [startUpEntry]] ∧
      Ledger.lastEntry? (sampleSnapshot [startUpEntry, failureEntry]) "System" "p1" "1" =
        some failureEntry ∧ j.Stores sampleFiling startUpEntry) ∧
    (∃ j, (initial sampleSetup 16 .empty).History (restarted.turns restartTurns) j ∧
      j.Drained ∧ (∀ t, j.inHand t = none) ∧ InTurn (restarted.turns restartTurns) ∧
      taken (restarted.turns restartTurns) = [sampleSnapshot [startUpEntry],
        sampleSnapshot [startUpEntry, failureEntry],
        sampleSnapshot [startUpEntry, failureEntry, shutdownEntry],
        sampleSnapshot [startUpEntry]] ∧
      Ledger.lastEntry? (sampleSnapshot [startUpEntry, failureEntry, shutdownEntry])
        "System" "p1" "1" = some failureEntry ∧ j.Stores sampleFiling startUpEntry) ∧
    startUpEntry.outcome = .success ∧ failureEntry.outcome = .failure := by
  refine ⟨?_, ?_, by decide, by decide⟩
  · have hqueued : queued (reportedStart.turns overtakingTurns) =
        [[startUpEntry, failureEntry], [startUpEntry]].map sampleSnapshot := by
      with_unfolding_all rfl
    have hnamed := isNamed_of_mem_sampleSnapshot [[startUpEntry, failureEntry], [startUpEntry]]
      (by simp)
    rw [← hqueued] at hnamed
    obtain ⟨j, hj, hdrained, hhands⟩ := exists_drained reportedStart overtakingTurns 6
      (by with_unfolding_all rfl)
    have hhistory := history_reportedStart hj
    refine ⟨j, hhistory, hdrained, hhands, by with_unfolding_all rfl, hqueued,
      by with_unfolding_all rfl, ?_⟩
    refine stores_of_lastAmong (fresh_initial _ _ _) hhistory rfl (fun x _ => writeSucceeds_tree x)
      hdrained hnamed ?_
    rw [hqueued]
    with_unfolding_all rfl
  · have hqueued : queued (restarted.turns restartTurns) =
        [[startUpEntry], [startUpEntry, failureEntry], [startUpEntry, failureEntry, shutdownEntry],
          [startUpEntry]].map sampleSnapshot := by
      with_unfolding_all rfl
    have hnamed := isNamed_of_mem_sampleSnapshot [[startUpEntry], [startUpEntry, failureEntry],
      [startUpEntry, failureEntry, shutdownEntry], [startUpEntry]] (by simp)
    rw [← hqueued] at hnamed
    obtain ⟨j, hj, hdrained, hhands⟩ := exists_drained restarted restartTurns 9
      (by with_unfolding_all rfl)
    have hhistory := history_restarted hj
    refine ⟨j, hhistory, hdrained, hhands, by with_unfolding_all rfl, by with_unfolding_all rfl,
      by with_unfolding_all rfl, ?_⟩
    refine stores_of_lastAmong (fresh_initial _ _ _) hhistory rfl (fun x _ => writeSucceeds_tree x)
      hdrained hnamed ?_
    rw [hqueued]
    with_unfolding_all rfl

end PluginKernel.Instance
