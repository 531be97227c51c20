import PluginKernel.Proofs.Instance.Occasions
import PluginKernel.Proofs.Instance.Pipeline

/-!
# An error and the snapshot that tells of it

A report queues the snapshot with the failure before it sends the error. The two go different ways:
the error straight to the host, the snapshot through the hands of the keeper and the courier. So the
snapshot is at least on its way when the error is sent, but the error may be there first, and a host
that has no room for ledgers may have read it long before.
-/

namespace PluginKernel.Instance

variable {σ : Type} [RecordStore σ] {i j : Instance σ} {es : List (Event σ)} {t : Nat} {task : Task}

/-- Whoever is through with all but its error has queued what it has taken. -/
theorem mem_queued_of_through (hi : i.Fresh) (h : i.Course es j) (ht : j.tasks[t]? = some task)
    (hthrough : task.IsThrough) {l : Ledger} (hl : l ∈ takenBy (turnsOf es) t) :
    l ∈ queued (turnsOf es) := by
  have hhanded := (balanced_of_history hi h.history).handed t
  rw [inHand_of_getElem? ht, hthrough.inHand_eq_none, Option.toList_none, List.append_nil]
    at hhanded
  rw [← hhanded] at hl
  obtain ⟨w, hw, hmem⟩ := List.mem_flatMap.1 hl
  exact List.mem_flatMap.2 ⟨w, (List.mem_filter.1 hw).1, hmem⟩

/-- When a report sends its error, and ever after, the snapshot that it has taken has been queued.
As long as the host listens, it has read the snapshot, or has it in its queue, or the snapshot is on
its way: in line for the queue, with the courier or the keeper, or queued for one of them. -/
theorem snapshot_ahead_of_error (hi : i.Fresh) (hdataflow : i.state.dataflow.contents = [])
    (h : i.Course es j) (ht : j.tasks[t]? = some task) (hthrough : task.IsThrough) :
    ∃ x y, j.tasks[0]? = some (.keeper x) ∧ j.tasks[1]? = some (.courier y) ∧
      ∀ l ∈ takenBy (turnsOf es) t, l ∈ queued (turnsOf es) ∧
        (j.state.dataflow.hasReceiver = true → l ∈ delivered es ++ j.state.dataflow.buffer ∨
          l ∈ j.state.dataflow.waiting.map (·.2) ++ y.carried ++ j.state.pending ++ x.carried ++
            j.state.outbox) := by
  obtain ⟨x, y, hstaffed, hflow, -⟩ := conveyed_of_course (hi.pipelineEmpty hdataflow) h
  refine ⟨x, y, hstaffed.keeper, hstaffed.courier, fun l hl => ?_⟩
  have hqueued := mem_queued_of_through hi h ht hthrough hl
  refine ⟨hqueued, fun hopen => ?_⟩
  -- the invariants of the two hands say where a queued snapshot can be
  rw [← hflow.kept, ← hflow.sent hopen, Queue.contents] at hqueued
  simp only [List.mem_append] at hqueued ⊢
  tauto

theorem takenBy_narrowTurns : takenBy (narrowStart.turns narrowTurns) 4 =
    [sampleSnapshot [startUpEntry, failureEntry]] := by
  with_unfolding_all rfl

/-- The report of `narrowStart` is about to send its error, and its snapshot waits in line. -/
theorem snapshot_ahead_in_narrowStart : ∃ (es : List (Event Store.Tree)) (j : Instance Store.Tree),
    (initial sampleSetup 1 Store.Tree.empty).Course es j ∧
      j.tasks[4]? = some (.report (.send (.other "disk full"))) ∧
      takenBy (turnsOf es) 4 = [sampleSnapshot [startUpEntry, failureEntry]] ∧
      sampleSnapshot [startUpEntry, failureEntry] ∈ queued (turnsOf es) ∧
      j.state.dataflow.waiting.map (·.2) = [sampleSnapshot [startUpEntry, failureEntry]] := by
  have hrun : (narrowStart.steps? narrowTurns).map
      (fun j => (j.tasks[4]?, j.state.dataflow.waiting)) =
        some (some (.report (.send (.other "disk full"))),
          [(1, sampleSnapshot [startUpEntry, failureEntry])]) := by
    with_unfolding_all rfl
  obtain ⟨j, hj, hseen⟩ := Option.map_eq_some_iff.1 hrun
  obtain ⟨htask, hwaiting⟩ := Prod.mk.inj hseen
  obtain ⟨es, hes, -, hcourse⟩ := course_narrowStart hj
  obtain ⟨x, y, -, -, hall⟩ :=
    snapshot_ahead_of_error (fresh_initial _ _ _) rfl hcourse htask trivial
  have htaken := takenBy_narrowTurns
  rw [← hes] at htaken
  refine ⟨es, j, hcourse, htask, htaken, (hall _ ?_).1, by rw [hwaiting]; rfl⟩
  rw [htaken]
  exact List.mem_singleton_self _

/-- The host has room for one ledger and does not read. The keeper and the courier have done all
that they can, and the error enters the queue of the host while the snapshot that tells of it waits
in line: what the host can read is the error and the snapshot of the start. -/
theorem error_ahead_of_snapshot : ∃ (es : List (Event Store.Tree)) (w : Turn Store.Tree),
    (initial sampleSetup 1 Store.Tree.empty).Course (es ++ [.turn w]) w.after ∧
      takenBy (turnsOf es) w.task = [sampleSnapshot [startUpEntry, failureEntry]] ∧
      w.before.state.errors.buffer = [] ∧ w.after.state.errors.buffer = [.other "disk full"] ∧
      delivered es = [] ∧ w.after.state.dataflow.buffer = [sampleSnapshot [startUpEntry]] ∧
      w.before.step? 0 = none ∧ w.before.step? 1 = none := by
  have hrun : ((narrowStart.steps? narrowTurns).bind fun j => (j.step? 4).map fun k =>
      (j.state.errors.buffer, k.state.errors.buffer, k.state.dataflow.buffer,
        (j.step? 0).isNone, (j.step? 1).isNone)) =
        some ([], [.other "disk full"], [sampleSnapshot [startUpEntry]], true, true) := by
    with_unfolding_all rfl
  obtain ⟨j, hj, hseen⟩ := Option.bind_eq_some_iff.1 hrun
  obtain ⟨k, hk, hseen⟩ := Option.map_eq_some_iff.1 hseen
  simp only [Prod.mk.injEq, Option.isNone_iff_eq_none] at hseen
  obtain ⟨hbefore, hafter, hdataflow, hkeeper, hcourier⟩ := hseen
  obtain ⟨es, hes, hunread, hcourse⟩ := course_narrowStart hj
  have htaken := takenBy_narrowTurns
  rw [← hes] at htaken
  exact ⟨es, ⟨4, j, k⟩, hcourse.turn hk, htaken, hbefore, hafter, hunread, hdataflow, hkeeper,
    hcourier⟩

end PluginKernel.Instance
