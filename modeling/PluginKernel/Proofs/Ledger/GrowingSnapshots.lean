import Mathlib.Data.List.Chain
import PluginKernel.Proofs.Ledger.Retrieval
import PluginKernel.Proofs.Store.Commuting

/-!
# Snapshots of a growing ledger

A ledger is persisted again and again while it grows, each time with all its entries, and any of
the writes may fail. A failed write leaves the store as it was and the next entry is tried all the
same, so a store is at any time what the writes that succeeded make of it. Once a snapshot has been
written without a failure, nothing is left of what came before: each entry of an earlier snapshot
is an entry of the last one too, and so its path was written again.
-/

namespace PluginKernel

open Store

/-- A ledger at a moment at which it is persisted, and the calls that fail meanwhile. -/
structure Snapshot where
  ledger : Ledger
  /-- Which calls fail while an entry is written, by the place of the entry in the ledger. -/
  faults : Nat → Faults

/-- A ledger that is persisted to a store in front of which nothing fails leaves its writes
there. -/
theorem Ledger.store_persist (l : Ledger) (filing : Filing) (store : Backend) :
    (l.persist filing store).store = store.putAll (l.statistics.map (writeOf filing)) := by
  rw [persist, foldl_persistEntry (Backend.writeAll_eq_putAll store _)]

/-- Where the ledgers of an identifier are filed. -/
def Filing.sample (id : String) : Filing := ⟨"base", "argosId", id⟩

namespace Snapshot

variable {x : Snapshot} {filing : Filing} {store : Backend}

/-- Try to write an entry while some calls fail. -/
def attempt (filing : Filing) (x : Snapshot) (p : Persisting (Faulty Backend))
    (entry : Statistic × Nat) : Persisting (Faulty Backend) :=
  Ledger.persistEntry filing { p with store := ⟨x.faults entry.2, p.store.store⟩ } entry.1

/-- Persist a snapshot while some calls fail. -/
def persist (x : Snapshot) (filing : Filing) (store : Backend) : Persisting (Faulty Backend) :=
  x.ledger.statistics.zipIdx.foldl (attempt filing x) ⟨⟨x.faults 0, store⟩, {}, []⟩

/-- What persisting snapshots one after the other makes of a store. -/
def persistAll (filing : Filing) (store : Backend) (xs : List Snapshot) : Backend :=
  xs.foldl (fun store x => (x.persist filing store).store.store) store

/-- Whether the write of an entry is refused. -/
def refuses (filing : Filing) (x : Snapshot) (entry : Statistic × Nat) : Bool :=
  Faults.hits (x.faults entry.2).write (Ledger.pathOf filing entry.1)

/-- The entries whose writes succeed. -/
def accepted (filing : Filing) (x : Snapshot) : List Statistic :=
  (x.ledger.statistics.zipIdx.filter (!refuses filing x ·)).map Prod.fst

/-- The entries whose writes fail. -/
def refused (filing : Filing) (x : Snapshot) : List Statistic :=
  (x.ledger.statistics.zipIdx.filter (refuses filing x)).map Prod.fst

/-- What is logged when the write of an entry is refused. -/
def refusalEvent (filing : Filing) (s : Statistic) : LogEvent :=
  Ledger.failureEvent "error writing dataflow statistic" (Ledger.pathOf filing s) Faults.refusal

/-! ## One snapshot -/

theorem attempt_of_refuses {entry : Statistic × Nat} (h : refuses filing x entry = true)
    (p : Persisting (Faulty Backend)) :
    attempt filing x p entry =
      ⟨⟨x.faults entry.2, p.store.store⟩, { p.summary with failed := p.summary.failed + 1 },
        p.events ++ [refusalEvent filing entry.1]⟩ := by
  have hwrite : RecordStore.write (⟨x.faults entry.2, p.store.store⟩ : Faulty Backend)
      (Ledger.pathOf filing entry.1) (StoredStatistic.ofStatistic entry.1).toMembers =
        .error Faults.refusal := if_pos h
  rw [attempt, Ledger.persistEntry, hwrite]
  rfl

theorem attempt_of_not_refuses {entry : Statistic × Nat} (h : refuses filing x entry = false)
    (p : Persisting (Faulty Backend)) :
    attempt filing x p entry =
      ⟨⟨x.faults entry.2, p.store.store.put (Ledger.writeOf filing entry.1)⟩,
        { p.summary with written := p.summary.written + 1 }, p.events⟩ := by
  have hwrite : RecordStore.write (⟨x.faults entry.2, p.store.store⟩ : Faulty Backend)
      (Ledger.pathOf filing entry.1) (StoredStatistic.ofStatistic entry.1).toMembers =
        .ok ⟨x.faults entry.2, p.store.store.put (Ledger.writeOf filing entry.1)⟩ := by
    change (if refuses filing x entry = true then _ else _) = _
    rw [h, if_neg Bool.false_ne_true]
    exact congrArg (Except.map _)
      (Backend.write_eq_ok p.store.store (Ledger.writeOf filing entry.1))
  rw [attempt, Ledger.persistEntry, hwrite]

/-- Each entry is tried once, in order, whatever became of those before it. -/
theorem foldl_attempt (filing : Filing) (x : Snapshot) (entries : List (Statistic × Nat))
    (p : Persisting (Faulty Backend)) :
    ∃ faults, entries.foldl (attempt filing x) p =
      ⟨⟨faults, p.store.store.putAll (((entries.filter (!refuses filing x ·)).map Prod.fst).map
          (Ledger.writeOf filing))⟩,
        ⟨p.summary.written + (entries.filter (!refuses filing x ·)).length,
          p.summary.failed + (entries.filter (refuses filing x)).length⟩,
        p.events ++ ((entries.filter (refuses filing x)).map Prod.fst).map
          (refusalEvent filing)⟩ := by
  induction entries generalizing p with
  | nil => exact ⟨p.store.faults, by simp⟩
  | cons entry entries ih =>
    rw [List.foldl_cons]
    cases h : refuses filing x entry with
    | true =>
      obtain ⟨faults, hrest⟩ := ih (attempt filing x p entry)
      refine ⟨faults, hrest.trans ?_⟩
      simp [attempt_of_refuses h, h, Nat.add_assoc, Nat.add_comm 1]
    | false =>
      obtain ⟨faults, hrest⟩ := ih (attempt filing x p entry)
      refine ⟨faults, hrest.trans ?_⟩
      simp [attempt_of_not_refuses h, h, Nat.add_assoc, Nat.add_comm 1]

/-- What persisting a snapshot does: the writes that are not refused are made in order, the others
are counted and logged. -/
theorem persist_eq (x : Snapshot) (filing : Filing) (store : Backend) : ∃ faults,
    x.persist filing store =
      ⟨⟨faults, store.putAll ((x.accepted filing).map (Ledger.writeOf filing))⟩,
        ⟨(x.accepted filing).length, (x.refused filing).length⟩,
        (x.refused filing).map (refusalEvent filing)⟩ := by
  obtain ⟨faults, h⟩ := foldl_attempt filing x x.ledger.statistics.zipIdx
    ⟨⟨x.faults 0, store⟩, {}, []⟩
  refine ⟨faults, h.trans ?_⟩
  simp [accepted, refused]

theorem store_persist (x : Snapshot) (filing : Filing) (store : Backend) :
    (x.persist filing store).store.store =
      store.putAll ((x.accepted filing).map (Ledger.writeOf filing)) := by
  obtain ⟨faults, h⟩ := x.persist_eq filing store
  rw [h]

theorem length_accepted_add_refused (x : Snapshot) (filing : Filing) :
    (x.accepted filing).length + (x.refused filing).length = x.ledger.size := by
  rw [accepted, refused, List.length_map, List.length_map, Nat.add_comm]
  have h := List.length_eq_length_filter_add (l := x.ledger.statistics.zipIdx) (refuses filing x)
  rw [List.length_zipIdx] at h
  exact h.symm

theorem faults_attempt (p : Persisting (Faulty Backend)) (entry : Statistic × Nat) :
    (attempt filing x p entry).store.faults = x.faults entry.2 := by
  cases h : refuses filing x entry with
  | true => rw [attempt_of_refuses h]
  | false => rw [attempt_of_not_refuses h]

/-- If the same calls fail all the time, this is persisting to a store in front of which they
fail. -/
theorem persist_of_constant {faults : Faults} (h : ∀ n, x.faults n = faults) (filing : Filing)
    (store : Backend) : x.persist filing store = x.ledger.persist filing ⟨faults, store⟩ := by
  have hfold : ∀ (entries : List (Statistic × Nat)) (p : Persisting (Faulty Backend)),
      p.store.faults = faults → entries.foldl (attempt filing x) p =
        (entries.map Prod.fst).foldl (Ledger.persistEntry filing) p := by
    intro entries
    induction entries with
    | nil => exact fun _ _ => rfl
    | cons entry entries ih =>
      intro p hp
      have hnext : (attempt filing x p entry).store.faults = faults :=
        (faults_attempt p entry).trans (h entry.2)
      have hentry : attempt filing x p entry = Ledger.persistEntry filing p entry.1 := by
        rw [attempt, h, ← hp]
      rw [List.foldl_cons, List.map_cons, List.foldl_cons, ih _ hnext, hentry]
  rw [persist, hfold _ _ (h 0), List.zipIdx_map_fst, h, Ledger.persist]

/-! ## A chain of snapshots -/

/-- What was written of a snapshot is written again with every ledger that extends it. -/
theorem written_of_extends {l : Ledger} (h : x.ledger.statistics <+: l.statistics) :
    ∀ w ∈ (x.accepted filing).map (Ledger.writeOf filing),
      Written (l.statistics.map (Ledger.writeOf filing)) (normalize w.1) := by
  intro w hw
  obtain ⟨s, hs, rfl⟩ := List.mem_map.1 hw
  obtain ⟨entry, hentry, rfl⟩ := List.mem_map.1 hs
  have hmem : entry.1 ∈ x.ledger.statistics := by
    rw [← List.zipIdx_map_fst 0 x.ledger.statistics]
    exact List.mem_map_of_mem (List.mem_filter.1 hentry).1
  exact ⟨_, List.mem_map_of_mem (h.subset hmem), rfl⟩

/-- Of snapshots that a ledger extends nothing is left once the ledger has been written. -/
theorem putAll_persistAll {l : Ledger} {xs : List Snapshot}
    (h : ∀ x ∈ xs, x.ledger.statistics <+: l.statistics) (store : Backend) :
    (persistAll filing store xs).putAll (l.statistics.map (Ledger.writeOf filing)) =
      store.putAll (l.statistics.map (Ledger.writeOf filing)) := by
  induction xs generalizing store with
  | nil => rfl
  | cons x xs ih =>
    obtain ⟨hx, hxs⟩ := List.forall_mem_cons.1 h
    rw [persistAll, List.foldl_cons, ← persistAll, ih hxs, store_persist,
      Backend.putAll_putAll _ (written_of_extends hx)]

theorem accepted_eq_of_refused_eq_nil (h : x.refused filing = []) :
    x.accepted filing = x.ledger.statistics := by
  rw [refused, List.map_eq_nil_iff, List.filter_eq_nil_iff] at h
  have hall : x.ledger.statistics.zipIdx.filter (!refuses filing x ·) =
      x.ledger.statistics.zipIdx :=
    List.filter_eq_self.2 fun entry hentry => by simp [h entry hentry]
  rw [accepted, hall, List.zipIdx_map_fst]

/-- Entries were appended to the ledger of a snapshot to make that of another. -/
def GrowsTo (x y : Snapshot) : Prop := x.ledger.statistics <+: y.ledger.statistics

instance : Trans GrowsTo GrowsTo GrowsTo := ⟨List.IsPrefix.trans⟩

/-- The last ledger of a chain extends all others. -/
theorem growsTo_last {xs : List Snapshot} {last : Snapshot}
    (h : (xs ++ [last]).IsChain GrowsTo) : ∀ x ∈ xs, x.GrowsTo last := by
  have hpairs := List.isChain_iff_pairwise.1 h
  exact fun x hx => (List.pairwise_append.1 hpairs).2.2 x hx last (List.mem_singleton_self last)

/-- Snapshots of a growing ledger are persisted one after the other, and any writes fail. Of each
the entries are tried once and in order: those that are not refused are written, the others are
counted and logged, and together they are all entries. And if no write of the last snapshot fails,
the store is the one that persisting the last snapshot alone would have made, whatever failed
before. -/
theorem converges (filing : Filing) (store : Backend) (xs : List Snapshot) (last : Snapshot)
    (hchain : (xs ++ [last]).IsChain GrowsTo) :
    (∀ x ∈ xs ++ [last], ∀ before : Backend,
      (x.persist filing before).store.store =
          before.putAll ((x.accepted filing).map (Ledger.writeOf filing)) ∧
        (x.persist filing before).summary =
          ⟨(x.accepted filing).length, (x.refused filing).length⟩ ∧
        (x.persist filing before).events = (x.refused filing).map (refusalEvent filing) ∧
        (x.persist filing before).summary.written + (x.persist filing before).summary.failed =
          x.ledger.size) ∧
      ((last.persist filing (persistAll filing store xs)).summary.failed = 0 →
        persistAll filing store (xs ++ [last]) = (last.ledger.persist filing store).store) := by
  refine ⟨fun x _ before => ?_, fun hfailed => ?_⟩
  · obtain ⟨faults, h⟩ := x.persist_eq filing before
    rw [h]
    exact ⟨rfl, rfl, rfl, x.length_accepted_add_refused filing⟩
  · obtain ⟨faults, h⟩ := last.persist_eq filing (persistAll filing store xs)
    rw [h] at hfailed
    have hnone : last.refused filing = [] := List.length_eq_zero_iff.1 hfailed
    have hlast : persistAll filing store (xs ++ [last]) =
        (persistAll filing store xs).putAll
          (last.ledger.statistics.map (Ledger.writeOf filing)) := by
      rw [persistAll, List.foldl_append, List.foldl_cons, List.foldl_nil, ← persistAll,
        store_persist, accepted_eq_of_refused_eq_nil hnone]
    rw [hlast, putAll_persistAll (growsTo_last hchain), Ledger.store_persist]

/-- What of a timeline was recorded when its run had failed; its first write is refused. -/
def sampleEarlier : Snapshot where
  ledger := { Ledger.sampleTimeline with
    statistics := Ledger.sampleTimeline.statistics.take 2, finished := false }
  faults n := if n = 0 then { write := [""] } else {}

/-- The whole timeline, with no write refused. -/
def sampleLast : Snapshot := ⟨Ledger.sampleTimeline, fun _ => {}⟩

/-- Of the earlier snapshot one entry is written and one is not, and in the end it is as if it had
never been persisted. -/
theorem converges_sampleLast :
    (sampleEarlier.persist (.sample "7") (.table .empty)).summary = ⟨1, 1⟩ ∧
      persistAll (.sample "7") (.table .empty) [sampleEarlier, sampleLast] =
        (Ledger.sampleTimeline.persist (.sample "7") (.table .empty)).store := by
  have hchain : ([sampleEarlier] ++ [sampleLast]).IsChain GrowsTo := by
    refine List.IsChain.cons_cons ?_ (.singleton _)
    exact List.take_prefix 2 Ledger.sampleTimeline.statistics
  obtain ⟨hall, hlast⟩ := converges (.sample "7") (.table .empty) [sampleEarlier]
    sampleLast hchain
  obtain ⟨-, hearlier, -⟩ := hall sampleEarlier (by simp) (.table .empty)
  obtain ⟨-, hsummary, -⟩ := hall sampleLast (by simp)
    (persistAll (.sample "7") (.table .empty) [sampleEarlier])
  refine ⟨hearlier.trans ?_, hlast ?_⟩
  · decide +kernel
  · rw [hsummary]
    decide +kernel

end Snapshot

end PluginKernel
