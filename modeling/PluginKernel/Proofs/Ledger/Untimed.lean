import PluginKernel.Instance.Timeline
import PluginKernel.Ledger.Storage
import PluginKernel.Proofs.Ledger.Records
import PluginKernel.Proofs.SortedMaps
import PluginKernel.Proofs.Store.Paths
import PluginKernel.Store.Backend

/-!
# Ledgers and stores but for the times

The time of an entry is measured, so no two runs agree on it. `untimed` leaves the times out: of a
statistic, of a ledger and of a record. What is charged to a ledger does not depend on its times,
and the stores of this library do not either: two stores to which the same was written at other
times list the same names, and their records differ in nothing but the time.
-/

namespace PluginKernel

open Store

/-! ## Ledgers -/

/-- A statistic without its time. -/
def Statistic.untimed (s : Statistic) : Statistic :=
  { s with elapsed := .zero, elapsed_nonneg := by decide }

theorem Milestone.untimed_statistic (m : Milestone) (mode : Int64) (elapsed : Duration) :
    (m.statistic mode elapsed).untimed = m.statistic mode .zero := rfl

namespace Ledger

/-- A ledger without the times in it. -/
def untimed (l : Ledger) : Ledger :=
  { l with opened := 0, statistics := l.statistics.map Statistic.untimed }

theorem elapsed_untimed (l : Ledger) : l.untimed.elapsed 0 = .zero := by
  have hopened : l.untimed.opened = 0 := rfl
  rw [elapsed, hopened]
  decide

/-- A milestone is recorded in the same way at all times. -/
theorem untimed_record (l : Ledger) (name : String) (m : Milestone) (mode : Int64) (now : Nat) :
    (l.record name m mode now).untimed = l.untimed.record name m mode 0 := by
  have hstatistics : (l.statistics ++ [m.statistic mode (l.elapsed now)]).map Statistic.untimed =
      l.untimed.statistics ++ [m.statistic mode (l.untimed.elapsed 0)] := by
    rw [List.map_append, List.map_singleton, Milestone.untimed_statistic, elapsed_untimed]
    rfl
  exact congrArg (fun ss => (⟨name, 0, l.logsEntries, ss, true⟩ : Ledger)) hstatistics

theorem untimed_start (name plugin : String) (now : Nat) :
    (start name plugin now).untimed = start name plugin 0 :=
  untimed_record _ _ _ _ _

/-- A failure is charged to the same milestone at all times. -/
theorem lastMilestone?_untimed (l : Ledger) : l.untimed.lastMilestone? = l.lastMilestone? := by
  rw [lastMilestone?, lastMilestone?, untimed, List.getLast?_map, Option.map_map]
  rfl

end Ledger

/-! ## Records -/

/-- A record without its time. -/
def untimedRecord (members : Assoc Json) : Assoc Json := Assoc.erase "timeSplit" members

/-- A statistic as it is stored. -/
def Statistic.record (s : Statistic) : Assoc Json := (StoredStatistic.ofStatistic s).toMembers

theorem untimedRecord_record {s s' : Statistic} (h : s.untimed = s'.untimed) :
    untimedRecord s.record = untimedRecord s'.record := by
  have hrecord : ∀ s : Statistic, untimedRecord s.record = untimedRecord s.untimed.record :=
    fun s => by simp [untimedRecord, Statistic.record, StoredStatistic.toMembers,
      StoredStatistic.ofStatistic, Assoc.erase, Statistic.untimed]
  rw [hrecord s, h, ← hrecord s']

/-! ## Stores -/

section

variable {σ : Type} [RecordStore σ]

/-- Two stores answer alike, but for the times in their records. -/
structure AlikeButTimes (store store' : σ) : Prop where
  list (path : String) : RecordStore.list store path = RecordStore.list store' path
  read (path : String) : (RecordStore.read store path).map (·.map untimedRecord) =
    (RecordStore.read store' path).map (·.map untimedRecord)

/-- A relation that writing keeps at whatever times, and whose stores answer alike. -/
structure IsTimeBlind (R : σ → σ → Prop) : Prop where
  refl (store : σ) : R store store
  write {store store' : σ} (h : R store store') (path : String) {s s' : Statistic}
      (hs : s.untimed = s'.untimed) :
    (∃ a a', RecordStore.write store path s.record = .ok a ∧
        RecordStore.write store' path s'.record = .ok a' ∧ R a a') ∨
      ∃ e e', RecordStore.write store path s.record = .error e ∧
        RecordStore.write store' path s'.record = .error e'
  alike {store store' : σ} (h : R store store') : AlikeButTimes store store'

variable (σ) in
/-- A store that does not look at times. -/
class TimeBlindStore : Prop where
  exists_timeBlind : ∃ R : σ → σ → Prop, IsTimeBlind R

end

namespace Store

instance : TimeBlindStore Tree where
  exists_timeBlind := by
    refine ⟨fun t t' => Assoc.mapValues untimedRecord t.records =
      Assoc.mapValues untimedRecord t'.records, fun _ => rfl, fun {t t'} h path {s s'} hs => ?_,
      fun {t t'} h => ⟨fun path => ?_, fun path => ?_⟩⟩
    · refine .inl ⟨_, _, rfl, rfl, ?_⟩
      change Assoc.mapValues untimedRecord (Assoc.insert _ s.record t.records) =
        Assoc.mapValues untimedRecord (Assoc.insert _ s'.record t'.records)
      rw [Assoc.mapValues_insert, Assoc.mapValues_insert, untimedRecord_record hs, h]
    · have hpaths : t.paths = t'.paths := by
        rw [Tree.paths, Tree.paths, ← Assoc.keys_mapValues untimedRecord, h, Assoc.keys_mapValues]
      change Except.ok (t.list path) = .ok (t'.list path)
      rw [Tree.list, Tree.list, hpaths]
    · change Except.ok ((t.read path).map untimedRecord) = .ok ((t'.read path).map untimedRecord)
      rw [Tree.read, Tree.read, ← Assoc.get?_mapValues, h, Assoc.get?_mapValues]

/-- A value without the time that it has as a record. -/
def untimedValue : Json → Json
  | .obj members => .obj (untimedRecord members)
  | v => v

/-- A row whose text is read, without the time in it. -/
structure Row.View where
  path : String
  parent : String
  name : String
  record : Option Json

def Row.view (row : Row) : Row.View :=
  ⟨row.path, row.parent, row.name, (Json.parse? row.record).map untimedValue⟩

namespace Rows

variable {t t' : Rows}

theorem find?_view (t : Rows) (path : String) :
    (t.rows.map Row.view).find? (·.path = normalize path) = (t.find? path).map Row.view :=
  List.find?_map

/-- What a row is read as depends on its view, but for the time. -/
theorem read_view (t : Rows) (path : String) : (t.read path).map (·.map untimedRecord) =
    match (t.rows.map Row.view).find? (·.path = normalize path) with
    | none => .ok none
    | some view =>
      match view.record with
      | none => .error .notJson
      | some (.obj members) => .ok (some members)
      | some _ => .error (.malformedRecord path .notObject) := by
  rw [find?_view, read]
  cases t.find? path with
  | none => rfl
  | some row =>
    simp only [Option.map_some, Row.view]
    cases Json.parse? row.record with
    | none => rfl
    | some v => cases v <;> rfl

theorem view_of_mem (h : t.rows.map Row.view = t'.rows.map Row.view) {row : Row}
    (hrow : row ∈ t.rows) : ∃ row' ∈ t'.rows, row'.view = row.view :=
  List.mem_map.1 (h ▸ List.mem_map_of_mem hrow)

/-- Whatever a table lists, a table with the same views lists as well. -/
theorem list_subset (h : t.rows.map Row.view = t'.rows.map Row.view) (path name : String)
    (hname : name ∈ t.list path) : name ∈ t'.list path := by
  rw [list, mem_sortNames, List.mem_append] at hname ⊢
  rcases hname with hname | hname
  · obtain ⟨row, hrow, rfl⟩ := List.mem_map.1 hname
    obtain ⟨hmem, hparent⟩ := List.mem_filter.1 hrow
    obtain ⟨row', hmem', hview⟩ := view_of_mem h hmem
    have hparent' : row'.parent = row.parent := congrArg Row.View.parent hview
    refine .inl (List.mem_map.2 ⟨row', List.mem_filter.2 ⟨hmem', ?_⟩, congrArg Row.View.name hview⟩)
    rw [hparent']
    exact hparent
  · obtain ⟨row, hrow, hrest⟩ := List.mem_filterMap.1 hname
    obtain ⟨hmem, hlike⟩ := List.mem_filter.1 hrow
    obtain ⟨row', hmem', hview⟩ := view_of_mem h hmem
    have hparent' : row'.parent = row.parent := congrArg Row.View.parent hview
    refine .inr (List.mem_filterMap.2 ⟨row', List.mem_filter.2 ⟨hmem', ?_⟩, ?_⟩)
    · rw [hparent']
      exact hlike
    · rw [hparent']
      exact hrest

end Rows

/-- The view of the row of a path once a record is written to it. -/
theorem Rows.view_rowFor (t : Rows) (path text : String) : (t.rowFor path text).view =
    { ((t.rows.map Row.view).find? (·.path = normalize path)).getD
        (Row.of (normalChars path) "").view with
      record := (Json.parse? text).map untimedValue } := by
  rw [find?_view, rowFor]
  cases t.find? path <;> rfl

/-- The views of a table after a write. -/
theorem Rows.view_write (t : Rows) (path : String) (s : Statistic) :
    (t.write path s.record).rows.map Row.view =
      { ((t.rows.map Row.view).find? (·.path = normalize path)).getD
          (Row.of (normalChars path) "").view with
        record := some (.obj (untimedRecord s.untimed.record)) } ::
        (t.rows.map Row.view).filter (·.path != normalize path) := by
  have hparse : Json.parse? (Json.obj s.record).print = some (.obj s.record) :=
    StoredStatistic.parse?_print_toMembers _
  have huntimed : s.untimed = s.untimed.untimed := rfl
  rw [rows_write, List.map_cons, view_rowFor, hparse, ← untimedRecord_record huntimed,
    List.filter_map]
  rfl

instance : TimeBlindStore Rows where
  exists_timeBlind := by
    refine ⟨fun t t' => t.rows.map Row.view = t'.rows.map Row.view, fun _ => rfl,
      fun {t t'} h path {s s'} hs => .inl ⟨_, _, rfl, rfl, ?_⟩,
      fun {t t'} h => ⟨fun path => ?_, fun path => ?_⟩⟩
    · rw [Rows.view_write, Rows.view_write, h, hs]
    · refine congrArg Except.ok ?_
      refine List.Pairwise.eq_of_mem_iff (pairwise_sortNames _) (pairwise_sortNames _)
        fun name => ?_
      exact ⟨Rows.list_subset h path name, Rows.list_subset h.symm path name⟩
    · change (t.read path).map _ = (t'.read path).map _
      rw [Rows.read_view, Rows.read_view, h]

/-- Stores of one kind that are related as stores of that kind are. -/
inductive Backend.Related (R : Tree → Tree → Prop) (Q : Rows → Rows → Prop) :
    Backend → Backend → Prop where
  | memory {t t' : Tree} (h : R t t') : Related R Q (.memory t) (.memory t')
  | table {t t' : Rows} (h : Q t t') : Related R Q (.table t) (.table t')

instance : TimeBlindStore Backend where
  exists_timeBlind := by
    obtain ⟨R, hR⟩ := TimeBlindStore.exists_timeBlind (σ := Tree)
    obtain ⟨Q, hQ⟩ := TimeBlindStore.exists_timeBlind (σ := Rows)
    refine ⟨Backend.Related R Q, fun b => ?_, fun {_ _} h path {s s'} hs => ?_,
      fun {_ _} h => ⟨fun path => ?_, fun path => ?_⟩⟩
    · cases b with
      | memory t => exact .memory (hR.refl t)
      | table t => exact .table (hQ.refl t)
    · cases h with
      | memory h =>
        rcases hR.write h path hs with ⟨a, a', ha, ha', hrelated⟩ | ⟨e, e', he, he'⟩
        · exact .inl ⟨_, _, congrArg (Except.map Backend.memory) ha,
            congrArg (Except.map Backend.memory) ha', .memory hrelated⟩
        · exact .inr ⟨e, e', congrArg (Except.map Backend.memory) he,
            congrArg (Except.map Backend.memory) he'⟩
      | table h =>
        rcases hQ.write h path hs with ⟨a, a', ha, ha', hrelated⟩ | ⟨e, e', he, he'⟩
        · exact .inl ⟨_, _, congrArg (Except.map Backend.table) ha,
            congrArg (Except.map Backend.table) ha', .table hrelated⟩
        · exact .inr ⟨e, e', congrArg (Except.map Backend.table) he,
            congrArg (Except.map Backend.table) he'⟩
    · cases h with
      | memory h => exact (hR.alike h).list path
      | table h => exact (hQ.alike h).list path
    · cases h with
      | memory h => exact (hR.alike h).read path
      | table h => exact (hQ.alike h).read path

/-- Faults are chosen by path, so they do not look at times. -/
instance {σ : Type} [RecordStore σ] [TimeBlindStore σ] : TimeBlindStore (Faulty σ) where
  exists_timeBlind := by
    obtain ⟨R, hR⟩ := TimeBlindStore.exists_timeBlind (σ := σ)
    refine ⟨fun x x' => x.faults = x'.faults ∧ R x.store x'.store, fun x => ⟨rfl, hR.refl _⟩,
      fun {x x'} h path {s s'} hs => ?_, fun {x x'} h => ⟨fun path => ?_, fun path => ?_⟩⟩
    · obtain ⟨hfaults, hstore⟩ := h
      simp only [RecordStore.write, ← hfaults]
      split
      · exact .inr ⟨_, _, rfl, rfl⟩
      rcases hR.write hstore path hs with ⟨a, a', ha, ha', hrelated⟩ | ⟨e, e', he, he'⟩
      · rw [ha, ha']
        exact .inl ⟨_, _, rfl, rfl, rfl, hrelated⟩
      · rw [he, he']
        exact .inr ⟨e, e', rfl, rfl⟩
    · simp only [RecordStore.list, ← h.1]
      split
      · rfl
      · exact (hR.alike h.2).list path
    · simp only [RecordStore.read, ← h.1]
      split
      · rfl
      split
      · rfl
      · exact (hR.alike h.2).read path

end Store

end PluginKernel
