import PluginKernel.Proofs.Duration.Truncation
import PluginKernel.Proofs.Ledger.GrowingSnapshots
import PluginKernel.Proofs.Store.Overwriting

/-!
# Times in order are stored in order

Rounding keeps the order of spans, and so does writing them down and reading them: of the spans that
are not spelled by their own text, which are the shortest ones, all have the text of the shortest
span that is. What is read of an entry is the entry with its time rounded, whatever the store held
before and whatever else was persisted with it, as long as no later entry went to the same path. So
two times in order are read back in order.
-/

namespace PluginKernel

open Store

namespace Duration

/-- The span that the text of a span spells. -/
def saturated (d : Duration) : Duration := if Text.int64Min < d.seconds then d else longestBack

theorem spells_format_saturated (d : Duration) : Spells d.format d.saturated := by
  unfold saturated
  split
  · next h => exact spells_format h
  · next h => exact spells_format_of_least h

theorem saturated_mono {d e : Duration} (h : d.nanos ≤ e.nanos) :
    d.saturated.nanos ≤ e.saturated.nanos := by
  have hback : longestBack.nanos = -9223372036854775807999999999 := rfl
  simp only [saturated, int64Min_lt_seconds_iff]
  split
  · rw [if_pos (by omega)]
    exact h
  · split
    · omega
    · exact Int.le_refl _

/-- Reading the texts of two spans in order gives two spans in order. -/
theorem exists_read_format {d e : Duration} (h : d.nanos ≤ e.nanos) :
    ∃ d' e', read d.format = .ok d' ∧ read e.format = .ok e' ∧ d'.nanos ≤ e'.nanos :=
  ⟨d.saturated, e.saturated, read_eq_ok_iff.2 (spells_format_saturated d),
    read_eq_ok_iff.2 (spells_format_saturated e), saturated_mono h⟩

/-- The later of a span and none, for spans in order. -/
theorem max_zero_mono {d e : Duration} (h : d.nanos ≤ e.nanos) :
    (d.max zero).nanos ≤ (e.max zero).nanos := by
  have hzero : zero.nanos = 0 := rfl
  unfold max
  split
  · split <;> omega
  · rw [if_neg (by omega)]
    exact h

end Duration

namespace Ledger

/-- No later entry of a ledger is filed where this one is. -/
def Keeps (filing : Filing) (l : Ledger) (s : Statistic) : Prop :=
  ∃ earlier later, l.statistics = earlier ++ s :: later ∧
    ¬ Written (later.map (writeOf filing)) (Store.normalize (pathOf filing s))

/-- Once a ledger has been persisted, an entry that it keeps is read back with its time rounded. -/
theorem readEntry_persist {filing : Filing} {l : Ledger} {s : Statistic} (h : l.Keeps filing s)
    (store : Backend) :
    readEntry (l.persist filing store).store (filing.flowDirectory s.flowGroup s.flowName)
      s.stateCode = .ok (some s.atResolution) := by
  obtain ⟨earlier, later, hl, hlater⟩ := h
  have hstore : (l.persist filing store).store =
      ((store.putAll (earlier.map (writeOf filing))).put (writeOf filing s)).putAll
        (later.map (writeOf filing)) := by
    rw [store_persist, hl, List.map_append, Backend.putAll, List.foldl_append]
    rfl
  have hread : RecordStore.read (l.persist filing store).store (pathOf filing s) =
      .ok ((some s).map fun s => (StoredStatistic.ofStatistic s).toMembers) := by
    rw [hstore, Backend.read_putAll _ hlater,
      LawfulStore.read_of_write (StoredStatistic.parse?_print_toMembers _)
        (Backend.write_eq_ok _ (writeOf filing s))]
    exact if_pos rfl
  exact readEntry_of_read hread

end Ledger

/-! ## The resolution -/

namespace Duration

/-- What rounding to the storage resolution makes of a span. -/
structure IsRounded (d : Duration) : Prop where
  /-- It gives the one multiple of the resolution that is nearest to the span among those that are
  not farther from zero. -/
  nearest : ∀ t, Rounds d t ↔ t = d.truncate
  /-- It takes off less than the resolution. -/
  close : (d.nanos - d.truncate.nanos).natAbs < resolution.natAbs
  /-- It leaves 32 bits at no step. -/
  word : (truncateSubsecond (Int32.ofInt d.subsecond)).toInt =
    d.subsecond - d.subsecond.tmod resolution
  /-- It does not leave the range of a span either. -/
  inRange : ofSeconds? d.seconds (truncateSubsecond (Int32.ofInt d.subsecond)).toInt =
    some d.truncate
  /-- It comes to rest after one step. -/
  idempotent : d.truncate.truncate = d.truncate
  /-- It can be exchanged with turning round, where that is possible. -/
  turned : d.truncate.neg? = d.neg?.map truncate

/-- What becomes of two spans that are in order. -/
structure StayInOrder (d e : Duration) : Prop where
  /-- They are rounded in order. -/
  rounded : d.truncate.nanos ≤ e.truncate.nanos
  /-- The texts of what they are rounded to are read in order. -/
  written : ∃ d' e', read d.truncate.format = .ok d' ∧ read e.truncate.format = .ok e' ∧
    d'.nanos ≤ e'.nanos
  /-- Entries that were recorded with them are read in order once they have been persisted, by one
  ledger or by two. -/
  stored : ∀ (m n : Milestone) (i j : Int64) (filing filing' : Filing) (k l : Ledger)
    (store store' : Backend),
    k.Keeps filing (.of m.flowGroup m.flowName m.stateName m.stateCode i d) →
    l.Keeps filing' (.of n.flowGroup n.flowName n.stateName n.stateCode j e) →
      ∃ s t,
        Ledger.readEntry (k.persist filing store).store
          (filing.flowDirectory m.flowGroup m.flowName) m.stateCode = .ok (some s) ∧
        Ledger.readEntry (l.persist filing' store').store
          (filing'.flowDirectory n.flowGroup n.flowName) n.stateCode = .ok (some t) ∧
        s.elapsed.nanos ≤ t.elapsed.nanos

/-- Rounding gives the nearest multiple of the storage resolution on the side of zero, without
leaving any range on the way. Spans in order stay in order when they are rounded, written and
read, or stored and read back. -/
theorem truncate_to_resolution (d e : Duration) :
    d.IsRounded ∧ (d.nanos ≤ e.nanos → d.StayInOrder e) := by
  refine ⟨?_, fun h => ?_⟩
  · exact ⟨fun t => rounds_iff, d.natAbs_sub_truncate_lt, d.toInt_truncateSubsecond,
      d.ofSeconds?_truncateSubsecond, d.truncate_truncate, d.neg?_truncate⟩
  · have htruncate := truncate_mono h
    refine ⟨htruncate, exists_read_format htruncate, ?_⟩
    intro m n i j filing filing' k l store store' hs ht
    exact ⟨_, _, Ledger.readEntry_persist hs store, Ledger.readEntry_persist ht store',
      truncate_mono (max_zero_mono h)⟩

end Duration

/-- A ledger with one entry, in the same state of the same flow but at different times. -/
def Ledger.sampleAt (d : Duration) : Ledger :=
  ⟨"run", 0, false, [.of "System" "p1" "Start up" "1" 1 d], false⟩

theorem Ledger.keeps_sampleAt (filing : Filing) (d : Duration) :
    (sampleAt d).Keeps filing (.of "System" "p1" "Start up" "1" 1 d) := by
  refine ⟨[], [], rfl, ?_⟩
  rintro ⟨w, hw, -⟩
  cases hw

/-- The shortest span of all, and two spans next to ten milliseconds that are persisted over stores
of the two kinds. -/
theorem Duration.truncate_to_resolution_samples :
    (⟨-9223372036854775808990000000, by decide, by decide⟩ : Duration) =
        truncate ⟨-9223372036854775808999999999, by decide, by decide⟩ ∧
      neg? (truncate ⟨-9223372036854775808999999999, by decide, by decide⟩) = none ∧
      truncate ⟨-10000001, by decide, by decide⟩ = ⟨-10000000, by decide, by decide⟩ ∧
      ∃ s' t',
        Ledger.readEntry ((Ledger.sampleAt ⟨9999999, by decide, by decide⟩).persist (.sample "7")
            (Backend.memory .empty)).store
          ((Filing.sample "7").flowDirectory "System" "p1") "1" = .ok (some s') ∧
        Ledger.readEntry ((Ledger.sampleAt ⟨10000001, by decide, by decide⟩).persist (.sample "7")
            (Backend.table .empty)).store
          ((Filing.sample "7").flowDirectory "System" "p1") "1" = .ok (some t') ∧
        s'.elapsed.nanos ≤ t'.elapsed.nanos := by
  have hrounds : Rounds ⟨-9223372036854775808999999999, by decide, by decide⟩
      ⟨-9223372036854775808990000000, by decide, by decide⟩ := by
    refine ⟨by decide, by decide, fun m hm hle hne => ?_⟩
    rw [resolution] at hm
    simp only at hle hne ⊢
    omega
  have hshortest := (truncate_to_resolution
    ⟨-9223372036854775808999999999, by decide, by decide⟩ zero).1
  have horder := (truncate_to_resolution ⟨9999999, by decide, by decide⟩
    ⟨10000001, by decide, by decide⟩).2 (by decide)
  refine ⟨(hshortest.nearest _).1 hrounds, ?_, by decide, ?_⟩
  · rw [hshortest.turned]
    decide
  · exact horder.stored ⟨"System", "p1", "Start up", "1"⟩ ⟨"System", "p1", "Start up", "1"⟩ 1 1
      _ _ _ _ _ _ (Ledger.keeps_sampleAt _ _) (Ledger.keeps_sampleAt _ _)

end PluginKernel
