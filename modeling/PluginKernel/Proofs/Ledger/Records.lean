import PluginKernel.Ledger.Record
import PluginKernel.Proofs.Duration.RoundTrip
import PluginKernel.Proofs.Json.RoundTrip
import PluginKernel.Proofs.Text.WholeNumbers

/-!
# The record of a statistic is read back

The members of a record decode as the record, their text is read as the same members, and the
statistic that a record stands for is the one it was made of, with its time at storage resolution.
-/

namespace PluginKernel

/-- A time at storage resolution stays as it is. -/
theorem Duration.truncate_truncate (d : Duration) : d.truncate.truncate = d.truncate := by
  have hsplit := Int.mul_tdiv_add_tmod d.nanos resolution
  have hmultiple : d.nanos - d.nanos.tmod resolution = resolution * d.nanos.tdiv resolution := by
    omega
  refine Duration.ext ?_
  simp only [truncate, hmultiple, Int.mul_tmod_right, Int.sub_zero]

/-- A statistic with its time at storage resolution. -/
def Statistic.atResolution (s : Statistic) : Statistic :=
  { s with
    elapsed := s.elapsed.truncate
    elapsed_nonneg :=
      ((Duration.sub_tmod_mem s.elapsed.nanos (k := Duration.resolution) (by decide)).1
        s.elapsed_nonneg).1 }

/-- Rounding the time does not change how a state was reached. -/
@[simp] theorem Statistic.outcome_atResolution (s : Statistic) :
    s.atResolution.outcome = s.outcome := rfl

/-- The time that is stored is read as the elapsed time at storage resolution. -/
theorem Statistic.parse?_timeSplit (s : Statistic) :
    Duration.parse? s.timeSplit = some s.elapsed.truncate :=
  Duration.parse?_format_of_nonneg s.atResolution.elapsed_nonneg

namespace StoredStatistic

/-- A record decodes from its members. -/
theorem ofMembers?_toMembers (r : StoredStatistic) : ofMembers? r.toMembers = .ok r := by
  have hmode : modeOf (.int r.mode.toInt) = r.mode := by
    rw [modeOf, Text.toInt64?_eq_some_iff.2 rfl, Option.getD_some]
  exact congrArg (fun m => Except.ok { r with mode := m }) hmode

theorem read_toMembers (path : String) (r : StoredStatistic) : read path r.toMembers = .ok r := by
  rw [read, ofMembers?_toMembers]
  rfl

/-- The members of a record are read back from their text. -/
theorem parse?_print_toMembers (r : StoredStatistic) :
    Json.parse? (Json.obj r.toMembers).print = some (.obj r.toMembers) := by
  refine Json.parse?_print ⟨by decide, ?_, ?_⟩
  · simp only [Json.Sorted, toMembers, List.map_cons, List.map_nil]
    decide
  · have hmin := r.mode.minValue_le_toInt
    have hmax := r.mode.toInt_le
    have hlarge : Text.int64Max ≤ Text.uint64Max := by decide
    exact ⟨trivial, trivial, ⟨hmin, Int.le_trans hmax hlarge⟩, trivial, trivial, trivial, trivial⟩

/-- A record stands for the statistic that it was made of, at storage resolution. -/
theorem toStatistic_ofStatistic (s : Statistic) : (ofStatistic s).toStatistic = s.atResolution := by
  have hmax : s.elapsed.truncate.max Duration.zero = s.elapsed.truncate :=
    if_neg (Int.not_lt.2 s.atResolution.elapsed_nonneg)
  simp only [toStatistic, ofStatistic, Statistic.of, s.parse?_timeSplit, Option.getD_some, hmax,
    Statistic.atResolution]

/-- A statistic and the same at storage resolution are stored alike. -/
theorem ofStatistic_atResolution (s : Statistic) : ofStatistic s.atResolution = ofStatistic s := by
  have htime : s.atResolution.timeSplit = s.timeSplit :=
    congrArg Duration.format s.elapsed.truncate_truncate
  exact congrArg (fun text => { ofStatistic s with timeSplit := text }) htime

end StoredStatistic

end PluginKernel
