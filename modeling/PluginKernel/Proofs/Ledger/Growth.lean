import PluginKernel.Ledger.Operation
import PluginKernel.Proofs.Ledger.Gathering
import PluginKernel.Proofs.Text.Splitting

/-!
# Ledgers only grow

Whatever is done to a ledger, its entries stay where they are, and what is appended behind them is
what was recorded or read: `performAll_appends`. Each entry is sound, wherever it comes from: its
time is not negative and is stored as a text that can be read, and it counts as a failure exactly if
its mode or the name of its state says so.
-/

namespace PluginKernel

/-! ## Entries -/

theorem Outcome.classify_eq_failure_iff {mode : Int64} {stateName : String} :
    classify mode stateName = .failure ↔
      mode = 2 ∨ "Failure".toList <:+: stateName.toList := by
  have hmark : (mode == failureMode || Text.contains failureMark stateName) = true ↔
      mode = 2 ∨ "Failure".toList <:+: stateName.toList := by
    rw [Bool.or_eq_true, beq_iff_eq, Text.contains_iff]
    rfl
  rw [← hmark, classify]
  split
  next h => simp [h]
  next h => simp [h]

namespace Statistic

/-- What every entry of a ledger promises. -/
structure IsSound (s : Statistic) : Prop where
  elapsed_nonneg : 0 ≤ s.elapsed.nanos
  failure_iff : s.outcome = .failure ↔ s.mode = 2 ∨ "Failure".toList <:+: s.stateName.toList
  /-- The time that is stored is the elapsed time at storage resolution. -/
  timeSplit : Duration.parse? s.timeSplit = some s.elapsed.truncate

theorem isSound (s : Statistic) : s.IsSound :=
  ⟨s.elapsed_nonneg, Outcome.classify_eq_failure_iff, s.parse?_timeSplit⟩

/-- An entry is of a milestone, with a mode and a time, where a negative time counts as none. -/
structure Records (s : Statistic) (m : Milestone) (mode : Int64) (elapsed : Duration) : Prop where
  milestone : s.milestone = m
  mode : s.mode = mode
  elapsed : s.elapsed.nanos = max 0 elapsed.nanos

theorem records_of (m : Milestone) (mode : Int64) (elapsed : Duration) :
    (m.statistic mode elapsed).Records m mode elapsed := by
  refine ⟨rfl, rfl, ?_⟩
  show (elapsed.max Duration.zero).nanos = max 0 elapsed.nanos
  unfold Duration.max
  split
  next hneg => exact (max_eq_left (Int.le_of_lt hneg)).symm
  next hpos => exact (max_eq_right (Int.not_lt.1 hpos)).symm

end Statistic

namespace Ledger

variable {σ : Type} [RecordStore σ]

/-- What an operation appends to a ledger. -/
inductive Appends (l : Ledger) : Operation σ → List Statistic → Prop where
  | update {m : Milestone} {mode : Int64} {now : Nat} {s : Statistic}
      (h : s.Records m mode (l.elapsed now)) : Appends l (.update m mode now) [s]
  | updateWithTime {m : Milestone} {mode : Int64} {elapsed : Duration} {s : Statistic}
      (h : s.Records m mode elapsed) : Appends l (.updateWithTime m mode elapsed) [s]
  /-- The store does not list the directory of the flow. -/
  | unlisted {filing : Filing} {flowGroup flowName : String} {store : σ} {e : StatisticError}
      (h : RecordStore.list store (filing.flowDirectory flowGroup flowName) = .error e) :
      Appends l (.retrieve filing flowGroup flowName store) []
  | retrieve {filing : Filing} {flowGroup flowName : String} {store : σ} {names : List String}
      {found : List Statistic} {events : List LogEvent}
      (hlist : RecordStore.list store (filing.flowDirectory flowGroup flowName) = .ok names)
      (hfound : Gathers store (filing.flowDirectory flowGroup flowName) names found events) :
      Appends l (.retrieve filing flowGroup flowName store) found
  | rename (name : String) : Appends l (.rename name) []
  | setLogging (logsEntries : Bool) : Appends l (.setLogging logsEntries) []
  | finish : Appends l .finish []
  | finishLog : Appends l .finishLog []
  | persist (filing : Filing) (store : σ) : Appends l (.persist filing store) []

/-- What operations append to a ledger, one after the other. -/
inductive AppendsAll : Ledger → List (Operation σ) → List Statistic → Prop where
  | nil (l : Ledger) : AppendsAll l [] []
  | cons {l : Ledger} {op : Operation σ} {ops : List (Operation σ)} {here rest : List Statistic}
      (hhere : l.Appends op here) (hrest : (l.perform op).1.AppendsAll ops rest) :
      AppendsAll l (op :: ops) (here ++ rest)

theorem statistics_perform (l : Ledger) (op : Operation σ) :
    ∃ added, l.Appends op added ∧ (l.perform op).1.statistics = l.statistics ++ added := by
  cases op with
  | update m mode now => exact ⟨_, .update (Statistic.records_of m mode _), rfl⟩
  | updateWithTime m mode elapsed =>
    exact ⟨_, .updateWithTime (Statistic.records_of m mode elapsed), rfl⟩
  | retrieve filing flowGroup flowName store =>
    cases hlist : RecordStore.list store (filing.flowDirectory flowGroup flowName) with
    | error e =>
      refine ⟨[], .unlisted hlist, ?_⟩
      rw [perform, retrieving_of_unlisted l hlist, List.append_nil]
    | ok names =>
      obtain ⟨found, events, hfound, hall, -⟩ := retrieving_of_listed l hlist
      refine ⟨found, .retrieve hlist hfound, ?_⟩
      rw [perform, hall]
  | rename name => exact ⟨[], .rename name, (List.append_nil _).symm⟩
  | setLogging logsEntries => exact ⟨[], .setLogging logsEntries, (List.append_nil _).symm⟩
  | finish => exact ⟨[], .finish, (List.append_nil _).symm⟩
  | finishLog => exact ⟨[], .finishLog, (List.append_nil _).symm⟩
  | persist filing store => exact ⟨[], .persist filing store, (List.append_nil _).symm⟩

theorem statistics_performAll (l : Ledger) (ops : List (Operation σ)) :
    ∃ added, l.AppendsAll ops added ∧
      (l.performAll ops).1.statistics = l.statistics ++ added := by
  induction ops generalizing l with
  | nil => exact ⟨[], .nil l, (List.append_nil _).symm⟩
  | cons op ops ih =>
    obtain ⟨here, hhere, hfirst⟩ := l.statistics_perform op
    obtain ⟨rest, hrest, hlast⟩ := ih (l.perform op).1
    refine ⟨here ++ rest, .cons hhere hrest, ?_⟩
    rw [performAll, hlast, hfirst, List.append_assoc]

theorem context_eq_ok_iff {l : Ledger} {m : Milestone} :
    l.context = .ok m ↔ ∃ s, l.statistics.getLast? = some s ∧ s.milestone = m := by
  unfold context lastMilestone?
  cases l.statistics.getLast? <;> simp

theorem context_eq_error_iff {l : Ledger} :
    l.context = .error .emptyLedger ↔ l.statistics = [] := by
  unfold context lastMilestone?
  rw [← List.getLast?_eq_none_iff]
  cases l.statistics.getLast? <;> simp

/-- Whatever is done to a new ledger: at each moment its entries are all that was appended so far,
and whatever is done afterwards leaves them in place and appends to them. All entries are sound. The
coordinates of the ledger are those of the last entry that was appended, and there are none exactly
if none was. -/
theorem performAll_appends (name : String) (logsEntries : Bool) (opened : Nat)
    (before after : List (Operation σ)) :
    let start := new name logsEntries opened
    let now := (start.performAll before).1
    let later := (now.performAll after).1
    ∃ entries more, start.AppendsAll before entries ∧ now.AppendsAll after more ∧
      now.statistics = entries ∧ later.statistics = entries ++ more ∧
      (∀ s ∈ entries ++ more, s.IsSound) ∧
      (∀ m, later.context = .ok m ↔
        ∃ s, (entries ++ more).getLast? = some s ∧ s.milestone = m) ∧
      (later.context = .error .emptyLedger ↔ entries ++ more = []) := by
  intro start now later
  obtain ⟨entries, hentries, hnow⟩ := start.statistics_performAll before
  obtain ⟨more, hmore, hlater⟩ := now.statistics_performAll after
  have hnow : now.statistics = entries := hnow
  rw [hnow] at hlater
  refine ⟨entries, more, hentries, hmore, hnow, hlater, fun s _ => s.isSound, fun m => ?_, ?_⟩
  · rw [context_eq_ok_iff, hlater]
  · rw [context_eq_error_iff, hlater]

end Ledger

end PluginKernel
