import PluginKernel.Instance.Timeline
import PluginKernel.Ledger.Storage

/-!
# What can be done to a ledger

A ledger is kept by whoever holds it: entries are recorded, with a time that is measured or given,
or read back from a store; the ledger is renamed, told whether to log as it goes, finished, logged
and persisted. Each of these leads to a ledger and logs something.
-/

namespace PluginKernel

namespace Ledger

/-- The coordinates of the last entry. There are none as long as there is no entry. -/
def context (l : Ledger) : Except StatisticError Milestone :=
  match l.lastMilestone? with
  | some m => .ok m
  | none => .error .emptyLedger

/-- Say whether entries are logged as they are recorded. -/
def setLogging (l : Ledger) (logsEntries : Bool) : Ledger := { l with logsEntries }

/-- Something that is done to a ledger. -/
inductive Operation (σ : Type) where
  /-- Record a milestone at a reading of the clock. -/
  | update (m : Milestone) (mode : Int64) (now : Nat)
  /-- Record a milestone with a time that somebody else has measured. -/
  | updateWithTime (m : Milestone) (mode : Int64) (elapsed : Duration)
  /-- Append what a store holds of a flow. -/
  | retrieve (filing : Filing) (flowGroup flowName : String) (store : σ)
  | rename (name : String)
  | setLogging (logsEntries : Bool)
  | finish
  /-- Log the entries as finishing does. -/
  | finishLog
  /-- Write the entries to a store. -/
  | persist (filing : Filing) (store : σ)

variable {σ : Type} [RecordStore σ]

/-- The ledger after an operation, and what the operation logs. -/
def perform (l : Ledger) : Operation σ → Ledger × List LogEvent
  | .update m mode now =>
    let s := m.statistic mode (l.elapsed now)
    (l.push s, l.pushEvents s)
  | .updateWithTime m mode elapsed =>
    let s := m.statistic mode elapsed
    (l.push s, l.pushEvents s)
  | .retrieve filing flowGroup flowName store =>
    let r := l.retrieving filing flowGroup flowName store
    (r.ledger, r.events)
  | .rename name => (l.rename name, [])
  | .setLogging logsEntries => (l.setLogging logsEntries, [])
  | .finish => (l.finish, l.finishEvents)
  | .finishLog => (l, l.finishEvents)
  | .persist filing store => (l, (l.persist filing store).events)

/-- The ledger after operations, one after the other, and what they log. -/
def performAll (l : Ledger) : List (Operation σ) → Ledger × List LogEvent
  | [] => (l, [])
  | op :: ops =>
    let first := l.perform op
    let rest := first.1.performAll ops
    (rest.1, first.2 ++ rest.2)

end Ledger

end PluginKernel
