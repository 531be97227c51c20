import PluginKernel.Ledger.Basic
import PluginKernel.Ledger.Path
import PluginKernel.Ledger.Record
import PluginKernel.Store.Basic

/-!
# Ledgers in a store

Persisting a ledger writes its entries one after the other, whatever becomes of each. Two entries of
one flow with one code share a path, so the later one stays. Retrieving a flow reads the records of
its directory in the order of their names and appends those that are well formed; directories and
records that have vanished are passed over, and what cannot be read is logged.
-/

namespace PluginKernel

/-- What became of the entries of a ledger. -/
structure WriteCount where
  /-- How many were written. -/
  written : Nat := 0
  /-- How many could not be written. -/
  failed : Nat := 0
deriving DecidableEq, Repr

/-- How far writing a ledger has come. -/
structure Persisting (σ : Type) where
  store : σ
  /-- What became of the entries so far. -/
  summary : WriteCount
  /-- What was logged so far. -/
  events : List LogEvent

namespace Ledger

variable {σ : Type} [RecordStore σ]

/-- Where an entry is filed. -/
def pathOf (filing : Filing) (s : Statistic) : String :=
  filing.recordPath s.flowGroup s.flowName s.stateCode

/-- What is logged when a call on the store fails. -/
def failureEvent (message path : String) (e : StatisticError) : LogEvent :=
  .warn message [("path", path), ("error", e.message)]

/-- Write one entry. -/
def persistEntry (filing : Filing) (p : Persisting σ) (s : Statistic) : Persisting σ :=
  let path := pathOf filing s
  match RecordStore.write p.store path (StoredStatistic.ofStatistic s).toMembers with
  | .ok store => { p with store, summary := { p.summary with written := p.summary.written + 1 } }
  | .error e =>
    { p with
      summary := { p.summary with failed := p.summary.failed + 1 }
      events := p.events ++ [failureEvent "error writing dataflow statistic" path e] }

/-- Write all entries in order. -/
def persist (l : Ledger) (filing : Filing) (store : σ) : Persisting σ :=
  l.statistics.foldl (persistEntry filing) ⟨store, {}, []⟩

/-- The statistic stored under a name in a directory: nothing if it has vanished, and what to log if
it cannot be read. -/
def readEntry (store : σ) (directory name : String) : Except LogEvent (Option Statistic) :=
  let path := directory ++ "/" ++ name
  let report := failureEvent "error reading dataflow statistic" path
  match RecordStore.read store path with
  | .error e => .error (report e)
  | .ok none => .ok none
  | .ok (some members) =>
    match StoredStatistic.read path members with
    | .error e => .error (report e)
    | .ok record => .ok (some record.toStatistic)

/-- Whether a child of a directory is a directory itself. -/
def isDirectory (name : String) : Bool := name.toList.getLast? == some '/'

theorem isDirectory_of_notMem {name : String} (h : '/' ∉ name.toList) :
    isDirectory name = false := by
  refine beq_eq_false_iff_ne.2 fun hlast => ?_
  exact h (List.mem_of_getLast? hlast)

/-- The statistics stored under some names, and what is logged on the way. -/
def readEntries (store : σ) (directory : String) (names : List String) :
    List Statistic × List LogEvent :=
  let results := (names.filter (!isDirectory ·)).map (readEntry store directory)
  (results.filterMap fun r => match r with | .ok s => s | .error _ => none,
    results.filterMap fun r => match r with | .ok _ => none | .error e => some e)

/-- What retrieving a flow finds, and what is logged on the way. -/
def stored (filing : Filing) (flowGroup flowName : String) (store : σ) :
    List Statistic × List LogEvent :=
  let directory := filing.flowDirectory flowGroup flowName
  match RecordStore.list store directory with
  | .error e => ([], [failureEvent "error listing dataflow statistics" directory e])
  | .ok names => readEntries store directory names

/-- Append what is stored of a flow. -/
def retrieve (l : Ledger) (filing : Filing) (flowGroup flowName : String) (store : σ) : Ledger :=
  { l with statistics := l.statistics ++ (stored filing flowGroup flowName store).1 }

/-- How far retrieving a flow has come. -/
structure Retrieving where
  ledger : Ledger
  /-- How many entries were read so far. -/
  read : Nat := 0
  /-- What was logged so far. -/
  events : List LogEvent := []

/-- Append what is stored under a name in a directory. -/
def retrieveEntry (store : σ) (directory : String) (r : Retrieving) (name : String) : Retrieving :=
  match readEntry store directory name with
  | .error e => { r with events := r.events ++ [e] }
  | .ok none => r
  | .ok (some s) => { r with ledger := r.ledger.push s, read := r.read + 1 }

/-- Append what is stored of a flow, one entry after the other, and count the entries. -/
def retrieving (l : Ledger) (filing : Filing) (flowGroup flowName : String) (store : σ) :
    Retrieving :=
  let directory := filing.flowDirectory flowGroup flowName
  match RecordStore.list store directory with
  | .error e =>
    { ledger := l, events := [failureEvent "error listing dataflow statistics" directory e] }
  | .ok names =>
    (names.filter (!isDirectory ·)).foldl (retrieveEntry store directory) { ledger := l }

end Ledger

end PluginKernel
