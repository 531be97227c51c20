import PluginKernel.Ledger.Storage
import PluginKernel.Proofs.Ledger.ForeignRecords

/-!
# Retrieving from any store

A store may refuse to list a directory. If it lists it, each name stands for one of five things: it
is a directory itself, nothing is found under it any more, it cannot be read, what is found is no
record, or it is a record. `Yields` and `Gathers` say what becomes of a name in each of the five
cases, and `retrieve_faithful` that this is what retrieving does, whatever a store answers.
-/

namespace PluginKernel.Ledger

open StoredStatistic

variable {σ : Type} [RecordStore σ]

/-- What is found at a path where no directory is, and what is logged about it. -/
inductive Yields (store : σ) (path : String) : List Statistic → List LogEvent → Prop where
  /-- Nothing is there any more. -/
  | vanished (hread : RecordStore.read store path = .ok none) : Yields store path [] []
  | unreadable {e : StatisticError} (hread : RecordStore.read store path = .error e) :
      Yields store path [] [failureEvent "error reading dataflow statistic" path e]
  /-- One of the five texts is not there. -/
  | malformed {members : Assoc Json} {cause : DecodeError}
      (hread : RecordStore.read store path = .ok (some members)) (htexts : ¬ HasTexts members) :
      Yields store path [] [failureEvent "error reading dataflow statistic" path
        (.malformedRecord path (.undecodable cause))]
  | record {members : Assoc Json} {r : StoredStatistic}
      (hread : RecordStore.read store path = .ok (some members)) (hr : CarriedBy members r) :
      Yields store path [r.toStatistic] []

/-- What is found under the names that a store has listed, and what is logged on the way. -/
inductive Gathers (store : σ) (directory : String) :
    List String → List Statistic → List LogEvent → Prop where
  | nil : Gathers store directory [] [] []
  /-- A directory is passed over. -/
  | directory {name : String} {names : List String} {found : List Statistic}
      {events : List LogEvent} (hname : isDirectory name = true)
      (hrest : Gathers store directory names found events) :
      Gathers store directory (name :: names) found events
  | name {name : String} {names : List String} {here found : List Statistic}
      {notes events : List LogEvent} (hname : isDirectory name = false)
      (hhere : Yields store (directory ++ "/" ++ name) here notes)
      (hrest : Gathers store directory names found events) :
      Gathers store directory (name :: names) (here ++ found) (notes ++ events)

/-! ## One name -/

/-- What reading a name adds to the ledger and to the log. -/
def addedBy : Except LogEvent (Option Statistic) → List Statistic × List LogEvent
  | .error e => ([], [e])
  | .ok none => ([], [])
  | .ok (some s) => ([s], [])

theorem yields_readEntry (store : σ) (directory name : String) :
    Yields store (directory ++ "/" ++ name) (addedBy (readEntry store directory name)).1
      (addedBy (readEntry store directory name)).2 := by
  cases hread : RecordStore.read store (directory ++ "/" ++ name) with
  | error e =>
    simp only [readEntry, hread]
    exact .unreadable hread
  | ok answer =>
    cases answer with
    | none =>
      simp only [readEntry, hread]
      exact .vanished hread
    | some members =>
      by_cases htexts : HasTexts members
      · obtain ⟨r, hr⟩ := htexts.exists_carriedBy
        simp only [readEntry, hread, read_eq_ok_iff.2 hr]
        exact .record hread hr
      · obtain ⟨cause, hcause⟩ := read_eq_error (directory ++ "/" ++ name) htexts
        simp only [readEntry, hread, hcause]
        exact .malformed hread htexts

/-- How far retrieving has come after some entries and events more. -/
def Retrieving.plus (r : Retrieving) (found : List Statistic) (events : List LogEvent) :
    Retrieving where
  ledger := { r.ledger with statistics := r.ledger.statistics ++ found }
  read := r.read + found.length
  events := r.events ++ events

theorem Retrieving.plus_nil (r : Retrieving) : r.plus [] [] = r := by
  simp [plus]

theorem Retrieving.plus_plus (r : Retrieving) (here found : List Statistic)
    (notes events : List LogEvent) :
    (r.plus here notes).plus found events = r.plus (here ++ found) (notes ++ events) := by
  simp [plus, Nat.add_assoc]

theorem retrieveEntry_eq (store : σ) (directory name : String) (r : Retrieving) :
    retrieveEntry store directory r name =
      r.plus (addedBy (readEntry store directory name)).1
        (addedBy (readEntry store directory name)).2 := by
  unfold retrieveEntry
  split
  next e he => simp [he, addedBy, Retrieving.plus]
  next hnone => rw [hnone, addedBy, Retrieving.plus_nil]
  next s hs => simp [hs, addedBy, Retrieving.plus, push]

/-! ## All names -/

theorem readEntries_cons (store : σ) (directory name : String) (names : List String) :
    readEntries store directory (name :: names) =
      if isDirectory name then readEntries store directory names
      else
        ((addedBy (readEntry store directory name)).1 ++ (readEntries store directory names).1,
          (addedBy (readEntry store directory name)).2 ++
            (readEntries store directory names).2) := by
  cases hname : isDirectory name with
  | true => simp [readEntries, hname]
  | false =>
    rcases hentry : readEntry store directory name with e | _ | s <;>
      simp [readEntries, hname, hentry, addedBy]

theorem gathers_readEntries (store : σ) (directory : String) (names : List String) :
    Gathers store directory names (readEntries store directory names).1
      (readEntries store directory names).2 := by
  induction names with
  | nil => exact .nil
  | cons name names ih =>
    rw [readEntries_cons]
    cases hname : isDirectory name with
    | true => exact .directory hname ih
    | false => exact .name hname (yields_readEntry store directory name) ih

/-- Taking in one name after the other comes to what is found under all of them. -/
theorem foldl_retrieveEntry (store : σ) (directory : String) (names : List String)
    (r : Retrieving) :
    (names.filter (!isDirectory ·)).foldl (retrieveEntry store directory) r =
      r.plus (readEntries store directory names).1 (readEntries store directory names).2 := by
  induction names generalizing r with
  | nil => exact r.plus_nil.symm
  | cons name names ih =>
    rw [readEntries_cons]
    cases hname : isDirectory name with
    | true =>
      rw [List.filter_cons_of_neg (by simp [hname]), ih]
      rfl
    | false =>
      rw [List.filter_cons_of_pos (by simp [hname]), List.foldl_cons, ih, retrieveEntry_eq,
        Retrieving.plus_plus]
      rfl

section

variable {filing : Filing} {flowGroup flowName : String} {store : σ}

theorem retrieving_of_unlisted {e : StatisticError} (l : Ledger)
    (hlist : RecordStore.list store (filing.flowDirectory flowGroup flowName) = .error e) :
    l.retrieving filing flowGroup flowName store =
      ⟨l, 0, [failureEvent "error listing dataflow statistics"
        (filing.flowDirectory flowGroup flowName) e]⟩ := by
  simp only [retrieving, hlist]

theorem retrieving_of_listed {names : List String} (l : Ledger)
    (hlist : RecordStore.list store (filing.flowDirectory flowGroup flowName) = .ok names) :
    ∃ found events, Gathers store (filing.flowDirectory flowGroup flowName) names found events ∧
      l.retrieving filing flowGroup flowName store =
        ⟨{ l with statistics := l.statistics ++ found }, found.length, events⟩ ∧
      stored filing flowGroup flowName store = (found, events) := by
  refine ⟨_, _, gathers_readEntries store _ names, ?_, by simp only [stored, hlist]⟩
  simp only [retrieving, hlist, foldl_retrieveEntry, Retrieving.plus, Nat.zero_add,
    List.nil_append]

/-- Entries that are taken in one by one are those that are found and appended all at once. -/
theorem retrieving_eq (l : Ledger) (filing : Filing) (flowGroup flowName : String) (store : σ) :
    l.retrieving filing flowGroup flowName store =
      ⟨l.retrieve filing flowGroup flowName store,
        (stored filing flowGroup flowName store).1.length,
        (stored filing flowGroup flowName store).2⟩ := by
  cases hlist : RecordStore.list store (filing.flowDirectory flowGroup flowName) with
  | error e =>
    rw [retrieving_of_unlisted l hlist]
    simp [retrieve, stored, hlist]
  | ok names =>
    obtain ⟨found, events, -, hall, hstored⟩ := retrieving_of_listed l hlist
    rw [hall, retrieve, hstored]

end

/-- Whatever a store answers: if it does not list the directory of a flow, the ledger stays as it is
and nothing is counted. If it does, the entries of the ledger stay in place; behind them come, in
the order of the names, the statistics of the records that are found under names of no directory,
whatever is found under other names before them; as many are counted; and nothing else about the
ledger changes. To take them in one by one and to append all that is stored is the same. -/
theorem retrieve_faithful (l : Ledger) (filing : Filing) (flowGroup flowName : String)
    (store : σ) :
    l.retrieving filing flowGroup flowName store =
        ⟨l.retrieve filing flowGroup flowName store,
          (stored filing flowGroup flowName store).1.length,
          (stored filing flowGroup flowName store).2⟩ ∧
      match RecordStore.list store (filing.flowDirectory flowGroup flowName) with
      | .error e =>
        l.retrieving filing flowGroup flowName store =
          ⟨l, 0, [failureEvent "error listing dataflow statistics"
            (filing.flowDirectory flowGroup flowName) e]⟩
      | .ok names =>
        ∃ found events,
          Gathers store (filing.flowDirectory flowGroup flowName) names found events ∧
          l.retrieving filing flowGroup flowName store =
            ⟨{ l with statistics := l.statistics ++ found }, found.length, events⟩ := by
  refine ⟨retrieving_eq l filing flowGroup flowName store, ?_⟩
  cases hlist : RecordStore.list store (filing.flowDirectory flowGroup flowName) with
  | error e => exact retrieving_of_unlisted l hlist
  | ok names =>
    obtain ⟨found, events, hfound, hall, -⟩ := retrieving_of_listed l hlist
    exact ⟨found, events, hfound, hall⟩

end PluginKernel.Ledger
