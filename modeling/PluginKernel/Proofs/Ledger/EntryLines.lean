import Mathlib.Data.List.Forall2
import Mathlib.Data.List.Nodup
import PluginKernel.Proofs.Ledger.Growth

/-!
# How often an entry is logged

A ledger that logs as it goes logs an entry when it is recorded, and any other logs all its entries
when it is finished. Which of the two it is, is asked anew each time. So an entry is logged once as
long as the way of logging stays the same and the ledger is finished once. A ledger that is finished
again logs all of its entries again, and if the way of logging changes in between, an entry may be
logged in both ways or in none: `Ledger.count_loggedAll`.
-/

namespace PluginKernel

/-! ## Lines about entries -/

/-- A line of the log is about an entry: its circumstances have the names that those of an entry
have. -/
def LogEvent.isOfEntry (e : LogEvent) : Bool :=
  e.fields.map Prod.fst == ["ledger", "flow_group", "state_code", "elapsed"]

/-- The lines of a log that are about entries. -/
def entryLines (log : List LogEvent) : List LogEvent := log.filter LogEvent.isOfEntry

@[simp] theorem entryLines_append (log more : List LogEvent) :
    entryLines (log ++ more) = entryLines log ++ entryLines more := List.filter_append ..

/-- A line says an entry, in a warning exactly if the entry is a failure. -/
structure Statistic.SaidBy (s : Statistic) (e : LogEvent) : Prop where
  message : e.message = s.flowName ++ "-" ++ s.stateName
  fields : ∃ ledger, e.fields = [("ledger", ledger), ("flow_group", s.flowGroup),
    ("state_code", s.stateCode), ("elapsed", s.timeSplit)]
  warns : e.severity = .warn ↔ s.outcome = .failure
  informs : e.severity = .info ↔ s.outcome = .success

theorem Statistic.saidBy_logEvent (s : Statistic) (ledger : String) :
    s.SaidBy (s.logEvent ledger) := by
  have hseverity : (s.logEvent ledger).severity =
      if s.outcome == .failure then .warn else .info := rfl
  refine ⟨rfl, ⟨ledger, rfl⟩, ?_, ?_⟩ <;> rw [hseverity] <;> cases s.outcome <;> decide

/-- Lines are about the entries at these positions of a ledger, one after the other. -/
def Lines (entries : List Statistic) (positions : List Nat) (lines : List LogEvent) : Prop :=
  List.Forall₂ (fun n e => ∃ s, entries[n]? = some s ∧ s.SaidBy e) positions lines

namespace Lines

variable {entries : List Statistic} {positions positions' : List Nat} {lines lines' : List LogEvent}

theorem nil (entries : List Statistic) : Lines entries [] [] := List.Forall₂.nil

theorem append (h : Lines entries positions lines) (h' : Lines entries positions' lines') :
    Lines entries (positions ++ positions') (lines ++ lines') := List.rel_append h h'

/-- Entries stay where they are when others are appended. -/
theorem mono (h : Lines entries positions lines) (more : List Statistic) :
    Lines (entries ++ more) positions lines := by
  refine List.Forall₂.imp (fun n e hline => ?_) h
  obtain ⟨s, hs, hsaid⟩ := hline
  obtain ⟨hlt, -⟩ := List.getElem?_eq_some_iff.1 hs
  exact ⟨s, by rw [List.getElem?_append_left hlt, hs], hsaid⟩

/-- Lines are about entries that are there. -/
theorem lt_length (h : Lines entries positions lines) {n : Nat} (hn : n ∈ positions) :
    n < entries.length := by
  induction h with
  | nil => cases hn
  | cons hline _ ih =>
    obtain ⟨s, hs, -⟩ := hline
    rcases List.mem_cons.1 hn with rfl | hn
    · exact (List.getElem?_eq_some_iff.1 hs).1
    · exact ih hn

/-- All entries, one after the other. -/
theorem all (entries : List Statistic) (ledger : String) :
    Lines entries (List.range entries.length) (entries.map (Statistic.logEvent ledger)) := by
  refine List.forall₂_iff_get.2 ⟨by simp, fun n hn hn' => ?_⟩
  have hlt : n < entries.length := by simpa using hn
  refine ⟨entries[n], ?_, ?_⟩
  · simp [hlt]
  · simpa using Statistic.saidBy_logEvent entries[n] ledger

end Lines

namespace Ledger

variable {σ : Type} [RecordStore σ]

/-! ## What is logged of a store -/

theorem Gathers.entryLines_eq_nil {store : σ} {directory : String} {names : List String}
    {found : List Statistic} {events : List LogEvent}
    (h : Gathers store directory names found events) : entryLines events = [] := by
  induction h with
  | nil => rfl
  | directory _ _ ih => exact ih
  | name _ hhere _ ih =>
    rw [entryLines_append, ih]
    cases hhere <;> rfl

theorem entryLines_retrieving (l : Ledger) (filing : Filing) (flowGroup flowName : String)
    (store : σ) : entryLines (l.retrieving filing flowGroup flowName store).events = [] := by
  cases hlist : RecordStore.list store (filing.flowDirectory flowGroup flowName) with
  | error e =>
    rw [retrieving_of_unlisted l hlist]
    rfl
  | ok names =>
    obtain ⟨found, events, hfound, hall, -⟩ := retrieving_of_listed l hlist
    rw [hall]
    exact hfound.entryLines_eq_nil

theorem entryLines_persistEntry (filing : Filing) (p : Persisting σ) (s : Statistic) :
    entryLines (persistEntry filing p s).events = entryLines p.events := by
  unfold persistEntry
  dsimp only
  split
  · rfl
  · rw [entryLines_append]
    exact List.append_nil _

theorem entryLines_persist (l : Ledger) (filing : Filing) (store : σ) :
    entryLines (l.persist filing store).events = [] := by
  have hall : ∀ (ss : List Statistic) (p : Persisting σ),
      entryLines (ss.foldl (persistEntry filing) p).events = entryLines p.events := by
    intro ss
    induction ss with
    | nil => exact fun _ => rfl
    | cons s ss ih =>
      intro p
      rw [List.foldl_cons, ih, entryLines_persistEntry]
  exact hall l.statistics _

/-! ## What an operation logs -/

/-- The entries that an operation logs, by their positions in the ledger. -/
def logged (l : Ledger) : Operation σ → List Nat
  | .update .. | .updateWithTime .. => if l.logsEntries then [l.size] else []
  | .finish | .finishLog => if l.logsEntries then [] else List.range l.size
  | .retrieve .. | .rename _ | .setLogging _ | .persist .. => []

/-- The entries that operations log, one after the other. -/
def loggedAll (l : Ledger) : List (Operation σ) → List Nat
  | [] => []
  | op :: ops => l.logged op ++ (l.perform op).1.loggedAll ops

omit [RecordStore σ] in
theorem lines_push (l : Ledger) (s : Statistic) :
    Lines (l.push s).statistics (if l.logsEntries then [l.size] else [])
      (entryLines (l.pushEvents s)) := by
  rw [pushEvents]
  cases l.logsEntries with
  | false => exact .nil _
  | true =>
    refine .cons ⟨s, ?_, s.saidBy_logEvent l.name⟩ .nil
    rw [statistics_push, size, List.getElem?_concat_length]

/-- The lines that a ledger is logged with, if it does not log as it goes. -/
def lines (l : Ledger) : List LogEvent := l.statistics.map (Statistic.logEvent l.name)

omit [RecordStore σ] in
theorem entryLines_lines (l : Ledger) : entryLines l.lines = l.lines :=
  List.filter_eq_self.2 fun e he => by
    obtain ⟨s, -, rfl⟩ := List.mem_map.1 he
    rfl

omit [RecordStore σ] in
theorem finishEvents_eq (l : Ledger) : l.finishEvents = if l.logsEntries then [] else l.lines := rfl

omit [RecordStore σ] in
theorem lines_finish (l : Ledger) :
    Lines l.statistics (if l.logsEntries then [] else List.range l.size)
      (entryLines l.finishEvents) := by
  rw [finishEvents_eq]
  cases l.logsEntries with
  | true => exact .nil _
  | false =>
    rw [if_neg Bool.false_ne_true, if_neg Bool.false_ne_true, entryLines_lines]
    exact .all l.statistics l.name

theorem lines_perform (l : Ledger) (op : Operation σ) :
    Lines (l.perform op).1.statistics (l.logged op) (entryLines (l.perform op).2) := by
  cases op with
  | update m mode now => exact l.lines_push _
  | updateWithTime m mode elapsed => exact l.lines_push _
  | retrieve filing flowGroup flowName store =>
    rw [logged, perform, entryLines_retrieving]
    exact .nil _
  | rename name => exact .nil _
  | setLogging logsEntries => exact .nil _
  | finish => exact l.lines_finish
  | finishLog => exact l.lines_finish
  | persist filing store =>
    rw [logged, perform, entryLines_persist]
    exact .nil _

theorem lines_performAll (l : Ledger) (ops : List (Operation σ)) :
    Lines (l.performAll ops).1.statistics (l.loggedAll ops) (entryLines (l.performAll ops).2) := by
  induction ops generalizing l with
  | nil => exact .nil _
  | cons op ops ih =>
    obtain ⟨more, -, hmore⟩ := (l.perform op).1.statistics_performAll ops
    rw [loggedAll, performAll, entryLines_append]
    refine .append ?_ (ih (l.perform op).1)
    rw [hmore]
    exact (l.lines_perform op).mono more

/-! ## How often an entry is logged -/

/-- An operation records an entry that was not there before. -/
def Operation.isRecording : Operation σ → Bool
  | .update .. | .updateWithTime .. => true
  | _ => false

/-- An operation logs all entries, unless the ledger logs as it goes. -/
def Operation.isFinishing : Operation σ → Bool
  | .finish | .finishLog => true
  | _ => false

/-- How often operations finish a ledger while it does not log as it goes. -/
def finishings (l : Ledger) : List (Operation σ) → Nat
  | [] => 0
  | op :: ops =>
    (if op.isFinishing && !l.logsEntries then 1 else 0) + (l.perform op).1.finishings ops

omit [RecordStore σ] in
theorem size_push (l : Ledger) (s : Statistic) : (l.push s).size = l.size + 1 := by
  rw [size, statistics_push, List.length_append, List.length_singleton]
  rfl

theorem size_le_size_perform (l : Ledger) (op : Operation σ) : l.size ≤ (l.perform op).1.size := by
  obtain ⟨added, -, hadded⟩ := l.statistics_perform op
  rw [size, size, hadded, List.length_append]
  exact Nat.le_add_right _ _

theorem loggedAll_append (l : Ledger) (before after : List (Operation σ)) :
    l.loggedAll (before ++ after) =
      l.loggedAll before ++ (l.performAll before).1.loggedAll after := by
  induction before generalizing l with
  | nil => rfl
  | cons op before ih =>
    rw [List.cons_append, loggedAll, ih, loggedAll, List.append_assoc]
    rfl

/-- What is logged is about entries that are there. -/
theorem lt_size_of_mem_loggedAll {l : Ledger} {ops : List (Operation σ)} {n : Nat}
    (h : n ∈ l.loggedAll ops) : n < (l.performAll ops).1.size :=
  (l.lines_performAll ops).lt_length h

omit [RecordStore σ] in
theorem count_range {m n : Nat} (h : n < m) : (List.range m).count n = 1 :=
  List.count_eq_one_of_mem List.nodup_range (List.mem_range.2 h)

omit [RecordStore σ] in
/-- An entry that is there is logged whenever the ledger is finished, unless it logs as it goes. -/
theorem count_logged_of_lt {l : Ledger} {n : Nat} (h : n < l.size) (op : Operation σ) :
    (l.logged op).count n = if op.isFinishing && !l.logsEntries then 1 else 0 := by
  have hne : l.size ≠ n := by omega
  cases op <;> cases hlogs : l.logsEntries <;>
    simp [logged, Operation.isFinishing, hlogs, count_range h, hne]

/-- An operation logs what it records, if the ledger logs as it goes. -/
theorem count_logged_of_appended {l : Ledger} {op : Operation σ} {n : Nat} (hle : l.size ≤ n)
    (hlt : n < (l.perform op).1.size) :
    (l.logged op).count n = if op.isRecording && l.logsEntries then 1 else 0 := by
  have hpushed : ∀ s, n < (l.push s).size → n = l.size := by
    intro s hn
    rw [size_push] at hn
    exact Nat.le_antisymm (Nat.le_of_lt_succ hn) hle
  cases op with
  | update m mode now =>
    rw [hpushed _ hlt]
    cases hlogs : l.logsEntries <;> simp [logged, Operation.isRecording, hlogs]
  | updateWithTime m mode elapsed =>
    rw [hpushed _ hlt]
    cases hlogs : l.logsEntries <;> simp [logged, Operation.isRecording, hlogs]
  | finish => exact absurd hlt (Nat.not_lt.2 hle)
  | finishLog => exact absurd hlt (Nat.not_lt.2 hle)
  | _ => rfl

theorem count_loggedAll_of_lt {l : Ledger} {n : Nat} (h : n < l.size) (ops : List (Operation σ)) :
    (l.loggedAll ops).count n = l.finishings ops := by
  induction ops generalizing l with
  | nil => rfl
  | cons op ops ih =>
    rw [loggedAll, List.count_append, count_logged_of_lt h, finishings,
      ih (Nat.lt_of_lt_of_le h (l.size_le_size_perform op))]

/-- An entry that some operation has appended is logged then, if the ledger logs as it goes, and
whenever the ledger is finished later without logging as it goes. -/
theorem count_loggedAll (l : Ledger) (before : List (Operation σ)) (op : Operation σ)
    (after : List (Operation σ)) {n : Nat} (hle : (l.performAll before).1.size ≤ n)
    (hlt : n < ((l.performAll before).1.perform op).1.size) :
    (l.loggedAll (before ++ op :: after)).count n =
      (if op.isRecording && (l.performAll before).1.logsEntries then 1 else 0) +
        ((l.performAll before).1.perform op).1.finishings after := by
  have hbefore : (l.loggedAll before).count n = 0 :=
    List.count_eq_zero.2 fun hmem => Nat.not_lt.2 hle (lt_size_of_mem_loggedAll hmem)
  rw [loggedAll_append, List.count_append, hbefore, Nat.zero_add, loggedAll, List.count_append,
    count_logged_of_appended hle hlt, count_loggedAll_of_lt hlt]

/-- If a ledger logs in the same way whenever it is finished, finishing it logs an entry always or
never. -/
theorem finishings_of_steady {l : Ledger} {ops : List (Operation σ)} {logsEntries : Bool}
    (h : ∀ between op later, ops = between ++ op :: later → op.isFinishing = true →
      (l.performAll between).1.logsEntries = logsEntries) :
    l.finishings ops = if logsEntries then 0 else ops.countP Operation.isFinishing := by
  induction ops generalizing l with
  | nil => cases logsEntries <;> rfl
  | cons op ops ih =>
    have hrest := ih (l := (l.perform op).1) fun between op' later hops =>
      h (op :: between) op' later (congrArg (op :: ·) hops)
    rw [finishings, hrest, List.countP_cons]
    cases hfinishing : op.isFinishing with
    | false => simp
    | true =>
      have hhere : l.logsEntries = logsEntries := h [] op ops rfl hfinishing
      cases logsEntries <;> simp [hhere, Nat.add_comm]

theorem size_perform_of_isRecording (l : Ledger) {op : Operation σ} (h : op.isRecording = true) :
    (l.perform op).1.size = l.size + 1 := by
  cases op with
  | update m mode now => exact l.size_push _
  | updateWithTime m mode elapsed => exact l.size_push _
  | _ => cases h

/-- An entry is logged as it is recorded, or else whenever the ledger is finished later, if the
ledger then logs in the same way as when the entry was recorded. -/
theorem count_loggedAll_of_steady (l : Ledger) (before : List (Operation σ)) {op : Operation σ}
    {after : List (Operation σ)} (hop : op.isRecording = true)
    (hsteady : ∀ between fin later, after = between ++ fin :: later → fin.isFinishing = true →
      (((l.performAll before).1.perform op).1.performAll between).1.logsEntries =
        (l.performAll before).1.logsEntries) :
    (l.loggedAll (before ++ op :: after)).count (l.performAll before).1.size =
      if (l.performAll before).1.logsEntries then 1 else after.countP Operation.isFinishing := by
  have hlt : (l.performAll before).1.size < ((l.performAll before).1.perform op).1.size := by
    rw [size_perform_of_isRecording _ hop]
    exact Nat.lt_succ_self _
  rw [l.count_loggedAll before op after (Nat.le_refl _) hlt, finishings_of_steady hsteady, hop]
  cases (l.performAll before).1.logsEntries <;> simp

/-! ## The snapshots of a run -/

/-- Snapshots of one run, and all that was recorded in it: each snapshot has one entry more than
the one before. -/
inductive Run : List Ledger → List Statistic → Prop where
  | opens {l : Ledger} {s : Statistic} (h : l.statistics = [s]) : Run [l] [s]
  | goesOn {ls : List Ledger} {entries : List Statistic} {l : Ledger} {s : Statistic}
      (hrun : Run ls entries) (h : l.statistics = entries ++ [s]) : Run (ls ++ [l]) (entries ++ [s])

theorem Run.statistics_getLast {ls : List Ledger} {entries : List Statistic} (h : Run ls entries)
    {l : Ledger} (hl : ls.getLast? = some l) : l.statistics = entries := by
  cases h with
  | opens h =>
    cases hl
    exact h
  | goesOn _ h =>
    rw [List.getLast?_concat] at hl
    cases hl
    exact h

/-- If all snapshots of a run are logged, an entry is logged as often as there are snapshots since
it was recorded. -/
theorem Run.lines {ls : List Ledger} {entries : List Statistic} (h : Run ls entries) :
    ∃ positions, Lines entries positions (ls.flatMap Ledger.lines) ∧
      ∀ n < entries.length, positions.count n = entries.length - n := by
  have hlines : ∀ {l : Ledger} {entries : List Statistic}, l.statistics = entries →
      Lines entries (List.range entries.length) l.lines := by
    rintro l _ rfl
    exact .all l.statistics l.name
  induction h with
  | opens h =>
    refine ⟨List.range 1, ?_, fun n hn => ?_⟩
    · simpa using hlines h
    · obtain rfl : n = 0 := by simpa using hn
      rfl
  | @goesOn ls entries l s _ h ih =>
    obtain ⟨positions, hpositions, hcount⟩ := ih
    refine ⟨positions ++ List.range (entries ++ [s]).length, ?_, fun n hn => ?_⟩
    · rw [List.flatMap_append, List.flatMap_singleton]
      exact (hpositions.mono [s]).append (hlines h)
    · rw [List.count_append, count_range hn]
      rw [List.length_append, List.length_singleton] at hn ⊢
      rcases Nat.lt_or_ge n entries.length with hlt | hge
      · rw [hcount n hlt]
        omega
      · have hnone : positions.count n = 0 :=
          List.count_eq_zero.2 fun hmem => Nat.not_lt.2 hge (hpositions.lt_length hmem)
        omega

end Ledger

end PluginKernel
