import PluginKernel.Proofs.Instance.Chronicle
import PluginKernel.Proofs.Instance.Footprint
import PluginKernel.Proofs.Ledger.EntryLines

/-!
# How often a run logs its entries

The ledger of a run does not log as it goes, and it is finished anew whenever something is recorded.
So the lines about entries are those of the snapshots that were taken, in their order, and each
snapshot is logged as a whole. What was recorded first is therefore logged again with everything
that is recorded later in the same run: `Run.lines`.
-/

namespace PluginKernel

variable {σ : Type}

/-! ## What a turn logs -/

theorem Ledger.entryLines_recordEvents {l : Ledger} (h : l.logsEntries = false) (name : String)
    (m : Milestone) (mode : Int64) (now : Nat) :
    entryLines (l.recordEvents name m mode now) = (l.record name m mode now).lines := by
  have hpush : ∀ s, l.pushEvents s = [] := fun s => by rw [pushEvents, h]; rfl
  have hsame : (l.record name m mode now).logsEntries = false := h
  rw [recordEvents, hpush, List.nil_append, finishEvents_eq, hsame, if_neg Bool.false_ne_true,
    entryLines_lines]

theorem Setup.entryLines_bindEvents (setup : Setup) : entryLines setup.bindEvents = [] := by
  rw [bindEvents]
  split <;> rfl

namespace Task

/-- The snapshot that a task has in hand and had not before. -/
def taken? (task next : Task) : Option Ledger :=
  match task.inHand with
  | some _ => none
  | none => next.inHand

/-- A task logs the entries of the snapshot that it takes and says nothing else about entries. The
live ledger does not log as it goes. -/
structure LogsTaken (s : PluginState σ) (task : Task) (s' : PluginState σ) (next : Task) :
    Prop where
  log : entryLines s'.log =
    entryLines s.log ++ (taken? task next).toList.flatMap Ledger.lines
  quiet : ∀ l ∈ s'.ledger, l.logsEntries = false

namespace LogsTaken

variable {s s' : PluginState σ} {task next : Task}

/-- No snapshot is taken, and what is logged is not about entries. -/
theorem note {events : List LogEvent} (hquiet : ∀ l ∈ s.ledger, l.logsEntries = false)
    (hledger : s'.ledger = s.ledger) (hlog : s'.log = s.log ++ events)
    (hevents : entryLines events = []) (htaken : taken? task next = none) :
    LogsTaken s task s' next := by
  refine ⟨?_, hledger ▸ hquiet⟩
  rw [hlog, htaken, entryLines_append, hevents]
  rfl

/-- No snapshot is taken, and nothing is logged. -/
theorem silent (hquiet : ∀ l ∈ s.ledger, l.logsEntries = false) (hledger : s'.ledger = s.ledger)
    (hlog : s'.log = s.log) (htaken : taken? task next = none) : LogsTaken s task s' next :=
  .note hquiet hledger (hlog.trans (List.append_nil _).symm) rfl htaken

/-- A snapshot is taken as something is recorded. -/
theorem record {l : Ledger} (hl : l.logsEntries = false) (name : String) (m : Milestone)
    (mode : Int64) (now : Nat)
    (hledger : ∀ l' ∈ s'.ledger, l' = l.record name m mode now)
    (hlog : s'.log = s.log ++ l.recordEvents name m mode now)
    (htaken : taken? task next = some (l.record name m mode now)) : LogsTaken s task s' next := by
  refine ⟨?_, fun l' hl' => ?_⟩
  · rw [hlog, htaken, entryLines_append, Ledger.entryLines_recordEvents hl, Option.toList_some,
      List.flatMap_singleton]
  · rw [hledger l' hl']
    exact hl

end LogsTaken

end Task

open PluginKernel.Task (LogsTaken)

variable {setup : Setup} {t fresh : Nat} {s s' : PluginState σ} {m : Move σ}

theorem ReportTask.logsTaken {r r' : ReportTask}
    (hquiet : ∀ l ∈ s.ledger, l.logsEntries = false)
    (h : r.step? setup t s = some (s', r')) : LogsTaken s (.report r) s' (.report r') := by
  cases r with
  | record e =>
    simp only [step?] at h
    split at h
    · cases h
      exact .silent hquiet rfl rfl rfl
    next l hl =>
    split at h <;> cases h
    · exact .note hquiet rfl rfl rfl rfl
    · refine .record (hquiet l hl) _ _ _ _ (fun l' hl' => ?_) rfl rfl
      exact (Option.some.inj hl').symm
  | _ =>
    simp only [step?] at h
    (repeat' split at h) <;> cases h <;>
      first | exact .silent hquiet rfl rfl rfl | exact .note hquiet rfl rfl rfl rfl

theorem StartTask.logsTaken {x : StartTask} (hquiet : ∀ l ∈ s.ledger, l.logsEntries = false)
    (h : x.step? setup t s = some m) : LogsTaken s (.start x) m.state m.next := by
  cases x with
  | bind plugin =>
    simp only [step?] at h
    split at h <;> cases h <;> exact .note hquiet rfl rfl setup.entryLines_bindEvents rfl
  | record plugin =>
    cases h
    refine .record (l := .new setup.equipment.argosId false s.clock) rfl _ _ _ _ (fun l' hl' => ?_)
      rfl rfl
    exact (Option.some.inj hl').symm
  | report r =>
    simp only [step?, Option.map_eq_some_iff, Prod.exists] at h
    obtain ⟨s', r', hr, rfl⟩ := h
    have htaken := ReportTask.logsTaken hquiet hr
    have hsame : Task.taken? (.start (.report r)) (.start (.report r')) =
        Task.taken? (.report r) (.report r') := by
      rw [Task.taken?, Task.inHand_start_report, Task.inHand_start_report]
      rfl
    exact ⟨hsame ▸ htaken.log, htaken.quiet⟩
  | done => cases h
  | _ =>
    simp only [step?] at h
    (repeat' split at h) <;> cases h <;>
      first | exact .silent hquiet rfl rfl rfl | exact .note hquiet rfl rfl rfl rfl

theorem StopTask.logsTaken {x x' : StopTask} (hquiet : ∀ l ∈ s.ledger, l.logsEntries = false)
    (h : x.step? setup t s = some (s', x')) : LogsTaken s (.stop x) s' (.stop x') := by
  cases x with
  | enter plugin =>
    simp only [step?] at h
    split at h <;> cases h <;> exact .note hquiet rfl (List.append_assoc _ _ _) rfl rfl
  | record plugin =>
    simp only [step?] at h
    split at h <;> cases h
    · exact .silent hquiet rfl rfl rfl
    next l hl => exact .record (hquiet l hl) _ _ _ _ (fun _ hl' => by cases hl') rfl rfl
  | settle plugin l | release plugin l =>
    cases h
    exact .silent hquiet rfl rfl (by cases l <;> rfl)
  | emit plugin l =>
    cases l <;> cases h <;> exact .silent hquiet rfl rfl rfl
  | _ =>
    simp only [step?] at h
    (repeat' split at h) <;> cases h <;>
      first | exact .silent hquiet rfl rfl rfl | exact .note hquiet rfl rfl rfl rfl

theorem ServeTask.logsTaken {x x' : ServeTask} (hquiet : ∀ l ∈ s.ledger, l.logsEntries = false)
    (h : x.step? t s = some (s', x')) : LogsTaken s (.serve x) s' (.serve x') := by
  cases x <;> simp only [step?] at h <;> (repeat' split at h) <;> cases h <;>
    first | exact .silent hquiet rfl rfl rfl | exact .note hquiet rfl rfl rfl rfl

theorem ListenTask.logsTaken {x : ListenTask} (hquiet : ∀ l ∈ s.ledger, l.logsEntries = false)
    (h : x.step? t fresh s = some m) : LogsTaken s (.listen x) m.state m.next := by
  cases x <;> simp only [step?] at h <;> (repeat' split at h) <;> cases h <;>
    first | exact .silent hquiet rfl rfl rfl | exact .note hquiet rfl rfl rfl rfl

theorem KeeperTask.logsTaken [RecordStore σ] {x x' : KeeperTask}
    (hquiet : ∀ l ∈ s.ledger, l.logsEntries = false)
    (h : x.step? setup s = some (s', x')) : LogsTaken s (.keeper x) s' (.keeper x') := by
  cases x with
  | receive =>
    simp only [step?] at h
    split at h <;> cases h
    exact .silent hquiet rfl rfl rfl
  | persist filing l rest summary =>
    cases rest with
    | nil =>
      cases h
      exact .note hquiet rfl rfl (by split <;> rfl) rfl
    | cons entry rest =>
      cases h
      exact .note hquiet rfl rfl (Ledger.entryLines_persistEntry _ _ _) rfl
  | forward l =>
    cases h
    exact .silent hquiet rfl rfl rfl

/-- A turn of a task, while the live ledger does not log as it goes. -/
theorem Task.logsTaken [RecordStore σ] {task : Task}
    (hquiet : ∀ l ∈ s.ledger, l.logsEntries = false)
    (h : task.step? setup t fresh s = some m) : LogsTaken s task m.state m.next := by
  cases Task.makes h with
  | call tr => exact .silent hquiet rfl rfl rfl
  | await tr _ => exact .silent hquiet rfl rfl (by cases tr <;> rfl)
  | start hx => exact StartTask.logsTaken hquiet hx
  | stop hx => exact StopTask.logsTaken hquiet hx
  | serve hx => exact ServeTask.logsTaken hquiet hx
  | report hx => exact ReportTask.logsTaken hquiet hx
  | listen hx => exact ListenTask.logsTaken hquiet hx
  | keeper hx => exact KeeperTask.logsTaken hquiet hx
  | courier hx =>
    rw [CourierTask.writes hx]
    exact .silent hquiet rfl rfl rfl

namespace Instance

variable [RecordStore σ] {i j k : Instance σ} {ts : List (Turn σ)}

/-! ## What a history logs -/

/-- The lines about entries are those of the snapshots that were taken, and the live ledger does not
log as it goes. -/
structure Logged (before : List LogEvent) (ts : List (Turn σ)) (j : Instance σ) : Prop where
  log : entryLines j.state.log = before ++ (taken ts).flatMap Ledger.lines
  quiet : ∀ l ∈ j.state.ledger, l.logsEntries = false

theorem Logged.step {before : List LogEvent} (h : Logged before ts j) {t : Nat}
    (hs : j.step? t = some k) : Logged before (ts ++ [⟨t, j, k⟩]) k := by
  obtain ⟨task, m, htask, hm, rfl⟩ := step?_eq_some_iff.1 hs
  have hlogs := Task.logsTaken h.quiet hm
  have htaken : (⟨t, j, j.move t m⟩ : Turn σ).taken? = task.taken? m.next := by
    rw [Turn.taken?, inHand_of_getElem? htask, inHand_move htask hm, if_pos rfl]
    rfl
  refine ⟨?_, by rw [state_move]; exact hlogs.quiet⟩
  rw [state_move, hlogs.log, h.log, taken_concat, htaken, List.flatMap_append, List.append_assoc]

omit [RecordStore σ] in
theorem Logged.act {before : List LogEvent} (h : Logged before ts j) (a : HostAction) :
    Logged before ts (j.act a) := by
  have hlog : (j.state.act a).log = j.state.log := by
    cases a with
    | drop e => cases e <;> rfl
    | _ => rfl
  constructor
  · rw [state_act, hlog]
    exact h.log
  · rw [state_act, (PluginState.internals_act j.state a).1]
    exact h.quiet

theorem logged_of_history (hi : i.Fresh) (h : i.History ts j) :
    Logged (entryLines i.state.log) ts j := by
  induction h with
  | refl =>
    refine ⟨(List.append_nil _).symm, fun l hl => ?_⟩
    rw [hi.ledger] at hl
    cases hl
  | step _ hs ih => exact ih.step hs
  | act _ a ih => exact ih.act a

omit [RecordStore σ] in
/-- Snapshots fall into runs, and the last of them is of the last run. -/
theorem Timelines.exists_runs {ls : List Ledger} (h : Timelines ls) :
    ∃ runs : List (List Ledger), runs.flatten = ls ∧
      (∀ run ∈ runs, ∃ entries, Ledger.Run run entries) ∧
      ∀ l ∈ ls.getLast?, ∃ run ∈ runs.getLast?, run.getLast? = some l := by
  induction ls using List.reverseRecOn with
  | nil => exact ⟨[], rfl, by simp, by simp⟩
  | append_singleton ls l ih =>
    obtain ⟨hbefore, hnew⟩ := h.of_concat
    obtain ⟨runs, hruns, hall, hlast⟩ := ih hbefore
    rcases hnew with hsize | ⟨l₀, hl₀, s, hs⟩
    · -- the snapshot opens a run
      obtain ⟨s, hs⟩ := List.length_eq_one_iff.1 hsize
      refine ⟨runs ++ [[l]], by rw [List.flatten_concat, hruns], fun run hrun => ?_,
        fun l' hl' => ?_⟩
      · rcases List.mem_append.1 hrun with hrun | hrun
        · exact hall run hrun
        · rw [List.mem_singleton.1 hrun]
          exact ⟨[s], .opens hs⟩
      · rw [List.getLast?_concat] at hl' ⊢
        exact ⟨[l], rfl, hl'⟩
    · -- the snapshot goes on with the last run
      obtain ⟨run, hrun, hget⟩ := hlast l₀ hl₀
      obtain ⟨others, rfl⟩ := List.getLast?_eq_some_iff.1 hrun
      obtain ⟨entries, hentries⟩ := hall run List.mem_concat_self
      rw [hentries.statistics_getLast hget] at hs
      refine ⟨others ++ [run ++ [l]], ?_, fun run' hrun' => ?_, fun l' hl' => ?_⟩
      · rw [← hruns, List.flatten_concat, List.flatten_concat, List.append_assoc]
      · rcases List.mem_append.1 hrun' with hrun' | hrun'
        · exact hall run' (List.mem_append_left _ hrun')
        · rw [List.mem_singleton.1 hrun']
          exact ⟨_, hentries.goesOn hs⟩
      · rw [List.getLast?_concat] at hl' ⊢
        exact ⟨run ++ [l], rfl, List.getLast?_concat.trans hl'⟩

/-- Every line about an entry is a warning exactly if the entry is a failure, and says the names and
the time of the entry. How many there are:

Whatever is done to a new ledger, an entry that was recorded while the ledger logs as it goes is
logged once, and any other is logged once for each time that the ledger is finished later, as long
as a ledger that is finished logs in the way in which it did when the entry was recorded.

Whatever a host does with a plugin and in whatever order tasks take their turns, the lines about
entries are those of the snapshots that were taken, and the live ledger is the last of them. In each
run an entry is logged once for each snapshot that was taken since it was recorded, the one that was
taken then included. -/
theorem logged_as_recorded_or_at_each_finish (hi : i.Fresh) {es : List (Event σ)}
    (h : i.Course es j) :
    (∀ (name : String) (logsEntries : Bool) (opened : Nat) (ops : List (Ledger.Operation σ)),
      let start := Ledger.new name logsEntries opened
      let final := start.performAll ops
      ∃ positions, Lines final.1.statistics positions (entryLines final.2) ∧
        ∀ before op after, ops = before ++ op :: after → op.isRecording = true →
          let here := (start.performAll before).1
          let next := (here.perform op).1
          (∀ between fin later, after = between ++ fin :: later → fin.isFinishing = true →
            (next.performAll between).1.logsEntries = here.logsEntries) →
          positions.count here.size =
            if here.logsEntries then 1 else after.countP Ledger.Operation.isFinishing) ∧
    ∃ runs : List (List Ledger), runs.flatten = taken (turnsOf es) ∧
      (∀ l ∈ j.state.ledger, ∃ run ∈ runs.getLast?, run.getLast? = some l) ∧
      entryLines j.state.log =
        entryLines i.state.log ++ runs.flatMap (List.flatMap Ledger.lines) ∧
      ∀ run ∈ runs, ∃ entries positions, Ledger.Run run entries ∧
        Lines entries positions (run.flatMap Ledger.lines) ∧
          ∀ n < entries.length, positions.count n = entries.length - n := by
  refine ⟨fun name logsEntries opened ops => ?_, ?_⟩
  · refine ⟨_, Ledger.lines_performAll _ ops, ?_⟩
    rintro before op after rfl hop here next hsteady
    exact Ledger.count_loggedAll_of_steady _ before hop hsteady
  · have haccounted := accounted_of_history hi h.history
    obtain ⟨runs, hruns, hall, hlast⟩ := haccounted.timelines.exists_runs
    refine ⟨runs, hruns, fun l hl => hlast l (haccounted.live l hl), ?_, fun run hrun => ?_⟩
    · rw [(logged_of_history hi h.history).log, ← hruns, ← List.flatMap_id, List.flatMap_assoc]
      rfl
    · obtain ⟨entries, hentries⟩ := hall run hrun
      obtain ⟨positions, hlines⟩ := hentries.lines
      exact ⟨entries, positions, hentries, hlines⟩

/-- Record the start of a run. -/
def recordStart : Ledger.Operation Store.Tree := .update (.startUp "p1") Outcome.successMode 0

/-- Record the end of a run. -/
def recordEnd : Ledger.Operation Store.Tree := .update (.shutdown "p1") Outcome.successMode 0

/-- A ledger that is finished after the start was recorded logs the start once. A plugin logs it
with the snapshot of the start, and again with that of the error that is reported next. -/
theorem logged_in_reportedStart :
    (∃ positions, Lines [startUpEntry] positions [startUpEntry.logEvent "argos-1"] ∧
      positions.count 0 = 1) ∧
    ∃ es j, (initial sampleSetup 16 Store.Tree.empty).Course es j ∧
      ∃ runs : List (List Ledger), runs.flatten =
          [sampleSnapshot [startUpEntry], sampleSnapshot [startUpEntry, failureEntry]] ∧
        entryLines j.state.log = runs.flatMap (List.flatMap Ledger.lines) := by
  obtain ⟨j, hj, -⟩ := exists_drained reportedStart orderlyTurns 6 (by with_unfolding_all rfl)
  have hcourse := ((Course.refl (i := initial sampleSetup 16 Store.Tree.empty)).action
    (.call (.start "p1"))).action (.report (.other "disk full")) |>.turns hj
  obtain ⟨hledger, runs, hruns, -, hlog, -⟩ :=
    logged_as_recorded_or_at_each_finish (fresh_initial _ _ _) hcourse
  constructor
  · obtain ⟨positions, hlines, hcount⟩ := hledger "argos-1" false 0 [recordStart, .finish]
    have hfirst : ∀ (between : List (Ledger.Operation Store.Tree)) fin later,
        [.finish] = between ++ fin :: later → between = [] := by
      intro between fin later h
      cases between <;> simp_all
    refine ⟨positions, hlines, hcount [] recordStart [.finish] rfl rfl ?_⟩
    intro between fin later h _
    rw [hfirst between fin later h]
    rfl
  · refine ⟨_, j, hcourse, runs, hruns.trans ?_, hlog⟩
    rw [turnsOf_map_turn]
    with_unfolding_all rfl

/-- A ledger that is finished after the start of a run and again after its end, and what it logs. -/
def finishedTwice : Ledger × List LogEvent :=
  (Ledger.new "argos-1" false 0).performAll [recordStart, .finish, recordEnd, .finish]

/-- A ledger that is finished again logs its first entry again, and so does a plugin when an error
is reported to it. -/
theorem start_logged_again :
    (finishedTwice.1.statistics = [startUpEntry, shutdownEntry] ∧
      (entryLines finishedTwice.2).map LogEvent.message =
        ["p1-Start up", "p1-Start up", "p1-Shutdown"]) ∧
    ∃ j, (initial sampleSetup 16 .empty).History (reportedStart.turns orderlyTurns) j ∧
      j.state.ledger = some (sampleSnapshot [startUpEntry, failureEntry]) ∧
      (entryLines j.state.log).map LogEvent.message =
        ["p1-Start up", "p1-Start up", "p1-Start up Failure"] := by
  refine ⟨⟨rfl, by decide⟩, ?_⟩
  have hrun : (reportedStart.steps? orderlyTurns).map
      (fun j => (j.state.ledger, (entryLines j.state.log).map LogEvent.message)) =
        some (some (sampleSnapshot [startUpEntry, failureEntry]),
          ["p1-Start up", "p1-Start up", "p1-Start up Failure"]) := by with_unfolding_all rfl
  obtain ⟨j, hj, hseen⟩ := Option.map_eq_some_iff.1 hrun
  obtain ⟨hledger, hlog⟩ := Prod.mk.inj hseen
  exact ⟨j, history_reportedStart hj, hledger, hlog⟩

end Instance

end PluginKernel
