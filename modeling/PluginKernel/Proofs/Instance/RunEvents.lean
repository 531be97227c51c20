import PluginKernel.Proofs.Instance.Coherence
import PluginKernel.Proofs.Instance.Course

/-!
# What happens in a run

Three things are recorded of a run: that it was started, that an error was reported and that it was
stopped. Each is recorded in one turn of one task, which changes the live ledger and takes a
snapshot of it in the same turn. So the live ledger tells, entry by entry, what was recorded since
the last start.
-/

namespace PluginKernel

variable {σ : Type}

/-- Something that is recorded of a run. Starts and stops are recorded in a name. -/
inductive RunEvent where
  | started (plugin : String)
  | failed (e : PluginError)
  | stopped (plugin : String)

/-- An entry of a ledger, its time left out. -/
structure Entry where
  milestone : Milestone
  mode : Int64
  outcome : Outcome
deriving DecidableEq

/-- What an entry says beside the time. -/
def Statistic.entry (s : Statistic) : Entry := ⟨s.milestone, s.mode, s.outcome⟩

/-- The entry of an event in a run that was started in a name. -/
def RunEvent.entry (plugin : String) : RunEvent → Entry
  | started n => ⟨⟨"System", n, "Start up", "1"⟩, 1, .success⟩
  | failed _ => ⟨⟨"System", plugin, "Start up Failure", "1"⟩, 2, .failure⟩
  | stopped n => ⟨⟨"System", n, "Shutdown", "0"⟩, 1, .success⟩

namespace Milestone

theorem entry_startUp (n : String) (elapsed : Duration) :
    ((startUp n).statistic Outcome.successMode elapsed).entry = (RunEvent.started n).entry n := by
  have hsuccess : Outcome.classify 1 "Start up" = .success := by decide
  exact congrArg (Entry.mk (startUp n) 1) hsuccess

theorem entry_shutdown (plugin n : String) (elapsed : Duration) :
    ((shutdown n).statistic Outcome.successMode elapsed).entry =
      (RunEvent.stopped n).entry plugin := by
  have hsuccess : Outcome.classify 1 "Shutdown" = .success := by decide
  exact congrArg (Entry.mk (shutdown n) 1) hsuccess

/-- The failure that is charged to a start, and to a failure of a start. -/
theorem failed_startUp (n : String) :
    (startUp n).failed = ⟨"System", n, "Start up Failure", "1"⟩ ∧
      failed ⟨"System", n, "Start up Failure", "1"⟩ = ⟨"System", n, "Start up Failure", "1"⟩ := by
  have hbare : Text.contains Outcome.failureMark "Start up" = false := by decide
  have hmarked : Text.contains Outcome.failureMark "Start up Failure" = true := by decide
  have hname : "Start up" ++ " " ++ Outcome.failureMark = "Start up Failure" := by decide
  constructor
  · simp only [failed, startUp, hbare, hname, systemGroup, Bool.false_eq_true, if_false]
  · simp only [failed, hmarked, if_true]

theorem entry_failed (n : String) (e : PluginError) (elapsed : Duration) :
    (statistic ⟨"System", n, "Start up Failure", "1"⟩ Outcome.failureMode elapsed).entry =
      (RunEvent.failed e).entry n := by
  have hfailure : Outcome.classify 2 "Start up Failure" = .failure := by decide
  exact congrArg (Entry.mk _ 2) hfailure

end Milestone

/-! ## What a ledger tells -/

namespace Ledger

variable {id n : String} {run : List RunEvent} {fs : List PluginError} {l : Ledger}

/-- A finished ledger tells what happened in a run: it has an entry for each event, in their
order, and no other. -/
structure Tells (id plugin : String) (run : List RunEvent) (l : Ledger) : Prop where
  name : l.name = id
  finished : l.finished = true
  entries : l.statistics.map Statistic.entry = run.map (RunEvent.entry plugin)

theorem Tells.record (h : l.Tells id n run) (m : Milestone) (mode : Int64) (now : Nat)
    {e : RunEvent} (he : (m.statistic mode (l.elapsed now)).entry = e.entry n) :
    (l.record id m mode now).Tells id n (run ++ [e]) := by
  refine ⟨rfl, rfl, ?_⟩
  rw [statistics_record, List.map_append, List.map_append, h.entries, List.map_singleton,
    List.map_singleton, he]

theorem tells_start (id n : String) (now : Nat) : (start id n now).Tells id n [.started n] := by
  refine ⟨rfl, rfl, ?_⟩
  rw [start, statistics_record, List.map_append, List.map_singleton, Milestone.entry_startUp]
  rfl

theorem Tells.lastMilestone? (h : l.Tells id n run) :
    l.lastMilestone? = run.getLast?.map fun e => (e.entry n).milestone := by
  have hlast := congrArg List.getLast? h.entries
  rw [List.getLast?_map, List.getLast?_map] at hlast
  have hmilestone := congrArg (Option.map Entry.milestone) hlast
  rwa [Option.map_map, Option.map_map] at hmilestone

/-- A run that was not stopped ends with its start or with an error, so what the next error is
charged to is the start or the failure of the start. -/
theorem Tells.lastMilestone?_live (h : l.Tells id n (.started n :: fs.map .failed)) :
    ∃ m, l.lastMilestone? = some m ∧ m.failed = ⟨"System", n, "Start up Failure", "1"⟩ := by
  obtain ⟨hbare, hmarked⟩ := Milestone.failed_startUp n
  rw [h.lastMilestone?]
  -- the mark is put on a start only, it does not pile up
  rcases List.eq_nil_or_concat fs with rfl | ⟨fs, e, rfl⟩
  · exact ⟨_, rfl, hbare⟩
  · refine ⟨_, ?_, hmarked⟩
    rw [List.concat_eq_append, List.map_append, ← List.cons_append, List.map_singleton,
      List.getLast?_append]
    rfl

theorem Tells.fail (h : l.Tells id n (.started n :: fs.map .failed)) {m : Milestone}
    (hm : l.lastMilestone? = some m) (e : PluginError) (now : Nat) :
    (l.record id m.failed Outcome.failureMode now).Tells id n
      (.started n :: (fs ++ [e]).map .failed) := by
  obtain ⟨m', hm', hfailed⟩ := h.lastMilestone?_live
  obtain rfl : m = m' := Option.some.inj (hm.symm.trans hm')
  rw [List.map_append, ← List.cons_append]
  refine h.record _ _ _ ?_
  rw [hfailed]
  exact Milestone.entry_failed n e _

theorem Tells.stop (h : l.Tells id n run) (plugin : String) (now : Nat) :
    (l.record id (.shutdown plugin) Outcome.successMode now).Tells id n
      (run ++ [.stopped plugin]) :=
  h.record _ _ _ (Milestone.entry_shutdown n plugin _)

end Ledger

/-! ## What a turn records -/

namespace Task

/-- What a task records in its next turn. -/
def runEvent? (s : PluginState σ) : Task → Option RunEvent
  | start (.record n) => some (.started n)
  | start (.report (.record e)) | report (.record e) => s.ledger.map fun _ => .failed e
  | stop (.record n) => s.ledger.map fun _ => .stopped n
  | _ => none

theorem runEvent?_start_report (s : PluginState σ) (r : ReportTask) :
    (start (.report r)).runEvent? s = (report r).runEvent? s := by
  cases r <;> rfl

theorem inHand_start_report (r : ReportTask) :
    (start (.report r)).inHand = (report r).inHand := by
  cases r <;> rfl

/-- What a turn does to the live ledger and the snapshot in hand. -/
inductive RunEffect (id : String) (s : PluginState σ) (task : Task) (m : Move σ) : Prop where
  /-- Nothing is recorded. -/
  | silent (hevent : task.runEvent? s = none)
      (hnext : task.inHand = none → m.next.inHand = none)
  /-- A run is opened. -/
  | start (n : String) (hevent : task.runEvent? s = some (.started n)) (hhand : task.inHand = none)
      (hledger : m.state.ledger = some (Ledger.start id n s.clock))
      (hnext : m.next.inHand = some (Ledger.start id n s.clock))
  /-- An error is charged to the run. -/
  | fail (e : PluginError) (l : Ledger) (last : Milestone)
      (hevent : task.runEvent? s = some (.failed e)) (hhand : task.inHand = none)
      (hlive : s.ledger = some l) (hlast : l.lastMilestone? = some last)
      (hledger : m.state.ledger = some (l.record id last.failed Outcome.failureMode s.clock))
      (hnext : m.next.inHand = some (l.record id last.failed Outcome.failureMode s.clock))
  /-- The run is closed. -/
  | stop (n : String) (l : Ledger) (hevent : task.runEvent? s = some (.stopped n))
      (hhand : task.inHand = none) (hlive : s.ledger = some l) (hledger : m.state.ledger = none)
      (hnext : m.next.inHand = some (l.record id (.shutdown n) Outcome.successMode s.clock))

/-- A turn that takes no snapshot leaves the live ledger alone. -/
theorem LedgerEffect.ledger_eq {s : PluginState σ} {task : Task} {m : Move σ}
    (h : task.LedgerEffect s m) (hnext : task.inHand = none → m.next.inHand = none) :
    m.state.ledger = s.ledger := by
  cases h with
  | keep hledger | queue _ _ _ _ hledger | collect _ _ _ _ _ hledger => exact hledger
  | take l hhand hnext' =>
    rw [hnext hhand] at hnext'
    cases hnext'

/-- Only transitions and reports have snapshots in hand. -/
theorem inHand_eq_none_of_kind {task : Task} (htransition : task.kind ≠ .transition)
    (hreport : task.kind ≠ .report) : task.inHand = none := by
  cases task with
  | call | await | start | stop => exact absurd rfl htransition
  | report => exact absurd rfl hreport
  | _ => rfl

end Task

section Effects

variable {setup : Setup} {t : Nat} {s : PluginState σ}

theorem ReportTask.runEffect {s' : PluginState σ} {r r' : ReportTask}
    (h : r.step? setup t s = some (s', r'))
    (hlive : ∀ l, s.ledger = some l → l.lastMilestone? ≠ none) :
    (Task.report r).RunEffect setup.equipment.argosId s ⟨s', .report r', none⟩ := by
  cases r with
  | record e =>
    simp only [step?] at h
    split at h
    next hnone =>
      cases h
      exact .silent (by simp only [Task.runEvent?, hnone, Option.map_none]) fun _ => rfl
    next l hl =>
      split at h
      next hlast => exact absurd hlast (hlive l hl)
      next m hlast =>
        cases h
        exact .fail e l m (by simp only [Task.runEvent?, hl, Option.map_some]) rfl hl hlast rfl rfl
  | emit l e =>
    simp only [step?] at h
    cases h
    exact .silent rfl fun _ => rfl
  | _ =>
    simp only [step?] at h
    (repeat' split at h) <;> cases h <;> exact .silent rfl fun _ => rfl

theorem StartTask.runEffect {x : StartTask} {m : Move σ} (h : x.step? setup t s = some m)
    (hlive : ∀ l, s.ledger = some l → l.lastMilestone? ≠ none) :
    (Task.start x).RunEffect setup.equipment.argosId s m := by
  cases x with
  | record n =>
    simp only [step?] at h
    cases h
    exact .start n rfl rfl rfl rfl
  | report r =>
    simp only [step?, Option.map_eq_some_iff, Prod.exists] at h
    obtain ⟨s', r', hr, rfl⟩ := h
    have hsame := Task.runEvent?_start_report s r
    have hhand := Task.inHand_start_report r
    have hhand' := Task.inHand_start_report r'
    cases ReportTask.runEffect hr hlive with
    | silent hevent hnext =>
      exact .silent (hsame.trans hevent) fun hnone => hhand'.trans (hnext (hhand ▸ hnone))
    | start n hevent => cases r <;> simp [Task.runEvent?] at hevent
    | fail e l last hevent hbefore hlive hlast hledger hnext =>
      exact .fail e l last (hsame.trans hevent) (hhand.trans hbefore) hlive hlast hledger
        (hhand'.trans hnext)
    | stop n l hevent => cases r <;> simp [Task.runEvent?] at hevent
  | settle l | release l =>
    simp only [step?] at h
    cases h
    exact .silent rfl fun hhand => by cases hhand
  | _ =>
    simp only [step?] at h
    (repeat' split at h) <;> cases h <;> exact .silent rfl fun _ => rfl

theorem StopTask.runEffect {s' : PluginState σ} {x x' : StopTask}
    (h : x.step? setup t s = some (s', x')) :
    (Task.stop x).RunEffect setup.equipment.argosId s ⟨s', .stop x', none⟩ := by
  cases x with
  | record n =>
    simp only [step?] at h
    split at h
    next hnone =>
      cases h
      exact .silent (by simp only [Task.runEvent?, hnone, Option.map_none]) fun _ => rfl
    next l hl =>
      cases h
      exact .stop n l (by simp only [Task.runEvent?, hl, Option.map_some]) rfl hl rfl rfl
  | settle n l | release n l =>
    simp only [step?] at h
    cases h
    exact .silent rfl id
  | _ =>
    simp only [step?] at h
    (repeat' split at h) <;> cases h <;> exact .silent rfl fun _ => rfl

/-- A turn of a task, while the live ledger has a milestone that errors can be charged to. -/
theorem Task.runEffect [RecordStore σ] {fresh : Nat} {task : Task} {m : Move σ}
    (h : task.step? setup t fresh s = some m)
    (hlive : ∀ l, s.ledger = some l → l.lastMilestone? ≠ none) :
    task.RunEffect setup.equipment.argosId s m := by
  have hkind := kind_next h
  cases task with
  | call tr =>
    cases h
    exact .silent rfl fun _ => rfl
  | await tr =>
    simp only [step?] at h
    split at h <;> cases h
    exact .silent rfl fun _ => by cases tr <;> rfl
  | start x => exact StartTask.runEffect h hlive
  | stop x =>
    simp only [step?, Option.map_eq_some_iff, Prod.exists] at h
    obtain ⟨s', x', hx, rfl⟩ := h
    exact StopTask.runEffect hx
  | report x =>
    simp only [step?, Option.map_eq_some_iff, Prod.exists] at h
    obtain ⟨s', x', hx, rfl⟩ := h
    exact ReportTask.runEffect hx hlive
  | _ =>
    refine .silent rfl fun _ => inHand_eq_none_of_kind ?_ ?_ <;> rw [hkind] <;> simp [kind]

end Effects

/-! ## What a history tells -/

/-- A ledger tells what has happened since the last start. -/
def Ledger.TellsLastRun (id : String) (events : List RunEvent) (l : Ledger) : Prop :=
  ∃ (before : List RunEvent) (n : String) (fs : List PluginError) (stop : Option String),
    events = before ++ (.started n :: fs.map .failed ++ stop.toList.map .stopped) ∧
      l.Tells id n (.started n :: fs.map .failed ++ stop.toList.map .stopped)

namespace Instance

def Turn.runEvent? (w : Turn σ) : Option RunEvent :=
  w.before.tasks[w.task]?.bind (Task.runEvent? w.before.state)

theorem runEvent?_of_getElem? {w : Turn σ} {task : Task}
    (h : w.before.tasks[w.task]? = some task) : w.runEvent? = task.runEvent? w.before.state := by
  rw [Turn.runEvent?, h, Option.bind_some]

/-- What was recorded of all runs, oldest first. -/
def runEvents (ts : List (Turn σ)) : List RunEvent := ts.filterMap Turn.runEvent?

@[simp] theorem runEvents_concat (ts : List (Turn σ)) (w : Turn σ) :
    runEvents (ts ++ [w]) = runEvents ts ++ w.runEvent?.toList := by
  rw [runEvents, List.filterMap_append, runEvents]
  cases h : w.runEvent? <;> simp [h]

/-- The live ledger tells what has happened since the last start, and there was no stop. -/
def Told (id : String) (ts : List (Turn σ)) (j : Instance σ) : Prop :=
  ∀ l, j.state.ledger = some l →
    ∃ (before : List RunEvent) (n : String) (fs : List PluginError),
      runEvents ts = before ++ .started n :: fs.map .failed ∧
        l.Tells id n (.started n :: fs.map .failed)

theorem Told.lastMilestone?_ne_none {id : String} {ts : List (Turn σ)} {j : Instance σ}
    (h : Told id ts j) (l : Ledger) (hl : j.state.ledger = some l) : l.lastMilestone? ≠ none := by
  obtain ⟨before, n, fs, -, htells⟩ := h l hl
  obtain ⟨m, hm, -⟩ := htells.lastMilestone?_live
  rw [hm]
  simp

theorem Told.act {id : String} {ts : List (Turn σ)} {j : Instance σ} (h : Told id ts j)
    (a : HostAction) : Told id ts (j.act a) := by
  intro l hl
  rw [state_act, (PluginState.internals_act j.state a).1] at hl
  exact h l hl

variable [RecordStore σ] {i j k : Instance σ} {ts past rest : List (Turn σ)} {t : Nat}

/-- What a turn records, the live ledger tells afterwards, or the snapshot that was taken if the
live ledger is gone. -/
theorem Told.step (h : Told j.setup.equipment.argosId ts j) (hs : j.step? t = some k) :
    Told j.setup.equipment.argosId (ts ++ [⟨t, j, k⟩]) k ∧
      (⟨t, j, k⟩ : Turn σ).taken?.isSome = (⟨t, j, k⟩ : Turn σ).runEvent?.isSome ∧
      ∀ l, (⟨t, j, k⟩ : Turn σ).taken? = some l →
        l.TellsLastRun j.setup.equipment.argosId (runEvents (ts ++ [⟨t, j, k⟩])) := by
  obtain ⟨task, m, htask, hm, rfl⟩ := step?_eq_some_iff.1 hs
  have heffect := Task.runEffect hm h.lastMilestone?_ne_none
  have hrecords : (⟨t, j, j.move t m⟩ : Turn σ).runEvent? = task.runEvent? j.state :=
    runEvent?_of_getElem? htask
  have hafter : (j.move t m).inHand t = m.next.inHand := by rw [inHand_move htask hm, if_pos rfl]
  have htaken : task.inHand = none →
      (⟨t, j, j.move t m⟩ : Turn σ).taken? = m.next.inHand := by
    intro hhand
    rw [Turn.taken?, inHand_of_getElem? htask, hhand, hafter]
  simp only [Told, runEvents_concat, hrecords, state_move]
  cases heffect with
  | silent hevent hnext =>
    have hnone : (⟨t, j, j.move t m⟩ : Turn σ).taken? = none := by
      cases hhand : task.inHand with
      | none => rw [htaken hhand, hnext hhand]
      | some l => rw [Turn.taken?, inHand_of_getElem? htask, hhand]
    rw [hnone, hevent, (Task.ledgerEffect hm).ledger_eq hnext, Option.toList_none, List.append_nil]
    exact ⟨h, rfl, fun l hl => by cases hl⟩
  | start n hevent hhand hledger hnext =>
    rw [htaken hhand, hnext, hevent, hledger]
    have htells := Ledger.tells_start j.setup.equipment.argosId n j.state.clock
    refine ⟨fun l hl => ?_, rfl, fun l hl => ?_⟩ <;> cases hl
    · exact ⟨_, n, [], rfl, htells⟩
    · exact ⟨_, n, [], none, rfl, htells⟩
  | fail e l₀ last hevent hhand hlive hlast hledger hnext =>
    obtain ⟨before, n, fs, hevents, htells⟩ := h l₀ hlive
    have hfail := htells.fail hlast e j.state.clock
    have hgrown : before ++ .started n :: fs.map .failed ++ [.failed e] =
        before ++ .started n :: (fs ++ [e]).map .failed := by simp
    rw [htaken hhand, hnext, hevent, hledger, hevents, Option.toList_some, hgrown]
    refine ⟨fun l hl => ?_, rfl, fun l hl => ?_⟩ <;> cases hl
    · exact ⟨before, n, fs ++ [e], rfl, hfail⟩
    · refine ⟨before, n, fs ++ [e], none, ?_, ?_⟩ <;>
        rw [Option.toList_none, List.map_nil, List.append_nil]
      exact hfail
  | stop m l₀ hevent hhand hlive hledger hnext =>
    obtain ⟨before, n, fs, hevents, htells⟩ := h l₀ hlive
    rw [htaken hhand, hnext, hevent, hledger, hevents]
    refine ⟨fun l hl => ?_, rfl, fun l hl => ?_⟩ <;> cases hl
    exact ⟨before, n, fs, some m, List.append_assoc _ _ _, htells.stop m j.state.clock⟩

theorem told_of_history (hi : i.Fresh) (h : i.History ts j) :
    Told i.setup.equipment.argosId ts j := by
  induction h with
  | refl =>
    intro l hl
    rw [hi.ledger] at hl
    cases hl
  | @step ts j k t h hs ih =>
    have hsetup : j.setup = i.setup := setup_of_reachable (reachable_iff_history.2 ⟨ts, h⟩)
    rw [← hsetup] at ih ⊢
    exact (ih.step hs).1
  | act _ a ih => exact ih.act a

/-- In every history, a snapshot is taken whenever something is recorded, and it tells what has
happened since the last start. -/
theorem told_of_turn {w : Turn σ} (hi : i.Fresh) (h : i.History (past ++ w :: rest) j) :
    w.taken?.isSome = w.runEvent?.isSome ∧
      ∀ l, w.taken? = some l →
        l.TellsLastRun i.setup.equipment.argosId (runEvents (past ++ [w])) := by
  obtain ⟨hpast, hs⟩ := h.of_append
  have hsetup : w.before.setup = i.setup :=
    setup_of_reachable (reachable_iff_history.2 ⟨past, hpast⟩)
  have htold := told_of_history hi hpast
  rw [← hsetup] at htold ⊢
  exact (htold.step hs).2

end Instance

end PluginKernel
