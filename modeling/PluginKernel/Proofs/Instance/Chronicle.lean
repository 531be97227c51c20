import PluginKernel.Proofs.Instance.Occasions
import PluginKernel.Proofs.Instance.Outcomes
import PluginKernel.Proofs.Instance.Requests

/-!
# The chronicle of a plugin

What the snapshots say that a plugin queues, over all of its runs and for every order in which its
tasks take their turns: each tells a run from its start on, nothing is told twice, nothing that was
to be told is left out, and the names are those in which the host has asked.
-/

namespace PluginKernel

variable {σ : Type}

/-! ## Reports -/

/-- A report has looked at the ledger. -/
def ReportTask.HasLooked : ReportTask → Prop
  | check _ | record _ => False
  | _ => True

/-- Whether a task hands an error to the host. -/
def Task.IsReporting : Task → Prop
  | report _ | start (.report _) => True
  | _ => False

theorem ReportTask.leaves_lifecycle {setup : Setup} {t : Nat} {s s' : PluginState σ}
    {r r' : ReportTask} (h : r.step? setup t s = some (s', r')) :
    s'.phase = s.phase ∧ s'.server = s.server ∧ s'.health = s.health := by
  cases r <;> simp only [step?] at h <;> (repeat' split at h) <;> cases h <;> exact ⟨rfl, rfl, rfl⟩

theorem Task.IsReporting.leaves_lifecycle [RecordStore σ] {setup : Setup} {t fresh : Nat}
    {s : PluginState σ} {task : Task} {m : Move σ} (hreports : task.IsReporting)
    (h : task.step? setup t fresh s = some m) :
    m.state.phase = s.phase ∧ m.state.server = s.server ∧ m.state.health = s.health := by
  cases task with
  | start x =>
    cases x with
    | report r =>
      simp only [step?, StartTask.step?, Option.map_eq_some_iff, Prod.exists] at h
      obtain ⟨s', r', hr, rfl⟩ := h
      exact ReportTask.leaves_lifecycle hr
    | _ => exact hreports.elim
  | report r =>
    simp only [step?, Option.map_eq_some_iff, Prod.exists] at h
    obtain ⟨s', r', hr, rfl⟩ := h
    exact ReportTask.leaves_lifecycle hr
  | _ => exact hreports.elim

/-- Errors are recorded by reports, a start by a task that goes through it, and so a stop. -/
theorem Task.of_runEvent? {s : PluginState σ} {task : Task} {e : RunEvent}
    (h : task.runEvent? s = some e) :
    match e with
    | .started n => task.transition? = some (.start n)
    | .failed _ => task.IsReporting
    | .stopped n => task.transition? = some (.stop n) := by
  unfold runEvent? at h
  split at h
  · cases h
    rfl
  · obtain ⟨l, -, rfl⟩ := Option.map_eq_some_iff.1 h
    trivial
  · obtain ⟨l, -, rfl⟩ := Option.map_eq_some_iff.1 h
    trivial
  · obtain ⟨l, -, rfl⟩ := Option.map_eq_some_iff.1 h
    rfl
  · cases h

namespace Instance

def Turn.IsReport (w : Turn σ) : Prop := ∃ task ∈ w.before.tasks[w.task]?, task.IsReporting

/-- The host listens to errors all the time. -/
def ErrorsOpen (ts : List (Turn σ)) : Prop :=
  ∀ w ∈ ts, w.before.state.errors.hasReceiver = true

/-- A report that has looked at the ledger has done so in some turn, and what it has found is
whether there is an occasion for a snapshot. -/
def Looked (ts : List (Turn σ)) (j : Instance σ) : Prop :=
  ∀ (t : Nat) (r : ReportTask), j.tasks[t]? = some (.report r) → r.HasLooked →
    ∃ w ∈ ts, w.task = t ∧ (∃ e, w.before.tasks[t]? = some (.report (.record e))) ∧
      occasions ts t = w.before.state.ledger.isSome.toNat

theorem Looked.act {ts : List (Turn σ)} {j : Instance σ} (h : Looked ts j) (a : HostAction) :
    Looked ts (j.act a) := by
  intro t r ht hlooked
  rw [getElem?_tasks_act] at ht
  split at ht
  · cases a <;> cases ht
    exact hlooked.elim
  · exact h t r ht hlooked

variable [RecordStore σ] {i j k : Instance σ} {ts : List (Turn σ)} {es : List (Event σ)} {t : Nat}

theorem Looked.step (h : Looked ts j) (hbalanced : Balanced ts j)
    (hopen : j.state.errors.hasReceiver = true) (hs : j.step? t = some k) :
    Looked (ts ++ [⟨t, j, k⟩]) k := by
  obtain ⟨task, m, htask, hm, rfl⟩ := step?_eq_some_iff.1 hs
  have htasks := getElem?_tasks_move (List.getElem?_eq_some_iff.1 htask).1 m
  have hoccasion : (⟨t, j, j.move t m⟩ : Turn σ).isOccasion = task.isOccasion j.setup j.state :=
    isOccasion_of_getElem? htask
  have hmem : (⟨t, j, j.move t m⟩ : Turn σ) ∈ ts ++ [⟨t, j, j.move t m⟩] :=
    List.mem_concat_self
  intro u r hu hlooked
  rw [htasks] at hu
  rw [occasions_concat]
  split at hu
  next hut =>
    -- the report goes on
    subst hut
    have hkind := Task.kind_next hm
    rw [Option.some.inj hu] at hkind
    cases task with
    | report r₀ =>
      simp only [Task.step?, Option.map_eq_some_iff, Prod.exists] at hm
      obtain ⟨s', r', hr, rfl⟩ := hm
      cases hu
      cases r₀ with
      | check e =>
        simp only [ReportTask.step?, hopen, if_true] at hr
        cases hr
        exact hlooked.elim
      | record e =>
        have hnone : occasions ts u = 0 := by
          have honce := hbalanced.once u
          rw [prospects_of_getElem? htask, Task.prospects] at honce
          omega
        refine ⟨_, hmem, rfl, ⟨e, htask⟩, ?_⟩
        rw [if_pos rfl, hnone, hoccasion, Nat.zero_add, Task.isOccasion]
      | _ =>
        obtain ⟨w, hw, hwt, hlooks, hfound⟩ := h u _ htask trivial
        refine ⟨w, List.mem_append_left _ hw, hwt, hlooks, ?_⟩
        rw [if_pos rfl, hoccasion]
        exact hfound
    | _ => cases hkind
  next hut =>
    split at hu
    · have hkind := Task.kind_spawned hm hu
      rcases hkind with hkind | hkind <;> cases hkind
    · obtain ⟨w, hw, hwt, hlooks, hfound⟩ := h u r hu hlooked
      refine ⟨w, List.mem_append_left _ hw, hwt, hlooks, ?_⟩
      rw [if_neg (Ne.symm hut)]
      exact hfound

theorem looked_of_history (hi : i.Fresh) (h : i.History ts j) (hopen : ErrorsOpen ts) :
    Looked ts j := by
  induction h with
  | refl =>
    intro t r ht
    rcases hi.eq_of_getElem? ht with hr | hr | hr <;> cases hr
  | @step ts j k t h hs ih =>
    have hbefore := ih fun w hw => hopen w (List.mem_append_left _ hw)
    have hnow := hopen _ List.mem_concat_self
    exact hbefore.step (balanced_of_history hi h) hnow hs
  | act _ a ih => exact (ih hopen).act a

/-! ## All that is told -/

/-- What the snapshots tell that a plugin has queued. -/
structure Chronicle (i : Instance σ) (es : List (Event σ)) (j : Instance σ) : Prop where
  /-- A queued snapshot was taken in some turn. It has the identifier of the plugin as its name, is
  finished, and tells what was recorded from the last start up to this turn: the start, the errors
  that were charged to it, and the stop if it is the stop that has taken the snapshot. -/
  shape : ∀ l ∈ queued (turnsOf es), ∃ past w rest, turnsOf es = past ++ w :: rest ∧
    w.taken? = some l ∧ l.TellsLastRun i.setup.equipment.argosId (runEvents (past ++ [w]))
  /-- A snapshot is taken whenever something is recorded. -/
  recorded : ∀ w ∈ turnsOf es, w.taken?.isSome = w.runEvent?.isSome
  /-- Whoever has taken a snapshot queues it, once. -/
  handed : ∀ t, queuedBy (turnsOf es) t ++ (j.inHand t).toList = takenBy (turnsOf es) t
  /-- No task queues more than it has an occasion for, and that is one snapshot at most. -/
  once : ∀ t, (queuedBy (turnsOf es) t).length ≤ occasions (turnsOf es) t ∧
    occasions (turnsOf es) t ≤ 1
  /-- A task that is through has queued a snapshot if there was an occasion. -/
  through : ∀ t task, j.tasks[t]? = some task → task.IsThrough →
    (queuedBy (turnsOf es) t).length = occasions (turnsOf es) t
  /-- As long as the host listens to errors, every report looks at the ledger, and there is an
  occasion if it finds one. -/
  looked : ErrorsOpen (turnsOf es) → Looked (turnsOf es) j
  /-- The name of a start is the one in which the host has asked for it. -/
  started : ∀ w ∈ turnsOf es, ∀ n, w.runEvent? = some (.started n) →
    Asked i es w.task (.start n)
  /-- The name of a stop is the one in which the host has asked for it. -/
  stopped : ∀ w ∈ turnsOf es, ∀ n, w.runEvent? = some (.stopped n) →
    Asked i es w.task (.stop n)
  /-- Only reports record errors. -/
  failed : ∀ w ∈ turnsOf es, ∀ e, w.runEvent? = some (.failed e) → w.IsReport
  /-- A report changes neither phase nor server nor health. -/
  harmless : ∀ w ∈ turnsOf es, w.IsReport → w.after.state.phase = w.before.state.phase ∧
    w.after.state.server = w.before.state.server ∧ w.after.state.health = w.before.state.health

/-- Whatever goes on in a task when it has its turn, the host has asked for. -/
theorem asked_of_turn {w : Turn σ} {task : Task} {tr : Transition} (hi : i.Fresh)
    (h : i.Course es j) (hw : w ∈ turnsOf es) (htask : w.before.tasks[w.task]? = some task)
    (htr : task.transition? = some tr) : Asked i es w.task tr := by
  obtain ⟨past, rest, rfl⟩ := List.append_of_mem (mem_turnsOf.1 hw)
  have hrequested := requested_of_course hi h.of_append.1
  exact (hrequested.asked _ _ _ htask htr).mono _

/-- In every course, whatever the host does and in whatever order tasks take their turns: the
snapshots that are queued tell the runs of the plugin. -/
theorem chronicle_of_course (hi : i.Fresh) (h : i.Course es j) : Chronicle i es j := by
  have hhistory := h.history
  have hbalanced := balanced_of_history hi hhistory
  have hsplit : ∀ w ∈ turnsOf es, ∃ past rest, turnsOf es = past ++ w :: rest ∧
      w.before.step? w.task = some w.after ∧ w.taken?.isSome = w.runEvent?.isSome ∧
        ∀ l, w.taken? = some l →
          l.TellsLastRun i.setup.equipment.argosId (runEvents (past ++ [w])) := by
    intro w hw
    obtain ⟨past, rest, hts⟩ := List.append_of_mem hw
    rw [hts] at hhistory
    obtain ⟨hrecorded, htells⟩ := told_of_turn hi hhistory
    exact ⟨past, rest, hts, hhistory.of_append.2, hrecorded, htells⟩
  have hevent : ∀ w ∈ turnsOf es, ∀ e, w.runEvent? = some e →
      ∃ task, w.before.tasks[w.task]? = some task ∧ task.runEvent? w.before.state = some e :=
    fun w _ e he => Option.bind_eq_some_iff.1 he
  refine ⟨fun l hl => ?_, fun w hw => ?_, hbalanced.handed, fun t => ?_,
    fun t task ht hthrough => ?_, looked_of_history hi hhistory, fun w hw n hn => ?_,
    fun w hw n hn => ?_, fun w hw e he => ?_, fun w hw hreport => ?_⟩
  · -- what is queued was taken
    have hmem : l ∈ taken (turnsOf es) := by
      rw [(accounted_of_history hi hhistory).perm.mem_iff]
      exact List.mem_append_left _ hl
    obtain ⟨w, hw, htaken⟩ := List.mem_filterMap.1 hmem
    obtain ⟨past, rest, hts, -, -, htells⟩ := hsplit w hw
    exact ⟨past, w, rest, hts, htaken, htells l htaken⟩
  · obtain ⟨-, -, -, -, hrecorded, -⟩ := hsplit w hw
    exact hrecorded
  · have hhanded := congrArg List.length (hbalanced.handed t)
    have haccounted := hbalanced.accounted t
    have honce := hbalanced.once t
    rw [List.length_append] at hhanded
    omega
  · have hhanded := hbalanced.handed t
    have haccounted := hbalanced.accounted t
    rw [due_of_getElem? ht, hthrough.due_eq_zero] at haccounted
    rw [inHand_of_getElem? ht, hthrough.inHand_eq_none, Option.toList_none, List.append_nil]
      at hhanded
    rw [hhanded]
    exact haccounted
  · obtain ⟨task, htask, hrecords⟩ := hevent w hw _ hn
    exact asked_of_turn hi h hw htask (Task.of_runEvent? hrecords)
  · obtain ⟨task, htask, hrecords⟩ := hevent w hw _ hn
    exact asked_of_turn hi h hw htask (Task.of_runEvent? hrecords)
  · obtain ⟨task, htask, hrecords⟩ := hevent w hw _ he
    exact ⟨task, htask, Task.of_runEvent? hrecords⟩
  · obtain ⟨task, htask, hreports⟩ := hreport
    obtain ⟨-, -, -, hs, -⟩ := hsplit w hw
    obtain ⟨task', m, htask', hm, hafter⟩ := step?_eq_some_iff.1 hs
    obtain rfl : task = task' := Option.some.inj (htask.symm.trans htask')
    rw [← hafter, state_move]
    exact hreports.leaves_lifecycle hm

/-- A start, an error, a stop and another start. -/
theorem chronicle_of_restarted : ∃ es j, (initial sampleSetup 16 Store.Tree.empty).Course es j ∧
    queued (turnsOf es) = [sampleSnapshot [startUpEntry],
      sampleSnapshot [startUpEntry, failureEntry],
      sampleSnapshot [startUpEntry, failureEntry, shutdownEntry],
      sampleSnapshot [startUpEntry]] ∧
    Chronicle (initial sampleSetup 16 Store.Tree.empty) es j := by
  obtain ⟨j, hj, -⟩ := exists_drained restarted restartTurns 9 (by with_unfolding_all rfl)
  have hcourse := ((((Course.refl (i := initial sampleSetup 16 Store.Tree.empty)).action
    (.call (.start "p1"))).action (.report (.other "disk full"))).action
      (.call (.stop "p1"))).action (.call (.start "p1")) |>.turns hj
  refine ⟨_, j, hcourse, ?_, chronicle_of_course (fresh_initial _ _ _) hcourse⟩
  rw [turnsOf_map_turn]
  with_unfolding_all rfl

end Instance

end PluginKernel
