import PluginKernel.Proofs.Instance.RunEvents

/-!
# Who takes snapshots, and how many

A task takes a snapshot if there is an *occasion* for it: a start that finds a place to listen on, a
report that finds a live ledger, a stop that finds a server. Starts and stops take it some turns
after that, and queue it when the lock is released. In the meantime the snapshot is *due*.

No task has more than one occasion. What it has queued, what it has in hand and what is due make up
its occasions, so a task that is through has queued one snapshot for its occasion, and none if there
was no occasion.
-/

namespace PluginKernel

variable {σ : Type}

namespace Task

/-- Whether a task finds in its next turn that there is something to take a snapshot of. -/
def isOccasion (setup : Setup) (s : PluginState σ) : Task → Bool
  | start (.bind _) => (setup.bind s.heldEndpoints).isOk
  | start (.report (.record _)) | report (.record _) => s.ledger.isSome
  | stop (.enter _) => s.server.isSome
  | _ => false

/-- How many snapshots a task is yet to take. -/
def due (s : PluginState σ) : Task → Nat
  | start (.announce _ _) | start (.launch _ _) | start (.record _) => 1
  | stop (.silence _ _) | stop (.cancel _ _) | stop (.join _ _) | stop (.record _) =>
    s.ledger.isSome.toNat
  | _ => 0

/-- How many occasions a task may yet come upon. -/
def prospects : Task → Nat
  | call _ | await _ => 1
  | start (.enter _) | start (.bind _) | start (.fail _ _) | start (.giveUp _ _) => 1
  | start (.report (.check _)) | start (.report (.record _)) => 1
  | stop (.enter _) => 1
  | report (.check _) | report (.record _) => 1
  | _ => 0

/-- A task has nothing left to do but to hand its error or its acknowledgment to the host. -/
def IsThrough : Task → Prop
  | start .done | stop .done | report .done => True
  | start (.report (.send _)) | start (.report (.wait _)) | start (.report .done) => True
  | report (.send _) | report (.wait _) => True
  | stop (.acknowledge _) | stop .wait => True
  | _ => False

theorem isOccasion_start_report (setup : Setup) (s : PluginState σ) (r : ReportTask) :
    (start (.report r)).isOccasion setup s = (report r).isOccasion setup s := by
  cases r <;> rfl

theorem prospects_start_report (r : ReportTask) :
    (start (.report r)).prospects = (report r).prospects := by
  cases r <;> rfl

theorem prospects_le_one (task : Task) : task.prospects ≤ 1 := by
  unfold prospects
  split <;> omega

theorem IsThrough.due_eq_zero {task : Task} (h : task.IsThrough) (s : PluginState σ) :
    task.due s = 0 := by
  unfold IsThrough at h
  split at h <;> first | rfl | exact h.elim

theorem IsThrough.inHand_eq_none {task : Task} (h : task.IsThrough) : task.inHand = none := by
  unfold IsThrough at h
  split at h <;> first | rfl | exact h.elim

/-- Snapshots are due inside the lock only. -/
theorem due_of_not_inside {task : Task} (h : task.lockStage ≠ .inside) (s : PluginState σ) :
    task.due s = 0 := by
  unfold due
  split <;> first | rfl | exact absurd rfl h

theorem due_background {s s' : PluginState σ} (hb : s.Background s') (task : Task) :
    task.due s' = task.due s := by
  unfold due
  split <;> first | rfl | rw [hb.ledger]

theorem due_spawned [RecordStore σ] {setup : Setup} {t fresh : Nat} {s : PluginState σ}
    {task x : Task} {m : Move σ} (h : task.step? setup t fresh s = some m)
    (hx : m.spawned = some x) (s' : PluginState σ) : x.due s' = 0 := by
  rcases spawned_eq h hx with ⟨n, l, rfl⟩ | ⟨tr, -, rfl⟩
  · rfl
  · cases tr <;> rfl

end Task

/-- What an occasion brings is due until it is recorded, and there is no second one. -/
structure Task.Balance (setup : Setup) (s : PluginState σ) (task : Task) (m : Move σ) : Prop where
  due : (task.runEvent? s).toList.length + m.next.due m.state =
    task.due s + (task.isOccasion setup s).toNat
  prospects : (task.isOccasion setup s).toNat + m.next.prospects ≤ task.prospects

section Balances

variable {setup : Setup} {t : Nat} {s : PluginState σ}

theorem ReportTask.balance {s' : PluginState σ} {r r' : ReportTask}
    (h : r.step? setup t s = some (s', r')) :
    (Task.report r).Balance setup s ⟨s', .report r', none⟩ := by
  cases r with
  | record e =>
    simp only [step?] at h
    split at h
    next hnone =>
      cases h
      constructor <;> simp [Task.runEvent?, Task.isOccasion, Task.due, Task.prospects, hnone]
    next l hl =>
      split at h <;> cases h <;>
        constructor <;> simp [Task.runEvent?, Task.isOccasion, Task.due, Task.prospects, hl]
  | _ =>
    simp only [step?] at h
    (repeat' split at h) <;> cases h <;>
      constructor <;> simp [Task.runEvent?, Task.isOccasion, Task.due, Task.prospects]

theorem StartTask.balance {x : StartTask} {m : Move σ} (h : x.step? setup t s = some m) :
    (Task.start x).Balance setup s m := by
  cases x with
  | bind plugin =>
    simp only [step?] at h
    split at h
    next e hbind =>
      cases h
      have hbind' : setup.bind s.heldEndpoints = .error e := hbind
      constructor <;>
        simp [Task.runEvent?, Task.isOccasion, Task.due, Task.prospects, hbind', Except.isOk,
          Except.toBool]
    next place hbind =>
      cases h
      have hbind' : setup.bind s.heldEndpoints = .ok place := hbind
      constructor <;>
        simp [Task.runEvent?, Task.isOccasion, Task.due, Task.prospects, hbind', Except.isOk,
          Except.toBool]
  | report r =>
    simp only [step?, Option.map_eq_some_iff, Prod.exists] at h
    obtain ⟨s', r', hr, rfl⟩ := h
    obtain ⟨hdue, hprospects⟩ := ReportTask.balance hr
    constructor
    · rw [Task.runEvent?_start_report, Task.isOccasion_start_report]
      exact hdue
    · rw [Task.isOccasion_start_report, Task.prospects_start_report, Task.prospects_start_report]
      exact hprospects
  | _ =>
    simp only [step?] at h
    (repeat' split at h) <;> cases h <;>
      constructor <;> simp [Task.runEvent?, Task.isOccasion, Task.due, Task.prospects]

/-- A stop finds a server if and only if there is a ledger to close. -/
theorem StopTask.balance {s' : PluginState σ} {x x' : StopTask}
    (h : x.step? setup t s = some (s', x'))
    (hknows : ∀ n, x = enter n → s.server.isSome = s.ledger.isSome) :
    (Task.stop x).Balance setup s ⟨s', .stop x', none⟩ := by
  cases x with
  | enter n =>
    have hsame := hknows n rfl
    simp only [step?] at h
    split at h
    next m hserver =>
      cases h
      have hledger : s.ledger.isSome = true := by
        rw [← hsame]
        exact congrArg Option.isSome hserver
      have hserver' : s.server = some m := hserver
      constructor <;>
        simp [Task.runEvent?, Task.isOccasion, Task.due, Task.prospects, PluginState.logged,
          hledger, hserver']
    next hserver =>
      cases h
      have hledger : s.ledger.isSome = false := by
        rw [← hsame]
        exact congrArg Option.isSome hserver
      have hserver' : s.server = none := hserver
      constructor <;>
        simp [Task.runEvent?, Task.isOccasion, Task.due, Task.prospects, PluginState.logged,
          hledger, hserver']
  | record n =>
    simp only [step?] at h
    split at h
    next hnone =>
      cases h
      constructor <;> simp [Task.runEvent?, Task.isOccasion, Task.due, Task.prospects, hnone]
    next l hl =>
      cases h
      constructor <;> simp [Task.runEvent?, Task.isOccasion, Task.due, Task.prospects, hl]
  | _ =>
    simp only [step?] at h
    (repeat' split at h) <;> cases h <;>
      constructor <;>
        simp [Task.runEvent?, Task.isOccasion, Task.due, Task.prospects, PluginState.logged,
          PluginState.setListener]

theorem Task.balance [RecordStore σ] {fresh : Nat} {task : Task} {m : Move σ}
    (h : task.step? setup t fresh s = some m)
    (hknows : ∀ n, task = .stop (.enter n) → s.server.isSome = s.ledger.isSome) :
    task.Balance setup s m := by
  cases task with
  | call tr =>
    cases h
    constructor <;> simp [runEvent?, isOccasion, due, prospects]
  | await tr =>
    simp only [step?] at h
    split at h <;> cases h
    cases tr <;> constructor <;> simp [runEvent?, isOccasion, due, prospects, ofTransition]
  | start x => exact StartTask.balance h
  | stop x =>
    simp only [step?, Option.map_eq_some_iff, Prod.exists] at h
    obtain ⟨s', x', hx, rfl⟩ := h
    exact StopTask.balance hx fun n hn => hknows n (hn ▸ rfl)
  | report x =>
    simp only [step?, Option.map_eq_some_iff, Prod.exists] at h
    obtain ⟨s', x', hx, rfl⟩ := h
    exact ReportTask.balance hx
  | listen x =>
    cases x <;> simp only [step?, ListenTask.step?] at h <;> (repeat' split at h) <;> cases h <;>
      constructor <;> simp [runEvent?, isOccasion, due, prospects]
  | serve x | keeper x | courier x =>
    simp only [step?, Option.map_eq_some_iff] at h
    obtain ⟨_, -, rfl⟩ := h
    constructor <;> simp [runEvent?, isOccasion, due, prospects]

end Balances

namespace Instance

/-! ## What one task has done -/

/-- A task found in a turn that there was something to take a snapshot of. -/
def Turn.isOccasion (w : Turn σ) : Bool :=
  w.before.tasks[w.task]?.any (Task.isOccasion w.before.setup w.before.state)

theorem isOccasion_of_getElem? {w : Turn σ} {task : Task}
    (h : w.before.tasks[w.task]? = some task) :
    w.isOccasion = task.isOccasion w.before.setup w.before.state := by
  rw [Turn.isOccasion, h, Option.any_some]

/-- How many occasions a task has come upon. -/
def occasions (ts : List (Turn σ)) (t : Nat) : Nat :=
  ts.countP fun w => w.task == t && w.isOccasion

/-- The snapshots that a task has taken, oldest first. -/
def takenBy (ts : List (Turn σ)) (t : Nat) : List Ledger :=
  taken (ts.filter (·.task == t))

/-- The snapshots that a task has queued, oldest first. -/
def queuedBy (ts : List (Turn σ)) (t : Nat) : List Ledger :=
  queued (ts.filter (·.task == t))

theorem filter_task_concat (ts : List (Turn σ)) (w : Turn σ) (t : Nat) :
    (ts ++ [w]).filter (·.task == t) =
      ts.filter (·.task == t) ++ if w.task = t then [w] else [] := by
  rw [List.filter_append]
  by_cases h : w.task = t <;> simp [h]

theorem takenBy_concat (ts : List (Turn σ)) (w : Turn σ) (t : Nat) :
    takenBy (ts ++ [w]) t = takenBy ts t ++ if w.task = t then w.taken?.toList else [] := by
  rw [takenBy, filter_task_concat]
  split
  · rw [taken_concat]
    rfl
  · rw [List.append_nil, List.append_nil]
    rfl

theorem queuedBy_concat (ts : List (Turn σ)) (w : Turn σ) (t : Nat) :
    queuedBy (ts ++ [w]) t = queuedBy ts t ++ if w.task = t then w.queued else [] := by
  rw [queuedBy, filter_task_concat]
  split
  · rw [queued_concat]
    rfl
  · rw [List.append_nil, List.append_nil]
    rfl

theorem occasions_concat (ts : List (Turn σ)) (w : Turn σ) (t : Nat) :
    occasions (ts ++ [w]) t = occasions ts t + if w.task = t then w.isOccasion.toNat else 0 := by
  rw [occasions, List.countP_append, occasions]
  by_cases h : w.task = t
  · cases hw : w.isOccasion <;> simp [h, hw]
  · simp [h]

/-- How many snapshots the task of a number is yet to take. -/
def due (j : Instance σ) (t : Nat) : Nat := (j.tasks[t]?.map (Task.due j.state)).getD 0

/-- How many occasions the task of a number may yet come upon. -/
def prospects (j : Instance σ) (t : Nat) : Nat := (j.tasks[t]?.map Task.prospects).getD 1

theorem due_of_getElem? {j : Instance σ} {t : Nat} {task : Task} (h : j.tasks[t]? = some task) :
    j.due t = task.due j.state := by
  rw [due, h, Option.map_some, Option.getD_some]

theorem prospects_of_getElem? {j : Instance σ} {t : Nat} {task : Task}
    (h : j.tasks[t]? = some task) : j.prospects t = task.prospects := by
  rw [prospects, h, Option.map_some, Option.getD_some]

/-- The occasions of each task, and what has become of them. -/
structure Balanced (ts : List (Turn σ)) (j : Instance σ) : Prop where
  /-- What was queued or is in hand was taken. -/
  handed : ∀ t, queuedBy ts t ++ (j.inHand t).toList = takenBy ts t
  /-- What was not taken is due. -/
  accounted : ∀ t, (takenBy ts t).length + j.due t = occasions ts t
  /-- Nobody has a second occasion. -/
  once : ∀ t, occasions ts t + j.prospects t ≤ 1

theorem Fresh.balanced {i : Instance σ} (h : i.Fresh) : Balanced [] i := by
  refine ⟨fun t => ?_, fun t => ?_, fun t => ?_⟩
  · cases ht : i.tasks[t]? with
    | none =>
      rw [inHand, ht]
      rfl
    | some task =>
      rw [inHand_of_getElem? ht]
      rcases h.eq_of_getElem? ht with rfl | rfl | rfl <;> rfl
  · cases ht : i.tasks[t]? with
    | none =>
      rw [due, ht]
      rfl
    | some task =>
      rw [due_of_getElem? ht]
      rcases h.eq_of_getElem? ht with rfl | rfl | rfl <;> rfl
  · cases ht : i.tasks[t]? with
    | none =>
      rw [prospects, ht]
      exact Nat.le_refl 1
    | some task =>
      rw [prospects_of_getElem? ht, occasions, List.countP_nil, Nat.zero_add]
      exact Task.prospects_le_one task

/-- Who may yet come upon an occasion has taken nothing. -/
theorem Balanced.takenBy_eq_nil {ts : List (Turn σ)} {j : Instance σ} {t : Nat} {task : Task}
    (h : Balanced ts j) (ht : j.tasks[t]? = some task) (hprospects : task.prospects = 1) :
    takenBy ts t = [] := by
  have haccounted := h.accounted t
  have honce := h.once t
  rw [prospects_of_getElem? ht, hprospects] at honce
  exact List.eq_nil_of_length_eq_zero (by omega)

theorem Balanced.act {ts : List (Turn σ)} {j : Instance σ} (h : Balanced ts j) (a : HostAction) :
    Balanced ts (j.act a) := by
  have hb := PluginState.background_act j.state a
  have hdue : ∀ t, (j.act a).due t = j.due t := by
    intro t
    rw [due, getElem?_tasks_act, state_act]
    split
    next ht =>
      rw [ht, due, List.getElem?_eq_none (Nat.le_refl _)]
      cases a <;> rfl
    · rw [due]
      cases j.tasks[t]? with
      | none => rfl
      | some task => exact Task.due_background hb task
  have hprospects : ∀ t, (j.act a).prospects t ≤ j.prospects t := by
    intro t
    rw [prospects, getElem?_tasks_act]
    split
    next ht =>
      rw [ht, prospects, List.getElem?_eq_none (Nat.le_refl _)]
      cases a <;> exact Nat.le_refl 1
    · exact Nat.le_refl _
  refine ⟨fun t => ?_, fun t => ?_, fun t => ?_⟩
  · rw [inHand_act]
    exact h.handed t
  · rw [hdue]
    exact h.accounted t
  · exact Nat.le_trans (Nat.add_le_add_left (hprospects t) _) (h.once t)

variable [RecordStore σ] {i j k : Instance σ} {ts : List (Turn σ)} {t : Nat}

/-- What a task has queued and what it has in hand make up what it has taken. -/
theorem handed_step (h : ∀ u, queuedBy ts u ++ (j.inHand u).toList = takenBy ts u)
    (hs : j.step? t = some k) (u : Nat) :
    queuedBy (ts ++ [⟨t, j, k⟩]) u ++ (k.inHand u).toList = takenBy (ts ++ [⟨t, j, k⟩]) u := by
  have hu := h u
  rw [queuedBy_concat, takenBy_concat]
  by_cases hut : t = u
  · subst hut
    rw [if_pos rfl, if_pos rfl]
    cases Turn.effect hs with
    | keep htaken hqueued hhands => rw [htaken, hqueued, hhands, List.append_nil, hu]; simp
    | take l htaken hqueued hhand hhands =>
      have hhand : j.inHand t = none := hhand
      rw [hhand, Option.toList_none, List.append_nil] at hu
      rw [htaken, hqueued, hhands, if_pos rfl, List.append_nil, hu]
    | queue l htaken hqueued hhand hhands =>
      have hhand : j.inHand t = some l := hhand
      rw [hhand] at hu
      rw [htaken, hqueued, hhands, if_pos rfl, ← hu]
      simp
  · have hhands : k.inHand u = j.inHand u := by
      cases Turn.effect hs with
      | keep _ _ hhands => exact hhands u
      | take _ _ _ _ hhands | queue _ _ _ _ hhands => rw [hhands, if_neg (Ne.symm hut)]
    rw [if_neg hut, if_neg hut, hhands, List.append_nil, List.append_nil, hu]

/-- While a task is inside the lock, no turn of another opens or discards a ledger. -/
theorem Coherent.background_of_inside (h : j.Coherent) (hs : j.step? t = some k) {u : Nat}
    {task : Task} (hu : u ≠ t) (htask : j.tasks[u]? = some task) (hin : task.lockStage = .inside) :
    j.state.Background k.state := by
  have hheld := h.lock.holder_of_inside u ((lockStage_of_getElem? htask).trans hin)
  obtain ⟨task', m, htask', hm, rfl⟩ := step?_eq_some_iff.1 hs
  rw [state_move]
  refine Task.background hm fun hin' => ?_
  exact h.lock.not_inside hheld (Ne.symm hu) ((lockStage_of_getElem? htask').trans hin')

/-- A turn of one task changes neither what is due from another nor its prospects. -/
theorem Coherent.due_of_ne (h : j.Coherent) (hs : j.step? t = some k) {u : Nat} (hu : u ≠ t) :
    k.due u = j.due u ∧ k.prospects u ≤ j.prospects u := by
  have hstep := hs
  obtain ⟨task, m, htask, hm, rfl⟩ := step?_eq_some_iff.1 hs
  have htasks := getElem?_tasks_move (List.getElem?_eq_some_iff.1 htask).1 m u
  rw [if_neg hu] at htasks
  by_cases hnew : u = j.tasks.length
  · -- the task that was set off
    rw [if_pos hnew] at htasks
    have hnone : j.tasks[u]? = none := by rw [hnew]; exact List.getElem?_eq_none (Nat.le_refl _)
    rw [due, prospects, due, prospects, htasks, hnone]
    cases hx : m.spawned with
    | none => exact ⟨rfl, Nat.le_refl _⟩
    | some x => exact ⟨Task.due_spawned hm hx _, x.prospects_le_one⟩
  · rw [if_neg hnew] at htasks
    rw [due, prospects, due, prospects, htasks]
    refine ⟨?_, Nat.le_refl _⟩
    cases hother : j.tasks[u]? with
    | none => rfl
    | some other =>
      -- what is due depends on the live ledger only inside the lock, and there nobody else is
      by_cases hin : other.lockStage = .inside
      · exact Task.due_background (h.background_of_inside hstep hu hother hin) other
      · rw [Option.map_some, Option.map_some, Task.due_of_not_inside hin,
          Task.due_of_not_inside hin]

omit [RecordStore σ] in
/-- A stop that has just got the lock finds a server if and only if there is a ledger. -/
theorem Coherent.server_of_enter (h : j.Coherent) {n : String}
    (htask : j.tasks[t]? = some (.stop (.enter n))) :
    j.state.server.isSome = j.state.ledger.isSome := by
  have hrest : j.state.AtRest := h.inside t _ htask rfl
  rcases hrest with ⟨-, ⟨m, hserver, -⟩, hledger⟩ | ⟨-, hserver, -, hledger⟩
  · rw [hserver, hledger]
    rfl
  · rw [hserver, hledger]
    rfl

theorem Balanced.step (h : Balanced ts j) (hc : j.Coherent)
    (htold : Told j.setup.equipment.argosId ts j) (hs : j.step? t = some k) :
    Balanced (ts ++ [⟨t, j, k⟩]) k := by
  have hrecords := (htold.step hs).2.1
  have hothers : ∀ u, u ≠ t → k.due u = j.due u ∧ k.prospects u ≤ j.prospects u :=
    fun u hu => hc.due_of_ne hs hu
  obtain ⟨task, m, htask, hm, hmove⟩ := step?_eq_some_iff.1 hs
  have hnext : k.tasks[t]? = some m.next := by
    rw [← hmove, getElem?_tasks_move (List.getElem?_eq_some_iff.1 htask).1, if_pos rfl]
  obtain ⟨hdue, hprospects⟩ := Task.balance hm fun n hn => hc.server_of_enter (hn ▸ htask)
  have hstate : k.state = m.state := by rw [← hmove, state_move]
  have hlength : (⟨t, j, k⟩ : Turn σ).taken?.toList.length =
      (task.runEvent? j.state).toList.length := by
    rw [runEvent?_of_getElem? htask] at hrecords
    rw [Option.length_toList, Option.length_toList, hrecords]
  have hoccasion : (⟨t, j, k⟩ : Turn σ).isOccasion = task.isOccasion j.setup j.state :=
    isOccasion_of_getElem? htask
  refine ⟨handed_step h.handed hs, fun u => ?_, fun u => ?_⟩
  · have hu := h.accounted u
    rw [takenBy_concat, occasions_concat, List.length_append]
    by_cases hut : t = u
    · subst hut
      rw [if_pos rfl, if_pos rfl, hlength, hoccasion, due_of_getElem? hnext, hstate]
      rw [due_of_getElem? htask] at hu
      omega
    · rw [if_neg hut, if_neg hut, (hothers u (Ne.symm hut)).1]
      exact hu
  · have hu := h.once u
    rw [occasions_concat]
    by_cases hut : t = u
    · subst hut
      rw [if_pos rfl, hoccasion, prospects_of_getElem? hnext]
      rw [prospects_of_getElem? htask] at hu
      omega
    · rw [if_neg hut]
      have hmore := (hothers u (Ne.symm hut)).2
      omega

theorem balanced_of_history (hi : i.Fresh) (h : i.History ts j) : Balanced ts j := by
  induction h with
  | refl => exact hi.balanced
  | @step ts j k t h hs ih =>
    have hreach : i.Reachable j := reachable_iff_history.2 ⟨ts, h⟩
    have htold := told_of_history hi h
    rw [← setup_of_reachable hreach] at htold
    exact ih.step (coherent_of_reachable hi hreach) htold hs
  | act _ a ih => exact ih.act a

end Instance

end PluginKernel
