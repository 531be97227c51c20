import PluginKernel.Proofs.Instance.Chronicle

/-!
# Which run an error is charged to

An error is charged to the run that is live when its report looks at the ledger, and that may be
some time after it was raised. A failed start looks only after it has released the lock; until then
another start may have opened a run of its own, and the error is charged to that one.

So an error is charged to the run in which it was raised, unless a run was opened in between. The
error of a failed start is charged to another run or to none, for there is no live run while a start
fails.
-/

namespace PluginKernel

variable {σ : Type}

namespace Task

/-- The error that a task has to report, as long as it is not recorded. -/
def error? : Task → Option PluginError
  | start (.fail _ e) | start (.giveUp _ e) => some e
  | start (.report (.check e)) | start (.report (.record e)) => some e
  | report (.check e) | report (.record e) => some e
  | _ => none

/-- A task has an error to report because it had it before or because no server could be brought
up. -/
theorem error?_next [RecordStore σ] {setup : Setup} {t fresh : Nat} {s : PluginState σ}
    {task : Task} {m : Move σ} (h : task.step? setup t fresh s = some m) {e : PluginError}
    (he : m.next.error? = some e) :
    task.error? = some e ∨ ∃ n, task = .start (.bind n) ∧ m.next = .start (.fail n e) := by
  cases task with
  | call tr => cases h; cases he
  | await tr =>
    simp only [step?] at h
    split at h <;> cases h
    cases tr <;> cases he
  | start x =>
    cases x with
    | bind n =>
      simp only [step?, StartTask.step?] at h
      split at h <;> cases h
      · cases he
        exact .inr ⟨n, rfl, rfl⟩
      · cases he
    | report r =>
      simp only [step?, StartTask.step?, Option.map_eq_some_iff, Prod.exists] at h
      obtain ⟨s', r', hr, rfl⟩ := h
      cases r <;> simp only [ReportTask.step?] at hr <;> (repeat' split at hr) <;> cases hr <;>
        first | exact .inl he | cases he
    | fail n e' | giveUp n e' =>
      simp only [step?, StartTask.step?] at h
      cases h
      exact .inl he
    | _ =>
      simp only [step?, StartTask.step?] at h
      (repeat' split at h) <;> cases h <;> cases he
  | report r =>
    simp only [step?, Option.map_eq_some_iff, Prod.exists] at h
    obtain ⟨s', r', hr, rfl⟩ := h
    cases r <;> simp only [ReportTask.step?] at hr <;> (repeat' split at hr) <;> cases hr <;>
      first | exact .inl he | cases he
  | listen x =>
    cases x <;> simp only [step?, ListenTask.step?] at h <;> (repeat' split at h) <;> cases h <;>
      cases he
  | _ =>
    simp only [step?, Option.map_eq_some_iff] at h
    obtain ⟨_, -, rfl⟩ := h
    cases he

/-- Errors are recorded by those who have them to report, and they might have found no ledger. -/
theorem of_failed {s : PluginState σ} {task : Task} {e : PluginError}
    (h : task.runEvent? s = some (.failed e)) :
    task.error? = some e ∧ task.prospects = 1 ∧ s.ledger.isSome = true := by
  unfold runEvent? at h
  split at h
  · cases h
  · obtain ⟨l, hl, he⟩ := Option.map_eq_some_iff.1 h
    cases he
    exact ⟨rfl, rfl, by rw [hl]; rfl⟩
  · obtain ⟨l, hl, he⟩ := Option.map_eq_some_iff.1 h
    cases he
    exact ⟨rfl, rfl, by rw [hl]; rfl⟩
  · obtain ⟨l, -, he⟩ := Option.map_eq_some_iff.1 h
    cases he
  · cases h

theorem ledger_of_stopped [RecordStore σ] {setup : Setup} {t fresh : Nat} {s : PluginState σ}
    {task : Task} {m : Move σ} (h : task.step? setup t fresh s = some m) {n : String}
    (he : task.runEvent? s = some (.stopped n)) : m.state.ledger = none := by
  unfold runEvent? at he
  split at he
  · cases he
  · obtain ⟨l, -, he⟩ := Option.map_eq_some_iff.1 he
    cases he
  · obtain ⟨l, -, he⟩ := Option.map_eq_some_iff.1 he
    cases he
  · obtain ⟨l, hl, -⟩ := Option.map_eq_some_iff.1 he
    simp only [step?, StopTask.step?, hl, Option.map_some, Option.some.injEq] at h
    rw [← h]
  · cases he

theorem error?_spawned [RecordStore σ] {setup : Setup} {t fresh : Nat} {s : PluginState σ}
    {task x : Task} {m : Move σ} (h : task.step? setup t fresh s = some m)
    (hx : m.spawned = some x) : x.error? = none := by
  rcases spawned_eq h hx with ⟨n, l, rfl⟩ | ⟨tr, -, rfl⟩
  · rfl
  · cases tr <;> rfl

end Task

namespace Instance

/-- An error is raised for the task of a number to report: the host reports it, or no server can be
brought up. -/
inductive Event.Raises (t : Nat) (e : PluginError) : Event σ → Prop where
  | report {j : Instance σ} (ht : j.tasks.length = t) : Raises t e (.action j (.report e))
  | failure {w : Turn σ} {n : String} (ht : w.task = t)
      (hbefore : w.before.tasks[t]? = some (.start (.bind n)))
      (hafter : w.after.tasks[t]? = some (.start (.fail n e))) : Raises t e (.turn w)

/-- Whatever there is to report was raised. -/
def AllRaised (es : List (Event σ)) (j : Instance σ) : Prop :=
  ∀ (t : Nat) (task : Task) (e : PluginError), j.tasks[t]? = some task → task.error? = some e →
    ∃ r ∈ es, Event.Raises t e r

variable {i j k : Instance σ} {es mid : List (Event σ)} {t : Nat}

theorem AllRaised.act (h : AllRaised es j) (a : HostAction) :
    AllRaised (es ++ [.action j a]) (j.act a) := by
  intro u task e hu he
  rw [getElem?_tasks_act] at hu
  split at hu
  next hul =>
    cases a <;> cases hu <;> cases he
    exact ⟨_, List.mem_concat_self, .report hul.symm⟩
  · obtain ⟨r, hr, hraises⟩ := h u task e hu he
    exact ⟨r, List.mem_append_left _ hr, hraises⟩

variable [RecordStore σ]

theorem AllRaised.step (h : AllRaised es j) (hs : j.step? t = some k) :
    AllRaised (es ++ [.turn ⟨t, j, k⟩]) k := by
  obtain ⟨task, m, htask, hm, rfl⟩ := step?_eq_some_iff.1 hs
  have htasks := getElem?_tasks_move (List.getElem?_eq_some_iff.1 htask).1 m
  intro u task' e hu he
  have hafter := hu
  rw [htasks] at hu
  split at hu
  next hut =>
    cases hu
    rw [hut] at hafter ⊢
    rcases Task.error?_next hm he with hold | ⟨n, rfl, hnext⟩
    · obtain ⟨r, hr, hraises⟩ := h t task e htask hold
      exact ⟨r, List.mem_append_left _ hr, hraises⟩
    · rw [hnext] at hafter
      exact ⟨_, List.mem_concat_self, .failure rfl htask hafter⟩
  · split at hu
    · rw [Task.error?_spawned hm hu] at he
      cases he
    · obtain ⟨r, hr, hraises⟩ := h u task' e hu he
      exact ⟨r, List.mem_append_left _ hr, hraises⟩

theorem allRaised_of_course (hi : i.Fresh) (h : i.Course es j) : AllRaised es j := by
  induction h with
  | refl =>
    intro t task e ht he
    rcases hi.eq_of_getElem? ht with rfl | rfl | rfl <;> cases he
  | turn _ hs ih => exact ih.step hs
  | action _ a ih => exact ih.act a

/-! ## Runs that are opened in between -/

/-- If there is a live ledger and there was none before, a start has opened it. -/
theorem Course.exists_started (h : k.Course mid j) (hk : k.state.ledger = none)
    (hj : j.state.ledger.isSome) :
    ∃ x ∈ turnsOf mid, ∃ n, x.runEvent? = some (.started n) := by
  induction h with
  | refl =>
    rw [hk] at hj
    cases hj
  | @turn es j j' t h hs ih =>
    rw [turnsOf_turn]
    cases hledger : j.state.ledger with
    | some l =>
      obtain ⟨x, hx, hstarted⟩ := ih (by rw [hledger]; rfl)
      exact ⟨x, List.mem_append_left _ hx, hstarted⟩
    | none =>
      obtain ⟨task, m, htask, hm, rfl⟩ := step?_eq_some_iff.1 hs
      rw [state_move] at hj
      refine ⟨_, List.mem_concat_self, ?_⟩
      rw [runEvent?_of_getElem? htask]
      have heffect := Task.runEffect hm fun l hl => by
        rw [hledger] at hl
        cases hl
      cases heffect with
      | silent _ hnext =>
        rw [(Task.ledgerEffect hm).ledger_eq hnext, hledger] at hj
        cases hj
      | start n hevent => exact ⟨n, hevent⟩
      | fail _ _ _ _ _ hlive | stop _ _ _ _ hlive =>
        rw [hledger] at hlive
        cases hlive
  | @action es j h a ih =>
    have hb := PluginState.background_act j.state a
    rw [state_act, hb.ledger] at hj
    rw [turnsOf_action]
    exact ih hj

/-- If a run was closed and there is a live ledger again, a start has opened it. -/
theorem Course.exists_started_of_stopped (h : k.Course mid j) (hj : j.state.ledger.isSome)
    {x : Turn σ} (hx : x ∈ turnsOf mid) {n : String} (hstopped : x.runEvent? = some (.stopped n)) :
    ∃ y ∈ turnsOf mid, ∃ n, y.runEvent? = some (.started n) := by
  obtain ⟨past, rest, rfl⟩ := List.append_of_mem (mem_turnsOf.1 hx)
  obtain ⟨past', rest', hts⟩ := List.append_of_mem hx
  have hhistory := h.history
  rw [hts] at hhistory
  obtain ⟨task, m, htask, hm, hafter⟩ := step?_eq_some_iff.1 hhistory.of_append.2
  rw [runEvent?_of_getElem? htask] at hstopped
  have hnone : x.after.state.ledger = none := by
    rw [← hafter, state_move]
    exact Task.ledger_of_stopped hm hstopped
  obtain ⟨y, hy, hstarted⟩ := h.of_append.2.2.exists_started hnone hj
  refine ⟨y, mem_turnsOf.2 ?_, hstarted⟩
  exact List.mem_append_right _ (List.mem_cons_of_mem _ (mem_turnsOf.1 hy))

omit [RecordStore σ] in
/-- While a start fails there is no live ledger. -/
theorem Coherent.ledger_of_failing (h : j.Coherent) {n : String}
    (ht : j.tasks[t]? = some (.start (.bind n)) ∨ ∃ e, j.tasks[t]? = some (.start (.fail n e))) :
    j.state.ledger = none := by
  rcases ht with ht | ⟨e, ht⟩
  · exact (h.inside t _ ht rfl).2.2.2
  · exact (h.inside t _ ht rfl).2.2.2

omit [RecordStore σ] in
/-- Raising an error does not open a run. -/
theorem Event.Raises.ledger_after {r : Event σ} {e : PluginError} (h : r.Raises t e)
    (hc : r.after.Coherent) (hnone : r.before.state.ledger = none) :
    r.after.state.ledger = none := by
  cases h with
  | report => exact hnone
  | failure ht hbefore hafter => exact hc.ledger_of_failing (.inr ⟨e, hafter⟩)

/-- An error is charged to the ledger that is live when its report looks at it. If no start was
recorded since the error was raised, that is the ledger of the run in which it was raised: there was
a live ledger then, and no stop was recorded since. The error of a failed start is charged only if
another start was recorded in between. -/
theorem charged_unless_restarted {w : Turn σ} {e : PluginError} (hi : i.Fresh) (h : i.Course es j)
    (hw : w ∈ turnsOf es) (he : w.runEvent? = some (.failed e)) :
    w.before.state.ledger.isSome ∧
      ∃ past r mid rest, es = past ++ r :: (mid ++ .turn w :: rest) ∧ Event.Raises w.task e r ∧
        ((∀ x ∈ turnsOf mid, ∀ n, x.runEvent? ≠ some (.started n)) →
          r.before.state.ledger.isSome ∧
            ∀ x ∈ turnsOf mid, ∀ n, x.runEvent? ≠ some (.stopped n)) ∧
        (∀ x, r = .turn x → x.before.state.ledger = none ∧
          ∃ y ∈ turnsOf mid, y.task ≠ w.task ∧ ∃ n, y.runEvent? = some (.started n)) := by
  obtain ⟨task, htask, hrecords⟩ := Option.bind_eq_some_iff.1 he
  obtain ⟨herror, hprospects, hlive⟩ := Task.of_failed hrecords
  obtain ⟨front, rest, rfl⟩ := List.append_of_mem (mem_turnsOf.1 hw)
  have hfront := h.of_append.1
  obtain ⟨r, hr, hraises⟩ := allRaised_of_course hi hfront _ _ _ htask herror
  obtain ⟨past, mid, rfl⟩ := List.append_of_mem hr
  obtain ⟨hpast, hnow, hmid⟩ := hfront.of_append
  -- between raising and charging the live ledger can only have come from a start
  have hopened : r.before.state.ledger = none →
      ∃ y ∈ turnsOf mid, ∃ n, y.runEvent? = some (.started n) := by
    intro hnone
    have hc := coherent_of_reachable hi hnow.reachable
    exact hmid.exists_started (hraises.ledger_after hc hnone) hlive
  refine ⟨hlive, past, r, mid, rest, by simp, hraises, fun hnone => ⟨?_, fun x hx n hn => ?_⟩,
    fun x hx => ?_⟩
  · cases hledger : r.before.state.ledger with
    | some l => rfl
    | none =>
      obtain ⟨y, hy, n, hn⟩ := hopened hledger
      exact absurd hn (hnone y hy n)
  · obtain ⟨y, hy, m, hm⟩ := hmid.exists_started_of_stopped hlive hx hn
    exact hnone y hy m hm
  · have hledger : r.before.state.ledger = none := by
      cases hraises with
      | report => cases hx
      | failure ht hbefore =>
        exact (coherent_of_reachable hi hpast.reachable).ledger_of_failing (.inl hbefore)
    obtain ⟨y, hy, n, hn⟩ := hopened hledger
    subst hx
    refine ⟨hledger, y, hy, fun hsame => ?_, n, hn⟩
    -- a task that has an error to report has opened no run itself
    have hhistory := hfront.history
    have hmem : y ∈ turnsOf (past ++ .turn x :: mid) :=
      mem_turnsOf.2 (List.mem_append_right _ (List.mem_cons_of_mem _ (mem_turnsOf.1 hy)))
    have hnothing := (balanced_of_history hi hhistory).takenBy_eq_nil htask hprospects
    obtain ⟨before, after, hts⟩ := List.append_of_mem hmem
    have hrecorded := (told_of_turn hi (hts ▸ hhistory)).1
    rw [hn] at hrecorded
    obtain ⟨l, hl⟩ := Option.isSome_iff_exists.1 hrecorded
    have htaken : l ∈ takenBy (turnsOf (past ++ .turn x :: mid)) w.task :=
      List.mem_filterMap.2 ⟨y, List.mem_filter.2 ⟨hmem, by simp [hsame]⟩, hl⟩
    rw [hnothing] at htaken
    cases htaken

/-- An error that the host reports during a start is charged to the run that the start opens. -/
theorem charged_in_reportedStart : ∃ (es : List (Event Store.Tree)) (w : Turn Store.Tree),
    (initial sampleSetup 16 Store.Tree.empty).Course (es ++ [.turn w]) w.after ∧
      w.runEvent? = some (.failed (.other "disk full")) ∧ w.before.state.ledger.isSome ∧
        ∃ r ∈ es ++ [.turn w], Event.Raises w.task (.other "disk full") r := by
  have hrun : ((reportedStart.steps? [3, 3, 3, 3, 3, 3, 3, 3, 3, 3, 4]).bind fun j =>
      (j.step? 4).map fun _ => (j.tasks[4]?, j.state.ledger)) =
        some (some (.report (.record (.other "disk full"))),
          some (Ledger.start "argos-1" "p1" 0)) := by
    with_unfolding_all rfl
  obtain ⟨j, hj, hseen⟩ := Option.bind_eq_some_iff.1 hrun
  obtain ⟨k, hk, hseen⟩ := Option.map_eq_some_iff.1 hseen
  obtain ⟨htask, hledger⟩ := Prod.mk.inj hseen
  have hcourse := ((Course.refl (i := initial sampleSetup 16 Store.Tree.empty)).action
    (.call (.start "p1"))).action (.report (.other "disk full")) |>.turns hj
  have hrecords : (⟨4, j, k⟩ : Turn Store.Tree).runEvent? =
      some (.failed (.other "disk full")) := by
    rw [runEvent?_of_getElem? htask, Task.runEvent?, hledger, Option.map_some]
  obtain ⟨hlive, past, r, mid, rest, hes, hraises, -⟩ :=
    charged_unless_restarted (fresh_initial _ _ _) (hcourse.turn hk) (mem_turnsOf_turn _ _) hrecords
  refine ⟨_, _, hcourse.turn hk, hrecords, hlive, r, ?_, hraises⟩
  rw [hes]
  exact List.mem_append_right _ List.mem_cons_self

/-! ## Two starts -/

/-- The place that the sample setup listens on. -/
def samplePlace : Endpoint := ⟨.any, 8443⟩

/-- A start is called for while somebody else holds the place. -/
def blockedStart : Instance Store.Tree :=
  ((initial sampleSetup 16 .empty).act (.occupy samplePlace)).act (.call (.start "p1"))

/-- What the start finds. -/
def inUse : PluginError := .bind "0.0.0.0:8443" "Address already in use (os error 98)"

/-- The start fails and releases the lock. -/
def failingTurns : List Nat := [3, 3, 3, 3, 3, 3]

/-- The place is free again, and another start is called for. -/
def secondStart (i : Instance Store.Tree) : Instance Store.Tree :=
  (i.act (.vacate samplePlace)).act (.call (.start "p2"))

/-- The second start succeeds before the report of the first one looks at the ledger. -/
def succeedingTurns : List Nat := [4, 4, 4, 4, 4, 4, 4, 4, 4, 4, 3]

/-- A failed start adds a failure to the run of another start. -/
theorem failed_start_charged_to_second : ∃ (es : List (Event Store.Tree)) (w : Turn Store.Tree),
    (initial sampleSetup 16 Store.Tree.empty).Course (es ++ [.turn w]) w.after ∧
      w.before.tasks[w.task]? = some (.start (.report (.record inUse))) ∧
      w.before.state.ledger = some (Ledger.start "argos-1" "p2" 0) ∧
      (w.after.state.ledger.map fun l => l.statistics.map fun s => (s.milestone, s.mode)) =
        some [(⟨"System", "p2", "Start up", "1"⟩, 1),
          (⟨"System", "p2", "Start up Failure", "1"⟩, 2)] := by
  have hrun : ((blockedStart.steps? failingTurns).bind fun i =>
      ((secondStart i).steps? succeedingTurns).bind fun j => (j.step? 3).map fun k =>
        (j.tasks[3]?, j.state.ledger,
          k.state.ledger.map fun l => l.statistics.map fun s => (s.milestone, s.mode))) =
      some (some (.start (.report (.record inUse))), some (Ledger.start "argos-1" "p2" 0),
        some [(⟨"System", "p2", "Start up", "1"⟩, 1),
          (⟨"System", "p2", "Start up Failure", "1"⟩, 2)]) := by
    with_unfolding_all rfl
  obtain ⟨i, hi, hseen⟩ := Option.bind_eq_some_iff.1 hrun
  obtain ⟨j, hj, hseen⟩ := Option.bind_eq_some_iff.1 hseen
  obtain ⟨k, hk, hseen⟩ := Option.map_eq_some_iff.1 hseen
  simp only [Prod.mk.injEq] at hseen
  obtain ⟨htask, hledger, hcharged⟩ := hseen
  have hfails := ((Course.refl (i := initial sampleSetup 16 Store.Tree.empty)).action
    (.occupy samplePlace)).action (.call (.start "p1")) |>.turns hi
  have hsucceeds := (hfails.action (.vacate samplePlace)).action (.call (.start "p2")) |>.turns hj
  exact ⟨_, ⟨3, j, k⟩, hsucceeds.turn hk, htask, hledger, hcharged⟩

end Instance

end PluginKernel
