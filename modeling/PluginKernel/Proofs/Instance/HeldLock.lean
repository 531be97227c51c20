import PluginKernel.Proofs.Instance.Attendance
import PluginKernel.Proofs.Instance.Outlet
import PluginKernel.Proofs.Instance.Waiting

/-!
# Whoever holds the lifecycle lock may wait for the host

No task sends anything to the host while it is inside the lifecycle lock. But a stop waits inside
for its server, and a server acknowledges the start before it looks whether it has been told to
stop. So if the host has left no room for that acknowledgment, the stop holds the lock until the
host reads: it is *held up*. `heldUp_iff` says that there is no other way to be held up.
-/

namespace PluginKernel

variable {σ : Type}

/-- A server waits until its host has made room for an acknowledgment. -/
def ServeTask.AwaitsHost (t : Nat) (s : PluginState σ) : ServeTask → Prop
  | greet _ _ => s.acks.hasReceiver = true ∧ s.acks.hasRoom = false
  | wait _ => s.acks.hasReceiver = true ∧ s.acks.isWaiting t = true
  | _ => False

namespace Queue

variable {α : Type} {q q' : Queue α} {t u : Nat} {sent : Option α}

/-- Tasks that send to a full queue do not make room. -/
theorem hasRoom_takes (h : Takes t q q' sent) (hopen : q.hasReceiver = true)
    (hfull : q.hasRoom = false) : q'.hasRoom = false := by
  cases h with
  | keep he | refuse _ he => rw [he, hfull]
  | accept ha =>
    obtain ⟨-, rfl⟩ := accepts_iff.1 ha
    rw [if_neg (by simp [hfull])]
    exact hfull
  | resume taken hr => rw [(eq_of_resume? hr hopen).2, hfull]

/-- Tasks that send to a queue do not take others out of its line. -/
theorem isWaiting_takes (h : Takes t q q' sent) (hopen : q.hasReceiver = true)
    (hwaits : q.isWaiting u = true) : q'.isWaiting u = true := by
  cases h with
  | keep he | refuse _ he => rw [he, hwaits]
  | accept ha =>
    have hnone := resume?_eq_none_iff.2 ⟨hwaits, hopen⟩
    exact (resume?_eq_none_iff.1 (ha.resume?_eq_none hnone)).1
  | resume taken hr => rw [(eq_of_resume? hr hopen).2, hwaits]

end Queue

/-- Who waits for its host goes on waiting while other tasks take turns. -/
theorem ServeTask.AwaitsHost.of_takes {t u : Nat} {s s' : PluginState σ} {x : ServeTask}
    {sent : Option Command} (h : x.AwaitsHost u s) (ht : Queue.Takes t s.acks s'.acks sent) :
    x.AwaitsHost u s' := by
  cases x with
  | greet plugin n =>
    obtain ⟨hopen, hfull⟩ := h
    exact ⟨(Queue.hasReceiver_takes ht).trans hopen, Queue.hasRoom_takes ht hopen hfull⟩
  | wait n =>
    obtain ⟨hopen, hwaits⟩ := h
    exact ⟨(Queue.hasReceiver_takes ht).trans hopen, Queue.isWaiting_takes ht hopen hwaits⟩
  | _ => exact h

/-- A turn of a server that waits for its host ends with the server in line. -/
theorem ServeTask.AwaitsHost.step? {u : Nat} {s s' : PluginState σ} {x x' : ServeTask}
    (h : x.AwaitsHost u s) (hs : x.step? u s = some (s', x')) :
    x'.AwaitsHost u s' ∧ x'.listener? = x.listener? := by
  cases x with
  | greet plugin n =>
    obtain ⟨hopen, hfull⟩ := h
    have hsend : s.acks.send u ⟨plugin, .start⟩ =
        .waits { s.acks with waiting := s.acks.waiting ++ [(u, ⟨plugin, .start⟩)] } := by
      simp [Queue.send, hopen, hfull]
    simp only [ServeTask.step?, hsend] at hs
    cases hs
    exact ⟨⟨hopen, by simp [Queue.isWaiting]⟩, rfl⟩
  | wait n =>
    obtain ⟨hopen, hwaits⟩ := h
    simp only [ServeTask.step?, Queue.resume?_eq_none_iff.2 ⟨hwaits, hopen⟩] at hs
    cases hs
  | _ => cases h

theorem ServeTask.greet_opens {u n : Nat} {s : PluginState σ} {plugin : String}
    (h : ¬ (greet plugin n).AwaitsHost u s) :
    ∃ s', (greet plugin n).step? u s = some (s', .open n) ∧ s'.listeners = s.listeners := by
  simp only [AwaitsHost, not_and, Bool.not_eq_false] at h
  simp only [step?]
  cases hopen : s.acks.hasReceiver with
  | false =>
    have hsend : s.acks.send u ⟨plugin, .start⟩ = .refused := by simp [Queue.send, hopen]
    rw [hsend]
    exact ⟨_, rfl, rfl⟩
  | true =>
    have hsend : s.acks.send u ⟨plugin, .start⟩ = .sent (s.acks.push ⟨plugin, .start⟩) := by
      simp [Queue.send, hopen, h hopen]
    rw [hsend]
    exact ⟨_, rfl, rfl⟩

theorem ServeTask.wait_opens {u n : Nat} {s : PluginState σ} (h : ¬ (wait n).AwaitsHost u s) :
    ∃ s', (wait n).step? u s = some (s', .open n) ∧ s'.listeners = s.listeners := by
  simp only [step?]
  cases hq : s.acks.resume? u with
  | none =>
    obtain ⟨hwaits, hopen⟩ := Queue.resume?_eq_none_iff.1 hq
    exact absurd ⟨hopen, hwaits⟩ h
  | some p =>
    obtain ⟨taken, q⟩ := p
    cases taken <;> exact ⟨_, rfl, rfl⟩

/-- A task that holds the lock goes on, unless it waits for a server. -/
theorem Task.goesOn_of_holder [RecordStore σ] {t : Nat} {s : PluginState σ} {task : Task}
    (setup : Setup) (fresh : Nat) (hstage : task.lockStage ≠ .outside)
    (hmine : s.lock.holder = some t) :
    (task.step? setup t fresh s).isSome ∨ ∃ plugin n, task = .stop (.join plugin n) := by
  cases task with
  | await tr =>
    left
    rw [step?, if_pos hmine]
    rfl
  | start x =>
    left
    cases x with
    | emit | report | done => exact absurd rfl hstage
    | _ =>
      simp only [step?, StartTask.step?]
      (repeat' split) <;> rfl
  | stop x =>
    cases x with
    | join plugin n => exact .inr ⟨plugin, n, rfl⟩
    | emit | acknowledge | wait | done => exact absurd rfl hstage
    | _ =>
      left
      simp only [step?, StopTask.step?]
      (repeat' split) <;> rfl
  | listen x =>
    left
    cases x with
    | await tr =>
      rw [step?, ListenTask.step?, if_pos hmine]
      rfl
    | _ => exact absurd rfl hstage
  | _ => exact absurd rfl hstage

namespace Instance

variable [RecordStore σ] {i j k : Instance σ} {t u n : Nat} {plugin : String} {x : ServeTask}

/-- Whatever turns tasks take, a task that holds the lifecycle lock never has another turn: it takes
the host to help it on. -/
def HeldUp (i : Instance σ) (t : Nat) : Prop :=
  i.state.lock.holder = some t ∧ ∀ (ts : List Nat) (j : Instance σ), i.steps? ts = some j →
    j.step? t = none

/-- A stop waits for its server, which waits for the host. -/
structure Jammed (i : Instance σ) (t u : Nat) (plugin : String) (n : Nat) (x : ServeTask) :
    Prop where
  stop : i.tasks[t]? = some (.stop (.join plugin n))
  server : i.tasks[u]? = some (.serve x)
  listener : x.listener? = some n
  awaits : x.AwaitsHost u i.state

theorem Attended.step?_join (h : i.Attended) (ht : i.tasks[t]? = some (.stop (.join plugin n)))
    (hu : i.listenerOf u = some n) : i.step? t = none := by
  obtain ⟨l, hl, hopen⟩ := h.isOpen u n hu
  rw [step?_of_getElem? ht]
  simp [Task.step?, StopTask.step?, hl, hopen]

/-- As long as only tasks take turns, a jam stays as it is. -/
theorem Jammed.step (h : i.Jammed t u plugin n x) (hi : i.Attended) {v : Nat}
    (hs : i.step? v = some j) : ∃ x', j.Jammed t u plugin n x' := by
  obtain ⟨hstop, hserver, hlistener, hawaits⟩ := h
  have hattends : i.listenerOf u = some n := (listenerOf_of_getElem? hserver).trans hlistener
  have hvt : v ≠ t := by
    rintro rfl
    rw [hi.step?_join hstop hattends] at hs
    cases hs
  obtain ⟨task, m, htask, hm, rfl⟩ := step?_eq_some_iff.1 hs
  have htasks := getElem?_tasks_move (List.getElem?_eq_some_iff.1 htask).1 m
  have htl : t < i.tasks.length := (List.getElem?_eq_some_iff.1 hstop).1
  have hul : u < i.tasks.length := (List.getElem?_eq_some_iff.1 hserver).1
  have hstop' : (i.move v m).tasks[t]? = some (.stop (.join plugin n)) := by
    rw [htasks, if_neg (Ne.symm hvt), if_neg (by omega), hstop]
  by_cases hvu : v = u
  · -- the server itself: it lines up for room if it has not yet
    subst hvu
    obtain rfl : task = .serve x := Option.some.inj (htask.symm.trans hserver)
    simp only [Task.step?, Option.map_eq_some_iff, Prod.exists] at hm
    obtain ⟨s', x', hx, rfl⟩ := hm
    obtain ⟨hawaits', hlistener'⟩ := hawaits.step? hx
    refine ⟨x', hstop', ?_, hlistener'.trans hlistener, ?_⟩
    · rw [htasks, if_pos rfl]
    · rw [state_move]
      exact hawaits'
  · refine ⟨x, hstop', ?_, hlistener, ?_⟩
    · rw [htasks, if_neg (Ne.symm hvu), if_neg (by omega), hserver]
    · rw [state_move]
      exact hawaits.of_takes (Task.acks_takes hm)

theorem Jammed.step?_eq_none (h : i.Jammed t u plugin n x) (hi : i.Attended) {ts : List Nat}
    (hs : i.steps? ts = some j) : j.step? t = none := by
  induction ts generalizing i x with
  | nil =>
    cases hs
    exact hi.step?_join h.stop ((listenerOf_of_getElem? h.server).trans h.listener)
  | cons v rest ih =>
    obtain ⟨k, hk, hrest⟩ := Option.bind_eq_some_iff.1 hs
    obtain ⟨x', h'⟩ := h.step hi hk
    exact ih h' (hi.step hk) hrest

/-- Some turns lead to a turn of a task. -/
def GetsOn (i : Instance σ) (t : Nat) : Prop :=
  ∃ ts j, i.steps? ts = some j ∧ (j.step? t).isSome

theorem GetsOn.of_step (h : j.GetsOn t) (hs : i.step? u = some j) : i.GetsOn t := by
  obtain ⟨ts, k, hk, hsome⟩ := h
  refine ⟨u :: ts, k, ?_, hsome⟩
  rw [steps?, hs]
  exact hk

/-- A stop that has told its server to stop, while the server is on its way. -/
structure Winding (i : Instance σ) (t u : Nat) (plugin : String) (n : Nat) (x : ServeTask) :
    Prop where
  stop : i.tasks[t]? = some (.stop (.join plugin n))
  server : i.tasks[u]? = some (.serve x)
  told : ∃ l, i.state.listeners[n]? = some l ∧ l.cancelled = true

/-- A server has its turn while a stop waits for it. -/
theorem Winding.step (h : i.Winding t u plugin n x) {s' : PluginState σ} {x' : ServeTask}
    (hx : x.step? u i.state = some (s', x'))
    (htold : ∃ l, s'.listeners[n]? = some l ∧ l.cancelled = true) :
    ∃ j, i.step? u = some j ∧ j.Winding t u plugin n x' ∧ j.state = s' := by
  obtain ⟨hstop, hserver, -⟩ := h
  have hut : t ≠ u := by
    rintro rfl
    rw [hstop] at hserver
    cases hserver
  have htl : t < i.tasks.length := (List.getElem?_eq_some_iff.1 hstop).1
  have htasks (m : Move σ) := getElem?_tasks_move (List.getElem?_eq_some_iff.1 hserver).1 m
  refine ⟨i.move u ⟨s', .serve x', none⟩, ?_, ⟨?_, ?_, ?_⟩, ?_⟩
  · rw [step?_of_getElem? hserver]
    simp only [Task.step?, hx, Option.map_some]
  · rw [htasks, if_neg hut, if_neg (by omega), hstop]
  · rw [htasks, if_pos rfl]
  · rw [state_move]
    exact htold
  · rw [state_move]

theorem Winding.getsOn_of_serve (h : i.Winding t u plugin n (.serve n)) : i.GetsOn t := by
  obtain ⟨l, hl, hc⟩ := h.told
  have hx : (ServeTask.serve n).step? u i.state = some
      ((i.state.setListener n fun l => { l with closed := true }).logged
        [.info "TLS server stopped" [("addr", l.endpoint.text)]], .done) := by
    simp [ServeTask.step?, hl, hc]
  have hclosed : (i.state.listeners.modify n fun l => { l with closed := true })[n]? =
      some { l with closed := true } := by
    simp [hl]
  obtain ⟨j, hj, h', hstate⟩ := h.step hx ⟨_, hclosed, hc⟩
  refine GetsOn.of_step ⟨[], j, rfl, ?_⟩ hj
  -- now that the listener is closed the stop goes on
  rw [step?_of_getElem? h'.stop]
  have hnow : j.state.listeners[n]? = some { l with closed := true } := by
    rw [hstate]
    exact hclosed
  simp [Task.step?, StopTask.step?, hnow]

theorem Winding.getsOn_of_open (h : i.Winding t u plugin n (.open n)) : i.GetsOn t := by
  have hopens : ∃ s', (ServeTask.open n).step? u i.state = some (s', .serve n) ∧
      s'.listeners = i.state.listeners := ⟨_, rfl, rfl⟩
  obtain ⟨s', hs, hlisteners⟩ := hopens
  obtain ⟨j, hj, h', -⟩ := h.step hs (hlisteners ▸ h.told)
  exact GetsOn.of_step h'.getsOn_of_serve hj

/-- If the server does not wait for the host, the stop that waits for it gets on. -/
theorem Winding.getsOn (h : i.Winding t u plugin n x) (hx : x.listener? = some n)
    (hfree : ¬ x.AwaitsHost u i.state) : i.GetsOn t := by
  -- a server whose acknowledgment is out of the way begins to serve
  have hopens : ∀ s', s'.listeners = i.state.listeners → x.step? u i.state = some (s', .open n) →
      i.GetsOn t := by
    intro s' hlisteners hs
    obtain ⟨j, hj, h', -⟩ := h.step hs (hlisteners ▸ h.told)
    exact GetsOn.of_step h'.getsOn_of_open hj
  cases x with
  | greet name m =>
    cases hx
    obtain ⟨s', hs, hlisteners⟩ := ServeTask.greet_opens hfree
    exact hopens s' hlisteners hs
  | wait m =>
    cases hx
    obtain ⟨s', hs, hlisteners⟩ := ServeTask.wait_opens hfree
    exact hopens s' hlisteners hs
  | «open» m =>
    cases hx
    exact h.getsOn_of_open
  | serve m =>
    cases hx
    exact h.getsOn_of_serve
  | done => cases hx

/-- Whoever holds the lifecycle lock goes on, or waits for a server that is not done yet. -/
theorem exists_server_of_holder (hi : i.Fresh) (h : i.Reachable j)
    (ht : j.state.lock.holder = some t) :
    (j.step? t).isSome ∨ ∃ plugin n u x, j.Winding t u plugin n x ∧ x.listener? = some n := by
  have horderly := lockOrderly_of_reachable hi h
  have hstage := horderly.stage_holder t ht
  obtain ⟨task, htask⟩ : ∃ task, j.tasks[t]? = some task := by
    cases htask : j.tasks[t]? with
    | some task => exact ⟨task, rfl⟩
    | none =>
      rw [lockStage, htask] at hstage
      exact absurd rfl hstage
  rw [lockStage_of_getElem? htask] at hstage
  rw [step?_of_getElem? htask, Option.isSome_map]
  rcases Task.goesOn_of_holder j.setup j.tasks.length hstage ht with hsome | ⟨plugin, n, rfl⟩
  · exact .inl hsome
  obtain ⟨l, hl, hc⟩ := joined_of_reachable hi h t plugin n htask
  cases hclosed : l.closed with
  | true =>
    left
    simp [Task.step?, StopTask.step?, hl, hclosed]
  | false =>
    right
    obtain ⟨u, hu⟩ := (attended_of_reachable hi h).attendant n ⟨l, hl, hclosed⟩
    obtain ⟨task, htask', hattends⟩ := Option.bind_eq_some_iff.1 hu
    -- a start that attends a listener is inside the lock, which the stop holds
    cases task with
    | serve x => exact ⟨plugin, n, u, x, ⟨htask, htask', l, hl, hc⟩, hattends⟩
    | start y =>
      have hinside : j.lockStage u = .inside := by
        rw [lockStage_of_getElem? htask']
        cases y <;> first | rfl | cases hattends
      have hother := horderly.holder_of_inside u hinside
      rw [ht] at hother
      cases hother
      rw [htask] at htask'
      cases htask'
    | _ => cases hattends

/-- Whoever holds the lifecycle lock can be kept from going on in one way only, whatever happens and
in whatever order tasks take their turns: it is a stop that waits for its server, and the server
waits until the host has made room for the acknowledgment of the start. -/
theorem heldUp_iff (hi : i.Fresh) (h : i.Reachable j) (t : Nat) :
    j.HeldUp t ↔ ∃ (plugin : String) (n u : Nat) (x : ServeTask),
      j.tasks[t]? = some (.stop (.join plugin n)) ∧ j.tasks[u]? = some (.serve x) ∧
        x.listener? = some n ∧ x.AwaitsHost u j.state := by
  constructor
  · rintro ⟨hholder, hstuck⟩
    have hnever : ¬ j.GetsOn t := by
      rintro ⟨ts, k, hk, hsome⟩
      rw [hstuck ts k hk] at hsome
      cases hsome
    rcases exists_server_of_holder hi h hholder with hsome | ⟨plugin, n, u, x, hwinding, hx⟩
    · exact absurd ⟨[], j, rfl, hsome⟩ hnever
    · refine ⟨plugin, n, u, x, hwinding.stop, hwinding.server, hx, ?_⟩
      by_contra hfree
      exact hnever (hwinding.getsOn hx hfree)
  · rintro ⟨plugin, n, u, x, hstop, hserver, hlistener, hawaits⟩
    have hjammed : j.Jammed t u plugin n x := ⟨hstop, hserver, hlistener, hawaits⟩
    refine ⟨?_, fun ts k hk => hjammed.step?_eq_none (attended_of_reachable hi h) hk⟩
    exact (lockOrderly_of_reachable hi h).holder_of_inside t (lockStage_of_getElem? hstop)

/-! ## A start and a stop, twice -/

/-- A start has come to its end, and a stop has told the server to stop before that had a turn. -/
def startedAndStopped (i : Instance Store.Tree) (t : Nat) : Option (Instance Store.Tree) :=
  ((i.act (.call (.start "p1"))).steps? (List.replicate 10 t)).bind fun j =>
    (j.act (.call (.stop "p1"))).steps? (List.replicate 5 (t + 2))

/-- The server and the stop go on to their ends. -/
def windingTurns : List Nat := [4, 4, 4, 5, 5, 5, 5, 5, 5]

theorem reachable_of_startedAndStopped {i j k : Instance Store.Tree} {t : Nat} (h : i.Reachable j)
    (hk : startedAndStopped j t = some k) : i.Reachable k := by
  obtain ⟨j', hj', hk⟩ := Option.bind_eq_some_iff.1 hk
  exact (((h.act _).steps hj').act _).steps hk

/-- A stop is not held up if there is room for the acknowledgment of the start, although the server
has not had a turn yet. -/
theorem not_heldUp_of_first : ∃ j, (initial sampleSetup 1 Store.Tree.empty).Reachable j ∧
    j.state.lock.holder = some 5 ∧ j.step? 5 = none ∧ ¬ j.HeldUp 5 := by
  have hrun : (startedAndStopped (initial sampleSetup 1 .empty) 3).map (fun j =>
      (j.state.lock.holder, (j.step? 5).isNone, j.tasks, j.state.acks.hasRoom)) =
      some (some 5, true, [.keeper .receive, .courier .receive, .listen .open, .start .done,
        .serve (.greet "p1" 0), .stop (.join "p1" 0)], true) := by with_unfolding_all rfl
  obtain ⟨j, hj, hseen⟩ := Option.map_eq_some_iff.1 hrun
  simp only [Prod.mk.injEq] at hseen
  obtain ⟨hholder, hwaits, htasks, hroom⟩ := hseen
  have hreach := reachable_of_startedAndStopped .refl hj
  refine ⟨j, hreach, hholder, by simpa using hwaits, fun hheld => ?_⟩
  obtain ⟨plugin, n, u, x, -, hserver, -, hawaits⟩ :=
    (heldUp_iff (fresh_initial _ _ _) hreach 5).1 hheld
  rw [htasks] at hserver
  match u with
  | 4 =>
    cases hserver
    have hfull : j.state.acks.hasRoom = false := hawaits.2
    rw [hroom] at hfull
    cases hfull
  | 0 | 1 | 2 | 3 | 5 => cases hserver
  | _ + 6 => cases hserver

/-- A stop can be held up: while the host has not read the acknowledgment of a start, the plugin is
stopped, started and stopped again, and the second stop waits with the lock in its hand. -/
theorem exists_heldUp : ∃ (j : Instance Store.Tree) (t : Nat),
    (initial sampleSetup 1 Store.Tree.empty).Reachable j ∧ j.state.lock.holder = some t ∧
      j.HeldUp t := by
  have hrun : ((startedAndStopped (initial sampleSetup 1 .empty) 3).bind fun i =>
      (i.steps? windingTurns).bind fun j => (startedAndStopped j 6).map fun k =>
        (k.state.lock.holder, k.tasks[8]?, k.tasks[7]?,
          k.state.acks.hasReceiver, k.state.acks.hasRoom)) =
      some (some 8, some (.stop (.join "p1" 1)), some (.serve (.greet "p1" 1)), true, false) := by
    with_unfolding_all rfl
  obtain ⟨i, hi, hseen⟩ := Option.bind_eq_some_iff.1 hrun
  obtain ⟨j, hj, hseen⟩ := Option.bind_eq_some_iff.1 hseen
  obtain ⟨k, hk, hseen⟩ := Option.map_eq_some_iff.1 hseen
  simp only [Prod.mk.injEq] at hseen
  obtain ⟨hholder, hstop, hserver, hopen, hfull⟩ := hseen
  have hreach := reachable_of_startedAndStopped
    ((reachable_of_startedAndStopped .refl hi).steps hj) hk
  have hjammed : k.Jammed 8 7 "p1" 1 (.greet "p1" 1) := ⟨hstop, hserver, rfl, hopen, hfull⟩
  refine ⟨k, 8, hreach, hholder, hholder, fun ts k' hk' => ?_⟩
  exact hjammed.step?_eq_none (attended_of_reachable (fresh_initial _ _ _) hreach) hk'

end Instance

end PluginKernel
