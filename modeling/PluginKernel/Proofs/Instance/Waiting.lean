import PluginKernel.Proofs.Instance.ErrorQueue

/-!
# One task goes on while the others wait

A task that waits goes on waiting until what it waits for has come: `Task.waits_of_hushed`. So if
nothing can go on in a plugin and one more task is set off that brings the others nothing, then it
is the only one that can take turns, in whatever order turns are taken. `GoesOn` follows that task
from stage to stage, and `OneWay` says of the plugin that there is but one way to go on.
-/

namespace PluginKernel

variable {σ : Type}

/-! ## Who waits goes on waiting -/

namespace Queue

variable {α : Type} {q q' : Queue α} {t u : Nat} {x : α}

theorem resume?_eq_none_iff :
    q.resume? t = none ↔ q.isWaiting t = true ∧ q.hasReceiver = true := by
  unfold resume?
  cases q.isWaiting t <;> cases hr : q.hasReceiver <;> simp

/-- What is sent does not help anybody who waits in line. -/
theorem Accepts.resume?_eq_none (ha : q.Accepts u x q') (h : q.resume? t = none) :
    q'.resume? t = none := by
  obtain ⟨hwaiting, hreceiver⟩ := resume?_eq_none_iff.1 h
  obtain ⟨-, rfl⟩ := accepts_iff.1 ha
  refine resume?_eq_none_iff.2 ?_
  split
  · exact ⟨hwaiting, hreceiver⟩
  · exact ⟨by simpa [isWaiting] using .inl (by simpa [isWaiting] using hwaiting), hreceiver⟩

end Queue

/-- What others wait for has not come, but perhaps commands; the lock may have come to one task, and
that may have sent an error. -/
structure PluginState.Hushed (n : Nat) (s s' : PluginState σ) : Prop where
  acks : s'.acks = s.acks
  dataflow : s'.dataflow = s.dataflow
  errors : s'.errors = s.errors ∨ ∃ e, s.errors.Accepts n e s'.errors
  listeners : s'.listeners = s.listeners
  outbox : s'.outbox = s.outbox
  pending : s'.pending = s.pending
  lock : ∀ t, s'.lock.holder = some t → t = n

namespace PluginState.Hushed

variable {n t : Nat} {s s' : PluginState σ}

theorem resume?_errors (h : s.Hushed n s') (hn : s.errors.resume? t = none) :
    s'.errors.resume? t = none := by
  rcases h.errors with he | ⟨e, he⟩
  · rw [he, hn]
  · exact he.resume?_eq_none hn

end PluginState.Hushed

theorem ReportTask.waits_of_hushed {setup : Setup} {n t : Nat} {s s' : PluginState σ}
    {r : ReportTask} (hs : s.Hushed n s') (h : r.step? setup t s = none) :
    r.step? setup t s' = none := by
  cases r with
  | done => rfl
  | wait e =>
    have hn : s.errors.resume? t = none := by
      simp only [step?] at h
      split at h
      next hn => exact hn
      all_goals cases h
    simp only [step?, hs.resume?_errors hn]
  | _ =>
    simp only [step?] at h
    (repeat' split at h) <;> cases h

/-- A task that waits goes on waiting. -/
theorem Task.waits_of_hushed [RecordStore σ] {setup : Setup} {n t fresh fresh' : Nat}
    {s s' : PluginState σ} {task : Task} (hs : s.Hushed n s') (ht : t ≠ n)
    (hc : s'.commands = s.commands ∨ ∀ x, task ≠ .listen x)
    (h : task.step? setup t fresh s = none) : task.step? setup t fresh' s' = none := by
  have hlock : s'.lock.holder ≠ some t := fun hm => ht (hs.lock t hm)
  cases task with
  | call tr => cases h
  | await tr => simp only [step?, if_neg hlock]
  | start x =>
    cases x with
    | report r =>
      simp only [step?, StartTask.step?, Option.map_eq_none_iff] at h ⊢
      exact ReportTask.waits_of_hushed hs h
    | done => rfl
    | _ =>
      simp only [step?, StartTask.step?] at h
      (repeat' split at h) <;> cases h
  | report r =>
    simp only [step?, Option.map_eq_none_iff] at h ⊢
    exact ReportTask.waits_of_hushed hs h
  | stop x =>
    simp only [step?, Option.map_eq_none_iff] at h ⊢
    cases x with
    | done => rfl
    | join plugin m =>
      simp only [StopTask.step?, PluginState.logged, hs.listeners] at h ⊢
      split
      · rfl
      next l hl =>
        rw [hl] at h
        split
        next hclosed => simp [hclosed] at h
        · rfl
    | wait =>
      simp only [StopTask.step?, hs.acks] at h ⊢
      split at h
      · rfl
      all_goals cases h
    | _ =>
      simp only [StopTask.step?] at h
      (repeat' split at h) <;> cases h
  | serve x =>
    simp only [step?, Option.map_eq_none_iff] at h ⊢
    cases x with
    | done => rfl
    | serve m =>
      simp only [ServeTask.step?, hs.listeners] at h ⊢
      split
      · rfl
      next l hl =>
        rw [hl] at h
        split
        next hcancelled => simp [hcancelled] at h
        · rfl
    | wait m =>
      simp only [ServeTask.step?, hs.acks] at h ⊢
      split at h
      · rfl
      all_goals cases h
    | _ =>
      simp only [ServeTask.step?] at h
      (repeat' split at h) <;> cases h
  | listen x =>
    have hcommands : s'.commands = s.commands := hc.resolve_right fun hx => hx x rfl
    cases x with
    | done => rfl
    | receive =>
      simp only [step?, ListenTask.step?, hcommands] at h ⊢
      split at h
      next hn =>
        split at h
        next hsender => simp [hsender]
        · cases h
      next hn => split at h <;> cases h
    | await tr => simp only [step?, ListenTask.step?, if_neg hlock]
    | wait =>
      have hn : s.errors.resume? t = none := by
        simp only [step?, ListenTask.step?] at h
        split at h
        next hn => exact hn
        all_goals cases h
      simp only [step?, ListenTask.step?, hs.resume?_errors hn]
    | _ =>
      simp only [step?, ListenTask.step?] at h
      (repeat' split at h) <;> cases h
  | keeper x =>
    simp only [step?, Option.map_eq_none_iff] at h ⊢
    cases x with
    | receive =>
      simp only [KeeperTask.step?, hs.outbox] at h ⊢
      split at h
      · rfl
      · cases h
    | persist filing l rest summary =>
      cases rest <;> simp only [KeeperTask.step?] at h <;> cases h
    | forward l => cases h
  | courier x =>
    simp only [step?, Option.map_eq_none_iff] at h ⊢
    cases x with
    | receive =>
      simp only [CourierTask.step?, hs.pending] at h ⊢
      split at h
      · rfl
      · cases h
    | send l =>
      simp only [CourierTask.step?] at h
      split at h <;> cases h
    | wait =>
      simp only [CourierTask.step?, hs.dataflow, Option.map_eq_none_iff] at h ⊢
      exact h

/-! ## One task listens to commands -/

/-- Only what has listened to commands goes on listening. -/
theorem Task.listens_of_next [RecordStore σ] {setup : Setup} {t fresh : Nat} {s : PluginState σ}
    {task : Task} {m : Move σ} (h : task.step? setup t fresh s = some m) {y : ListenTask}
    (hnext : m.next = .listen y) : ∃ x, task = .listen x := by
  cases task with
  | listen x => exact ⟨x, rfl⟩
  | call tr => cases h; cases hnext
  | await tr =>
    simp only [step?] at h
    split at h <;> cases h
    cases tr <;> cases hnext
  | start x =>
    cases x with
    | report r =>
      simp only [step?, StartTask.step?, Option.map_eq_some_iff] at h
      obtain ⟨_, -, rfl⟩ := h
      cases hnext
    | _ =>
      simp only [step?, StartTask.step?] at h
      (repeat' split at h) <;> cases h <;> cases hnext
  | _ =>
    simp only [step?, Option.map_eq_some_iff] at h
    obtain ⟨_, -, rfl⟩ := h
    cases hnext

/-- No task that is set off listens to commands. -/
theorem Task.spawned_ne_listen [RecordStore σ] {setup : Setup} {t fresh : Nat} {s : PluginState σ}
    {task : Task} {m : Move σ} (h : task.step? setup t fresh s = some m) (y : ListenTask) :
    m.spawned ≠ some (.listen y) := by
  intro hspawned
  cases task with
  | call tr => cases h; cases hspawned
  | await tr =>
    simp only [step?] at h
    split at h <;> cases h
    cases hspawned
  | start x =>
    cases x with
    | report r =>
      simp only [step?, StartTask.step?, Option.map_eq_some_iff] at h
      obtain ⟨_, -, rfl⟩ := h
      cases hspawned
    | _ =>
      simp only [step?, StartTask.step?] at h
      (repeat' split at h) <;> cases h <;> cases hspawned
  | listen x =>
    cases x with
    | await tr =>
      simp only [step?, ListenTask.step?] at h
      split at h <;> cases h
      cases tr <;> cases hspawned
    | _ =>
      simp only [step?, ListenTask.step?] at h
      (repeat' split at h) <;> cases h <;> cases hspawned
  | _ =>
    simp only [step?, Option.map_eq_some_iff] at h
    obtain ⟨_, -, rfl⟩ := h
    cases hspawned

namespace Instance

/-- Whatever becomes of a plugin, it is the third of its first tasks that listens to commands, and
no other. -/
theorem listener_of_reachable [RecordStore σ] {i j : Instance σ} (hi : i.Fresh)
    (h : i.Reachable j) : ∀ t y, j.tasks[t]? = some (.listen y) → t = 2 := by
  induction h with
  | refl =>
    intro t y hy
    rw [hi.tasks] at hy
    match t with
    | 0 | 1 => cases hy
    | 2 => rfl
    | _ + 3 => cases hy
  | step _ hs ih =>
    obtain ⟨u, hu⟩ := hs
    obtain ⟨task, m, htask, hm, rfl⟩ := step?_eq_some_iff.1 hu
    intro t y hy
    rw [getElem?_tasks_move (List.getElem?_eq_some_iff.1 htask).1] at hy
    split at hy
    next htu =>
      obtain ⟨x, rfl⟩ := Task.listens_of_next hm (Option.some.inj hy)
      exact htu ▸ ih u x htask
    · split at hy
      · exact absurd hy (Task.spawned_ne_listen hm y)
      · exact ih t y hy
  | act _ a ih =>
    intro t y hy
    rw [getElem?_tasks_act] at hy
    split at hy
    · cases a <;> cases hy
    · exact ih t y hy

/-! ## One way to go on -/

variable [RecordStore σ]

/-- There is but one way for a plugin to go on, and it ends where nothing can go on. -/
inductive OneWay : Instance σ → Instance σ → Prop where
  /-- Nothing can go on. -/
  | rest {i : Instance σ} (h : i.Quiescent) : OneWay i i
  /-- One task only can take a turn. -/
  | turn {i j k : Instance σ} {t : Nat} (h : i.step? t = some j)
      (others : ∀ u, u ≠ t → i.step? u = none) (rest : OneWay j k) : OneWay i k

theorem OneWay.quiescent {i k : Instance σ} (h : OneWay i k) : k.Quiescent := by
  induction h with
  | rest h => exact h
  | turn _ _ _ ih => exact ih

/-- In whatever order tasks take turns, until nothing can go on, they end at the same place. -/
theorem OneWay.eq_of_steps {i k : Instance σ} (h : OneWay i k) {ts : List Nat} {k' : Instance σ}
    (hs : i.steps? ts = some k') (hq : k'.Quiescent) : k' = k := by
  induction h generalizing ts with
  | rest h =>
    cases ts with
    | nil => exact (Option.some.inj hs).symm
    | cons t rest =>
      obtain ⟨j, hj, -⟩ := Option.bind_eq_some_iff.1 hs
      rw [h t] at hj
      cases hj
  | @turn i j k t h others _ ih =>
    cases ts with
    | nil =>
      cases hs
      rw [hq t] at h
      cases h
    | cons u rest =>
      obtain ⟨j', hj', hrest⟩ := Option.bind_eq_some_iff.1 hs
      by_cases hu : u = t
      · subst hu
        rw [h] at hj'
        cases hj'
        exact ih hrest
      · rw [others u hu] at hj'
        cases hj'

/-- Those who wait in a plugin go on waiting in another one with the same tasks. -/
theorem step?_eq_none_of_hushed {i c : Instance σ} {n u : Nat} (hq : i.Quiescent)
    (hsetup : c.setup = i.setup) (htask : c.tasks[u]? = i.tasks[u]?)
    (hushed : i.state.Hushed n c.state) (hu : u ≠ n)
    (hc : c.state.commands = i.state.commands ∨ ∀ y, i.tasks[u]? ≠ some (.listen y)) :
    c.step? u = none := by
  have hold := hq u
  rw [step?] at hold ⊢
  rw [htask, hsetup]
  cases hy : i.tasks[u]? with
  | none => rfl
  | some y =>
    rw [hy] at hold
    have hwaits : y.step? i.setup u i.tasks.length i.state = none := by simpa using hold
    have hlisten : c.state.commands = i.state.commands ∨ ∀ x, y ≠ .listen x :=
      hc.imp_right fun h x hx => h x (hx ▸ hy)
    show (y.step? i.setup u _ c.state).map _ = none
    rw [Task.waits_of_hushed hushed hu hlisten hwaits]
    rfl

/-! ## One more task -/

omit [RecordStore σ] in
/-- A plugin with another state and one more task. -/
def join (i : Instance σ) (s : PluginState σ) (x : Task) : Instance σ :=
  ({ i with state := s } : Instance σ).spawn x

/-- One more task goes on by itself from one state and stage to another, and those who wait in the
plugin without it have no reason to wait no longer. -/
inductive GoesOn (i : Instance σ) : PluginState σ → Task → PluginState σ → Task → Prop where
  | refl {s : PluginState σ} {x : Task} : GoesOn i s x s x
  | turn {s s₁ s' : PluginState σ} {x x₁ x' : Task}
      (h : x.step? i.setup i.tasks.length (i.tasks.length + 1) s = some ⟨s₁, x₁, none⟩)
      (hushed : i.state.Hushed i.tasks.length s) (hc : s.commands = i.state.commands)
      (rest : GoesOn i s₁ x₁ s' x') : GoesOn i s x s' x'

variable {i : Instance σ} {s s₁ s' : PluginState σ} {x x₁ x' : Task}

omit [RecordStore σ] in
theorem length_join (i : Instance σ) (s : PluginState σ) (x : Task) :
    (i.join s x).tasks.length = i.tasks.length + 1 := by
  simp [join, spawn]

omit [RecordStore σ] in
theorem getElem?_tasks_join (i : Instance σ) (s : PluginState σ) (x : Task) (u : Nat) :
    (i.join s x).tasks[u]? = if u = i.tasks.length then some x else i.tasks[u]? :=
  getElem?_tasks_spawn _ x u

/-- A turn of one more task. -/
theorem step?_join (i : Instance σ) (s : PluginState σ) (x : Task) :
    (i.join s x).step? i.tasks.length =
      (x.step? i.setup i.tasks.length (i.tasks.length + 1) s).map
        ((i.join s x).move i.tasks.length) := by
  rw [step?, getElem?_tasks_join, if_pos rfl, length_join]
  rfl

/-- Another task has its turn. -/
theorem step?_join_eq_none (hq : i.Quiescent) (hushed : i.state.Hushed i.tasks.length s)
    (hc : s.commands = i.state.commands) (x : Task) {u : Nat} (hu : u ≠ i.tasks.length) :
    (i.join s x).step? u = none := by
  refine step?_eq_none_of_hushed hq rfl ?_ hushed hu (.inl hc)
  rw [getElem?_tasks_join, if_neg hu]

/-- Where nothing can go on and one more task has come to wait as well, nothing can go on. -/
theorem quiescent_join (hq : i.Quiescent) (hushed : i.state.Hushed i.tasks.length s)
    (hc : s.commands = i.state.commands)
    (hx : x.step? i.setup i.tasks.length (i.tasks.length + 1) s = none) :
    (i.join s x).Quiescent := by
  intro u
  by_cases hu : u = i.tasks.length
  · rw [hu, step?_join, hx]
    rfl
  · exact step?_join_eq_none hq hushed hc x hu

namespace GoesOn

theorem step?_join (h : x.step? i.setup i.tasks.length (i.tasks.length + 1) s =
    some ⟨s₁, x₁, none⟩) : (i.join s x).step? i.tasks.length = some (i.join s₁ x₁) := by
  have hmove : (i.join s x).move i.tasks.length ⟨s₁, x₁, none⟩ = i.join s₁ x₁ := by
    simp [join, spawn, Instance.move]
  rw [Instance.step?_join, h, Option.map_some, hmove]

/-- The turns of one more task, one after the other. -/
theorem steps (h : i.GoesOn s x s' x') :
    ∃ m, (i.join s x).steps? (List.replicate m i.tasks.length) = some (i.join s' x') := by
  induction h with
  | refl => exact ⟨0, rfl⟩
  | turn h _ _ _ ih =>
    obtain ⟨m, hm⟩ := ih
    refine ⟨m + 1, ?_⟩
    rw [List.replicate_succ, steps?, step?_join h]
    exact hm

/-- Where nothing else can go on, the turns of one more task are the one way to go on. -/
theorem oneWay (h : i.GoesOn s x s' x') (hq : i.Quiescent) {k : Instance σ}
    (rest : OneWay (i.join s' x') k) : OneWay (i.join s x) k := by
  induction h with
  | refl => exact rest
  | turn h hushed hc _ ih =>
    exact .turn (step?_join h) (fun u hu => step?_join_eq_none hq hushed hc _ hu) (ih rest)

end GoesOn

end Instance

end PluginKernel
