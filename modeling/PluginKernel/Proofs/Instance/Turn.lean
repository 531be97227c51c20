import PluginKernel.Instance.Attach

/-!
# Turns of the tasks of a plugin

A step of a plugin is a turn of one of its tasks. The lemmas here take a step apart: which task took
the turn, what its move was, and what the list of tasks looks like afterwards.

A plugin that has just been attached is `Fresh`. What its queues, its store and its host hold at
that moment is left open, so whatever is proved of all that a fresh plugin can become holds for
every host.
-/

namespace PluginKernel.Instance

variable {σ : Type}

/-- A plugin that has just been attached: nothing is up, nothing is on its way out, and the tasks
that live as long as the plugin stand at their beginnings. -/
structure Fresh (i : Instance σ) : Prop where
  /-- Ledgers are kept and delivered, and commands are listened to. -/
  tasks : i.tasks = [.keeper .receive, .courier .receive, .listen .open]
  lock : i.state.lock = .free
  phase : i.state.phase = .idle
  server : i.state.server = none
  ledger : i.state.ledger = none
  listeners : i.state.listeners = []
  health : i.state.health = .empty
  listening : i.state.listening = true
  outbox : i.state.outbox = []
  pending : i.state.pending = []

theorem fresh_initial (setup : Setup) (capacity : Nat) (store : σ) :
    (initial setup capacity store).Fresh := by
  constructor <;> rfl

/-! ## Attaching -/

section Attach

variable {a : Attachment} {platform : Platform} {capacity : Nat} {store : σ} {i : Instance σ}

/-- An attached plugin is what its equipment and the host's choices make of it, and nothing has
been done but to log that it was attached. -/
theorem eq_of_attach (h : attach a platform capacity store = .ok i) :
    ∃ equipment, a.equipment = .ok equipment ∧
      i = { initial ⟨equipment, a.choices, platform⟩ capacity store with
        state := (PluginState.initial capacity store).logged a.events } := by
  unfold attach at h
  cases he : a.equipment with
  | error e => rw [he] at h; cases h
  | ok equipment =>
    rw [he] at h
    cases h
    exact ⟨equipment, rfl, rfl⟩

theorem state_of_attach (h : attach a platform capacity store = .ok i) :
    i.state = (PluginState.initial capacity store).logged a.events := by
  obtain ⟨_, -, rfl⟩ := eq_of_attach h
  rfl

theorem fresh_of_attach (h : attach a platform capacity store = .ok i) : i.Fresh := by
  obtain ⟨_, -, rfl⟩ := eq_of_attach h
  constructor <;> rfl

end Attach

/-! ## Moves -/

@[simp] theorem setup_move (i : Instance σ) (t : Nat) (m : Move σ) :
    (i.move t m).setup = i.setup := by
  unfold move
  split <;> rfl

theorem tasks_move (i : Instance σ) (t : Nat) (m : Move σ) :
    (i.move t m).tasks = i.tasks.set t m.next ++ m.spawned.toList := by
  unfold move
  split
  next h => simp [h]
  next x h => simp [h, spawn]

/-- The tasks after a move: the one that had its turn, the one that was set off, and the others as
they were. -/
theorem getElem?_tasks_move {i : Instance σ} {t : Nat} (ht : t < i.tasks.length) (m : Move σ)
    (u : Nat) :
    (i.move t m).tasks[u]? =
      if u = t then some m.next else if u = i.tasks.length then m.spawned else i.tasks[u]? := by
  rw [tasks_move, List.getElem?_append, List.length_set]
  by_cases hut : u = t
  · subst hut
    simp [ht]
  · rw [if_neg hut]
    by_cases hlt : u < i.tasks.length
    · rw [if_pos hlt, if_neg (by omega), List.getElem?_set_ne (Ne.symm hut)]
    · rw [if_neg hlt]
      by_cases hul : u = i.tasks.length
      · subst hul
        cases m.spawned <;> simp
      · have hpos : 0 < u - i.tasks.length := by omega
        rw [if_neg hul, List.getElem?_eq_none (l := i.tasks) (by omega),
          List.getElem?_eq_none]
        cases m.spawned with
        | none => simp
        | some task =>
          simp
          omega

theorem getElem?_tasks_spawn (i : Instance σ) (task : Task) (u : Nat) :
    (i.spawn task).tasks[u]? = if u = i.tasks.length then some task else i.tasks[u]? := by
  unfold spawn
  by_cases h : u = i.tasks.length
  · simp [h]
  · rw [if_neg h]
    simp only [List.getElem?_append]
    split
    · rfl
    · rw [List.getElem?_eq_none, List.getElem?_eq_none]
      · omega
      · simp; omega

/-! ## Actions of the host -/

@[simp] theorem setup_act (i : Instance σ) (a : HostAction) : (i.act a).setup = i.setup := by
  unfold act
  split <;> rfl

@[simp] theorem state_act (i : Instance σ) (a : HostAction) : (i.act a).state = i.state.act a := by
  unfold act
  split <;> rfl

theorem tasks_act (i : Instance σ) (a : HostAction) :
    (i.act a).tasks = i.tasks ++ a.task?.toList := by
  unfold act
  split
  next h => simp [h]
  next task h => simp [h, spawn]

theorem getElem?_tasks_act (i : Instance σ) (a : HostAction) (u : Nat) :
    (i.act a).tasks[u]? = if u = i.tasks.length then a.task? else i.tasks[u]? := by
  unfold act
  split
  next h =>
    rw [h]
    split
    next hu => rw [hu, List.getElem?_eq_none (Nat.le_refl _)]
    · rfl
  next task h => rw [h]; exact getElem?_tasks_spawn _ task u

/-! ## Steps -/

variable [RecordStore σ]

/-- A turn of a task, if there is one of the number. -/
theorem step?_of_getElem? {i : Instance σ} {t : Nat} {task : Task} (h : i.tasks[t]? = some task) :
    i.step? t = (task.step? i.setup t i.tasks.length i.state).map (i.move t) := by
  rw [step?, h]

/-- A step is the move of some task. -/
theorem step?_eq_some_iff {i j : Instance σ} {t : Nat} :
    i.step? t = some j ↔ ∃ task m, i.tasks[t]? = some task ∧
      task.step? i.setup t i.tasks.length i.state = some m ∧ i.move t m = j := by
  unfold step?
  cases ht : i.tasks[t]? with
  | none => simp
  | some task => simp

/-- Turns after other turns. -/
theorem steps?_append {i j : Instance σ} {ts : List Nat} (h : i.steps? ts = some j)
    (us : List Nat) : i.steps? (ts ++ us) = j.steps? us := by
  induction ts generalizing i with
  | nil =>
    cases h
    rfl
  | cons t rest ih =>
    obtain ⟨i', hi', hrest⟩ := Option.bind_eq_some_iff.1 h
    rw [List.cons_append, steps?, hi', Option.bind_some]
    exact ih hrest

/-- Turns of some tasks, one after the other, are steps. -/
theorem Reachable.steps {i j k : Instance σ} (h : i.Reachable j) {ts : List Nat}
    (hs : j.steps? ts = some k) : i.Reachable k := by
  induction ts generalizing j with
  | nil =>
    cases hs
    exact h
  | cons t rest ih =>
    obtain ⟨j', hj', hrest⟩ := Option.bind_eq_some_iff.1 hs
    exact ih (h.step ⟨t, hj'⟩) hrest

/-- What never changes stays the same. -/
theorem setup_of_reachable {i j : Instance σ} (h : i.Reachable j) : j.setup = i.setup := by
  induction h with
  | refl => rfl
  | step _ hs ih =>
    obtain ⟨t, ht⟩ := hs
    obtain ⟨task, m, -, -, rfl⟩ := step?_eq_some_iff.1 ht
    rw [setup_move, ih]
  | act _ a ih => rw [setup_act, ih]

end PluginKernel.Instance
