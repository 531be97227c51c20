import PluginKernel.Instance.Step

/-!
# The work that is left

Each step brings a plugin closer to a rest. The tasks that start, stop, serve, report and listen do
work that is bounded from the beginning. A step of theirs may send a ledger out, which makes work
for the two tasks that keep and deliver ledgers; but a step of these leaves the work of the others
alone. So the two kinds of work together, in lexicographic order, become less with every step.
-/

namespace PluginKernel

-- A sum of whole numbers is the one of the core library, whatever else is imported.
attribute [local instance (20000)] Zero.ofOfNat0

variable {σ : Type}

/-- The stages that a report still goes through. -/
def ReportTask.work : ReportTask → Nat
  | check _ => 5
  | record _ => 4
  | emit .. => 3
  | send _ => 2
  | wait _ => 1
  | done => 0

/-- The stages that a server still goes through. -/
def ServeTask.work : ServeTask → Nat
  | greet .. => 4
  | wait _ => 3
  | .open _ => 2
  | serve _ => 1
  | done => 0

/-- The stages that a start still goes through, with those of its server. -/
def StartTask.work : StartTask → Nat
  | enter _ => 12
  | bind _ => 11
  | announce .. => 10
  | launch .. => 9
  | record _ => 4
  | settle _ => 3
  | release _ => 2
  | emit _ => 1
  | fail .. => 7
  | giveUp .. => 6
  | report r => r.work
  | done => 0

/-- The stages that a stop still goes through. -/
def StopTask.work : StopTask → Nat
  | enter _ => 10
  | silence .. => 9
  | cancel .. => 8
  | join .. => 7
  | record _ => 6
  | settle .. => 5
  | release .. => 4
  | emit .. => 3
  | acknowledge _ => 2
  | wait => 1
  | done => 0

/-- The stages that listening goes through before the next command, with the transition that it is
about to set off. -/
def ListenTask.work : ListenTask → Nat
  | .open => 5
  | receive => 4
  | ask _ => 18
  | await _ => 17
  | announce _ => 3
  | wait => 2
  | close => 1
  | done => 0

/-- The work of a command that has not been taken. -/
def commandWork : Nat := 15

/-- The work that a task has left, that of ledgers apart. -/
def Task.work : Task → Nat
  | call _ => 14
  | await _ => 13
  | start x => x.work
  | stop x => x.work
  | serve x => x.work
  | report x => x.work
  | listen x => x.work
  | keeper _ | courier _ => 0

/-- The work that a state holds for tasks, that of ledgers apart. -/
def PluginState.work (s : PluginState σ) : Nat := commandWork * s.commands.contents.length

/-- The work that a task has left with ledgers. -/
def Task.load : Task → Nat
  | keeper .receive => 0
  | keeper (.persist _ _ rest _) => rest.length + 5
  | keeper (.forward _) => 4
  | courier .receive => 0
  | courier (.send _) => 2
  | courier .wait => 1
  | _ => 0

/-- The work that a state holds with ledgers. -/
def PluginState.load (s : PluginState σ) : Nat :=
  (s.outbox.map fun l => l.statistics.length + 6).sum + 3 * s.pending.length

/-- The total of a measure over a task and the task it sets off. -/
def Move.total (m : Move σ) (f : Task → Nat) : Nat := f m.next + (m.spawned.map f).getD 0

namespace ReportTask

theorem work_lt {setup : Setup} {t : Nat} {s s' : PluginState σ} {r r' : ReportTask}
    (h : r.step? setup t s = some (s', r')) : r'.work < r.work ∧ s'.commands = s.commands := by
  cases r <;> simp only [step?] at h <;> (repeat' split at h) <;>
    simp only [Option.some.injEq, Prod.mk.injEq, reduceCtorEq] at h <;>
    obtain ⟨rfl, rfl⟩ := h <;> exact ⟨by simp [work], rfl⟩

end ReportTask

namespace ServeTask

theorem work_lt {t : Nat} {s s' : PluginState σ} {r r' : ServeTask}
    (h : r.step? t s = some (s', r')) : r'.work < r.work ∧ s'.commands = s.commands := by
  cases r <;> simp only [step?] at h <;> (repeat' split at h) <;>
    simp only [Option.some.injEq, Prod.mk.injEq, reduceCtorEq] at h <;>
    obtain ⟨rfl, rfl⟩ := h <;> exact ⟨by simp [work], rfl⟩

end ServeTask

namespace StopTask

theorem work_lt {setup : Setup} {t : Nat} {s s' : PluginState σ} {r r' : StopTask}
    (h : r.step? setup t s = some (s', r')) : r'.work < r.work ∧ s'.commands = s.commands := by
  cases r <;> simp only [step?] at h <;> (repeat' split at h) <;>
    simp only [Option.some.injEq, Prod.mk.injEq, reduceCtorEq] at h <;>
    obtain ⟨rfl, rfl⟩ := h <;> exact ⟨by simp [work], rfl⟩

end StopTask

namespace StartTask

theorem total_work_lt {setup : Setup} {t : Nat} {s : PluginState σ} {r : StartTask} {m : Move σ}
    (h : r.step? setup t s = some m) :
    m.total Task.work < r.work ∧ m.state.commands = s.commands := by
  cases r with
  | report r =>
    simp only [step?, Option.map_eq_some_iff, Prod.exists] at h
    obtain ⟨s', r', hr, rfl⟩ := h
    exact ReportTask.work_lt hr
  | _ =>
    simp only [step?] at h
    (repeat' split at h) <;> simp only [Option.some.injEq, reduceCtorEq] at h <;>
      subst h <;>
        exact ⟨by simp [Move.total, Task.work, work, ServeTask.work, ReportTask.work], rfl⟩

end StartTask

namespace ListenTask

theorem total_work_lt {t fresh : Nat} {s : PluginState σ} {r : ListenTask} {m : Move σ}
    (h : r.step? t fresh s = some m) : m.state.work + m.total Task.work < s.work + r.work := by
  cases r with
  | receive =>
    simp only [step?] at h
    split at h
    · split at h
      · cases h
      · cases h; simp [Move.total, Task.work, work]
    · next c q hn =>
      have hl : s.commands.contents.length = q.contents.length + 1 := by
        simp [Queue.contents_of_next? hn]
      split at h <;> cases h <;>
        simp [Move.total, Task.work, work, PluginState.work, commandWork, hl] <;> omega
  | await tr =>
    simp only [step?] at h
    split at h
    · cases h
      cases tr <;>
        simp [Move.total, Task.work, work, PluginState.work, after, Task.ofTransition,
          StartTask.work, StopTask.work]
    · cases h
  | close =>
    simp only [step?, Option.some.injEq] at h
    subst h
    simp only [Move.total, Task.work, work, PluginState.work, Queue.dropReceiver, Queue.contents,
      List.nil_append, List.length_append, Option.map_none, Option.getD_none, Nat.add_zero]
    exact Nat.lt_succ_of_le (Nat.mul_le_mul_left _ (Nat.le_add_left _ _))
  | _ =>
    simp only [step?] at h
    (repeat' split at h) <;> simp only [Option.some.injEq, reduceCtorEq] at h <;> subst h <;>
      simp [Move.total, Task.work, work, PluginState.work, PluginState.logged]

end ListenTask

namespace KeeperTask

theorem load_lt [RecordStore σ] {setup : Setup} {s s' : PluginState σ} {r r' : KeeperTask}
    (h : r.step? setup s = some (s', r')) :
    s'.load + (Task.keeper r').load < s.load + (Task.keeper r).load ∧
      s'.commands = s.commands := by
  cases r with
  | receive =>
    simp only [step?] at h
    split at h
    · cases h
    · next l rest ho =>
      cases hf : setup.filing? with
      | none =>
        simp only [hf] at h; cases h
        exact ⟨by simp [PluginState.load, Task.load, ho]; omega, rfl⟩
      | some f =>
        simp only [hf] at h; cases h
        exact ⟨by simp [PluginState.load, Task.load, ho]; omega, rfl⟩
  | persist f l rest p =>
    cases rest with
    | nil => simp only [step?] at h; cases h; exact ⟨by simp [PluginState.load, Task.load,
        PluginState.logged], rfl⟩
    | cons e rest => simp only [step?] at h; cases h; exact ⟨by simp [PluginState.load, Task.load,
        PluginState.logged], rfl⟩
  | forward l =>
    simp only [step?] at h; cases h
    exact ⟨by simp [PluginState.load, Task.load]; omega, rfl⟩

end KeeperTask

namespace CourierTask

theorem load_lt {t : Nat} {s s' : PluginState σ} {r r' : CourierTask}
    (h : r.step? t s = some (s', r')) :
    s'.load + (Task.courier r').load < s.load + (Task.courier r).load ∧
      s'.commands = s.commands := by
  cases r with
  | receive =>
    simp only [step?] at h
    split at h
    · cases h
    · next l rest hp => cases h; exact ⟨by simp [PluginState.load, Task.load, hp]; omega, rfl⟩
  | send l =>
    simp only [step?] at h
    split at h <;> cases h <;> exact ⟨by simp [PluginState.load, Task.load], rfl⟩
  | wait =>
    simp only [step?, Option.map_eq_some_iff] at h
    obtain ⟨_, _, h⟩ := h
    cases h
    exact ⟨by simp [PluginState.load, Task.load], rfl⟩

end CourierTask

/-- A turn leaves a task less to do. -/
theorem Task.work_lt_or_load_lt [RecordStore σ] {setup : Setup} {t fresh : Nat}
    {s : PluginState σ} {task : Task} {m : Move σ} (h : task.step? setup t fresh s = some m) :
    m.state.work + m.total work < s.work + task.work ∨
      m.state.work + m.total work = s.work + task.work ∧
        m.state.load + m.total load < s.load + task.load := by
  cases task with
  | call tr =>
    simp only [step?] at h; cases h
    exact .inl (by simp [Move.total, work, PluginState.work])
  | await tr =>
    simp only [step?] at h
    split at h
    · cases h
      exact .inl (by
        cases tr <;> simp [Move.total, work, ofTransition, StartTask.work, StopTask.work])
    · cases h
  | start x =>
    obtain ⟨hw, hc⟩ := StartTask.total_work_lt (show x.step? setup t s = some m from h)
    exact .inl (by simp only [PluginState.work, hc, work]; omega)
  | listen x => exact .inl (ListenTask.total_work_lt h)
  | stop x =>
    simp only [step?, Option.map_eq_some_iff, Prod.exists] at h
    obtain ⟨s', x', hx, rfl⟩ := h
    obtain ⟨hw, hc⟩ := StopTask.work_lt hx
    exact .inl (by simp [PluginState.work, hc, Move.total, work]; omega)
  | serve x =>
    simp only [step?, Option.map_eq_some_iff, Prod.exists] at h
    obtain ⟨s', x', hx, rfl⟩ := h
    obtain ⟨hw, hc⟩ := ServeTask.work_lt hx
    exact .inl (by simp [PluginState.work, hc, Move.total, work]; omega)
  | report x =>
    simp only [step?, Option.map_eq_some_iff, Prod.exists] at h
    obtain ⟨s', x', hx, rfl⟩ := h
    obtain ⟨hw, hc⟩ := ReportTask.work_lt hx
    exact .inl (by simp [PluginState.work, hc, Move.total, work]; omega)
  | keeper x =>
    simp only [step?, Option.map_eq_some_iff, Prod.exists] at h
    obtain ⟨s', x', hx, rfl⟩ := h
    obtain ⟨hl, hc⟩ := KeeperTask.load_lt hx
    exact .inr ⟨by simp [PluginState.work, hc, Move.total, work], by simpa [Move.total] using hl⟩
  | courier x =>
    simp only [step?, Option.map_eq_some_iff, Prod.exists] at h
    obtain ⟨s', x', hx, rfl⟩ := h
    obtain ⟨hl, hc⟩ := CourierTask.load_lt hx
    exact .inr ⟨by simp [PluginState.work, hc, Move.total, work], by simpa [Move.total] using hl⟩

namespace Instance

/-- The work that is left, that of ledgers apart. -/
def work (i : Instance σ) : Nat := i.state.work + (i.tasks.map Task.work).sum

/-- The work that is left with ledgers. -/
def load (i : Instance σ) : Nat := i.state.load + (i.tasks.map Task.load).sum

/-- Replacing a number in a list changes the sum by the difference. -/
theorem sum_set {ns : List Nat} {t a b : Nat} (h : ns[t]? = some a) :
    (ns.set t b).sum + a = ns.sum + b := by
  induction ns generalizing t with
  | nil => simp at h
  | cons c rest ih =>
    cases t with
    | zero => simp at h; subst h; simp; omega
    | succ t => simp at h; have := ih h; simp; omega

theorem sum_map_move {f : Task → Nat} {i : Instance σ} {t : Nat} {a : Task} {m : Move σ}
    (h : i.tasks[t]? = some a) :
    ((i.move t m).tasks.map f).sum + f a = (i.tasks.map f).sum + m.total f := by
  have hf : (i.tasks.map f)[t]? = some (f a) := by simp [h]
  have := sum_set (b := f m.next) hf
  cases hs : m.spawned <;> simp [move, hs, spawn, Move.total] <;> omega

theorem state_move (i : Instance σ) (t : Nat) (m : Move σ) : (i.move t m).state = m.state := by
  unfold move
  split <;> rfl

/-- A step leaves a plugin less to do. -/
theorem step?_lt [RecordStore σ] {i j : Instance σ} {t : Nat} (h : i.step? t = some j) :
    Prod.Lex (· < ·) (· < ·) (j.work, j.load) (i.work, i.load) := by
  unfold step? at h
  split at h
  · cases h
  · next task ht =>
    simp only [Option.map_eq_some_iff] at h
    obtain ⟨m, hm, rfl⟩ := h
    have hw := sum_map_move (f := Task.work) (m := m) ht
    have hl := sum_map_move (f := Task.load) (m := m) ht
    rcases Task.work_lt_or_load_lt hm with h | ⟨h, h'⟩
    · apply Prod.Lex.left
      simp only [work, state_move]
      omega
    · have e : (i.move t m).work = i.work := by simp only [work, state_move]; omega
      rw [e]
      apply Prod.Lex.right
      simp only [load, state_move]
      omega

end Instance

end PluginKernel
