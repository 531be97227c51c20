import PluginKernel.Proofs.Instance.Turn

/-!
# Which parts of the state a task writes

A turn of a task writes a few parts of the state and leaves all others alone. For each kind of task
it is said here once which parts these are: the state afterwards is the state before but for them.
That a task leaves some other part alone follows by comparing that part on both sides.
-/

namespace PluginKernel

variable {σ : Type} {setup : Setup} {t fresh : Nat} {s s' : PluginState σ} {m : Move σ}

theorem ReportTask.writes {r r' : ReportTask} (h : r.step? setup t s = some (s', r')) :
    s' = { s with
      errors := s'.errors, ledger := s'.ledger, outbox := s'.outbox, log := s'.log } := by
  cases r <;> simp only [step?] at h <;> (repeat' split at h) <;> cases h <;> rfl

theorem ServeTask.writes {x x' : ServeTask} (h : x.step? t s = some (s', x')) :
    s' = { s with acks := s'.acks, listeners := s'.listeners, log := s'.log } := by
  cases x <;> simp only [step?] at h <;> (repeat' split at h) <;> cases h <;> rfl

theorem KeeperTask.writes [RecordStore σ] {x x' : KeeperTask}
    (h : x.step? setup s = some (s', x')) :
    s' = { s with
      outbox := s'.outbox, pending := s'.pending, store := s'.store, log := s'.log } := by
  cases x with
  | persist filing l rest summary =>
    cases rest <;> simp only [step?] at h <;> cases h <;> rfl
  | _ =>
    simp only [step?] at h
    (repeat' split at h) <;> cases h <;> rfl

theorem CourierTask.writes {x x' : CourierTask} (h : x.step? t s = some (s', x')) :
    s' = { s with pending := s'.pending, dataflow := s'.dataflow } := by
  cases x with
  | wait =>
    simp only [step?, Option.map_eq_some_iff] at h
    obtain ⟨_, -, h⟩ := h
    cases h
    rfl
  | _ =>
    simp only [step?] at h
    (repeat' split at h) <;> cases h <;> rfl

theorem StopTask.writes {x x' : StopTask} (h : x.step? setup t s = some (s', x')) :
    s' = { s with
      lock := s'.lock, phase := s'.phase, server := s'.server, ledger := s'.ledger,
      health := s'.health, listeners := s'.listeners, acks := s'.acks, outbox := s'.outbox,
      log := s'.log } := by
  cases x <;> simp only [step?] at h <;> (repeat' split at h) <;> cases h <;> rfl

theorem StartTask.writes {x : StartTask} (h : x.step? setup t s = some m) :
    m.state = { s with
      lock := m.state.lock, phase := m.state.phase, server := m.state.server,
      ledger := m.state.ledger, health := m.state.health, listeners := m.state.listeners,
      errors := m.state.errors, outbox := m.state.outbox, log := m.state.log } := by
  cases x with
  | report r =>
    simp only [step?, Option.map_eq_some_iff, Prod.exists] at h
    obtain ⟨s', r', hr, rfl⟩ := h
    rw [ReportTask.writes hr]
  | _ =>
    simp only [step?] at h
    (repeat' split at h) <;> cases h <;> rfl

theorem ListenTask.writes {x : ListenTask} (h : x.step? t fresh s = some m) :
    m.state = { s with
      lock := m.state.lock, listening := m.state.listening, commands := m.state.commands,
      errors := m.state.errors, log := m.state.log } := by
  cases x <;> simp only [step?] at h <;> (repeat' split at h) <;> cases h <;> rfl

/-- The moves of a task: it asks for the lock, becomes the transition it waited for, or takes a turn
of its own kind. -/
inductive Task.Makes [RecordStore σ] (setup : Setup) (t fresh : Nat) (s : PluginState σ) :
    Task → Move σ → Prop
  | call (tr : Transition) :
    Makes setup t fresh s (.call tr) ⟨{ s with lock := s.lock.ask t }, .await tr, none⟩
  | await (tr : Transition) (h : s.lock.holder = some t) :
    Makes setup t fresh s (.await tr) ⟨s, .ofTransition tr, none⟩
  | start {x : StartTask} {m : Move σ} (h : x.step? setup t s = some m) :
    Makes setup t fresh s (.start x) m
  | stop {x x' : StopTask} {s' : PluginState σ} (h : x.step? setup t s = some (s', x')) :
    Makes setup t fresh s (.stop x) ⟨s', .stop x', none⟩
  | serve {x x' : ServeTask} {s' : PluginState σ} (h : x.step? t s = some (s', x')) :
    Makes setup t fresh s (.serve x) ⟨s', .serve x', none⟩
  | report {x x' : ReportTask} {s' : PluginState σ} (h : x.step? setup t s = some (s', x')) :
    Makes setup t fresh s (.report x) ⟨s', .report x', none⟩
  | listen {x : ListenTask} {m : Move σ} (h : x.step? t fresh s = some m) :
    Makes setup t fresh s (.listen x) m
  | keeper {x x' : KeeperTask} {s' : PluginState σ} (h : x.step? setup s = some (s', x')) :
    Makes setup t fresh s (.keeper x) ⟨s', .keeper x', none⟩
  | courier {x x' : CourierTask} {s' : PluginState σ} (h : x.step? t s = some (s', x')) :
    Makes setup t fresh s (.courier x) ⟨s', .courier x', none⟩

theorem Task.makes [RecordStore σ] {task : Task} (h : task.step? setup t fresh s = some m) :
    task.Makes setup t fresh s m := by
  have hown : ∀ {α : Type} {step : Option (PluginState σ × α)} {f : α → Task} {m : Move σ},
      (step.map fun (s', x') => (⟨s', f x', none⟩ : Move σ)) = some m →
        ∃ s' x', step = some (s', x') ∧ ⟨s', f x', none⟩ = m := fun h => by
    simpa only [Option.map_eq_some_iff, Prod.exists] using h
  cases task with
  | call tr =>
    cases h
    exact .call tr
  | await tr =>
    simp only [step?] at h
    split at h <;> cases h
    next hholder => exact .await tr hholder
  | start x => exact .start h
  | listen x => exact .listen h
  | stop x =>
    obtain ⟨s', x', hx, rfl⟩ := hown h
    exact .stop hx
  | serve x =>
    obtain ⟨s', x', hx, rfl⟩ := hown h
    exact .serve hx
  | report x =>
    obtain ⟨s', x', hx, rfl⟩ := hown h
    exact .report hx
  | keeper x =>
    obtain ⟨s', x', hx, rfl⟩ := hown h
    exact .keeper hx
  | courier x =>
    obtain ⟨s', x', hx, rfl⟩ := hown h
    exact .courier hx

end PluginKernel
