import PluginKernel.Proofs.Instance.Turn

/-!
# The lifecycle lock is held by one transition at a time

A task stands *outside* the lifecycle lock, *waits* for it or is *inside*. `Task.LockEffect` says
once and for all what a turn can do about that: it leaves lock and stage alone, asks for the lock,
goes inside when the lock has come to it, hands the lock on to the task that it sets off, or
releases it. From that, `orderly_of_reachable` follows: whoever is inside holds the lock, so there
is at most one task inside, and those who wait are exactly those who hold the lock without being
inside yet, and those in its line.
-/

namespace PluginKernel

variable {σ : Type}

/-- Where a task stands with regard to the lifecycle lock. -/
inductive LockStage where
  /-- It has nothing to do with the lock. -/
  | outside
  /-- It has asked for the lock. -/
  | waiting
  /-- It changes what the lock guards. -/
  | inside
deriving DecidableEq, Repr

/-- Starting holds the lock until it has released it. -/
def StartTask.lockStage : StartTask → LockStage
  | emit _ | report _ | done => .outside
  | _ => .inside

/-- Stopping holds the lock until it has released it. -/
def StopTask.lockStage : StopTask → LockStage
  | emit _ _ | acknowledge _ | wait | done => .outside
  | _ => .inside

/-- Listening waits for the lock before it sets off a transition. -/
def ListenTask.lockStage : ListenTask → LockStage
  | await _ => .waiting
  | _ => .outside

/-- Where a task stands with regard to the lifecycle lock. -/
def Task.lockStage : Task → LockStage
  | await _ => .waiting
  | start x => x.lockStage
  | stop x => x.lockStage
  | listen x => x.lockStage
  | _ => .outside

theorem Task.lockStage_ofTransition (tr : Transition) :
    (Task.ofTransition tr).lockStage = .inside := by
  cases tr <;> rfl

/-! ## The lock itself -/

namespace Lock

/-- The lock fits the stages of the tasks. -/
structure Orderly (l : Lock) (stage : Nat → LockStage) : Prop where
  /-- Whoever is inside holds the lock. -/
  holder_of_inside : ∀ t, stage t = .inside → l.holder = some t
  /-- Nobody outside holds the lock. -/
  stage_holder : ∀ t, l.holder = some t → stage t ≠ .outside
  stage_line : ∀ t ∈ l.line, stage t = .waiting
  /-- Those who wait are in line, or the lock has come to them. -/
  mem_of_waiting : ∀ t, stage t = .waiting → l.holder = some t ∨ t ∈ l.line
  /-- Nobody is in line for a lock that is free. -/
  line_of_free : l.holder = none → l.line = []
  holder_notMem : ∀ t, l.holder = some t → t ∉ l.line
  /-- Nobody is in line twice. -/
  nodup : l.line.Nodup

variable {l : Lock} {stage stage' : Nat → LockStage} {t : Nat}

theorem orderly_free : free.Orderly fun _ => .outside := by
  constructor <;> simp [free]

/-- Only the holder is inside. -/
theorem Orderly.not_inside (h : l.Orderly stage) (ht : l.holder = some t) {u : Nat} (hu : u ≠ t) :
    stage u ≠ .inside := by
  intro hin
  have := h.holder_of_inside u hin
  rw [ht] at this
  exact hu (Option.some.inj this).symm

theorem Orderly.congr (h : l.Orderly stage) (hs : ∀ u, stage' u = stage u) : l.Orderly stage' := by
  have : stage' = stage := funext hs
  rw [this]
  exact h

theorem Orderly.ask (h : l.Orderly stage) (ht : stage t = .outside) (ht' : stage' t = .waiting)
    (hs : ∀ u, u ≠ t → stage' u = stage u) : (l.ask t).Orderly stage' := by
  have hline : t ∉ l.line := fun hm => by
    rw [h.stage_line t hm] at ht
    cases ht
  have hne : ∀ u ∈ l.line, u ≠ t := fun u hu e => hline (e ▸ hu)
  unfold Lock.ask
  cases hh : l.holder with
  | none =>
    have hempty := h.line_of_free hh
    refine ⟨fun u hu => ?_, fun u hu => ?_, fun u hu => ?_, fun u hu => ?_, ?_, ?_, ?_⟩
    · by_cases e : u = t
      · rw [e]
      · rw [hs u e] at hu
        rw [h.holder_of_inside u hu] at hh
        cases hh
    · cases hu
      rw [ht']
      simp
    · rw [hempty] at hu
      cases hu
    · by_cases e : u = t
      · rw [e]; exact .inl rfl
      · rw [hs u e] at hu
        rcases h.mem_of_waiting u hu with h' | h'
        · rw [hh] at h'; cases h'
        · exact .inr h'
    · intro h'; cases h'
    · intro u _; simp [hempty]
    · exact h.nodup
  | some v =>
    have hv : v ≠ t := fun e => h.stage_holder v hh (e ▸ ht)
    refine ⟨fun u hu => ?_, fun u hu => ?_, fun u hu => ?_, fun u hu => ?_, ?_, ?_, ?_⟩
    · by_cases e : u = t
      · rw [e, ht'] at hu; cases hu
      · rw [hs u e] at hu
        have := h.holder_of_inside u hu
        rw [hh] at this
        exact this
    · cases hu
      rw [hs v hv]
      exact h.stage_holder v hh
    · rcases List.mem_append.1 hu with hu | hu
      · rw [hs u (hne u hu)]
        exact h.stage_line u hu
      · rw [List.mem_singleton.1 hu]
        exact ht'
    · by_cases e : u = t
      · rw [e]; exact .inr (by simp)
      · rw [hs u e] at hu
        rcases h.mem_of_waiting u hu with h' | h'
        · rw [hh] at h'; exact .inl h'
        · exact .inr (List.mem_append_left _ h')
    · intro h'; cases h'
    · intro u hu
      cases hu
      simpa [hv] using h.holder_notMem v hh
    · simpa [List.nodup_append, h.nodup] using hne

theorem Orderly.enter (h : l.Orderly stage) (ht : l.holder = some t) (ht' : stage' t = .inside)
    (hs : ∀ u, u ≠ t → stage' u = stage u) : l.Orderly stage' := by
  have hne : ∀ u ∈ l.line, u ≠ t := fun u hu e => h.holder_notMem t ht (e ▸ hu)
  refine ⟨fun u hu => ?_, fun u hu => ?_, fun u hu => ?_, fun u hu => ?_, h.line_of_free,
    h.holder_notMem, h.nodup⟩
  · by_cases e : u = t
    · rw [e]; exact ht
    · rw [hs u e] at hu
      exact h.holder_of_inside u hu
  · rw [ht] at hu
    rw [← Option.some.inj hu, ht']
    simp
  · rw [hs u (hne u hu)]
    exact h.stage_line u hu
  · by_cases e : u = t
    · rw [e]; exact .inl ht
    · rw [hs u e] at hu
      exact h.mem_of_waiting u hu

theorem Orderly.release (h : l.Orderly stage) (ht : stage t = .inside) (ht' : stage' t = .outside)
    (hs : ∀ u, u ≠ t → stage' u = stage u) : l.release.Orderly stage' := by
  have hheld := h.holder_of_inside t ht
  have hne : ∀ u ∈ l.line, u ≠ t := fun u hu e => h.holder_notMem t hheld (e ▸ hu)
  have hin : ∀ u, stage' u ≠ .inside := by
    intro u hu
    by_cases e : u = t
    · rw [e, ht'] at hu; cases hu
    · rw [hs u e] at hu
      exact h.not_inside hheld e hu
  have hw : ∀ u, stage' u = .waiting → u ∈ l.line := by
    intro u hu
    by_cases e : u = t
    · rw [e, ht'] at hu; cases hu
    · rw [hs u e] at hu
      rcases h.mem_of_waiting u hu with h' | h'
      · rw [hheld] at h'; exact absurd (Option.some.inj h').symm e
      · exact h'
  have hnd := h.nodup
  unfold Lock.release
  cases hl : l.line with
  | nil =>
    rw [hl] at hw
    exact ⟨fun u hu => absurd hu (hin u), by simp, by simp, fun u hu => absurd (hw u hu) (by simp),
      by simp, by simp, by simp⟩
  | cons v rest =>
    rw [hl] at hw hne hnd
    have hv := List.nodup_cons.1 hnd
    have hst : ∀ u ∈ v :: rest, stage' u = .waiting := fun u hu => by
      rw [hs u (hne u hu)]
      exact h.stage_line u (hl ▸ hu)
    refine ⟨fun u hu => absurd hu (hin u), fun u hu => ?_,
      fun u hu => hst u (List.mem_cons_of_mem _ hu), fun u hu => ?_, by simp, fun u hu => ?_, hv.2⟩
    · cases hu
      rw [hst v List.mem_cons_self]
      simp
    · rcases List.mem_cons.1 (hw u hu) with rfl | h'
      · exact .inl rfl
      · exact .inr h'
    · cases hu
      exact hv.1

theorem Orderly.handTo {f : Nat} (h : l.Orderly stage) (ht : l.holder = some t)
    (hf : stage f = .outside) (ht' : stage' t = .outside) (hf' : stage' f = .inside)
    (hs : ∀ u, u ≠ t → u ≠ f → stage' u = stage u) : (l.handTo f).Orderly stage' := by
  have htf : t ≠ f := fun e => by rw [e, hf'] at ht'; cases ht'
  have hfl : f ∉ l.line := fun hm => by
    rw [h.stage_line f hm] at hf
    cases hf
  have hne : ∀ u ∈ l.line, u ≠ t ∧ u ≠ f := fun u hu =>
    ⟨fun e => h.holder_notMem t ht (e ▸ hu), fun e => hfl (e ▸ hu)⟩
  refine ⟨fun u hu => ?_, fun u hu => ?_, fun u hu => ?_, fun u hu => ?_, ?_, fun u hu => ?_,
    h.nodup⟩
  · by_cases e : u = f
    · rw [e]; rfl
    · have et : u ≠ t := fun et => by rw [et, ht'] at hu; cases hu
      rw [hs u et e] at hu
      exact absurd hu (h.not_inside ht et)
  · cases hu
    rw [hf']
    simp
  · rw [hs u (hne u hu).1 (hne u hu).2]
    exact h.stage_line u hu
  · have et : u ≠ t := fun et => by rw [et, ht'] at hu; cases hu
    have ef : u ≠ f := fun ef => by rw [ef, hf'] at hu; cases hu
    rw [hs u et ef] at hu
    rcases h.mem_of_waiting u hu with h' | h'
    · rw [ht] at h'; exact absurd (Option.some.inj h').symm et
    · exact .inr h'
  · intro h'; cases h'
  · cases hu
    exact hfl

end Lock

/-! ## What a turn does with the lock -/

/-- What a turn of a task can do with the lock. A task that it sets off gets the number `fresh`. -/
inductive Task.LockEffect (t fresh : Nat) (s : PluginState σ) (task : Task) (m : Move σ) :
    Prop where
  /-- Neither the lock nor the task's relation to it changes. -/
  | keep (hlock : m.state.lock = s.lock) (hnext : m.next.lockStage = task.lockStage)
      (hspawned : ∀ x, m.spawned = some x → x.lockStage = .outside)
  | ask (hbefore : task.lockStage = .outside) (hlock : m.state.lock = s.lock.ask t)
      (hnext : m.next.lockStage = .waiting) (hspawned : m.spawned = none)
  /-- The lock has come to the task, which goes inside. -/
  | enter (tr : Transition) (hbefore : task.lockStage = .waiting)
      (hmine : s.lock.holder = some t) (hlock : m.state.lock = s.lock)
      (hnext : m.next = Task.ofTransition tr) (hspawned : m.spawned = none)
  /-- The lock has come to the task, which hands it on to the one it sets off. -/
  | handOn (tr : Transition) (hbefore : task.lockStage = .waiting)
      (hmine : s.lock.holder = some t) (hlock : m.state.lock = s.lock.handTo fresh)
      (hnext : m.next.lockStage = .outside) (hspawned : m.spawned = some (Task.ofTransition tr))
  | release (hbefore : task.lockStage = .inside) (hlock : m.state.lock = s.lock.release)
      (hnext : m.next.lockStage = .outside) (hspawned : m.spawned = none)

/-- A turn that changes neither the lock nor the task's relation to it, and sets nothing off. -/
theorem Task.LockEffect.quiet {t fresh : Nat} {s s' : PluginState σ} {task next : Task}
    (hlock : s'.lock = s.lock) (hnext : next.lockStage = task.lockStage) :
    task.LockEffect t fresh s ⟨s', next, none⟩ :=
  .keep hlock hnext fun _ hx => by cases hx

theorem ReportTask.lock_step? {setup : Setup} {t : Nat} {s s' : PluginState σ} {r r' : ReportTask}
    (h : r.step? setup t s = some (s', r')) : s'.lock = s.lock := by
  cases r <;> simp only [step?] at h <;> (repeat' split at h) <;> cases h <;> rfl

theorem ServeTask.lock_step? {t : Nat} {s s' : PluginState σ} {r r' : ServeTask}
    (h : r.step? t s = some (s', r')) : s'.lock = s.lock := by
  cases r <;> simp only [step?] at h <;> (repeat' split at h) <;> cases h <;> rfl

theorem KeeperTask.lock_step? [RecordStore σ] {setup : Setup} {s s' : PluginState σ}
    {r r' : KeeperTask} (h : r.step? setup s = some (s', r')) : s'.lock = s.lock := by
  cases r with
  | receive => simp only [step?] at h; split at h <;> cases h; rfl
  | persist filing l rest summary =>
    cases rest <;> simp only [step?] at h <;> cases h <;> rfl
  | forward l => simp only [step?] at h; cases h; rfl

theorem CourierTask.lock_step? {t : Nat} {s s' : PluginState σ} {r r' : CourierTask}
    (h : r.step? t s = some (s', r')) : s'.lock = s.lock := by
  cases r with
  | receive => simp only [step?] at h; split at h <;> cases h; rfl
  | send l => simp only [step?] at h; split at h <;> cases h <;> rfl
  | wait =>
    simp only [step?, Option.map_eq_some_iff] at h
    obtain ⟨_, _, h⟩ := h
    cases h
    rfl

theorem StartTask.lockEffect {setup : Setup} {t fresh : Nat} {s : PluginState σ} {x : StartTask}
    {m : Move σ} (h : x.step? setup t s = some m) : (Task.start x).LockEffect t fresh s m := by
  cases x with
  | enter plugin =>
    simp only [step?] at h
    split at h <;> cases h
    · exact .release rfl rfl rfl rfl
    · exact .quiet rfl rfl
  | bind plugin =>
    simp only [step?] at h
    split at h <;> cases h <;> exact .quiet rfl rfl
  | launch plugin n =>
    simp only [step?] at h
    cases h
    exact .keep rfl rfl fun x hx => by cases hx; rfl
  | release l =>
    simp only [step?] at h
    cases h
    exact .release rfl rfl rfl rfl
  | giveUp plugin e =>
    simp only [step?] at h
    cases h
    exact .release rfl rfl rfl rfl
  | report r =>
    simp only [step?, Option.map_eq_some_iff, Prod.exists] at h
    obtain ⟨s', r', hr, rfl⟩ := h
    exact .quiet (ReportTask.lock_step? hr) rfl
  | done => simp only [step?] at h; cases h
  | _ =>
    simp only [step?] at h
    cases h
    exact .quiet rfl rfl

theorem StopTask.lockEffect {setup : Setup} {t fresh : Nat} {s s' : PluginState σ}
    {x x' : StopTask} (h : x.step? setup t s = some (s', x')) :
    (Task.stop x).LockEffect t fresh s ⟨s', .stop x', none⟩ := by
  cases x with
  | release plugin l =>
    simp only [step?] at h
    cases h
    exact .release rfl rfl rfl rfl
  | _ =>
    simp only [step?] at h
    (repeat' split at h) <;> cases h <;> exact .quiet rfl rfl

theorem ListenTask.lockEffect {t fresh : Nat} {s : PluginState σ} {x : ListenTask} {m : Move σ}
    (h : x.step? t fresh s = some m) : (Task.listen x).LockEffect t fresh s m := by
  cases x with
  | ask tr =>
    simp only [step?] at h
    cases h
    exact .ask rfl rfl rfl rfl
  | await tr =>
    simp only [step?] at h
    split at h
    next hmine =>
      cases h
      exact .handOn tr rfl hmine rfl (by cases tr <;> rfl) rfl
    · cases h
  | _ =>
    simp only [step?] at h
    (repeat' split at h) <;> cases h <;> exact .quiet rfl rfl

/-- A turn does one of five things with the lock. -/
theorem Task.lockEffect [RecordStore σ] {setup : Setup} {t fresh : Nat} {s : PluginState σ}
    {task : Task} {m : Move σ} (h : task.step? setup t fresh s = some m) :
    task.LockEffect t fresh s m := by
  cases task with
  | call tr =>
    simp only [step?] at h
    cases h
    exact .ask rfl rfl rfl rfl
  | await tr =>
    simp only [step?] at h
    split at h
    next hmine =>
      cases h
      exact .enter tr rfl hmine rfl rfl rfl
    · cases h
  | start x => exact StartTask.lockEffect h
  | listen x => exact ListenTask.lockEffect h
  | stop x =>
    simp only [step?, Option.map_eq_some_iff, Prod.exists] at h
    obtain ⟨s', x', hx, rfl⟩ := h
    exact StopTask.lockEffect hx
  | serve x =>
    simp only [step?, Option.map_eq_some_iff, Prod.exists] at h
    obtain ⟨s', x', hx, rfl⟩ := h
    exact .quiet (ServeTask.lock_step? hx) rfl
  | report x =>
    simp only [step?, Option.map_eq_some_iff, Prod.exists] at h
    obtain ⟨s', x', hx, rfl⟩ := h
    exact .quiet (ReportTask.lock_step? hx) rfl
  | keeper x =>
    simp only [step?, Option.map_eq_some_iff, Prod.exists] at h
    obtain ⟨s', x', hx, rfl⟩ := h
    exact .quiet (KeeperTask.lock_step? hx) rfl
  | courier x =>
    simp only [step?, Option.map_eq_some_iff, Prod.exists] at h
    obtain ⟨s', x', hx, rfl⟩ := h
    exact .quiet (CourierTask.lock_step? hx) rfl

/-! ## All tasks together -/

namespace Instance

/-- Where the task of a number stands; a number without a task stands outside. -/
def lockStage (i : Instance σ) (t : Nat) : LockStage :=
  ((i.tasks[t]?).map Task.lockStage).getD .outside

/-- The lock fits the tasks. -/
def LockOrderly (i : Instance σ) : Prop := i.state.lock.Orderly i.lockStage

theorem lockStage_of_getElem? {i : Instance σ} {t : Nat} {task : Task}
    (h : i.tasks[t]? = some task) : i.lockStage t = task.lockStage := by
  simp [lockStage, h]

theorem lockStage_length (i : Instance σ) : i.lockStage i.tasks.length = .outside := by
  simp [lockStage]

theorem lockStage_move {i : Instance σ} {t : Nat} (ht : t < i.tasks.length) (m : Move σ) (u : Nat) :
    (i.move t m).lockStage u =
      if u = t then m.next.lockStage
      else if u = i.tasks.length then (m.spawned.map Task.lockStage).getD .outside
      else i.lockStage u := by
  simp only [lockStage, getElem?_tasks_move ht]
  split
  · rfl
  · split <;> rfl

theorem LockOrderly.act {i : Instance σ} (h : i.LockOrderly) (a : HostAction) :
    (i.act a).LockOrderly := by
  have hlock : (i.act a).state.lock = i.state.lock := by
    rw [state_act]
    cases a with
    | drop e => cases e <;> rfl
    | _ => rfl
  unfold LockOrderly
  rw [hlock]
  refine Lock.Orderly.congr h fun u => ?_
  simp only [lockStage, getElem?_tasks_act]
  split
  next hu =>
    rw [hu, List.getElem?_eq_none (Nat.le_refl _)]
    cases a <;> rfl
  · rfl

theorem LockOrderly.step [RecordStore σ] {i j : Instance σ} {t : Nat} (h : i.LockOrderly)
    (hs : i.step? t = some j) : j.LockOrderly := by
  obtain ⟨task, m, htask, hm, rfl⟩ := step?_eq_some_iff.1 hs
  have ht : t < i.tasks.length := (List.getElem?_eq_some_iff.1 htask).1
  have hold := lockStage_of_getElem? htask
  have hself : (i.move t m).lockStage t = m.next.lockStage := by
    rw [lockStage_move ht, if_pos rfl]
  -- without a task that holds the lock from the start, only the stage of `t` changes
  have hothers : (∀ x, m.spawned = some x → x.lockStage = .outside) →
      ∀ u, u ≠ t → (i.move t m).lockStage u = i.lockStage u := by
    intro hsp u hu
    rw [lockStage_move ht, if_neg hu]
    split
    next hul =>
      rw [hul, lockStage_length]
      cases hx : m.spawned with
      | none => rfl
      | some x => exact hsp x hx
    · rfl
  have halone : m.spawned = none → ∀ u, u ≠ t → (i.move t m).lockStage u = i.lockStage u :=
    fun hn => hothers fun x hx => by rw [hn] at hx; cases hx
  unfold LockOrderly
  rw [state_move]
  cases Task.lockEffect hm with
  | keep hlock hnext hspawned =>
    rw [hlock]
    refine Lock.Orderly.congr h fun u => ?_
    by_cases e : u = t
    · rw [e, hself, hnext, hold]
    · exact hothers hspawned u e
  | ask hbefore hlock hnext hspawned =>
    rw [hlock]
    exact Lock.Orderly.ask h (hold.trans hbefore) (hself.trans hnext) (halone hspawned)
  | enter tr hbefore hmine hlock hnext hspawned =>
    rw [hlock]
    refine Lock.Orderly.enter h hmine (hself.trans ?_) (halone hspawned)
    rw [hnext]
    exact Task.lockStage_ofTransition tr
  | handOn tr hbefore hmine hlock hnext hspawned =>
    rw [hlock]
    refine Lock.Orderly.handTo h hmine (lockStage_length i) (hself.trans hnext) ?_ ?_
    · rw [lockStage_move ht, if_neg (by omega), if_pos rfl, hspawned]
      exact Task.lockStage_ofTransition tr
    · intro u hu huf
      rw [lockStage_move ht, if_neg hu, if_neg huf]
  | release hbefore hlock hnext hspawned =>
    rw [hlock]
    exact Lock.Orderly.release h (hold.trans hbefore) (hself.trans hnext) (halone hspawned)

theorem Fresh.lockOrderly {i : Instance σ} (h : i.Fresh) : i.LockOrderly := by
  unfold LockOrderly
  rw [h.lock]
  refine Lock.orderly_free.congr fun u => ?_
  simp only [lockStage, h.tasks]
  match u with
  | 0 | 1 | 2 => rfl
  | _ + 3 => rfl

/-- Whatever happens, the lifecycle lock is held by at most one transition at a time. -/
theorem lockOrderly_of_reachable [RecordStore σ] {i j : Instance σ} (hi : i.Fresh)
    (h : i.Reachable j) : j.LockOrderly := by
  induction h with
  | refl => exact hi.lockOrderly
  | step _ hs ih =>
    obtain ⟨t, ht⟩ := hs
    exact ih.step ht
  | act _ a ih => exact ih.act a

end Instance

end PluginKernel
