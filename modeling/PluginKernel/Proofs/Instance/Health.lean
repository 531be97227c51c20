import PluginKernel.Proofs.Instance.Coherence
import PluginKernel.Proofs.Instance.Course
import PluginKernel.Proofs.Instance.Footprint
import PluginKernel.Proofs.SortedMaps

/-!
# The health of the services tells whether there is a server

A start marks the services as up just before there is a server, and a stop marks them as down just
after there is none. In between, a task inside the lifecycle lock is *ahead* of the server: services
are up without one. At all other times exactly the services of a server are up, and all of them:
`healthFits_of_reachable`.
-/

namespace PluginKernel

variable {σ : Type}

namespace Health

variable {h : Health} {service : String}

theorem status_set (h : Health) (s service : String) (x : ServingStatus) :
    (h.set s x).status service = if s = service then some x else h.status service :=
  Assoc.get?_insert s service x h

/-- The server as a whole and exactly some services are up. -/
def Serves (h : Health) (services : List String) : Prop :=
  ∀ service, h.status service = some .serving ↔ service ∈ "" :: services

/-- Nothing is up. -/
def Quiet (h : Health) : Prop := ∀ service, h.status service ≠ some .serving

theorem quiet_empty : Quiet .empty := fun _ h => by cases h

theorem status_foldl (h : Health) (marked : List String) (service : String) :
    (marked.foldl (fun h service => h.set service .serving) h).status service =
      if service ∈ marked then some .serving else h.status service := by
  induction marked generalizing h with
  | nil => rfl
  | cons s rest ih =>
    rw [List.foldl_cons, ih, status_set]
    by_cases hs : s = service
    · simp [hs]
    · simp [hs, Ne.symm hs]

theorem Quiet.serve (hq : h.Quiet) (services : List String) :
    (h.serve services).Serves services := by
  intro service
  rw [Health.serve, status_foldl]
  split
  next hmem => exact iff_of_true rfl hmem
  next hout => exact iff_of_false (hq service) hout

theorem status_shutdown (h : Health) (service : String) :
    h.shutdown.status service = (h.status service).map fun _ => .notServing :=
  Assoc.get?_mapValues _ service h

theorem quiet_shutdown (h : Health) : h.shutdown.Quiet := by
  intro service
  rw [status_shutdown]
  cases h.status service <;> simp

end Health

/-- A task has marked services that do not fit the server. -/
def Task.IsAhead : Task → Prop
  | start (.launch ..) | stop (.silence ..) => True
  | _ => False

theorem Task.IsAhead.lockStage {task : Task} (h : task.IsAhead) : task.lockStage = .inside := by
  unfold IsAhead at h
  split at h
  · rfl
  · rfl
  · cases h

theorem Task.IsAhead.kind {task : Task} (h : task.IsAhead) : task.kind = .transition := by
  unfold IsAhead at h
  split at h
  · rfl
  · rfl
  · cases h

/-- What a turn of a task can do about the server and the health of its services. -/
inductive Task.HealthEffect (setup : Setup) (s : PluginState σ) (task : Task) (m : Move σ) :
    Prop where
  | keep (hhealth : m.state.health = s.health) (hserver : m.state.server = s.server)
      (htask : ¬ task.IsAhead) (hnext : ¬ m.next.IsAhead)
  | announce {plugin : String} {n : Nat} (htask : task = .start (.announce plugin n))
      (hhealth : m.state.health = s.health.serve setup.choices.services)
      (hnext : m.next.IsAhead)
  | launch {plugin : String} {n : Nat} (htask : task = .start (.launch plugin n))
      (hhealth : m.state.health = s.health) (hserver : m.state.server = some n)
      (hnext : ¬ m.next.IsAhead)
  /-- A stop has found a server. -/
  | take {plugin : String} {n : Nat} (htask : task = .stop (.enter plugin))
      (hhealth : m.state.health = s.health) (hserver : s.server = some n)
      (hnext : m.next.IsAhead)
  | silence {plugin : String} {n : Nat} (htask : task = .stop (.silence plugin n))
      (hhealth : m.state.health = s.health.shutdown) (hserver : m.state.server = s.server)
      (hnext : ¬ m.next.IsAhead)

section Effects

variable {setup : Setup} {t fresh : Nat} {s s' : PluginState σ} {m : Move σ}

theorem StartTask.healthEffect {x : StartTask} (h : x.step? setup t s = some m) :
    (Task.start x).HealthEffect setup s m := by
  cases x with
  | announce plugin n =>
    cases h
    exact .announce rfl rfl trivial
  | launch plugin n =>
    cases h
    exact .launch rfl rfl rfl id
  | report r =>
    simp only [step?, Option.map_eq_some_iff, Prod.exists] at h
    obtain ⟨s', r', hr, rfl⟩ := h
    have hw := ReportTask.writes hr
    exact .keep (by rw [hw]) (by rw [hw]) id id
  | _ =>
    simp only [step?] at h
    (repeat' split at h) <;> cases h <;> exact .keep rfl rfl id id

theorem StopTask.healthEffect {x x' : StopTask} (h : x.step? setup t s = some (s', x')) :
    (Task.stop x).HealthEffect setup s ⟨s', .stop x', none⟩ := by
  cases x with
  | enter plugin =>
    simp only [step?, PluginState.logged] at h
    split at h <;> cases h
    next hserver => exact .take rfl rfl hserver trivial
    · exact .keep rfl rfl id id
  | silence plugin n =>
    cases h
    exact .silence rfl rfl rfl id
  | _ =>
    simp only [step?] at h
    (repeat' split at h) <;> cases h <;> exact .keep rfl rfl id id

/-- Starts and stops are all that touches the health of services. -/
theorem Task.healthEffect [RecordStore σ] {task : Task}
    (h : task.step? setup t fresh s = some m) : task.HealthEffect setup s m := by
  cases task with
  | call tr =>
    cases h
    exact .keep rfl rfl id id
  | await tr =>
    simp only [step?] at h
    split at h <;> cases h
    exact .keep rfl rfl id (by cases tr <;> exact id)
  | start x => exact StartTask.healthEffect h
  | stop x =>
    simp only [step?, Option.map_eq_some_iff, Prod.exists] at h
    obtain ⟨s', x', hx, rfl⟩ := h
    exact StopTask.healthEffect hx
  | listen x =>
    have hw := ListenTask.writes h
    refine .keep (by rw [hw]) (by rw [hw]) id fun hahead => ?_
    have hkind := kind_next h
    rw [hahead.kind] at hkind
    cases hkind
  | serve x =>
    simp only [step?, Option.map_eq_some_iff, Prod.exists] at h
    obtain ⟨s', x', hx, rfl⟩ := h
    have hw := ServeTask.writes hx
    exact .keep (by rw [hw]) (by rw [hw]) id id
  | report x =>
    simp only [step?, Option.map_eq_some_iff, Prod.exists] at h
    obtain ⟨s', x', hx, rfl⟩ := h
    have hw := ReportTask.writes hx
    exact .keep (by rw [hw]) (by rw [hw]) id id
  | keeper x =>
    simp only [step?, Option.map_eq_some_iff, Prod.exists] at h
    obtain ⟨s', x', hx, rfl⟩ := h
    have hw := KeeperTask.writes hx
    exact .keep (by rw [hw]) (by rw [hw]) id id
  | courier x =>
    simp only [step?, Option.map_eq_some_iff, Prod.exists] at h
    obtain ⟨s', x', hx, rfl⟩ := h
    have hw := CourierTask.writes hx
    exact .keep (by rw [hw]) (by rw [hw]) id id

theorem Task.not_isAhead_spawned [RecordStore σ] {task x : Task}
    (h : task.step? setup t fresh s = some m) (hx : m.spawned = some x) : ¬ x.IsAhead := by
  rcases spawned_eq h hx with ⟨plugin, n, rfl⟩ | ⟨tr, -, rfl⟩
  · exact id
  · cases tr <;> exact id

end Effects

/-- The host does not touch the server and the health of its services. -/
theorem PluginState.health_act (s : PluginState σ) (a : HostAction) :
    (s.act a).health = s.health ∧ (s.act a).server = s.server := by
  cases a with
  | drop e => cases e <;> exact ⟨rfl, rfl⟩
  | _ => exact ⟨rfl, rfl⟩

namespace Instance

/-- The task of a number is ahead of the server. -/
def AheadAt (i : Instance σ) (t : Nat) : Prop := ∃ task, i.tasks[t]? = some task ∧ task.IsAhead

/-- The health of the services fits the server, unless a task is ahead of it; then services are
up. -/
structure HealthFits (i : Instance σ) : Prop where
  ahead : ∀ t, i.AheadAt t → i.state.health.Serves i.setup.choices.services
  up : (∀ t, ¬ i.AheadAt t) → i.state.server.isSome →
    i.state.health.Serves i.setup.choices.services
  down : (∀ t, ¬ i.AheadAt t) → i.state.server = none → i.state.health.Quiet

variable {i j : Instance σ} {t u : Nat}

theorem Fresh.healthFits (h : i.Fresh) : i.HealthFits := by
  refine ⟨fun t => ?_, fun _ hserver => ?_, fun _ _ => ?_⟩
  · rintro ⟨task, ht, hahead⟩
    rcases h.eq_of_getElem? ht with rfl | rfl | rfl <;> cases hahead
  · rw [h.server] at hserver
    cases hserver
  · rw [h.health]
    exact Health.quiet_empty

/-- The server, the health of its services and who is ahead are the same. -/
theorem HealthFits.congr (h : i.HealthFits) (hsetup : j.setup = i.setup)
    (hhealth : j.state.health = i.state.health) (hserver : j.state.server = i.state.server)
    (hahead : ∀ t, j.AheadAt t ↔ i.AheadAt t) : j.HealthFits := by
  refine ⟨fun t ht => ?_, fun hnone hsome => ?_, fun hnone hgone => ?_⟩
  · rw [hhealth, hsetup]
    exact h.ahead t ((hahead t).1 ht)
  · rw [hhealth, hsetup]
    rw [hserver] at hsome
    exact h.up (fun t ht => hnone t ((hahead t).2 ht)) hsome
  · rw [hhealth]
    rw [hserver] at hgone
    exact h.down (fun t ht => hnone t ((hahead t).2 ht)) hgone

/-- Somebody is ahead, and services are up. -/
theorem healthFits_of_aheadAt (ht : j.AheadAt t)
    (hserves : j.state.health.Serves j.setup.choices.services) : j.HealthFits :=
  ⟨fun _ _ => hserves, fun hnone => absurd ht (hnone t), fun hnone => absurd ht (hnone t)⟩

theorem HealthFits.act (h : i.HealthFits) (a : HostAction) : (i.act a).HealthFits := by
  obtain ⟨hhealth, hserver⟩ := i.state.health_act a
  rw [← state_act] at hhealth hserver
  refine h.congr (setup_act i a) hhealth hserver fun t => ?_
  rw [AheadAt, AheadAt, getElem?_tasks_act]
  split
  next ht =>
    rw [ht, List.getElem?_eq_none (Nat.le_refl _)]
    cases a <;> simp [HostAction.task?, Task.IsAhead]
  · rfl

theorem aheadAt_of_getElem? {task : Task} (ht : i.tasks[t]? = some task) :
    i.AheadAt t ↔ task.IsAhead := by
  rw [AheadAt, ht]
  simp

theorem aheadAt_move (ht : t < i.tasks.length) (m : Move σ) :
    (i.move t m).AheadAt t ↔ m.next.IsAhead := by
  rw [AheadAt, getElem?_tasks_move ht, if_pos rfl]
  simp

theorem aheadAt_move_of_ne (ht : t < i.tasks.length) {m : Move σ}
    (hspawned : ∀ x, m.spawned = some x → ¬ x.IsAhead) (hu : u ≠ t) :
    (i.move t m).AheadAt u ↔ i.AheadAt u := by
  rw [AheadAt, AheadAt, getElem?_tasks_move ht, if_neg hu]
  split
  next hul =>
    rw [hul, List.getElem?_eq_none (Nat.le_refl _)]
    constructor
    · rintro ⟨x, hx, hahead⟩
      exact absurd hahead (hspawned x hx)
    · rintro ⟨x, hx, -⟩
      cases hx
  · rfl

/-- Whoever is inside the lock is the only one that can be ahead of the server. -/
theorem Coherent.eq_of_aheadAt (h : i.Coherent) {task : Task} (ht : i.tasks[t]? = some task)
    (hin : task.lockStage = .inside) (hu : i.AheadAt u) : u = t := by
  obtain ⟨task', hu, hahead⟩ := hu
  have hstage : i.lockStage t = .inside := (lockStage_of_getElem? ht).trans hin
  by_cases hut : u = t
  · exact hut
  · have hout := h.lock.not_inside (h.lock.holder_of_inside t hstage) hut
    rw [lockStage_of_getElem? hu] at hout
    exact absurd hahead.lockStage hout

theorem Coherent.not_aheadAt (h : i.Coherent) {task : Task} (ht : i.tasks[t]? = some task)
    (hin : task.lockStage = .inside) (hnot : ¬ task.IsAhead) (u : Nat) : ¬ i.AheadAt u := by
  intro hu
  obtain rfl := h.eq_of_aheadAt ht hin hu
  exact hnot ((aheadAt_of_getElem? ht).1 hu)

variable [RecordStore σ]

theorem HealthFits.step (h : i.HealthFits) (hc : i.Coherent) (hs : i.step? t = some j) :
    j.HealthFits := by
  obtain ⟨task, m, htask, hm, rfl⟩ := step?_eq_some_iff.1 hs
  have ht := (List.getElem?_eq_some_iff.1 htask).1
  have hself := aheadAt_move ht m
  have hothers : ∀ u, u ≠ t → ((i.move t m).AheadAt u ↔ i.AheadAt u) :=
    fun u => aheadAt_move_of_ne ht fun x => Task.not_isAhead_spawned hm
  have hbefore := aheadAt_of_getElem? htask
  cases Task.healthEffect hm with
  | keep hhealth hserver htask' hnext =>
    refine h.congr (setup_move i t m) ?_ ?_ fun u => ?_
    · rw [state_move, hhealth]
    · rw [state_move, hserver]
    · by_cases hu : u = t
      · rw [hu, hself, hbefore]
        exact iff_of_false hnext htask'
      · exact hothers u hu
  | announce htask' hhealth hnext =>
    -- a start gets this far only if there is no server, and then nothing is up
    subst htask'
    obtain ⟨-, hgone, -⟩ := hc.inside t _ htask rfl
    have hquiet := h.down (hc.not_aheadAt htask rfl id) hgone
    refine healthFits_of_aheadAt (hself.2 hnext) ?_
    rw [state_move, hhealth, setup_move]
    exact hquiet.serve _
  | launch htask' hhealth hserver hnext =>
    subst htask'
    have hserves := h.ahead t (hbefore.2 trivial)
    rw [← setup_move i t m, ← hhealth, ← state_move i t m] at hserves
    refine ⟨fun _ _ => hserves, fun _ _ => hserves, fun _ hgone => ?_⟩
    rw [state_move, hserver] at hgone
    cases hgone
  | take htask' hhealth hserver hnext =>
    subst htask'
    have hserves := h.up (hc.not_aheadAt htask rfl id) (by rw [hserver]; rfl)
    refine healthFits_of_aheadAt (hself.2 hnext) ?_
    rw [state_move, hhealth, setup_move]
    exact hserves
  | silence htask' hhealth hserver hnext =>
    subst htask'
    obtain ⟨-, hgone, -⟩ := hc.inside t _ htask rfl
    refine ⟨fun u hu => ?_, fun _ hsome => ?_, fun _ _ => ?_⟩
    · by_cases hut : u = t
      · exact absurd (hself.1 (hut ▸ hu)) hnext
      · exact absurd (hc.eq_of_aheadAt htask rfl ((hothers u hut).1 hu)) hut
    · rw [state_move, hserver, hgone] at hsome
      cases hsome
    · rw [state_move, hhealth]
      exact Health.quiet_shutdown _

theorem healthFits_of_reachable (hi : i.Fresh) (h : i.Reachable j) : j.HealthFits := by
  induction h with
  | refl => exact hi.healthFits
  | step hr hs ih =>
    obtain ⟨t, ht⟩ := hs
    exact ih.step (coherent_of_reachable hi hr) ht
  | act _ a ih => exact ih.act a

omit [RecordStore σ] in
/-- While nobody is inside the lifecycle lock, a plugin is up in all its parts and so are its
services, or it is down and nothing is up. -/
theorem HealthFits.up_or_down (h : j.HealthFits) (hc : j.Coherent)
    (hout : ∀ t, j.lockStage t ≠ .inside) :
    (j.state.server.isSome ∧ j.state.IsUp ∧
        j.state.health.Serves j.setup.choices.services) ∨
      (j.state.server = none ∧ j.state.IsDown ∧ j.state.health.Quiet) := by
  have hnobody : ∀ t, ¬ j.AheadAt t := by
    rintro t ⟨task, ht, hahead⟩
    exact hout t ((lockStage_of_getElem? ht).trans hahead.lockStage)
  rcases (hc.rest hout).up_or_down with hup | hdown
  · obtain ⟨n, l, hserver, -⟩ := hup.2.1
    have hsome : j.state.server.isSome := by
      rw [hserver]
      rfl
    exact .inl ⟨hsome, hup, h.up hnobody hsome⟩
  · exact .inr ⟨hdown.2.1, hdown, h.down hnobody hdown.2.1⟩

end Instance

end PluginKernel
