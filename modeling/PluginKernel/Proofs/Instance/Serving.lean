import PluginKernel.Proofs.Instance.Renewal
import PluginKernel.Proofs.Instance.Termination

/-!
# The health of the services follows the lifecycle

A start marks the server as a whole and each service as up, whatever they were marked as before, and
a stop marks whatever has been marked as down. So all of them have one and the same status, and no
other service ever has one: `Health.Uniform`. Which status it is can be told from the phase of the
plugin and from whether a start has ever opened a listener, for after that nothing can keep it from
bringing a server up. A start that fails opens none and marks nothing, so after it services are
known as they were before: `healthFollows_of_course`.
-/

namespace PluginKernel

variable {σ : Type}

/-! ## One status for all services -/

namespace Health

variable {h : Health} {services : List String} {x : Option ServingStatus}

/-- The server as a whole and some services have one and the same status, or none, and no other
service has one. -/
def Marked (h : Health) (services : List String) (x : Option ServingStatus) : Prop :=
  ∀ service, h.status service = if service ∈ "" :: services then x else none

theorem marked_empty (services : List String) : Marked .empty services none := by
  intro service
  rw [ite_self]
  rfl

theorem Marked.status_server (hm : h.Marked services x) : h.status "" = x := by
  rw [hm, if_pos List.mem_cons_self]

/-- A service that is marked as up may have had a status or none. -/
theorem Marked.serve (hm : h.Marked services x) :
    (h.serve services).Marked services (some .serving) := by
  intro service
  rw [Health.serve, status_foldl, hm]
  split <;> rfl

theorem eq_empty_of_status (hnone : ∀ service, h.status service = none) : h = .empty := by
  cases h with
  | nil => rfl
  | cons p rest =>
    have hfirst := hnone p.1
    rw [status, Assoc.get?, if_pos rfl] at hfirst
    cases hfirst

theorem Marked.shutdown (hm : h.Marked services x) :
    h.shutdown.Marked services (x.map fun _ => .notServing) := by
  intro service
  rw [status_shutdown, hm]
  split <;> rfl

/-- A server and its services are all up, or all down, or none of them was ever marked. -/
def Uniform (h : Health) (services : List String) : Prop :=
  ∃ x, h.Marked services x ∧ x ≠ some .unknown

theorem uniform_empty (services : List String) : Uniform .empty services :=
  ⟨none, marked_empty services, by simp⟩

theorem Uniform.status_eq_none (hu : h.Uniform services) {service : String}
    (hout : service ∉ "" :: services) : h.status service = none := by
  obtain ⟨x, hm, -⟩ := hu
  rw [hm, if_neg hout]

/-- Where nothing is up but something was, everything is down. -/
theorem Uniform.marked_of_quiet (hu : h.Uniform services) (hq : h.Quiet) (hne : h ≠ .empty) :
    h.Marked services (some .notServing) := by
  obtain ⟨x, hm, hknown⟩ := hu
  cases x with
  | none =>
    have hnone (service : String) : h.status service = none := by rw [hm, ite_self]
    exact absurd (eq_empty_of_status hnone) hne
  | some y =>
    cases y with
    | unknown => exact absurd rfl hknown
    | serving => exact absurd hm.status_server (hq "")
    | notServing => exact hm

end Health

/-- Whatever a task does about the health of the services, it does to all of them. -/
theorem Health.Uniform.after {setup : Setup} {h : Health}
    (hu : h.Uniform setup.choices.services) (task : Task) :
    (task.healthAfter setup h).Uniform setup.choices.services := by
  obtain ⟨x, hm, hknown⟩ := hu
  unfold Task.healthAfter
  split
  · exact ⟨_, hm.serve, by simp⟩
  · refine ⟨_, hm.shutdown, ?_⟩
    cases x <;> simp
  · exact ⟨x, hm, hknown⟩

/-! ## Phase and server -/

/-- A plugin that runs has a server, and one that is idle has none. -/
structure PluginState.PhaseFits (s : PluginState σ) : Prop where
  running : s.phase = .running → s.server.isSome
  idle : s.phase = .idle → s.server = none

section Steps

variable {setup : Setup} {t fresh : Nat} {s s' : PluginState σ}

/-- While a plugin is starting or stopping, it may have a server or not. -/
theorem PluginState.phaseFits_of_changing (h : s.phase = .starting ∨ s.phase = .stopping) :
    s.PhaseFits := by
  refine ⟨fun hphase => ?_, fun hphase => ?_⟩
  all_goals
    rw [hphase] at h
    rcases h with h | h <;> cases h

theorem PluginState.phaseFits_of_running (hphase : s.phase = .running)
    (hserver : s.server.isSome) : s.PhaseFits := by
  refine ⟨fun _ => hserver, fun hidle => ?_⟩
  rw [hphase] at hidle
  cases hidle

theorem PluginState.phaseFits_of_idle (hphase : s.phase = .idle) (hserver : s.server = none) :
    s.PhaseFits := by
  refine ⟨fun hrunning => ?_, fun _ => hserver⟩
  rw [hphase] at hrunning
  cases hrunning

theorem PluginState.PhaseFits.background (h : s.PhaseFits) (hb : s.Background s') :
    s'.PhaseFits := by
  refine ⟨fun hp => ?_, fun hp => ?_⟩
  · rw [hb.server]
    exact h.running (hb.phase ▸ hp)
  · rw [hb.server]
    exact h.idle (hb.phase ▸ hp)

theorem StartTask.phaseFits_step {x : StartTask} {m : Move σ} (h : x.step? setup t s = some m)
    (hin : x.lockStage = .inside) (hk : x.Knows s) (hs : s.PhaseFits) : m.state.PhaseFits := by
  cases x with
  | enter plugin =>
    simp only [step?] at h
    split at h <;> cases h
    · exact ⟨hs.running, hs.idle⟩
    · exact PluginState.phaseFits_of_changing (.inl rfl)
  | bind plugin =>
    simp only [step?] at h
    split at h <;> cases h <;> exact PluginState.phaseFits_of_changing (.inl hk.1)
  | announce plugin n | launch plugin n | record plugin =>
    cases h
    exact PluginState.phaseFits_of_changing (.inl hk.1)
  | settle l =>
    obtain ⟨-, ⟨n, hserver, -⟩, -⟩ := hk
    cases h
    exact PluginState.phaseFits_of_running rfl (Option.isSome_of_eq_some hserver)
  | fail plugin e =>
    cases h
    exact PluginState.phaseFits_of_idle rfl hk.2.1
  | release l | giveUp plugin e =>
    cases h
    exact ⟨hs.running, hs.idle⟩
  | emit | report | done => cases hin

theorem StopTask.phaseFits_step {x x' : StopTask} (h : x.step? setup t s = some (s', x'))
    (hin : x.lockStage = .inside) (hk : x.Knows s) (hs : s.PhaseFits) : s'.PhaseFits := by
  cases x with
  | enter plugin =>
    simp only [step?, PluginState.logged] at h
    split at h <;> cases h
    · exact PluginState.phaseFits_of_changing (.inr rfl)
    · exact ⟨hs.running, hs.idle⟩
  | silence plugin n | cancel plugin n =>
    cases h
    exact PluginState.phaseFits_of_changing (.inr hk.1)
  | join plugin n =>
    simp only [step?] at h
    (repeat' split at h) <;> cases h
    exact PluginState.phaseFits_of_changing (.inr hk.1)
  | record plugin =>
    simp only [step?] at h
    split at h <;> cases h <;> exact ⟨hs.running, hs.idle⟩
  | settle plugin l =>
    cases h
    exact PluginState.phaseFits_of_idle rfl hk.1
  | release plugin l =>
    cases h
    exact ⟨hs.running, hs.idle⟩
  | emit | acknowledge | wait | done => cases hin

theorem Task.phaseFits_step [RecordStore σ] {task : Task} {m : Move σ}
    (h : task.step? setup t fresh s = some m) (hk : task.lockStage = .inside → task.Knows s)
    (hs : s.PhaseFits) : m.state.PhaseFits := by
  by_cases hin : task.lockStage = .inside
  · cases task with
    | start x => exact StartTask.phaseFits_step h hin (hk hin) hs
    | stop x =>
      simp only [step?, Option.map_eq_some_iff, Prod.exists] at h
      obtain ⟨s', x', hx, rfl⟩ := h
      exact StopTask.phaseFits_step hx hin (hk hin) hs
    | listen x => cases x <;> cases hin
    | _ => cases hin
  · exact hs.background (Task.background h hin)

end Steps

namespace Instance

variable {i j k : Instance σ} {es : List (Event σ)} {t : Nat}

theorem Fresh.phaseFits (h : i.Fresh) : i.state.PhaseFits :=
  PluginState.phaseFits_of_idle h.phase h.server

/-- Somebody who is ahead of the server is starting or stopping the plugin. -/
theorem Coherent.not_aheadAt_of_phase (h : i.Coherent)
    (hphase : i.state.phase = .running ∨ i.state.phase = .idle) (t : Nat) : ¬ i.AheadAt t := by
  rintro ⟨task, ht, hahead⟩
  have hknows := h.inside t task ht hahead.lockStage
  have hchanging : i.state.phase = .starting ∨ i.state.phase = .stopping := by
    unfold Task.IsAhead at hahead
    split at hahead
    · exact .inl hknows.1
    · exact .inr hknows.1
    · cases hahead
  rcases hphase with hp | hp <;> simp [hp] at hchanging

/-! ## Opening a listener and marking services -/

theorem Opened.mono (h : Opened es) (more : List (Event σ)) : Opened (es ++ more) := by
  obtain ⟨t, n, hd⟩ := h
  exact ⟨t, n, mem_deeds_mono hd more⟩

theorem opened_turn {w : Turn σ} :
    Opened (es ++ [.turn w]) ↔ Opened es ∨ ∃ n, w.deed? = some (.bound n) := by
  have hiff (es : List (Event σ)) :
      Opened es ↔ ∃ w ∈ turnsOf es, ∃ n, w.deed? = some (.bound n) := by
    simp only [Opened, mem_deeds]
    exact ⟨fun ⟨_, n, w, hw, _, hdeed⟩ => ⟨w, hw, n, hdeed⟩,
      fun ⟨w, hw, n, hdeed⟩ => ⟨w.task, n, w, hw, rfl, hdeed⟩⟩
  rw [hiff, hiff, turnsOf_turn]
  simp [or_and_right, exists_or]

theorem opened_action {a : HostAction} : Opened (es ++ [.action i a]) ↔ Opened es := by
  rw [Opened, Opened, turnsOf_action]

/-- A start is about to mark services as up. -/
def Announcing (i : Instance σ) : Prop :=
  ∃ (t : Nat) (plugin : String) (n : Nat), i.tasks[t]? = some (.start (.announce plugin n))

/-- After it has opened a listener, a start is about to mark services as up. -/
theorem announcing_of_bound {n : Nat} (hdeed : (⟨t, j, k⟩ : Turn σ).deed? = some (.bound n)) :
    k.Announcing := by
  obtain ⟨task, next, -, hnext, hdeed⟩ := Turn.of_deed? hdeed
  obtain ⟨-, plugin, -, rfl⟩ := Task.of_bound hdeed
  exact ⟨t, plugin, n, hnext⟩

theorem Announcing.act (h : i.Announcing) (a : HostAction) : (i.act a).Announcing := by
  obtain ⟨t, plugin, n, ht⟩ := h
  have hlt : t < i.tasks.length := (List.getElem?_eq_some_iff.1 ht).1
  refine ⟨t, plugin, n, ?_⟩
  rw [getElem?_tasks_act, if_neg (Nat.ne_of_lt hlt), ht]

/-! ## In the course of a plugin -/

variable [RecordStore σ]

theorem phaseFits_of_reachable (hi : i.Fresh) (h : i.Reachable j) : j.state.PhaseFits := by
  induction h with
  | refl => exact hi.phaseFits
  | step hr hs ih =>
    obtain ⟨t, ht⟩ := hs
    obtain ⟨task, m, htask, hm, rfl⟩ := step?_eq_some_iff.1 ht
    rw [state_move]
    exact Task.phaseFits_step hm ((coherent_of_reachable hi hr).inside t task htask) ih
  | act _ a ih =>
    rw [state_act]
    exact ih.background (PluginState.background_act _ a)

/-- At all times the server and its services have one and the same status, or none. -/
theorem uniform_of_reachable (hi : i.Fresh) (h : i.Reachable j) :
    j.state.health.Uniform j.setup.choices.services := by
  induction h with
  | refl =>
    rw [hi.health]
    exact Health.uniform_empty _
  | step _ hs ih =>
    obtain ⟨t, ht⟩ := hs
    obtain ⟨task, m, -, hm, rfl⟩ := step?_eq_some_iff.1 ht
    rw [state_move, setup_move, Task.health_step? hm]
    exact ih.after task
  | act _ a ih =>
    rw [state_act, setup_act, (PluginState.health_act _ a).1]
    exact ih

/-- A start that is about to mark services as up has opened its listener. -/
theorem opened_of_announce (hi : i.Fresh) (h : i.Course es j) {plugin : String} {n : Nat}
    (ht : j.tasks[t]? = some (.start (.announce plugin n))) : Opened es := by
  have hall := allDid_of_course hi h
  obtain ⟨tr, hbegun⟩ := hall.begun t _ ht rfl
  obtain ⟨task, htask, hdid⟩ := hall.did t tr hbegun
  obtain rfl : task = _ := Option.some.inj (htask.symm.trans ht)
  obtain ⟨p, -, -, hds⟩ := hdid
  refine ⟨t, n, ?_⟩
  rw [hds]
  exact List.mem_cons_self

/-- No service has a status before a start has opened a listener. -/
theorem health_eq_empty (hi : i.Fresh) (h : i.Course es j) (hnone : ¬ Opened es) :
    j.state.health = .empty := by
  induction h with
  | refl => exact hi.health
  | @turn es j k t h hs ih =>
    have hempty := ih fun hopened => hnone (hopened.mono _)
    obtain ⟨task, m, htask, hm, rfl⟩ := step?_eq_some_iff.1 hs
    rw [state_move, Task.health_step? hm, hempty]
    unfold Task.healthAfter
    split
    · exact absurd ((opened_of_announce hi h htask).mono _) hnone
    · rfl
    · rfl
  | @action es j h a ih =>
    rw [state_act, (PluginState.health_act _ a).1]
    exact ih fun hopened => hnone (hopened.mono _)

/-- A start that is about to mark services does so in its next turn. -/
theorem Announcing.step (h : j.Announcing) (hs : j.step? t = some k) :
    k.Announcing ∨ k.state.health ≠ .empty := by
  obtain ⟨u, plugin, n, hu⟩ := h
  obtain ⟨task, m, htask, hm, rfl⟩ := step?_eq_some_iff.1 hs
  have ht : t < j.tasks.length := (List.getElem?_eq_some_iff.1 htask).1
  by_cases hut : u = t
  · subst hut
    obtain rfl : _ = task := Option.some.inj (hu.symm.trans htask)
    right
    rw [state_move, Task.health_step? hm]
    exact Health.serve_ne_empty _ _
  · have hlt : u < j.tasks.length := (List.getElem?_eq_some_iff.1 hu).1
    refine .inl ⟨u, plugin, n, ?_⟩
    rw [getElem?_tasks_move ht, if_neg hut, if_neg (Nat.ne_of_lt hlt), hu]

/-- Once a start has opened a listener, services are marked or about to be. -/
theorem announcing_or_ne_empty (h : i.Course es j) (hopened : Opened es) :
    j.Announcing ∨ j.state.health ≠ .empty := by
  induction h with
  | refl =>
    obtain ⟨t, n, hd⟩ := hopened
    cases hd
  | turn h hs ih =>
    rcases opened_turn.1 hopened with hbefore | ⟨n, hdeed⟩
    · rcases ih hbefore with hannouncing | hne
      · exact hannouncing.step hs
      · exact .inr (ne_empty_step hne hs)
    · exact .inl (announcing_of_bound hdeed)
  | action h a ih =>
    rcases ih (opened_action.1 hopened) with hannouncing | hne
    · exact .inl (hannouncing.act a)
    · rw [state_act, (PluginState.health_act _ a).1]
      exact .inr hne

/-! ## The health in each phase -/

/-- What the health of a plugin says that was set up with some services. -/
structure HealthFollows (services : List String) (es : List (Event σ)) (s : PluginState σ) :
    Prop where
  /-- Nothing before a start gets so far as to open a listener. -/
  before : ¬ Opened es → ∀ service, s.health.status service = none
  /-- That the server and its services are up while the plugin runs. -/
  running : s.phase = .running →
    ∀ service ∈ "" :: services, s.health.status service = some .serving
  /-- That they are down, and nothing else, when the plugin is idle after a run. -/
  idle : s.phase = .idle → Opened es →
    ∀ service, s.health.status service = some .notServing ↔ service ∈ "" :: services
  /-- Nothing about any other service, ever. -/
  elsewhere : ∀ service ∉ "" :: services, s.health.status service = none

/-- Whatever services a plugin is set up with, whatever its host does and in whatever order tasks
take their turns: the health of the services follows the phase. -/
theorem healthFollows_of_course (hi : i.Fresh) (h : i.Course es j) :
    HealthFollows i.setup.choices.services es j.state := by
  have hcoherent := coherent_of_reachable hi h.reachable
  have hfits := healthFits_of_reachable hi h.reachable
  have hphase := phaseFits_of_reachable hi h.reachable
  have huniform := uniform_of_reachable hi h.reachable
  rw [← setup_of_reachable h.reachable]
  refine ⟨fun hnone service => ?before, fun hrunning service hmem => ?running,
    fun hidle hopened service => ?idle, fun service => huniform.status_eq_none⟩
  case before =>
    rw [health_eq_empty hi h hnone]
    rfl
  case running =>
    have hnobody := hcoherent.not_aheadAt_of_phase (.inl hrunning)
    exact (hfits.up hnobody (hphase.running hrunning) service).2 hmem
  case idle =>
    have hquiet := hfits.down (hcoherent.not_aheadAt_of_phase (.inr hidle)) (hphase.idle hidle)
    have hne : j.state.health ≠ .empty := by
      rcases announcing_or_ne_empty h hopened with ⟨t, plugin, n, ht⟩ | hne
      · -- while a start is about to mark services the plugin is starting
        have hstarting := (hcoherent.inside t _ ht rfl).1
        rw [hidle] at hstarting
        cases hstarting
      · exact hne
    rw [huniform.marked_of_quiet hquiet hne service]
    simp only [Option.ite_none_right_eq_some, and_true]

/-- A plugin that is set up with a service of no name and another one that is named twice. -/
def served : Instance Store.Tree :=
  initial { sampleSetup with
    choices := { sampleSetup.choices with services := ["", "greeter", "greeter"] } } 1 .empty

/-- A plugin has been started and stopped. Another program takes the place that it listened on, so
that another start fails, and its services are still known to be down. -/
theorem down_after_failed_start : ∃ (es : List (Event Store.Tree)) (j : Instance Store.Tree),
    served.Course es j ∧ (∃ e, deeds (turnsOf es) 6 = [.failed e]) ∧ j.state.phase = .idle ∧
      ∀ service, j.state.health.status service = some .notServing ↔
        service = "" ∨ service = "greeter" := by
  have hrun : ((startedAndStopped served 3).bind fun j => (j.steps? windingTurns).bind fun k =>
      ((k.act (.occupy ⟨.any, 8443⟩)).act (.call (.start "p1"))).steps? (List.replicate 9 6)).map
        (fun l => (l.state.phase, l.tasks[6]?)) =
      some (.idle, some (.start (.report .done))) := by with_unfolding_all rfl
  have hdeeds : deeds ((served.act (.call (.start "p1"))).turns (List.replicate 10 3)) 3 =
      [.bound 0, .launched 4 "p1" 0] := by with_unfolding_all rfl
  obtain ⟨j, hj, hseen⟩ := Option.map_eq_some_iff.1 hrun
  obtain ⟨hidle, hlast⟩ := Prod.mk.inj hseen
  obtain ⟨stopped, hstopped, hj⟩ := Option.bind_eq_some_iff.1 hj
  obtain ⟨wound, hwound, hj⟩ := Option.bind_eq_some_iff.1 hj
  obtain ⟨started, hstarted, hstopped⟩ := Option.bind_eq_some_iff.1 hstopped
  obtain ⟨es, hes, hopened⟩ : ∃ es, served.Course es started ∧ Opened es := by
    refine ⟨_, (Course.refl.action (.call (.start "p1"))).turns hstarted, 3, 0, ?_⟩
    rw [turnsOf_map_turn, deeds_append, hdeeds]
    exact List.mem_append_right _ List.mem_cons_self
  have hstop := (((Course.refl (i := started)).action (.call (.stop "p1"))).turns hstopped).turns
    hwound
  have hcourse := hes.trans
    (((hstop.action (.occupy ⟨.any, 8443⟩)).action (.call (.start "p1"))).turns hj)
  refine ⟨_, j, hcourse, ?failed, hidle, fun service => ?down⟩
  case failed =>
    have hall := allDid_of_course (fresh_initial _ _ _) hcourse
    obtain ⟨tr, hbegun⟩ := hall.begun 6 _ hlast rfl
    obtain ⟨task, htask, hdid⟩ := hall.did 6 tr hbegun
    obtain rfl := Option.some.inj (htask.symm.trans hlast)
    obtain ⟨plugin, -, hfailed⟩ := hdid
    exact hfailed
  case down =>
    rw [(healthFollows_of_course (fresh_initial _ _ _) hcourse).idle hidle (hopened.mono _)]
    simp [initial]

end Instance

end PluginKernel
