import PluginKernel.Proofs.Instance.Acknowledging
import PluginKernel.Proofs.Instance.Commands

/-!
# A plugin that is only commanded has one server

A start that finds a server does nothing, and the first stop is the last thing that the listener
sets off. So in a course in which the host calls for no start and no stop directly, there is one
stop and one server at most: `oneServer_of_course`. That server has room for its acknowledgment,
whatever the host reads, so nobody who waits for it waits for the host: `holder_eq_none_of_course`.
-/

namespace PluginKernel

variable {σ : Type}

/-- The listener has set a stop off, or will set nothing off any more. -/
def ListenTask.Leaves : ListenTask → Prop
  | announce _ | wait | close | done => True
  | _ => False

/-- A stop has looked whether there is a server. -/
def StopTask.HasLooked : StopTask → Prop
  | enter _ => False
  | _ => True

/-- What a turn of a task can do about servers, and about those who bring them up and take them
down. -/
inductive Task.ServerEffect (s : PluginState σ) (task : Task) (m : Move σ) : Prop where
  | keep (hspawned : m.spawned = none) (hserver : m.state.server = s.server)
      (hstop : ∀ y, m.next = .stop y ↔ task = .stop y)
      (hstart : ∀ y, m.next = .start y →
        ∃ x, task = .start x ∧ (x.lockStage = .outside → y.lockStage = .outside))
      (hserve : ∀ y, m.next = .serve y → ∃ x, task = .serve x)
      (hlisten : ∀ x, task = .listen x → ∃ y, m.next = .listen y ∧ (x.Leaves → y.Leaves))
  | launch {plugin : String} {n : Nat} (htask : task = .start (.launch plugin n))
      (hnext : m.next = .start (.record plugin))
      (hspawned : m.spawned = some (.serve (.greet plugin n)))
      (hserver : m.state.server = some n)
  | look {x y : StopTask} (htask : task = .stop x) (hnext : m.next = .stop y)
      (hspawned : m.spawned = none) (hlooked : y.HasLooked)
      (hserver : m.state.server = none ∨ x.HasLooked ∧ m.state.server = s.server)
  /-- The listener sets a start or a stop off, and nobody else holds the lock. -/
  | handOn {tr : Transition} (htask : task = .listen (.await tr))
      (hnext : m.next = .listen (.after tr)) (hspawned : m.spawned = some (ofTransition tr))
      (hserver : m.state.server = s.server)

section Effects

variable {setup : Setup} {t fresh : Nat} {s s' : PluginState σ} {m : Move σ}

theorem StartTask.serverEffect {x : StartTask} (h : x.step? setup t s = some m) :
    (Task.start x).ServerEffect s m := by
  have hkeep : ∀ (s' : PluginState σ) (y : StartTask), s'.server = s.server →
      (x.lockStage = .outside → y.lockStage = .outside) →
      (Task.start x).ServerEffect s ⟨s', .start y, none⟩ := by
    intro s' y hserver hstage
    refine .keep rfl hserver (fun z => by simp) (fun z hz => ?_) (fun z hz => ?_) fun z hz => ?_
    · cases hz
      exact ⟨x, rfl, hstage⟩
    · cases hz
    · cases hz
  cases x with
  | launch plugin n =>
    cases h
    exact .launch rfl rfl rfl rfl
  | report r =>
    simp only [step?, Option.map_eq_some_iff, Prod.exists] at h
    obtain ⟨s', r', hr, rfl⟩ := h
    exact hkeep s' (report r') (ReportTask.background hr).server fun _ => rfl
  | _ =>
    simp only [step?] at h
    (repeat' split at h) <;> cases h <;> exact hkeep _ _ rfl fun hstage => by
      first | rfl | cases hstage

theorem StopTask.serverEffect {x x' : StopTask} (h : x.step? setup t s = some (s', x')) :
    (Task.stop x).ServerEffect s ⟨s', .stop x', none⟩ := by
  cases x with
  | enter plugin =>
    simp only [step?, PluginState.logged] at h
    split at h <;> cases h
    · exact .look rfl rfl rfl trivial (.inl rfl)
    next hserver => exact .look rfl rfl rfl trivial (.inl hserver)
  | _ =>
    simp only [step?] at h
    (repeat' split at h) <;> cases h <;>
      exact .look rfl rfl rfl trivial (.inr ⟨trivial, rfl⟩)

theorem ListenTask.serverEffect {x : ListenTask} (h : x.step? t fresh s = some m) :
    (Task.listen x).ServerEffect s m := by
  have hkeep : ∀ (s' : PluginState σ) (y : ListenTask), s'.server = s.server →
      (x.Leaves → y.Leaves) → (Task.listen x).ServerEffect s ⟨s', .listen y, none⟩ := by
    intro s' y hserver hleaves
    refine .keep rfl hserver (fun z => by simp) (fun z hz => ?_) (fun z hz => ?_) fun z hz => ?_
    · cases hz
    · cases hz
    · cases hz
      exact ⟨y, rfl, hleaves⟩
  cases x with
  | await tr =>
    simp only [step?] at h
    split at h <;> cases h
    exact .handOn rfl rfl rfl rfl
  | _ =>
    simp only [step?] at h
    (repeat' split at h) <;> cases h <;> first
    | exact hkeep _ _ rfl fun _ => trivial
    | exact hkeep _ _ rfl fun h => by cases h

/-- Whoever neither starts nor stops nor listens leaves servers alone. -/
theorem Task.ServerEffect.idle {task next : Task} (hkind : next.kind = task.kind)
    (htransition : task.kind ≠ .transition) (hlistener : task.kind ≠ .listener)
    (hserver : s'.server = s.server) : task.ServerEffect s ⟨s', next, none⟩ := by
  refine .keep rfl hserver (fun y => ⟨fun hy => ?_, fun hy => ?_⟩) (fun y hy => ?_)
    (fun y hy => ?_) fun x hx => ?_
  · obtain rfl : next = .stop y := hy
    exact absurd hkind.symm htransition
  · subst hy
    exact absurd rfl htransition
  · obtain rfl : next = .start y := hy
    exact absurd hkind.symm htransition
  · obtain rfl : next = .serve y := hy
    cases task with
    | serve x => exact ⟨x, rfl⟩
    | _ => cases hkind
  · subst hx
    exact absurd rfl hlistener

theorem Task.serverEffect [RecordStore σ] {task : Task} (h : task.step? setup t fresh s = some m)
    (hcall : ¬ task.IsCall) : task.ServerEffect s m := by
  cases task with
  | call tr | await tr => exact absurd trivial hcall
  | start x => exact StartTask.serverEffect h
  | listen x => exact ListenTask.serverEffect h
  | stop x =>
    simp only [step?, Option.map_eq_some_iff, Prod.exists] at h
    obtain ⟨s', x', hx, rfl⟩ := h
    exact StopTask.serverEffect hx
  | serve x =>
    simp only [step?, Option.map_eq_some_iff, Prod.exists] at h
    obtain ⟨s', x', hx, rfl⟩ := h
    exact .idle rfl (by simp [kind]) (by simp [kind]) (ServeTask.background hx).server
  | report x =>
    simp only [step?, Option.map_eq_some_iff, Prod.exists] at h
    obtain ⟨s', x', hx, rfl⟩ := h
    exact .idle rfl (by simp [kind]) (by simp [kind]) (ReportTask.background hx).server
  | keeper x =>
    simp only [step?, Option.map_eq_some_iff, Prod.exists] at h
    obtain ⟨s', x', hx, rfl⟩ := h
    exact .idle rfl (by simp [kind]) (by simp [kind]) (KeeperTask.background hx).server
  | courier x =>
    simp only [step?, Option.map_eq_some_iff, Prod.exists] at h
    obtain ⟨s', x', hx, rfl⟩ := h
    exact .idle rfl (by simp [kind]) (by simp [kind]) (CourierTask.background hx).server

end Effects

namespace Instance

/-- There is one stop at most, and it comes after all starts; and there is one server at most. -/
structure OneServer (j : Instance σ) : Prop where
  /-- The listener sets nothing off after a stop. -/
  last : ∀ (t : Nat) (y : StopTask), j.tasks[t]? = some (.stop y) →
    ∃ x, j.tasks[2]? = some (.listen x) ∧ x.Leaves
  stop : ∀ (t u : Nat) (y z : StopTask), j.tasks[t]? = some (.stop y) →
    j.tasks[u]? = some (.stop z) → t = u
  starts : ∀ (t u : Nat) (y : StopTask) (x : StartTask), j.tasks[t]? = some (.stop y) →
    j.tasks[u]? = some (.start x) → x.lockStage = .outside
  looked : ∀ (t : Nat) (y : StopTask), j.tasks[t]? = some (.stop y) → y.HasLooked →
    j.state.server = none
  /-- A server is that of the plugin, or a stop has seen to it. -/
  server : ∀ (u : Nat) (x : ServeTask), j.tasks[u]? = some (.serve x) → j.state.server.isSome ∨
    ∃ (t : Nat) (y : StopTask), j.tasks[t]? = some (.stop y) ∧ y.HasLooked
  sole : ∀ (u v : Nat) (x z : ServeTask), j.tasks[u]? = some (.serve x) →
    j.tasks[v]? = some (.serve z) → u = v

variable {i j k : Instance σ} {es : List (Event σ)} {t u : Nat} {plugin : String} {n : Nat}

theorem Fresh.oneServer (h : i.Fresh) : i.OneServer := by
  have hstop : ∀ (t : Nat) (y : StopTask), i.tasks[t]? ≠ some (.stop y) := by
    intro t y hy
    rcases h.eq_of_getElem? hy with h | h | h <;> cases h
  have hserve : ∀ (t : Nat) (x : ServeTask), i.tasks[t]? ≠ some (.serve x) := by
    intro t x hx
    rcases h.eq_of_getElem? hx with h | h | h <;> cases h
  exact ⟨fun t y hy => absurd hy (hstop t y), fun t u y z hy => absurd hy (hstop t y),
    fun t u y x hy => absurd hy (hstop t y), fun t y hy => absurd hy (hstop t y),
    fun u x hx => absurd hx (hserve u x), fun u v x z hx => absurd hx (hserve u x)⟩

/-- Starts, stops, servers and the listener are the same. -/
theorem OneServer.congr (h : i.OneServer) (hserver : j.state.server = i.state.server)
    (hlistens : ∀ x, i.tasks[2]? = some (.listen x) → x.Leaves →
      ∃ x', j.tasks[2]? = some (.listen x') ∧ x'.Leaves)
    (hstops : ∀ (t : Nat) (y : StopTask),
      j.tasks[t]? = some (.stop y) ↔ i.tasks[t]? = some (.stop y))
    (hstarts : ∀ (t : Nat) (y : StartTask), j.tasks[t]? = some (.start y) →
      ∃ x, i.tasks[t]? = some (.start x) ∧ (x.lockStage = .outside → y.lockStage = .outside))
    (hserves : ∀ (t : Nat) (y : ServeTask), j.tasks[t]? = some (.serve y) →
      ∃ x, i.tasks[t]? = some (.serve x)) : j.OneServer := by
  refine ⟨fun t y hy => ?_, fun t u y z hy hz => ?_, fun t u y x hy hx => ?_,
    fun t y hy hlooked => ?_, fun u x hx => ?_, fun u v x z hx hz => ?_⟩
  · obtain ⟨x, hx, hleaves⟩ := h.last t y ((hstops t y).1 hy)
    exact hlistens x hx hleaves
  · exact h.stop t u y z ((hstops t y).1 hy) ((hstops u z).1 hz)
  · obtain ⟨x', hx', hstage⟩ := hstarts u x hx
    exact hstage (h.starts t u y x' ((hstops t y).1 hy) hx')
  · rw [hserver]
    exact h.looked t y ((hstops t y).1 hy) hlooked
  · obtain ⟨x', hx'⟩ := hserves u x hx
    rw [hserver]
    refine (h.server u x' hx').imp_right ?_
    rintro ⟨t, y, hy, hlooked⟩
    exact ⟨t, y, (hstops t y).2 hy, hlooked⟩
  · obtain ⟨x', hx'⟩ := hserves u x hx
    obtain ⟨z', hz'⟩ := hserves v z hz
    exact h.sole u v x' z' hx' hz'

/-- A start that sets a server off does so before all stops, and there was no server before. -/
theorem OneServer.alone (h : i.OneServer) (hi : i.Coherent)
    (ht : i.tasks[t]? = some (.start (.launch plugin n))) :
    (∀ (u : Nat) (y : StopTask), i.tasks[u]? ≠ some (.stop y)) ∧
      ∀ (u : Nat) (x : ServeTask), i.tasks[u]? ≠ some (.serve x) := by
  have hstop : ∀ (u : Nat) (y : StopTask), i.tasks[u]? ≠ some (.stop y) := by
    intro u y hy
    have hstage := h.starts u t y _ hy ht
    cases hstage
  refine ⟨hstop, fun u x hx => ?_⟩
  obtain ⟨-, hnone, -⟩ := hi.inside t _ ht rfl
  rcases h.server u x hx with hsome | ⟨v, y, hy, -⟩
  · rw [hnone] at hsome
    cases hsome
  · exact hstop v y hy

theorem OneServer.act (h : i.OneServer) {a : HostAction} (ha : ∀ tr, a ≠ .call tr) :
    (i.act a).OneServer := by
  have hb := PluginState.background_act i.state a
  have hback : ∀ (u : Nat) (task : Task), (i.act a).tasks[u]? = some task →
      i.tasks[u]? = some task ∨ ∃ e, task = .report (.check e) := by
    intro u task hu
    rw [getElem?_tasks_act] at hu
    split at hu
    · cases a with
      | call tr => exact absurd rfl (ha tr)
      | report e =>
        cases hu
        exact .inr ⟨e, rfl⟩
      | _ => cases hu
    · exact .inl hu
  have hkept : ∀ (u : Nat) (task : Task), i.tasks[u]? = some task →
      (i.act a).tasks[u]? = some task := by
    intro u task hu
    have hlt := (List.getElem?_eq_some_iff.1 hu).1
    rw [getElem?_tasks_act, if_neg (by omega), hu]
  refine h.congr (by rw [state_act, hb.server]) (fun x hx hleaves => ⟨x, hkept 2 _ hx, hleaves⟩)
    (fun u y => ⟨fun hy => ?_, hkept u (.stop y)⟩) (fun u y hy => ⟨y, ?_, id⟩) fun u x hx => ⟨x, ?_⟩
  · rcases hback u _ hy with hold | ⟨e, he⟩
    · exact hold
    · cases he
  · rcases hback u _ hy with hold | ⟨e, he⟩
    · exact hold
    · cases he
  · rcases hback u _ hx with hold | ⟨e, he⟩
    · exact hold
    · cases he

/-- The task of a number after a turn in which nothing was set off. -/
theorem getElem?_tasks_of_quiet (ht : t < i.tasks.length) {m : Move σ} (hspawned : m.spawned = none)
    (u : Nat) : (i.move t m).tasks[u]? = if u = t then some m.next else i.tasks[u]? := by
  rw [getElem?_tasks_move ht, hspawned]
  split
  · rfl
  · split
    next hu => rw [hu, List.getElem?_eq_none (Nat.le_refl _)]
    · rfl

theorem OneServer.launch (h : i.OneServer) (hi : i.Coherent) {m : Move σ}
    (htask : i.tasks[t]? = some (.start (.launch plugin n)))
    (hnext : m.next = .start (.record plugin))
    (hspawned : m.spawned = some (.serve (.greet plugin n))) (hserver : m.state.server = some n) :
    (i.move t m).OneServer := by
  obtain ⟨hstop, hserve⟩ := h.alone hi htask
  have htasks := getElem?_tasks_move (List.getElem?_eq_some_iff.1 htask).1 m
  have hstop' : ∀ (u : Nat) (y : StopTask), (i.move t m).tasks[u]? ≠ some (.stop y) := by
    intro u y hy
    rw [htasks, hnext, hspawned] at hy
    split at hy
    · cases hy
    · split at hy
      · cases hy
      · exact hstop u y hy
  have hserve' : ∀ (u : Nat) (x : ServeTask), (i.move t m).tasks[u]? = some (.serve x) →
      u = i.tasks.length := by
    intro u x hx
    rw [htasks, hnext] at hx
    split at hx
    · cases hx
    · split at hx
      next hu => exact hu
      · exact absurd hx (hserve u x)
  refine ⟨fun u y hy => absurd hy (hstop' u y), fun u v y z hy => absurd hy (hstop' u y),
    fun u v y x hy => absurd hy (hstop' u y), fun u y hy => absurd hy (hstop' u y),
    fun u x hx => .inl ?_, fun u v x z hx hz => ?_⟩
  · rw [state_move, hserver]
    rfl
  · rw [hserve' u x hx, hserve' v z hz]

theorem OneServer.look (h : i.OneServer) {m : Move σ} {x y : StopTask}
    (htask : i.tasks[t]? = some (.stop x)) (hnext : m.next = .stop y) (hspawned : m.spawned = none)
    (hlooked : y.HasLooked)
    (hserver : m.state.server = none ∨ x.HasLooked ∧ m.state.server = i.state.server) :
    (i.move t m).OneServer := by
  have htasks := getElem?_tasks_of_quiet (List.getElem?_eq_some_iff.1 htask).1 hspawned
  have hnone : m.state.server = none := by
    rcases hserver with hnone | ⟨hx, hsame⟩
    · exact hnone
    · rw [hsame]
      exact h.looked t x htask hx
  have hback : ∀ (u : Nat) (z : StopTask), (i.move t m).tasks[u]? = some (.stop z) → u = t := by
    intro u z hz
    rw [htasks] at hz
    split at hz
    next hu => exact hu
    · exact h.stop u t z x hz htask
  have hsame : ∀ (u : Nat) (task : Task), (∀ z, task ≠ .stop z) →
      (i.move t m).tasks[u]? = some task → i.tasks[u]? = some task := by
    intro u task hne hu
    rw [htasks, hnext] at hu
    split at hu
    · exact absurd (Option.some.inj hu).symm (hne y)
    · exact hu
  refine ⟨fun u z hz => ?_, fun u v z z' hz hz' => ?_, fun u v z w hz hw => ?_,
    fun u z hz _ => ?_, fun u w hw => .inr ⟨t, y, ?_, hlooked⟩, fun u v w w' hw hw' => ?_⟩
  · obtain ⟨w, hw, hleaves⟩ := h.last t x htask
    refine ⟨w, ?_, hleaves⟩
    rw [htasks, if_neg (by rintro rfl; rw [htask] at hw; cases hw), hw]
  · rw [hback u z hz, hback v z' hz']
  · exact h.starts t v x w htask (hsame v _ (by simp) hw)
  · rw [state_move, hnone]
  · rw [htasks, if_pos rfl, hnext]
  · exact h.sole u v w w' (hsame u _ (by simp) hw) (hsame v _ (by simp) hw')

/-- The listener has set no stop off as long as it waits for the lock. -/
theorem OneServer.not_stop_of_await (h : i.OneServer) {tr : Transition}
    (htask : i.tasks[2]? = some (.listen (.await tr))) (u : Nat) (y : StopTask) :
    i.tasks[u]? ≠ some (.stop y) := by
  intro hy
  obtain ⟨x, hx, hleaves⟩ := h.last u y hy
  rw [htask] at hx
  cases hx
  cases hleaves

theorem OneServer.handOn (h : i.OneServer) (hi : i.LockOrderly) {m : Move σ} {tr : Transition}
    (htask : i.tasks[2]? = some (.listen (.await tr))) (hmine : i.state.lock.holder = some 2)
    (hnext : m.next = .listen (.after tr)) (hspawned : m.spawned = some (Task.ofTransition tr))
    (hserver : m.state.server = i.state.server) : (i.move 2 m).OneServer := by
  have htasks := getElem?_tasks_move (List.getElem?_eq_some_iff.1 htask).1 m
  have hstop := h.not_stop_of_await htask
  have hback : ∀ (u : Nat) (task : Task), (i.move 2 m).tasks[u]? = some task →
      u = 2 ∧ task = .listen (.after tr) ∨
        u = i.tasks.length ∧ task = Task.ofTransition tr ∨ u ≠ 2 ∧ i.tasks[u]? = some task := by
    intro u task hu
    rw [htasks, hnext, hspawned] at hu
    split at hu
    next hu2 => exact .inl ⟨hu2, (Option.some.inj hu).symm⟩
    next hu2 =>
      split at hu
      next hul => exact .inr (.inl ⟨hul, (Option.some.inj hu).symm⟩)
      · exact .inr (.inr ⟨hu2, hu⟩)
  have hserve : ∀ (u : Nat) (x : ServeTask), (i.move 2 m).tasks[u]? = some (.serve x) →
      i.tasks[u]? = some (.serve x) := by
    intro u x hx
    rcases hback u _ hx with ⟨-, he⟩ | ⟨-, he⟩ | ⟨-, hold⟩
    · cases he
    · cases tr <;> cases he
    · exact hold
  have hstop' : ∀ (u : Nat) (y : StopTask), (i.move 2 m).tasks[u]? = some (.stop y) →
      u = i.tasks.length ∧ ∃ plugin, tr = .stop plugin ∧ y = .enter plugin := by
    intro u y hy
    rcases hback u _ hy with ⟨-, he⟩ | ⟨hu, he⟩ | ⟨-, hold⟩
    · cases he
    · cases tr with
      | start plugin => cases he
      | stop plugin =>
        cases he
        exact ⟨hu, plugin, rfl, rfl⟩
    · exact absurd hold (hstop u y)
  refine ⟨fun u y hy => ?_, fun u v y z hy hz => ?_, fun u v y x hy hx => ?_,
    fun u y hy hlooked => ?_, fun u x hx => ?_, fun u v x z hx hz => ?_⟩
  · obtain ⟨-, plugin, rfl, -⟩ := hstop' u y hy
    exact ⟨.announce plugin, by rw [htasks, if_pos rfl, hnext]; rfl, trivial⟩
  · rw [(hstop' u y hy).1, (hstop' v z hz).1]
  · -- whoever is inside the lock holds it, and it is the listener that has held it
    obtain ⟨-, plugin, rfl, -⟩ := hstop' u y hy
    rcases hback v _ hx with ⟨-, he⟩ | ⟨-, he⟩ | ⟨hv2, hold⟩
    · cases he
    · cases he
    · have hout := hi.not_inside hmine hv2
      rw [lockStage_of_getElem? hold] at hout
      cases x <;> first | rfl | exact absurd rfl hout
  · obtain ⟨-, plugin, -, rfl⟩ := hstop' u y hy
    cases hlooked
  · rw [state_move, hserver]
    rcases h.server u x (hserve u x hx) with hsome | ⟨v, y, hy, -⟩
    · exact .inl hsome
    · exact absurd hy (hstop v y)
  · exact h.sole u v x z (hserve u x hx) (hserve v z hz)

variable [RecordStore σ]

theorem OneServer.step (h : i.OneServer) (hi : i.Coherent) (hc : i.Uncalled)
    (honly : ∀ u y, i.tasks[u]? = some (.listen y) → u = 2) (hs : i.step? t = some j) :
    j.OneServer := by
  obtain ⟨task, m, htask, hm, rfl⟩ := step?_eq_some_iff.1 hs
  cases Task.serverEffect hm (hc t task htask) with
  | keep hspawned hserver hstop hstart hserve hlisten =>
    have htasks := getElem?_tasks_of_quiet (List.getElem?_eq_some_iff.1 htask).1 hspawned
    refine h.congr (by rw [state_move, hserver]) (fun x hx hleaves => ?_) (fun u y => ?_)
      (fun u y hy => ?_) fun u y hy => ?_
    · rw [htasks]
      split
      next ht =>
        rw [ht, htask] at hx
        obtain ⟨y, hy, hkept⟩ := hlisten x (Option.some.inj hx)
        exact ⟨y, congrArg some hy, hkept hleaves⟩
      · exact ⟨x, hx, hleaves⟩
    · rw [htasks]
      split
      next hu => rw [hu, htask, Option.some.injEq, Option.some.injEq, hstop]
      · rfl
    · rw [htasks] at hy
      split at hy
      next hu =>
        obtain ⟨x, rfl, hstage⟩ := hstart y (Option.some.inj hy)
        exact ⟨x, hu ▸ htask, hstage⟩
      · exact ⟨y, hy, id⟩
    · rw [htasks] at hy
      split at hy
      next hu =>
        obtain ⟨x, rfl⟩ := hserve y (Option.some.inj hy)
        exact ⟨x, hu ▸ htask⟩
      · exact ⟨y, hy⟩
  | launch htask' hnext hspawned hserver =>
    subst htask'
    exact h.launch hi htask hnext hspawned hserver
  | look htask' hnext hspawned hlooked hserver =>
    subst htask'
    exact h.look htask hnext hspawned hlooked hserver
  | handOn htask' hnext hspawned hserver =>
    subst htask'
    obtain rfl := honly t _ htask
    have hmine : i.state.lock.holder = some 2 := by
      simp only [Task.step?, ListenTask.step?] at hm
      split at hm
      next hmine => exact hmine
      · cases hm
    exact h.handOn hi.lock htask hmine hnext hspawned hserver

theorem oneServer_of_course (hi : i.Fresh) (h : i.Course es j) (hc : Commanded es) :
    j.OneServer := by
  induction h with
  | refl => exact hi.oneServer
  | turn h hs ih =>
    exact (ih hc.of_append).step (coherent_of_reachable hi h.reachable)
      (uncalled_of_course hi h hc.of_append) (listener_of_reachable hi h.reachable) hs
  | action _ a ih =>
    refine (ih hc.of_append).act fun tr ha => ?_
    subst ha
    exact hc _ tr List.mem_concat_self

/-! ## Nobody is held up -/

/-- A stop that waits for its server to end has acknowledged nothing yet. -/
theorem Winding.sentIn_ne_stop (hi : i.Fresh) (h : i.Course es j) (hc : Commanded es)
    {x : ServeTask} (hwinding : j.Winding t u plugin n x) {w : Turn σ} (hw : w ∈ turnsOf es)
    {p : String} : Outlet.acks.sentIn w ≠ some ⟨p, .stop⟩ := by
  intro hsent
  obtain ⟨past, rest, rfl⟩ := List.append_of_mem (mem_turnsOf.1 hw)
  -- whoever sends it is a stop, and there is no other stop than the one that waits
  have hbegun := (stop_of_acked hi h.of_append.1 hsent).1.begun.mono (.turn w :: rest)
  obtain ⟨task, htask, hdid⟩ := (allDid_of_course hi h).did w.task _ hbegun
  have hcall := uncalled_of_course hi h hc w.task task htask
  have hsame : w.task = t := by
    cases task with
    | call tr | await tr => exact absurd trivial hcall
    | stop y => exact (oneServer_of_course hi h hc).stop w.task t y _ htask hwinding.stop
    | start y =>
      obtain ⟨p', hp', -⟩ := hdid
      cases hp'
    | _ => cases hdid
  obtain ⟨p', -, -, hdeeds⟩ := (allDid_of_course hi h).stop hwinding.stop
  have hdeed := Turn.ack?_deed? (h.step?_of_mem hw)
  rw [hsent] at hdeed
  obtain ⟨d, hd, hack⟩ := Option.bind_eq_some_iff.1 hdeed
  have hmem : d ∈ deeds (turnsOf (past ++ .turn w :: rest)) t := mem_deeds.2 ⟨w, hw, hsame, hd⟩
  rw [hdeeds, List.mem_singleton] at hmem
  subst hmem
  cases hack

/-- While a stop waits for its server, only that server has acknowledged anything. -/
theorem sent_acks_of_winding (hi : i.Fresh) (h : i.Course es j) (hc : Commanded es) {x : ServeTask}
    (hwinding : j.Winding t u plugin n x) :
    Outlet.acks.sent (turnsOf es) = ackedBy (turnsOf es) u := by
  have hsender : ∀ w ∈ turnsOf es, ∀ c, Outlet.acks.sentIn w = some c → w.task = u := by
    intro w hw c hsent
    obtain ⟨task, htask, hack⟩ := Option.bind_eq_some_iff.1 hsent
    rcases Task.of_ack? hack with ⟨p, k, -, rfl⟩ | ⟨p, -, rfl⟩
    · obtain ⟨past, rest, rfl⟩ := List.append_of_mem (mem_turnsOf.1 hw)
      obtain ⟨t', -, -, -, hserver, -⟩ := start_of_acked hi h.of_append.1 hsent
      obtain ⟨p', k', hd⟩ := mem_serversOf.1 hserver
      obtain ⟨x', hx', -⟩ := (served_of_course hi h).did t' w.task p' k' (mem_deeds_mono hd _)
      exact (oneServer_of_course hi h hc).sole w.task u x' x hx' hwinding.server
    · exact absurd hsent (hwinding.sentIn_ne_stop hi h hc hw)
  rw [ackedBy, Outlet.sent, Outlet.sent, List.filterMap_filter]
  refine List.filterMap_congr fun w hw => ?_
  cases hsent : Outlet.acks.sentIn w with
  | none => simp
  | some c => simp [hsender w hw c hsent]

/-- While a stop waits for its server, all that is on its way was sent by the server. -/
theorem Winding.length_contents_le (hi : i.Fresh) (hnew : i.state.acks.IsNew) (h : i.Course es j)
    (hc : Commanded es) {x : ServeTask} (hwinding : j.Winding t u plugin n x)
    (hopen : j.state.acks.hasReceiver = true) :
    j.state.acks.buffer.length + j.state.acks.waiting.length ≤
      (ackedBy (turnsOf es) u).length := by
  have hconveyed := Outlet.acks.conveyed h (fun _ _ => hnew.idle) hopen
  have hnil : (Outlet.acks.queue i.state).contents = [] := hnew.contents
  rw [sent_acks_of_winding hi h hc hwinding, hnil, List.nil_append] at hconveyed
  have hlength : j.state.acks.contents.length =
      j.state.acks.buffer.length + j.state.acks.waiting.length := by
    simp [Queue.contents]
  rw [← hconveyed, List.length_append, ← hlength]
  exact Nat.le_add_left _ _

/-- A server that a stop waits for does not wait for the host: there is room for its
acknowledgment. -/
theorem Winding.not_awaitsHost (hi : i.Fresh) (hnew : i.state.acks.IsNew)
    (hcapacity : 0 < i.state.acks.capacity) (h : i.Course es j) (hc : Commanded es) {x : ServeTask}
    (hwinding : j.Winding t u plugin n x) : ¬ x.AwaitsHost u j.state := by
  intro hawaits
  obtain ⟨-, name, k, -, hdid⟩ := (served_of_course hi h).of_serve hwinding.server
  have hcap : 0 < j.state.acks.capacity :=
    Nat.lt_of_lt_of_eq hcapacity (Outlet.acks.capacity_of_course h).symm
  cases x with
  | greet p m =>
    obtain ⟨hopen, hfull⟩ := hawaits
    have hshort := hwinding.length_contents_le hi hnew h hc hopen
    rw [ackedBy_eq h, hdid.2.2, List.filterMap_nil, List.length_nil] at hshort
    simp only [Queue.hasRoom, decide_eq_false_iff_not] at hfull
    omega
  | wait m =>
    obtain ⟨hopen, hwaits⟩ := hawaits
    have hshort := hwinding.length_contents_le hi hnew h hc hopen
    have hone : (ackedBy (turnsOf es) u).length = 1 := by
      rw [ackedBy_eq h, hdid.2]
      rfl
    have hpos : 0 < j.state.acks.waiting.length := by
      obtain ⟨p, hp, -⟩ := List.any_eq_true.1 hwaits
      exact List.length_pos_of_mem hp
    -- somebody waits in line only while there is no room
    have hfull : j.state.acks.hasRoom = false := by
      by_contra hroom
      have htight : j.state.acks.Tight := Outlet.acks.tight_of_course h fun _ _ => hnew.idle
      rw [htight hopen (by simpa using hroom)] at hpos
      cases hpos
    simp only [Queue.hasRoom, decide_eq_false_iff_not] at hfull
    omega
  | _ => cases hawaits

/-- Nobody holds the lifecycle lock when nothing can go on. -/
theorem holder_eq_none_of_course (hi : i.Fresh) (hnew : i.state.acks.IsNew)
    (hcapacity : 0 < i.state.acks.capacity) (h : i.Course es j) (hc : Commanded es)
    (hq : j.Quiescent) : j.state.lock.holder = none := by
  cases ht : j.state.lock.holder with
  | none => rfl
  | some t =>
    rcases exists_server_of_holder hi h.reachable ht with hsome | ⟨plugin, n, u, x, hwinding, hx⟩
    · rw [hq t] at hsome
      cases hsome
    · have hfree := hwinding.not_awaitsHost hi hnew hcapacity h hc
      exact absurd (hwinding.getsOn hx hfree) hq.not_getsOn

end Instance

end PluginKernel
