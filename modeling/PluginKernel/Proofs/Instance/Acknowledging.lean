import PluginKernel.Proofs.Instance.Deeds
import PluginKernel.Proofs.Instance.HeldLock

/-!
# Starts and stops are acknowledged once

A stop acknowledges itself when it has released the lock; a start is acknowledged by the server that
it sets off. `Served` ties servers to their starts, whatever order tasks take their turns in, and
`Holdings` ties listeners to those who have opened them and taken them down. A stop goes on only
when the listener of its server is closed, and a server closes its listener only after it has
acknowledged the start: so the start is acknowledged before the stop that has taken its server down,
even if the server had no turn before it was told to stop.
-/

namespace PluginKernel

variable {σ : Type}

/-- Reading all that is in a queue leaves fewer in line, if there is room for any message. -/
theorem Queue.waiting_read_lt {α : Type} {q : Queue α}
    (hopen : q.hasReceiver = true) (hcapacity : 0 < q.capacity) (hw : q.waiting ≠ []) :
    (q.read q.buffer.length).waiting.length < q.waiting.length := by
  have hpos := List.length_pos_iff.2 hw
  simp only [Queue.read, hopen, if_true, Queue.take, List.drop_length, List.length_nil,
    List.length_drop]
  omega

section Stuck

variable {setup : Setup} {t : Nat} {s : PluginState σ}

theorem StartTask.stuck {x : StartTask} (h : x.step? setup t s = none) :
    x = done ∨ ∃ r, x = report r := by
  cases x with
  | done => exact .inl rfl
  | report r => exact .inr ⟨r, rfl⟩
  | _ =>
    simp only [step?] at h
    (repeat' split at h) <;> cases h

theorem StopTask.stuck {x : StopTask} (h : x.step? setup t s = none) :
    x = done ∨ (∃ plugin n, x = join plugin n) ∨
      x = wait ∧ s.acks.isWaiting t = true ∧ s.acks.hasReceiver = true := by
  cases x with
  | done => exact .inl rfl
  | join plugin n => exact .inr (.inl ⟨plugin, n, rfl⟩)
  | wait =>
    simp only [step?] at h
    split at h
    next hq => exact .inr (.inr ⟨rfl, Queue.resume?_eq_none_iff.1 hq⟩)
    all_goals cases h
  | _ =>
    simp only [step?] at h
    (repeat' split at h) <;> cases h

theorem ServeTask.stuck {x : ServeTask} (h : x.step? t s = none) :
    x = done ∨ (∃ n, x = serve n) ∨
      ∃ n, x = wait n ∧ s.acks.isWaiting t = true ∧ s.acks.hasReceiver = true := by
  cases x with
  | done => exact .inl rfl
  | serve n => exact .inr (.inl ⟨n, rfl⟩)
  | wait n =>
    simp only [step?] at h
    split at h
    next hq => exact .inr (.inr ⟨n, rfl, Queue.resume?_eq_none_iff.1 hq⟩)
    all_goals cases h
  | _ =>
    simp only [step?] at h
    (repeat' split at h) <;> cases h

theorem ReportTask.stuck {r : ReportTask} (h : r.step? setup t s = none) :
    r = done ∨ (∃ e, r = wait e) ∧ s.errors.isWaiting t = true ∧ s.errors.hasReceiver = true := by
  cases r with
  | done => exact .inl rfl
  | wait e =>
    simp only [step?] at h
    split at h
    next hq => exact .inr ⟨⟨e, rfl⟩, Queue.resume?_eq_none_iff.1 hq⟩
    all_goals cases h
  | _ =>
    simp only [step?] at h
    (repeat' split at h) <;> cases h

/-- Where the listener can do nothing, it waits for a command, for the lock or for room, or it
listens no longer. -/
theorem ListenTask.stuck {fresh : Nat} {y : ListenTask} (h : y.step? t fresh s = none) :
    y = done ∨ (y = receive ∧ s.commands.next? = none ∧ s.commands.hasSender = true) ∨
      (∃ tr, y = await tr) ∨
        y = wait ∧ s.errors.isWaiting t = true ∧ s.errors.hasReceiver = true := by
  cases y with
  | done => exact .inl rfl
  | receive =>
    simp only [step?] at h
    split at h
    next hnext =>
      split at h
      next hsender => exact .inr (.inl ⟨rfl, hnext, hsender⟩)
      · cases h
    · split at h <;> cases h
  | await tr => exact .inr (.inr (.inl ⟨tr, rfl⟩))
  | wait =>
    simp only [step?] at h
    split at h
    next hq => exact .inr (.inr (.inr ⟨rfl, Queue.resume?_eq_none_iff.1 hq⟩))
    all_goals cases h
  | _ =>
    simp only [step?] at h
    (repeat' split at h) <;> cases h

end Stuck

namespace Instance

variable {i j k : Instance σ} {es : List (Event σ)} {ts : List (Turn σ)} {t u n : Nat}
  {plugin : String} {tr : Transition} {w : Turn σ} {d : Deed}

theorem mem_deeds_concat :
    d ∈ deeds (ts ++ [w]) t ↔ d ∈ deeds ts t ∨ w.task = t ∧ w.deed? = some d := by
  rw [deeds_concat, List.mem_append]
  split
  next ht => simp [ht]
  next ht => simp [ht]

/-- What was done stays done. -/
theorem mem_deeds_mono (h : d ∈ deeds (turnsOf es) t) (more : List (Event σ)) :
    d ∈ deeds (turnsOf (es ++ more)) t := by
  rw [turnsOf, List.filterMap_append, deeds_append]
  exact List.mem_append_left _ h

/-- What one task has done alone, one task has done after a further turn, if nobody does in it what
has been done before. -/
theorem task_eq_concat {d d' : Deed}
    (hpast : ∀ v v', d ∈ deeds ts v → d' ∈ deeds ts v' → v = v')
    (hnew : w.deed? = some d → ∀ v, d' ∉ deeds ts v)
    (hnew' : w.deed? = some d' → ∀ v, d ∉ deeds ts v) {v v' : Nat}
    (hd : d ∈ deeds (ts ++ [w]) v) (hd' : d' ∈ deeds (ts ++ [w]) v') : v = v' := by
  rcases mem_deeds_concat.1 hd with hd | ⟨hv, hd⟩ <;>
    rcases mem_deeds_concat.1 hd' with hd' | ⟨hv', hd'⟩
  · exact hpast v v' hd hd'
  · exact absurd hd (hnew' hd' v)
  · exact absurd hd' (hnew hd v')
  · exact hv.symm.trans hv'

/-! ## Servers and their starts -/

/-- Every server was set off by one start, and has done what its stage says. -/
structure Served (ts : List (Turn σ)) (j : Instance σ) : Prop where
  did : ∀ t u plugin n, Deed.launched u plugin n ∈ deeds ts t →
    ∃ x, j.tasks[u]? = some (.serve x) ∧ x.Did plugin n (deeds ts u)
  origin : ∀ (u : Nat) (x : ServeTask), j.tasks[u]? = some (.serve x) →
    ∃ t plugin n, Deed.launched u plugin n ∈ deeds ts t
  sole : ∀ t t' u plugin plugin' n n', Deed.launched u plugin n ∈ deeds ts t →
    Deed.launched u plugin' n' ∈ deeds ts t' → t = t'

theorem Fresh.served (h : i.Fresh) : Served [] i := by
  refine ⟨fun t u plugin n hd => ?_, fun u x hx => ?_, fun t t' u plugin plugin' n n' hd => ?_⟩
  · cases hd
  · rcases h.eq_of_getElem? hx with h | h | h <;> cases h
  · cases hd

theorem Served.act (h : Served ts j) (a : HostAction) : Served ts (j.act a) := by
  obtain ⟨hdid, horigin, hsole⟩ := h
  refine ⟨fun t u plugin n hd => ?_, fun u x hx => ?_, hsole⟩
  · obtain ⟨x, hx, hdone⟩ := hdid t u plugin n hd
    have hlt : u < j.tasks.length := (List.getElem?_eq_some_iff.1 hx).1
    rw [getElem?_tasks_act, if_neg (by omega)]
    exact ⟨x, hx, hdone⟩
  · rw [getElem?_tasks_act] at hx
    split at hx
    · cases a <;> cases hx
    · exact horigin u x hx

variable [RecordStore σ]

/-- A server is set off under a number that nobody had before. -/
theorem of_deed?_launched (hs : j.step? t = some k)
    (hd : (⟨t, j, k⟩ : Turn σ).deed? = some (.launched u plugin n)) :
    j.tasks[t]? = some (.start (.launch plugin n)) ∧ u = j.tasks.length ∧
      k.tasks[u]? = some (.serve (.greet plugin n)) := by
  obtain ⟨task, m, htask, hm, rfl⟩ := step?_eq_some_iff.1 hs
  have ht : t < j.tasks.length := (List.getElem?_eq_some_iff.1 htask).1
  rw [deed?_move htask] at hd
  obtain ⟨rfl, rfl⟩ := Task.of_launched hd
  refine ⟨htask, rfl, ?_⟩
  rw [getElem?_tasks_move ht, if_neg (by omega), if_pos rfl]
  simp only [Task.step?, StartTask.step?] at hm
  cases hm
  rfl

omit [RecordStore σ] in
theorem Served.lt_length (h : Served ts j) (hd : Deed.launched u plugin n ∈ deeds ts t) :
    u < j.tasks.length := by
  obtain ⟨x, hx, -⟩ := h.did t u plugin n hd
  exact (List.getElem?_eq_some_iff.1 hx).1

omit [RecordStore σ] in
/-- A server was set off by a start, and has done what its stage says. -/
theorem Served.of_serve (h : Served ts j) {x : ServeTask} (hx : j.tasks[u]? = some (.serve x)) :
    ∃ t plugin n, Deed.launched u plugin n ∈ deeds ts t ∧ x.Did plugin n (deeds ts u) := by
  obtain ⟨t, plugin, n, hd⟩ := h.origin u x hx
  obtain ⟨y, hy, hdid⟩ := h.did t u plugin n hd
  rw [hx] at hy
  cases hy
  exact ⟨t, plugin, n, hd, hdid⟩

/-- A server does what its next stage says. -/
theorem Served.did_step (h : Served ts j) (hs : j.step? t = some k) {v : Nat}
    (hd : Deed.launched u plugin n ∈ deeds ts v) :
    ∃ x, k.tasks[u]? = some (.serve x) ∧ x.Did plugin n (deeds (ts ++ [⟨t, j, k⟩]) u) := by
  obtain ⟨x, hx, hdone⟩ := h.did v u plugin n hd
  have hlt := h.lt_length hd
  obtain ⟨task, m, htask, hm, rfl⟩ := step?_eq_some_iff.1 hs
  rw [deeds_concat, getElem?_tasks_move (List.getElem?_eq_some_iff.1 htask).1]
  by_cases hut : u = t
  · subst hut
    obtain rfl : task = .serve x := Option.some.inj (htask.symm.trans hx)
    rw [if_pos rfl, if_pos rfl, deed?_move htask]
    simp only [Task.step?, Option.map_eq_some_iff, Prod.exists] at hm
    obtain ⟨s', x', hx', rfl⟩ := hm
    exact ⟨x', rfl, ServeTask.did_next hx' hdone⟩
  · rw [if_neg hut, if_neg (by omega), if_neg (Ne.symm hut), List.append_nil]
    exact ⟨x, hx, hdone⟩

/-- A server was one before, or it was set off in this turn. -/
theorem serve_of_step (hs : j.step? t = some k) {x : ServeTask}
    (hx : k.tasks[u]? = some (.serve x)) :
    (∃ y, j.tasks[u]? = some (.serve y)) ∨
      ∃ plugin n, (⟨t, j, k⟩ : Turn σ).deed? = some (.launched u plugin n) := by
  obtain ⟨task, m, htask, hm, rfl⟩ := step?_eq_some_iff.1 hs
  rw [getElem?_tasks_move (List.getElem?_eq_some_iff.1 htask).1] at hx
  split at hx
  next hut =>
    subst hut
    have hkind := Task.kind_next hm
    rw [Option.some.inj hx] at hkind
    cases task with
    | serve y => exact .inl ⟨y, htask⟩
    | _ => cases hkind
  · split at hx
    next hul =>
      obtain ⟨plugin, n, rfl, -⟩ := Task.of_spawned_serve hm hx
      refine .inr ⟨plugin, n, ?_⟩
      rw [deed?_move htask, hul]
      rfl
    · exact .inl ⟨x, hx⟩

theorem Served.step (h : Served ts j) (hunused : ∀ u, j.tasks.length ≤ u → deeds ts u = [])
    (hs : j.step? t = some k) : Served (ts ++ [⟨t, j, k⟩]) k := by
  have hnew (u v : Nat) (plugin plugin' : String) (n n' : Nat)
      (hnow : (⟨t, j, k⟩ : Turn σ).deed? = some (.launched u plugin n)) :
      Deed.launched u plugin' n' ∉ deeds ts v := by
    intro hpast
    have hlt := h.lt_length hpast
    have hlength := (of_deed?_launched hs hnow).2.1
    omega
  refine ⟨fun v u plugin n hd => ?_, fun u x hx => ?_, fun v v' u plugin plugin' n n' hd hd' => ?_⟩
  · rcases mem_deeds_concat.1 hd with hpast | ⟨-, hnow⟩
    · exact h.did_step hs hpast
    · obtain ⟨htask, rfl, hserver⟩ := of_deed?_launched hs hnow
      have ht : t < j.tasks.length := (List.getElem?_eq_some_iff.1 htask).1
      rw [deeds_concat, if_neg (Nat.ne_of_lt ht), hunused _ (Nat.le_refl _)]
      exact ⟨_, hserver, rfl, rfl, rfl⟩
  · rcases serve_of_step hs hx with ⟨y, hy⟩ | ⟨plugin, n, hnow⟩
    · obtain ⟨v, plugin, n, hd⟩ := h.origin u y hy
      exact ⟨v, plugin, n, mem_deeds_concat.2 (.inl hd)⟩
    · exact ⟨t, plugin, n, mem_deeds_concat.2 (.inr ⟨rfl, hnow⟩)⟩
  · exact task_eq_concat (fun w w' => h.sole w w' u plugin plugin' n n')
      (fun hnow w => hnew u w plugin plugin' n n' hnow)
      (fun hnow w => hnew u w plugin' plugin n' n hnow) hd hd'

theorem served_of_course (hi : i.Fresh) (h : i.Course es j) : Served (turnsOf es) j := by
  induction h with
  | refl => exact hi.served
  | turn h hs ih =>
    rw [turnsOf_turn]
    exact ih.step (allDid_of_course hi h).unused hs
  | action _ a ih =>
    rw [turnsOf_action]
    exact ih.act a

/-! ## Listeners, and who opened them and took them down -/

/-- Every listener was opened by one start, whose server serves on it, and when a stop has taken the
server down and has done with it, the listener is closed. -/
structure Holdings (ts : List (Turn σ)) (j : Instance σ) : Prop where
  present : ∀ t n, Deed.bound n ∈ deeds ts t → n < j.state.listeners.length
  sole : ∀ t t' n, Deed.bound n ∈ deeds ts t → Deed.bound n ∈ deeds ts t' → t = t'
  server : ∀ n, j.state.server = some n →
    ∃ t u plugin, Deed.launched u plugin n ∈ deeds ts t
  took : ∀ t n, Deed.took n ∈ deeds ts t → ∃ t' u plugin, Deed.launched u plugin n ∈ deeds ts t'
  closed : ∀ t n x, j.tasks[t]? = some (.stop x) → x.HasJoined → Deed.took n ∈ deeds ts t →
    j.state.IsClosed n

omit [RecordStore σ] in
theorem Fresh.holdings (h : i.Fresh) : Holdings [] i := by
  refine ⟨fun t n hd => ?_, fun t t' n hd => ?_, fun n hn => ?_, fun t n hd => ?_,
    fun t n x hx => ?_⟩
  · cases hd
  · cases hd
  · rw [h.server] at hn
    cases hn
  · cases hd
  · rcases h.eq_of_getElem? hx with h | h | h <;> cases h

omit [RecordStore σ] in
theorem Holdings.act (h : Holdings ts j) (a : HostAction) : Holdings ts (j.act a) := by
  obtain ⟨hpresent, hsole, hserver, htook, hclosed⟩ := h
  have hb := PluginState.background_act j.state a
  refine ⟨?_, hsole, fun n hn => ?_, htook, fun t n x hx hjoined hd => ?_⟩
  · rw [state_act, PluginState.listeners_act]
    exact hpresent
  · rw [state_act, hb.server] at hn
    exact hserver n hn
  · rw [getElem?_tasks_act] at hx
    rw [PluginState.IsClosed, state_act, PluginState.listeners_act]
    split at hx
    · cases a <;> cases hx
    · exact hclosed t n x hx hjoined hd

/-- A server that is kept was kept before, or it was set off in this turn. -/
theorem server_of_step (hs : j.step? t = some k) (hn : k.state.server = some n) :
    j.state.server = some n ∨
      ∃ u plugin, (⟨t, j, k⟩ : Turn σ).deed? = some (.launched u plugin n) := by
  obtain ⟨task, m, htask, hm, rfl⟩ := step?_eq_some_iff.1 hs
  rw [state_move] at hn
  rcases Task.server_step? hm with hsame | hnone | ⟨plugin, n', rfl, hsome⟩
  · exact .inl (hsame.symm.trans hn)
  · rw [hnone] at hn
    cases hn
  · obtain rfl : n' = n := Option.some.inj (hsome.symm.trans hn)
    refine .inr ⟨j.tasks.length, plugin, ?_⟩
    rw [deed?_move htask]
    rfl

/-- A listener that is opened in a turn was not there before. -/
theorem length_of_deed?_bound (hs : j.step? t = some k)
    (hd : (⟨t, j, k⟩ : Turn σ).deed? = some (.bound n)) :
    n = j.state.listeners.length ∧ n < k.state.listeners.length := by
  obtain ⟨task, m, htask, hm, rfl⟩ := step?_eq_some_iff.1 hs
  rw [deed?_move htask] at hd
  obtain ⟨rfl, place, hlisteners⟩ := Task.listeners_of_bound hm hd
  refine ⟨rfl, ?_⟩
  rw [state_move, hlisteners, List.length_append]
  exact Nat.lt_succ_self _

/-- The server that a stop takes down is the one that is kept, and the stop waits for it next. -/
theorem of_deed?_took (hs : j.step? t = some k)
    (hd : (⟨t, j, k⟩ : Turn σ).deed? = some (.took n)) : j.state.server = some n ∧
      ∃ plugin, k.tasks[t]? = some (.stop (.silence plugin n)) := by
  obtain ⟨task, m, htask, hm, rfl⟩ := step?_eq_some_iff.1 hs
  rw [deed?_move htask] at hd
  obtain ⟨plugin, rfl, hn⟩ := Task.of_took hd
  refine ⟨hn, plugin, ?_⟩
  rw [getElem?_tasks_move (List.getElem?_eq_some_iff.1 htask).1, if_pos rfl]
  simp only [Task.step?, StopTask.step?, PluginState.logged, hn] at hm
  cases hm
  rfl

/-- A stop has done with the server that it has taken down only when the listener is closed. -/
theorem Holdings.closed_step (h : Holdings ts j)
    (hstops : ∀ (t : Nat) (x : StopTask), j.tasks[t]? = some (.stop x) →
      ∃ plugin, x.Did plugin (deeds ts t)) (hs : j.step? t = some k) {v : Nat} {x : StopTask}
    (hx : k.tasks[v]? = some (.stop x)) (hjoined : x.HasJoined)
    (hd : Deed.took n ∈ deeds (ts ++ [⟨t, j, k⟩]) v) : k.state.IsClosed n := by
  have hstays (n : Nat) : j.state.IsClosed n → k.state.IsClosed n :=
    exists_listener_of_step (fun _ h => h) (fun _ _ => rfl) hs
  have hpast : Deed.took n ∈ deeds ts v := by
    rcases mem_deeds_concat.1 hd with hpast | ⟨rfl, hnow⟩
    · exact hpast
    · -- a stop that has found a server has not done with it yet
      obtain ⟨-, plugin, hsilence⟩ := of_deed?_took hs hnow
      rw [hx] at hsilence
      cases hsilence
      cases hjoined
  obtain ⟨task, m, htask, hm, rfl⟩ := step?_eq_some_iff.1 hs
  rw [getElem?_tasks_move (List.getElem?_eq_some_iff.1 htask).1] at hx
  split at hx
  next hvt =>
    subst hvt
    rcases Task.of_next_stop hm (Option.some.inj hx) with ⟨y, s', rfl, hy⟩ | ⟨p, rfl⟩
    · obtain ⟨p, hdid⟩ := hstops v y htask
      rcases StopTask.joined_next hy hjoined with hold | ⟨p, rfl, -⟩ | ⟨p, n', l, rfl, hl, hc⟩
      · exact hstays n (h.closed v n y htask hold hpast)
      · rw [hdid.2] at hpast
        cases hpast
      · rw [hdid.2, List.mem_singleton] at hpast
        cases hpast
        exact hstays n ⟨l, hl, hc⟩
    · cases hjoined
  next hvt =>
    split at hx
    · rcases Task.spawned_eq hm hx with ⟨_, _, h⟩ | ⟨tr, -, h⟩
      · cases h
      · cases tr <;> cases h
        cases hjoined
    · exact hstays n (h.closed v n x hx hjoined hpast)

theorem Holdings.step (h : Holdings ts j)
    (hstops : ∀ (t : Nat) (x : StopTask), j.tasks[t]? = some (.stop x) →
      ∃ plugin, x.Did plugin (deeds ts t)) (hs : j.step? t = some k) :
    Holdings (ts ++ [⟨t, j, k⟩]) k := by
  have hmono (v : Nat) (d : Deed) (hd : d ∈ deeds ts v) : d ∈ deeds (ts ++ [⟨t, j, k⟩]) v :=
    mem_deeds_concat.2 (.inl hd)
  have hnew (v n : Nat) (hnow : (⟨t, j, k⟩ : Turn σ).deed? = some (.bound n)) :
      Deed.bound n ∉ deeds ts v := by
    intro hpast
    have hlt := h.present v n hpast
    have hlength := (length_of_deed?_bound hs hnow).1
    omega
  refine ⟨fun v n hd => ?_, fun v v' n hd hd' => ?_, fun n hn => ?_, fun v n hd => ?_,
    fun v n x hx hjoined hd => h.closed_step hstops hs hx hjoined hd⟩
  · rcases mem_deeds_concat.1 hd with hpast | ⟨-, hnow⟩
    · exact Nat.lt_of_lt_of_le (h.present v n hpast) (listeners_length_le hs)
    · exact (length_of_deed?_bound hs hnow).2
  · exact task_eq_concat (fun w w' => h.sole w w' n) (fun hnow w => hnew w n hnow)
      (fun hnow w => hnew w n hnow) hd hd'
  · rcases server_of_step hs hn with hkept | ⟨u, plugin, hnow⟩
    · obtain ⟨v, u, plugin, hd⟩ := h.server n hkept
      exact ⟨v, u, plugin, hmono v _ hd⟩
    · exact ⟨t, u, plugin, mem_deeds_concat.2 (.inr ⟨rfl, hnow⟩)⟩
  · rcases mem_deeds_concat.1 hd with hpast | ⟨-, hnow⟩
    · obtain ⟨v', u, plugin, hd'⟩ := h.took v n hpast
      exact ⟨v', u, plugin, hmono v' _ hd'⟩
    · obtain ⟨v', u, plugin, hd'⟩ := h.server n (of_deed?_took hs hnow).1
      exact ⟨v', u, plugin, hmono v' _ hd'⟩

theorem holdings_of_course (hi : i.Fresh) (h : i.Course es j) : Holdings (turnsOf es) j := by
  induction h with
  | refl => exact hi.holdings
  | turn h hs ih =>
    rw [turnsOf_turn]
    refine ih.step (fun t x hx => ?_) hs
    obtain ⟨plugin, -, hdid⟩ := (allDid_of_course hi h).stop hx
    exact ⟨plugin, hdid⟩
  | action _ a ih =>
    rw [turnsOf_action]
    exact ih.act a

/-! ## What a start or a stop contributes -/

/-- The acknowledgments that the task of a number has sent, oldest first. -/
def ackedBy (ts : List (Turn σ)) (t : Nat) : List Command :=
  Outlet.acks.sent (ts.filter (·.task == t))

/-- The servers that the task of a number has set off. -/
def serversOf (ts : List (Turn σ)) (t : Nat) : List Nat := (deeds ts t).filterMap Deed.server?

/-- The acknowledgments that a start or a stop contributes: its own and those of its servers. -/
def contributed (ts : List (Turn σ)) (t : Nat) : List Command :=
  ackedBy ts t ++ (serversOf ts t).flatMap (ackedBy ts)

/-- Nothing can go on, and nobody waits for the host to read an acknowledgment. -/
def Settled (j : Instance σ) : Prop := j.Quiescent ∧ j.state.acks.waiting = []

theorem Course.step?_of_mem (h : i.Course es j) (hw : w ∈ turnsOf es) :
    w.before.step? w.task = some w.after := by
  obtain ⟨past, rest, hts⟩ := List.append_of_mem hw
  have hhistory := h.history
  rw [hts] at hhistory
  exact hhistory.of_append.2

/-- What is sent in a turn is the acknowledgment among its deeds. -/
theorem Turn.ack?_deed? (hs : w.before.step? w.task = some w.after) :
    w.deed?.bind Deed.ack? = Outlet.acks.sentIn w := by
  obtain ⟨task, m, htask, hm, hafter⟩ := step?_eq_some_iff.1 hs
  have hw : w = ⟨w.task, w.before, w.before.move w.task m⟩ := by rw [hafter]
  have hdeed : w.deed? = task.deed? w.before.state w.before.tasks.length m.next := by
    rw [hw]
    exact deed?_move htask
  rw [hdeed, Task.ack?_deed?, Outlet.sentIn_of_getElem? htask]
  rfl

theorem ackedBy_eq (h : i.Course es j) (t : Nat) :
    ackedBy (turnsOf es) t = (deeds (turnsOf es) t).filterMap Deed.ack? := by
  rw [ackedBy, deeds, Outlet.sent, List.filterMap_filterMap]
  refine List.filterMap_congr fun w hw => ?_
  exact (Turn.ack?_deed? (h.step?_of_mem (List.mem_filter.1 hw).1)).symm

theorem ackedBy_server (h : i.Course es j) {x : ServeTask}
    (hd : x.Did plugin n (deeds (turnsOf es) u)) :
    ackedBy (turnsOf es) u = [] ∧ (∃ k, x = .greet plugin k) ∨
      ackedBy (turnsOf es) u = [⟨plugin, .start⟩] := by
  rw [ackedBy_eq h]
  cases x with
  | greet p k =>
    obtain ⟨rfl, -, hnil⟩ := hd
    rw [hnil]
    exact .inl ⟨rfl, k, rfl⟩
  | done =>
    rw [show deeds (turnsOf es) u = _ from hd]
    exact .inr rfl
  | _ =>
    rw [hd.2]
    exact .inr rfl

/-- A start contributes what its server has sent. -/
theorem contributed_launched (h : i.Course es j)
    (hd : deeds (turnsOf es) t = [.bound n, .launched u plugin n]) :
    contributed (turnsOf es) t = ackedBy (turnsOf es) u := by
  have hservers : serversOf (turnsOf es) t = [u] := by
    rw [serversOf, hd]
    rfl
  rw [contributed, ackedBy_eq h t, hservers, hd, List.flatMap_singleton]
  rfl

/-- Whoever has set no server off contributes what it has sent itself. -/
theorem contributed_alone (h : i.Course es j)
    (hd : (deeds (turnsOf es) t).filterMap Deed.server? = []) :
    contributed (turnsOf es) t = (deeds (turnsOf es) t).filterMap Deed.ack? := by
  rw [contributed, serversOf, hd, List.flatMap_nil, List.append_nil, ackedBy_eq h]

/-! ## When everything has settled -/

theorem Quiescent.not_getsOn (h : j.Quiescent) : ¬ j.GetsOn t := by
  rintro ⟨ts, k, hk, hsome⟩
  cases ts with
  | nil =>
    cases hk
    rw [h t] at hsome
    cases hsome
  | cons u rest =>
    obtain ⟨k', hk', -⟩ := Option.bind_eq_some_iff.1 hk
    rw [h u] at hk'
    cases hk'

theorem Settled.stuck (h : j.Settled) {task : Task} (ht : j.tasks[t]? = some task) :
    task.step? j.setup t j.tasks.length j.state = none ∧ j.state.acks.isWaiting t = false := by
  refine ⟨?_, by rw [Queue.isWaiting, h.2]; rfl⟩
  have hnone := h.1 t
  rw [step?_of_getElem? ht] at hnone
  simpa using hnone

theorem Settled.serve (h : j.Settled) {x : ServeTask} (hu : j.tasks[u]? = some (.serve x)) :
    x = .done ∨ ∃ n, x = .serve n := by
  obtain ⟨hnone, hidle⟩ := h.stuck hu
  simp only [Task.step?, Option.map_eq_none_iff] at hnone
  rcases ServeTask.stuck hnone with hdone | hserve | ⟨n, -, hwaits, -⟩
  · exact .inl hdone
  · exact .inr hserve
  · rw [hidle] at hwaits
    cases hwaits

/-- Nobody holds the lock where nothing can go on and no server waits for the host. -/
theorem Quiescent.holder_eq_none (h : j.Quiescent) (hi : i.Fresh) (hr : i.Reachable j)
    (hserve : ∀ (u : Nat) (x : ServeTask), j.tasks[u]? = some (.serve x) →
      x = .done ∨ ∃ n, x = .serve n) : j.state.lock.holder = none := by
  cases ht : j.state.lock.holder with
  | none => rfl
  | some t =>
    rcases exists_server_of_holder hi hr ht with hsome | ⟨plugin, n, u, x, hwinding, hx⟩
    · rw [h t] at hsome
      cases hsome
    · -- a server that has been told to stop does not go on serving
      rcases hserve u x hwinding.server with rfl | ⟨n', rfl⟩
      · cases hx
      · cases hx
        exact absurd hwinding.getsOn_of_serve h.not_getsOn

/-- Nobody holds the lock when everything has settled. -/
theorem Settled.holder_eq_none (h : j.Settled) (hi : i.Fresh) (hr : i.Reachable j) :
    j.state.lock.holder = none :=
  h.1.holder_eq_none hi hr fun _ _ hx => h.serve hx

/-- Nobody stands at a lock that nobody holds. -/
theorem lockStage_of_free (hi : i.Fresh) (hr : i.Reachable j)
    (hnone : j.state.lock.holder = none) (t : Nat) : j.lockStage t = .outside := by
  have horderly := lockOrderly_of_reachable hi hr
  cases hstage : j.lockStage t with
  | outside => rfl
  | inside =>
    have := horderly.holder_of_inside t hstage
    rw [hnone] at this
    cases this
  | waiting =>
    rcases horderly.mem_of_waiting t hstage with hmine | hline
    · rw [hnone] at hmine
      cases hmine
    · rw [horderly.line_of_free hnone] at hline
      cases hline

theorem Settled.lockStage (h : j.Settled) (hi : i.Fresh) (hr : i.Reachable j) (t : Nat) :
    j.lockStage t = .outside :=
  lockStage_of_free hi hr (h.holder_eq_none hi hr) t

theorem Settled.start (h : j.Settled) (hi : i.Fresh) (hc : i.Course es j)
    (hb : Begun es t (.start plugin)) :
    deeds (turnsOf es) t = [.ignored] ∨ (∃ e, deeds (turnsOf es) t = [.failed e]) ∨
      ∃ n u, deeds (turnsOf es) t = [.bound n, .launched u plugin n] := by
  obtain ⟨task, htask, hdid⟩ := (allDid_of_course hi hc).did t _ hb
  obtain ⟨hnone, -⟩ := h.stuck htask
  have hout := h.lockStage hi hc.reachable t
  rw [lockStage_of_getElem? htask] at hout
  cases task with
  | call tr => cases hnone
  | await tr => cases hout
  | start x =>
    obtain ⟨p, hp, hx⟩ := hdid
    cases hp
    rcases StartTask.stuck hnone with rfl | ⟨r, rfl⟩
    · rcases hx with hignored | hlaunched
      · exact .inl hignored
      · exact .inr (.inr hlaunched)
    · exact .inr (.inl hx)
  | stop x =>
    obtain ⟨p, hp, -⟩ := hdid
    cases hp
  | _ => cases hdid

theorem Settled.stop (h : j.Settled) (hi : i.Fresh) (hc : i.Course es j)
    (hb : Begun es t (.stop plugin)) :
    deeds (turnsOf es) t = [.acked ⟨plugin, .stop⟩] ∨
      ∃ n, deeds (turnsOf es) t = [.took n, .acked ⟨plugin, .stop⟩] := by
  obtain ⟨task, htask, hdid⟩ := (allDid_of_course hi hc).did t _ hb
  obtain ⟨hnone, hidle⟩ := h.stuck htask
  have hout := h.lockStage hi hc.reachable t
  rw [lockStage_of_getElem? htask] at hout
  cases task with
  | call tr => cases hnone
  | await tr => cases hout
  | start x =>
    obtain ⟨p, hp, -⟩ := hdid
    cases hp
  | stop x =>
    obtain ⟨p, hp, hx⟩ := hdid
    cases hp
    simp only [Task.step?, Option.map_eq_none_iff] at hnone
    rcases StopTask.stuck hnone with rfl | ⟨p, n, rfl⟩ | ⟨-, hwaits, -⟩
    · exact hx
    · cases hout
    · rw [hidle] at hwaits
      cases hwaits
  | _ => cases hdid

/-! ## Every acknowledgment, once and in order -/

/-- Acknowledgments, starts and stops correspond to each other. -/
structure Acknowledged (i : Instance σ) (es : List (Event σ)) (j : Instance σ) : Prop where
  /-- What was sent was read or is on its way, in the order in which it was sent. -/
  conveyed : Outlet.acks.read es ++ j.state.acks.contents = Outlet.acks.sent (turnsOf es)
  /-- Every acknowledgment is that of a start or a stop that was asked for in the name it bears. -/
  origin : ∀ w ∈ turnsOf es, ∀ c, Outlet.acks.sentIn w = some c → ∃ t tr, Asked i es t tr ∧
    c = tr.ack ∧ (w.task = t ∨ w.task ∈ serversOf (turnsOf es) t)
  /-- No server counts for two starts. -/
  sole : ∀ t t' u, u ∈ serversOf (turnsOf es) t → u ∈ serversOf (turnsOf es) t' → t = t'
  /-- Neither a start nor a stop contributes anything but one acknowledgment of its own. -/
  once : ∀ t tr, Begun es t tr →
    contributed (turnsOf es) t = [] ∨ contributed (turnsOf es) t = [tr.ack]
  /-- A start is acknowledged by its server while the listener that it has opened is open. -/
  bound : ∀ past w rest plugin, es = past ++ .turn w :: rest →
    Outlet.acks.sentIn w = some ⟨plugin, .start⟩ → ∃ t n, Asked i past t (.start plugin) ∧
      Deed.bound n ∈ deeds (turnsOf past) t ∧ w.task ∈ serversOf (turnsOf past) t ∧
        w.before.state.IsOpen n
  /-- In the end a start has opened a listener and contributes its acknowledgment, or it was ignored
  or has failed and contributes nothing. -/
  started : j.Settled → ∀ t plugin, Begun es t (.start plugin) →
    (∃ n, Deed.bound n ∈ deeds (turnsOf es) t) ∧
        contributed (turnsOf es) t = [⟨plugin, .start⟩] ∨
      (deeds (turnsOf es) t = [.ignored] ∨ ∃ e, deeds (turnsOf es) t = [.failed e]) ∧
        contributed (turnsOf es) t = []
  /-- In the end a stop contributes its acknowledgment, whether it has found a server or not. -/
  stopped : j.Settled → ∀ t plugin, Begun es t (.stop plugin) →
    contributed (turnsOf es) t = [⟨plugin, .stop⟩]
  /-- When a stop acknowledges itself that has taken the server of a start down, the start has been
  acknowledged. -/
  order : ∀ past w rest plugin t n name, es = past ++ .turn w :: rest →
    Outlet.acks.sentIn w = some ⟨plugin, .stop⟩ → Deed.took n ∈ deeds (turnsOf past) w.task →
    Begun es t (.start name) → Deed.bound n ∈ deeds (turnsOf es) t →
    contributed (turnsOf past) t = [⟨name, .start⟩]

omit [RecordStore σ] in
theorem mem_serversOf : u ∈ serversOf ts t ↔ ∃ plugin n, Deed.launched u plugin n ∈ deeds ts t := by
  rw [serversOf, List.mem_filterMap]
  constructor
  · rintro ⟨d, hd, hu⟩
    cases d with
    | launched v plugin n =>
      cases hu
      exact ⟨plugin, n, hd⟩
    | _ => cases hu
  · rintro ⟨plugin, n, hd⟩
    exact ⟨_, hd, rfl⟩

/-- A start that has set a server off has done nothing else but open its listener. -/
theorem deeds_of_launched (hi : i.Fresh) (h : i.Course es j)
    (hd : .launched u plugin n ∈ deeds (turnsOf es) t) :
    deeds (turnsOf es) t = [.bound n, .launched u plugin n] := by
  have hbegun := (asked_of_launched hi h hd).begun
  obtain ⟨task, -, hdid⟩ := (allDid_of_course hi h).did t _ hbegun
  exact (hdid.of_launched hd).2

theorem contributed_once (hi : i.Fresh) (h : i.Course es j) (hb : Begun es t tr) :
    contributed (turnsOf es) t = [] ∨ contributed (turnsOf es) t = [tr.ack] := by
  obtain ⟨task, -, hdid⟩ := (allDid_of_course hi h).did t tr hb
  by_cases hserver : (deeds (turnsOf es) t).filterMap Deed.server? = []
  · rw [contributed_alone h hserver]
    exact hdid.ack?
  · obtain ⟨u, hu⟩ := List.exists_mem_of_ne_nil _ hserver
    obtain ⟨plugin, n, hd⟩ := mem_serversOf.1 hu
    obtain ⟨rfl, hdeeds⟩ := hdid.of_launched hd
    obtain ⟨x, -, hx⟩ := (served_of_course hi h).did t u plugin n hd
    rw [contributed_launched h hdeeds]
    exact (ackedBy_server h hx).imp_left And.left

/-- Whoever acknowledges a start is the server of one that was asked for, and its listener is
open. -/
theorem start_of_acked (hi : i.Fresh) {past : List (Event σ)} (h : i.Course past w.before)
    (hsent : Outlet.acks.sentIn w = some ⟨plugin, .start⟩) :
    ∃ t n, Asked i past t (.start plugin) ∧ Deed.bound n ∈ deeds (turnsOf past) t ∧
      w.task ∈ serversOf (turnsOf past) t ∧ w.before.state.IsOpen n := by
  obtain ⟨task, htask, hack⟩ := Option.bind_eq_some_iff.1 hsent
  rcases Task.of_ack? hack with ⟨p, n, rfl, hc⟩ | ⟨p, -, hc⟩
  · cases hc
    obtain ⟨t, p, n', hd, rfl, rfl, -⟩ := (served_of_course hi h).of_serve htask
    have hdeeds := deeds_of_launched hi h hd
    refine ⟨t, n, asked_of_launched hi h hd, ?_, mem_serversOf.2 ⟨plugin, n, hd⟩, ?_⟩
    · rw [hdeeds]
      exact List.mem_cons_self
    · exact (attended_of_reachable hi h.reachable).isOpen w.task n (listenerOf_of_getElem? htask)
  · cases hc

theorem stop_of_acked (hi : i.Fresh) {past : List (Event σ)} (h : i.Course past w.before)
    (hsent : Outlet.acks.sentIn w = some ⟨plugin, .stop⟩) :
    Asked i past w.task (.stop plugin) ∧
      w.before.tasks[w.task]? = some (.stop (.acknowledge plugin)) := by
  obtain ⟨task, htask, hack⟩ := Option.bind_eq_some_iff.1 hsent
  rcases Task.of_ack? hack with ⟨p, n, -, hc⟩ | ⟨p, rfl, hc⟩
  · cases hc
  · cases hc
    exact ⟨(requested_of_course hi h).asked w.task _ _ htask rfl, htask⟩

/-- A start whose server is past its greeting has been acknowledged. -/
theorem contributed_of_greeted (hi : i.Fresh) (h : i.Course es j)
    (hd : .launched u plugin n ∈ deeds (turnsOf es) t)
    (hgreeted : j.tasks[u]? ≠ some (.serve (.greet plugin n))) :
    contributed (turnsOf es) t = [⟨plugin, .start⟩] := by
  obtain ⟨x, hx, hdid⟩ := (served_of_course hi h).did t u plugin n hd
  rw [contributed_launched h (deeds_of_launched hi h hd)]
  rcases ackedBy_server h hdid with ⟨-, k, rfl⟩ | hacked
  · obtain ⟨-, rfl, -⟩ := hdid
    exact absurd hx hgreeted
  · exact hacked

/-- A start whose listener is closed has been acknowledged. -/
theorem contributed_of_closed (hi : i.Fresh) (h : i.Course es j)
    (hd : .launched u plugin n ∈ deeds (turnsOf es) t) (hclosed : j.state.IsClosed n) :
    contributed (turnsOf es) t = [⟨plugin, .start⟩] := by
  refine contributed_of_greeted hi h hd fun hgreet => ?_
  -- a server that has not acknowledged its start attends its listener
  obtain ⟨l, hl, hopen⟩ :=
    (attended_of_reachable hi h.reachable).isOpen u n (listenerOf_of_getElem? hgreet)
  obtain ⟨l', hl', hc⟩ := hclosed
  rw [hl] at hl'
  cases hl'
  rw [hopen] at hc
  cases hc

/-- Whatever a host does and in whatever order tasks take their turns, as long as the host has not
let go of the acknowledgments: they are those of the starts and stops that were asked for, each once
and in its own name; a start is acknowledged only if it has opened a listener, and before the stop
that takes its server down. -/
theorem acknowledged_of_course (hi : i.Fresh) (hempty : i.state.acks.contents = [])
    (h : i.Course es j) (hopen : j.state.acks.hasReceiver = true) : Acknowledged i es j := by
  have hwaiting : i.state.acks.waiting = [] :=
    List.map_eq_nil_iff.1 (List.append_eq_nil_iff.1 hempty).2
  constructor
  case conveyed =>
    have hconveyed := Outlet.acks.conveyed h (fun _ _ => hwaiting) hopen
    exact hconveyed.trans (by rw [show Outlet.acks.queue i.state = i.state.acks from rfl, hempty,
      List.nil_append])
  case origin =>
    intro w hw c hc
    obtain ⟨past, rest, rfl⟩ := List.append_of_mem (mem_turnsOf.1 hw)
    have hpast := h.of_append.1
    obtain ⟨task, htask, hack⟩ := Option.bind_eq_some_iff.1 hc
    rcases Task.of_ack? hack with ⟨plugin, n, -, rfl⟩ | ⟨plugin, -, rfl⟩
    · obtain ⟨t, n, hasked, -, hserver, -⟩ := start_of_acked hi hpast hc
      refine ⟨t, .start plugin, hasked.mono _, rfl, .inr ?_⟩
      obtain ⟨p, n, hd⟩ := mem_serversOf.1 hserver
      exact mem_serversOf.2 ⟨p, n, mem_deeds_mono hd _⟩
    · exact ⟨w.task, .stop plugin, (stop_of_acked hi hpast hc).1.mono _, rfl, .inl rfl⟩
  case sole =>
    intro t t' u hu hu'
    obtain ⟨plugin, n, hd⟩ := mem_serversOf.1 hu
    obtain ⟨plugin', n', hd'⟩ := mem_serversOf.1 hu'
    exact (served_of_course hi h).sole t t' u plugin plugin' n n' hd hd'
  case once => exact fun t tr hb => contributed_once hi h hb
  case bound =>
    rintro past w rest plugin rfl hsent
    exact start_of_acked hi h.of_append.1 hsent
  case started =>
    intro hsettled t plugin hb
    rcases hsettled.start hi h hb with hignored | ⟨e, hfailed⟩ | ⟨n, u, hlaunched⟩
    · refine .inr ⟨.inl hignored, ?_⟩
      rw [contributed_alone h (by rw [hignored]; rfl), hignored]
      rfl
    · refine .inr ⟨.inr ⟨e, hfailed⟩, ?_⟩
      rw [contributed_alone h (by rw [hfailed]; rfl), hfailed]
      rfl
    · refine .inl ⟨⟨n, by rw [hlaunched]; exact List.mem_cons_self⟩, ?_⟩
      have hd : .launched u plugin n ∈ deeds (turnsOf es) t := by
        rw [hlaunched]
        exact List.mem_cons_of_mem _ List.mem_cons_self
      refine contributed_of_greeted hi h hd fun hgreet => ?_
      rcases hsettled.serve hgreet with hdone | ⟨k, hserve⟩
      · cases hdone
      · cases hserve
  case stopped =>
    intro hsettled t plugin hb
    rcases hsettled.stop hi h hb with hdeeds | ⟨n, hdeeds⟩ <;>
      rw [contributed_alone h (by rw [hdeeds]; rfl), hdeeds] <;> rfl
  case order =>
    rintro past w rest plugin t n name rfl hsent htook hb hbound
    have hpast := h.of_append.1
    obtain ⟨-, htask⟩ := stop_of_acked hi hpast hsent
    have hholdings := holdings_of_course hi hpast
    have hclosed := hholdings.closed w.task n _ htask trivial htook
    obtain ⟨t', u, plugin', hd⟩ := hholdings.took w.task n htook
    -- the start that has opened the listener is the one whose server was taken down
    have hbound' : Deed.bound n ∈ deeds (turnsOf past) t' := by
      rw [deeds_of_launched hi hpast hd]
      exact List.mem_cons_self
    obtain rfl : t = t' := (holdings_of_course hi h).sole t t' n hbound
      (mem_deeds_mono hbound' _)
    obtain ⟨task, -, hdid⟩ := (allDid_of_course hi h).did t _ hb
    obtain ⟨hname, -⟩ := hdid.of_launched (mem_deeds_mono hd _)
    cases hname
    exact contributed_of_closed hi hpast hd hclosed

/-! ## A host that reads -/

theorem Course.trans {es' : List (Event σ)} (h : i.Course es j) (h' : j.Course es' k) :
    i.Course (es ++ es') k := by
  induction h' with
  | refl =>
    rw [List.append_nil]
    exact h
  | turn _ hs ih =>
    rw [← List.append_assoc]
    exact ih.turn hs
  | action _ a ih =>
    rw [← List.append_assoc]
    exact ih.action a

/-- A host that reads acknowledgments, and does nothing else, can see everything settle. -/
theorem exists_settled (j : Instance σ) (hopen : j.state.acks.hasReceiver = true)
    (hcapacity : 0 < j.state.acks.capacity) :
    ∃ es k, j.Course es k ∧ (∀ i a, .action i a ∈ es → ∃ n, a = .readAcks n) ∧
      k.Settled ∧ k.state.acks.hasReceiver = true := by
  by_cases hq : j.Quiescent
  · by_cases hw : j.state.acks.waiting = []
    · exact ⟨[], j, .refl, fun i a h => (by cases h), ⟨hq, hw⟩, hopen⟩
    · have hyields := Outlet.acks.yields j.state (.readAcks j.state.acks.buffer.length)
      have hopen' :
          (j.state.act (.readAcks j.state.acks.buffer.length)).acks.hasReceiver = true := by
        simp [PluginState.act, Queue.read, hopen, Queue.take]
      obtain ⟨es, k, hk, hreads, hsettled⟩ :=
        exists_settled (j.act (.readAcks j.state.acks.buffer.length)) hopen'
          ((Queue.capacity_yields hyields).symm ▸ hcapacity)
      refine ⟨_, k, (Course.refl.action _).trans hk, fun i a h => ?_, hsettled⟩
      rcases List.mem_append.1 h with h | h
      · cases List.mem_singleton.1 h
        exact ⟨_, rfl⟩
      · exact hreads i a h
  · obtain ⟨t, hs⟩ := not_forall.1 hq
    obtain ⟨j', hj'⟩ := Option.ne_none_iff_exists'.1 hs
    obtain ⟨task, m, -, hm, hmove⟩ := step?_eq_some_iff.1 hj'
    have htakes := Task.acks_takes hm
    rw [← state_move j t m, hmove] at htakes
    obtain ⟨es, k, hk, hreads, hsettled⟩ := exists_settled j'
      ((Queue.hasReceiver_takes htakes).trans hopen)
      ((Queue.capacity_takes htakes).symm ▸ hcapacity)
    refine ⟨_, k, (Course.refl.turn hj').trans hk, fun i a h => ?_, hsettled⟩
    rcases List.mem_append.1 h with h | h
    · cases List.mem_singleton.1 h
    · exact hreads i a h
termination_by ((j.work, j.load), j.state.acks.waiting.length)
decreasing_by
  · exact .right _ (Queue.waiting_read_lt hopen hcapacity hw)
  · exact .left _ _ (step?_lt hj')

/-- A start is stopped before its server has had a turn, with room for one acknowledgment: once the
host has read enough, the start and the stop have contributed one acknowledgment each. -/
theorem acknowledged_of_early_stop : ∃ (es : List (Event Store.Tree)) (j : Instance Store.Tree),
    (initial sampleSetup 1 Store.Tree.empty).Course es j ∧ j.Settled ∧
      contributed (turnsOf es) 3 = [⟨"p1", .start⟩] ∧
      contributed (turnsOf es) 5 = [⟨"p1", .stop⟩] := by
  have hrun : (startedAndStopped (initial sampleSetup 1 .empty) 3).map (fun j =>
      (j.state.acks.hasReceiver, j.state.acks.capacity)) = some (true, 1) := by
    with_unfolding_all rfl
  have hdeeds : deeds (((initial sampleSetup 1 Store.Tree.empty).act (.call (.start "p1"))).turns
      (List.replicate 10 3)) 3 = [.bound 0, .launched 4 "p1" 0] := by with_unfolding_all rfl
  have hlength : (((initial sampleSetup 1 Store.Tree.empty).act (.call (.start "p1"))).steps?
      (List.replicate 10 3)).map (fun j => j.tasks.length) = some 5 := by with_unfolding_all rfl
  obtain ⟨k, hk, hseen⟩ := Option.map_eq_some_iff.1 hrun
  obtain ⟨hopen, hcapacity⟩ := Prod.mk.inj hseen
  obtain ⟨i, hi, hturns⟩ := Option.bind_eq_some_iff.1 hk
  rw [hi, Option.map_some, Option.some.injEq] at hlength
  obtain ⟨es, j, hrest, -, hsettled, hread⟩ := exists_settled k hopen (by rw [hcapacity]; decide)
  have hstart := ((Course.refl (i := initial sampleSetup 1 Store.Tree.empty)).action
    (.call (.start "p1"))).turns hi
  have hcourse := ((hstart.action (.call (.stop "p1"))).turns hturns).trans hrest
  have hall := acknowledged_of_course (fresh_initial _ _ _) rfl hcourse hread
  -- the listener of the start is open before the stop is called for
  have hbound (past : List (Event Store.Tree)) : Deed.bound 0 ∈ deeds (turnsOf (past ++
      (((initial sampleSetup 1 Store.Tree.empty).act (.call (.start "p1"))).turns
        (List.replicate 10 3)).map .turn)) 3 := by
    rw [turnsOf_map_turn, deeds_append, hdeeds]
    simp
  refine ⟨_, j, hcourse, hsettled, ?_, ?_⟩
  · rcases hall.started hsettled 3 "p1" ⟨.action (initial sampleSetup 1 Store.Tree.empty)
      (.call (.start "p1")), by simp, .call rfl⟩ with ⟨-, honce⟩ | ⟨hnone | ⟨e, hnone⟩, -⟩
    · exact honce
    · have hnot : Deed.bound 0 ∉ [Deed.ignored] := by simp
      rw [← hnone] at hnot
      exact (hnot (mem_deeds_mono (mem_deeds_mono (mem_deeds_mono (hbound _) _) _) _)).elim
    · have hnot : Deed.bound 0 ∉ [Deed.failed e] := by simp
      rw [← hnone] at hnot
      exact (hnot (mem_deeds_mono (mem_deeds_mono (mem_deeds_mono (hbound _) _) _) _)).elim
  · exact hall.stopped hsettled 5 "p1" ⟨.action i (.call (.stop "p1")), by simp, .call hlength⟩

end Instance

end PluginKernel
