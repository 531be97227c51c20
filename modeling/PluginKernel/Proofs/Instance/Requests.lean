import PluginKernel.Proofs.Instance.Course

/-!
# Who has asked for a start or a stop

A start or a stop goes on in the name in which it was set off: by a call of the host, or by the
listener for a command that the host has sent. A task that no host has asked for does not exist.
-/

namespace PluginKernel

variable {σ : Type}

/-- What a command asks for, if that is a start or a stop. -/
def Command.transition? (c : Command) : Option Transition :=
  match c.request with
  | .start => some (.start c.plugin)
  | .stop => some (.stop c.plugin)
  | .status | .unknown => none

namespace Task

/-- The start or the stop that a task goes through, as long as its name is needed. -/
def transition? : Task → Option Transition
  | call tr | await tr => some tr
  | start (.enter n) | start (.bind n) | start (.announce n _) | start (.launch n _)
  | start (.record n) | start (.fail n _) | start (.giveUp n _) => some (.start n)
  | stop (.enter n) | stop (.silence n _) | stop (.cancel n _) | stop (.join n _)
  | stop (.record n) | stop (.settle n _) | stop (.release n _) | stop (.emit n _)
  | stop (.acknowledge n) => some (.stop n)
  | _ => none

/-- The start or the stop that a listener is about to set off. -/
def wanted? : Task → Option Transition
  | listen (.ask tr) | listen (.await tr) => some tr
  | _ => none

theorem transition?_ofTransition (tr : Transition) : (ofTransition tr).transition? = some tr := by
  cases tr <;> rfl

/-- A task keeps the name in which it was set off. -/
theorem transition?_next [RecordStore σ] {setup : Setup} {t fresh : Nat} {s : PluginState σ}
    {task : Task} {m : Move σ} (h : task.step? setup t fresh s = some m) {tr : Transition}
    (hnext : m.next.transition? = some tr) : task.transition? = some tr := by
  cases task with
  | call tr' => cases h; exact hnext
  | await tr' =>
    simp only [step?] at h
    split at h <;> cases h
    exact (transition?_ofTransition tr').symm.trans hnext
  | start x =>
    cases x with
    | report r =>
      simp only [step?, StartTask.step?, Option.map_eq_some_iff] at h
      obtain ⟨_, -, rfl⟩ := h
      cases hnext
    | _ =>
      simp only [step?, StartTask.step?] at h
      (repeat' split at h) <;> cases h <;> first | exact hnext | cases hnext
  | stop x =>
    simp only [step?, Option.map_eq_some_iff, Prod.exists] at h
    obtain ⟨s', x', hx, rfl⟩ := h
    cases x <;> simp only [StopTask.step?] at hx <;> (repeat' split at hx) <;> cases hx <;>
      first | exact hnext | cases hnext
  | listen x =>
    cases x <;> simp only [step?, ListenTask.step?] at h <;> (repeat' split at h) <;> cases h <;>
      cases hnext
  | _ =>
    simp only [step?, Option.map_eq_some_iff] at h
    obtain ⟨_, -, rfl⟩ := h
    cases hnext

/-- Only the listener sets off starts and stops, each as it is wanted. -/
theorem transition?_spawned [RecordStore σ] {setup : Setup} {t fresh : Nat} {s : PluginState σ}
    {task x : Task} {m : Move σ} (h : task.step? setup t fresh s = some m)
    (hx : m.spawned = some x) {tr : Transition} (htr : x.transition? = some tr) :
    task = .listen (.await tr) := by
  rcases spawned_eq h hx with ⟨n, l, rfl⟩ | ⟨tr', rfl, rfl⟩
  · cases htr
  · rw [transition?_ofTransition, Option.some.injEq] at htr
    rw [htr]

end Task

/-- What a listener wants a command asks for that it has taken. -/
theorem ListenTask.wanted?_next {t fresh : Nat} {s : PluginState σ} {x : ListenTask} {m : Move σ}
    (h : x.step? t fresh s = some m) :
    (∀ c ∈ m.state.commands.contents, c ∈ s.commands.contents) ∧
      ∀ tr, m.next.wanted? = some tr → (Task.listen x).wanted? = some tr ∨
        ∃ c ∈ s.commands.contents, c.transition? = some tr := by
  cases x with
  | receive =>
    simp only [step?] at h
    split at h
    · split at h <;> cases h
      exact ⟨fun _ hc => hc, fun tr htr => by cases htr⟩
    next c q hnext =>
      have hcontents := Queue.contents_of_next? hnext
      have hc : c ∈ s.commands.contents := hcontents ▸ List.mem_cons_self
      have hrest : ∀ c' ∈ q.contents, c' ∈ s.commands.contents := fun c' hc' =>
        hcontents ▸ List.mem_cons_of_mem c hc'
      split at h
      next hrequest =>
        cases h
        refine ⟨hrest, fun tr htr => .inr ⟨c, hc, ?_⟩⟩
        rw [Command.transition?, hrequest]
        exact htr
      next hrequest =>
        cases h
        refine ⟨hrest, fun tr htr => .inr ⟨c, hc, ?_⟩⟩
        rw [Command.transition?, hrequest]
        exact htr
      all_goals
        cases h
        exact ⟨hrest, fun tr htr => by cases htr⟩
  | ask tr' =>
    simp only [step?] at h
    cases h
    exact ⟨fun _ hc => hc, fun tr htr => .inl htr⟩
  | await tr' =>
    simp only [step?] at h
    split at h <;> cases h
    exact ⟨fun _ hc => hc, fun tr htr => by cases tr' <;> cases htr⟩
  | close =>
    simp only [step?] at h
    cases h
    exact ⟨fun _ hc => List.mem_append_right _ hc, fun tr htr => by cases htr⟩
  | _ =>
    simp only [step?] at h
    (repeat' split at h) <;> cases h <;>
      exact ⟨fun _ hc => hc, fun tr htr => by cases htr⟩

/-- Commands are taken by the listener only, and only a listener wants anything. -/
theorem Task.wanted?_next [RecordStore σ] {setup : Setup} {t fresh : Nat} {s : PluginState σ}
    {task : Task} {m : Move σ} (h : task.step? setup t fresh s = some m) :
    (∀ c ∈ m.state.commands.contents, c ∈ s.commands.contents) ∧
      ∀ tr, m.next.wanted? = some tr → task.wanted? = some tr ∨
        ∃ c ∈ s.commands.contents, c.transition? = some tr := by
  have hquiet : m.state.commands = s.commands → m.next.kind ≠ .listener →
      (∀ c ∈ m.state.commands.contents, c ∈ s.commands.contents) ∧
        ∀ tr, m.next.wanted? = some tr → task.wanted? = some tr ∨
          ∃ c ∈ s.commands.contents, c.transition? = some tr := by
    intro hcommands hkind
    refine ⟨fun c hc => hcommands ▸ hc, fun tr htr => ?_⟩
    cases hnext : m.next with
    | listen x =>
      rw [hnext] at hkind
      exact absurd rfl hkind
    | _ =>
      rw [hnext] at htr
      cases htr
  have hkind := kind_next h
  cases task with
  | listen x => exact ListenTask.wanted?_next h
  | call tr =>
    cases h
    exact hquiet rfl (by simp [kind])
  | await tr =>
    simp only [step?] at h
    split at h <;> cases h
    exact hquiet rfl (by rw [hkind]; simp [kind])
  | start x => exact hquiet (StartTask.total_work_lt h).2 (by rw [hkind]; simp [kind])
  | stop x =>
    simp only [step?, Option.map_eq_some_iff, Prod.exists] at h
    obtain ⟨s', x', hx, rfl⟩ := h
    exact hquiet (StopTask.work_lt hx).2 (by simp [kind])
  | serve x =>
    simp only [step?, Option.map_eq_some_iff, Prod.exists] at h
    obtain ⟨s', x', hx, rfl⟩ := h
    exact hquiet (ServeTask.work_lt hx).2 (by simp [kind])
  | report x =>
    simp only [step?, Option.map_eq_some_iff, Prod.exists] at h
    obtain ⟨s', x', hx, rfl⟩ := h
    exact hquiet (ReportTask.work_lt hx).2 (by simp [kind])
  | keeper x =>
    simp only [step?, Option.map_eq_some_iff, Prod.exists] at h
    obtain ⟨s', x', hx, rfl⟩ := h
    exact hquiet (KeeperTask.load_lt hx).2 (by simp [kind])
  | courier x =>
    simp only [step?, Option.map_eq_some_iff, Prod.exists] at h
    obtain ⟨s', x', hx, rfl⟩ := h
    exact hquiet (CourierTask.load_lt hx).2 (by simp [kind])

namespace Instance

/-! ## In every course -/

/-- The host has sent a command, or had sent it before the course began. -/
def Sent (i : Instance σ) (es : List (Event σ)) (c : Command) : Prop :=
  c ∈ i.state.commands.contents ∨ ∃ j, Event.action j (.command c) ∈ es

/-- The host has asked for the start or the stop that the task of a number goes through: by a call,
or by a command for which the listener has set the task off. -/
inductive Asked (i : Instance σ) (es : List (Event σ)) (t : Nat) (tr : Transition) : Prop where
  | call {j : Instance σ} (h : Event.action j (.call tr) ∈ es) (ht : j.tasks.length = t)
  | command {w : Turn σ} {c : Command} (hw : Event.turn w ∈ es) (ht : w.before.tasks.length = t)
      (hlisten : w.before.tasks[w.task]? = some (.listen (.await tr)))
      (hc : c.transition? = some tr) (hsent : Sent i es c)

variable {i j k : Instance σ} {es : List (Event σ)} {t : Nat} {tr : Transition} {c : Command}

theorem Sent.mono (h : Sent i es c) (more : List (Event σ)) : Sent i (es ++ more) c :=
  h.imp_right fun ⟨j, hj⟩ => ⟨j, List.mem_append_left _ hj⟩

theorem Asked.mono (h : Asked i es t tr) (more : List (Event σ)) : Asked i (es ++ more) t tr := by
  cases h with
  | call h ht => exact .call (List.mem_append_left _ h) ht
  | command hw ht hlisten hc hsent =>
    exact .command (List.mem_append_left _ hw) ht hlisten hc (hsent.mono more)

/-- All that goes on was asked for. -/
structure Requested (i : Instance σ) (es : List (Event σ)) (j : Instance σ) : Prop where
  asked : ∀ (t : Nat) (task : Task) (tr : Transition), j.tasks[t]? = some task →
    task.transition? = some tr → Asked i es t tr
  wanted : ∀ (t : Nat) (task : Task) (tr : Transition), j.tasks[t]? = some task →
    task.wanted? = some tr → ∃ c, Sent i es c ∧ c.transition? = some tr
  sent : ∀ c ∈ j.state.commands.contents, Sent i es c

theorem Fresh.requested (h : i.Fresh) : Requested i [] i := by
  refine ⟨fun t task tr htask htr => ?_, fun t task tr htask htr => ?_, fun c hc => .inl hc⟩
  · rcases h.eq_of_getElem? htask with rfl | rfl | rfl <;> cases htr
  · rcases h.eq_of_getElem? htask with rfl | rfl | rfl <;> cases htr

theorem Requested.act (h : Requested i es j) (a : HostAction) :
    Requested i (es ++ [.action j a]) (j.act a) := by
  refine ⟨fun t task tr htask htr => ?_, fun t task tr htask htr => ?_, fun c hc => ?_⟩
  · rw [getElem?_tasks_act] at htask
    split at htask
    next ht =>
      cases a <;> cases htask <;> cases htr
      exact .call List.mem_concat_self ht.symm
    · exact (h.asked t task tr htask htr).mono _
  · rw [getElem?_tasks_act] at htask
    split at htask
    · cases a <;> cases htask <;> cases htr
    · obtain ⟨c, hsent, hc⟩ := h.wanted t task tr htask htr
      exact ⟨c, hsent.mono _, hc⟩
  · have hold : c ∈ j.state.commands.contents → Sent i (es ++ [.action j a]) c :=
      fun hc => (h.sent c hc).mono _
    rw [state_act] at hc
    cases a with
    | command c' =>
      have hmem : c ∈ j.state.commands.contents ∨ c = c' := by
        simp only [PluginState.act, Queue.post, Queue.offer] at hc
        split at hc
        · split at hc
          · exact .inl hc
          · split at hc
            · simp only [Queue.contents, Queue.push, List.mem_append, List.mem_singleton] at hc ⊢
              rcases hc with (hc | hc) | hc
              · exact .inl (.inl hc)
              · exact .inr hc
              · exact .inl (.inr hc)
            · exact .inl hc
        · exact .inl hc
      rcases hmem with hmem | rfl
      · exact hold hmem
      · exact .inr ⟨j, List.mem_concat_self⟩
    | drop e => cases e <;> exact hold hc
    | _ => exact hold hc

variable [RecordStore σ]

theorem Requested.step (h : Requested i es j) (hs : j.step? t = some k) :
    Requested i (es ++ [.turn ⟨t, j, k⟩]) k := by
  obtain ⟨task, m, htask, hm, rfl⟩ := step?_eq_some_iff.1 hs
  have htasks := getElem?_tasks_move (List.getElem?_eq_some_iff.1 htask).1 m
  obtain ⟨htaken, hwants⟩ := Task.wanted?_next hm
  refine ⟨fun u task' tr hu htr => ?_, fun u task' tr hu htr => ?_, fun c hc => ?_⟩
  · -- the task that took the turn, the one it has set off, and all others
    rw [htasks] at hu
    split at hu
    next hut =>
      cases hu
      rw [hut]
      exact (h.asked t task tr htask (Task.transition?_next hm htr)).mono _
    · split at hu
      next hul =>
        obtain rfl := Task.transition?_spawned hm hu htr
        obtain ⟨c, hsent, hc⟩ := h.wanted t _ tr htask rfl
        exact .command List.mem_concat_self hul.symm htask hc
          (hsent.mono _)
      · exact (h.asked u task' tr hu htr).mono _
  · rw [htasks] at hu
    split at hu
    · cases hu
      rcases hwants tr htr with hwanted | ⟨c, hmem, hc⟩
      · obtain ⟨c, hsent, hc⟩ := h.wanted t task tr htask hwanted
        exact ⟨c, hsent.mono _, hc⟩
      · exact ⟨c, (h.sent c hmem).mono _, hc⟩
    · split at hu
      · have hkind := Task.kind_spawned hm hu
        cases task' with
        | listen x => exact absurd hkind (by simp [Task.kind])
        | _ => cases htr
      · obtain ⟨c, hsent, hc⟩ := h.wanted u task' tr hu htr
        exact ⟨c, hsent.mono _, hc⟩
  · rw [state_move] at hc
    exact (h.sent c (htaken c hc)).mono _

/-- In every course, whatever goes on in a name was asked for in this name. -/
theorem requested_of_course (hi : i.Fresh) (h : i.Course es j) : Requested i es j := by
  induction h with
  | refl => exact hi.requested
  | turn _ hs ih => exact ih.step hs
  | action _ a ih => exact ih.act a

end Instance

end PluginKernel
