import PluginKernel.Proofs.Instance.Commands
import PluginKernel.Proofs.Instance.Resemblance

/-!
# What is sent after a stop has no effect

Only the listener looks at the commands, and the first stop is the last command that it takes. So
once a stop has got into the queue, whatever is sent after it changes nothing but what lies in the
queue: `ignoresCommands_of_course` says that the plugin behaves as it would if the host had sent no
more commands.
-/

namespace PluginKernel

variable {σ : Type}

/-! ## What tasks do does not depend on the commands -/

/-- A state with other commands in their queue. -/
def PluginState.withCommands (s : PluginState σ) (q : Queue Command) : PluginState σ :=
  { s with commands := q }

namespace PluginState

variable (s : PluginState σ) (q : Queue Command)

@[simp] theorem commands_withCommands : (s.withCommands q).commands = q := rfl

@[simp] theorem lock_withCommands : (s.withCommands q).lock = s.lock := rfl

@[simp] theorem server_withCommands : (s.withCommands q).server = s.server := rfl

@[simp] theorem ledger_withCommands : (s.withCommands q).ledger = s.ledger := rfl

@[simp] theorem listeners_withCommands : (s.withCommands q).listeners = s.listeners := rfl

@[simp] theorem acks_withCommands : (s.withCommands q).acks = s.acks := rfl

@[simp] theorem errors_withCommands : (s.withCommands q).errors = s.errors := rfl

@[simp] theorem dataflow_withCommands : (s.withCommands q).dataflow = s.dataflow := rfl

@[simp] theorem outbox_withCommands : (s.withCommands q).outbox = s.outbox := rfl

@[simp] theorem pending_withCommands : (s.withCommands q).pending = s.pending := rfl

@[simp] theorem logged_withCommands (events : List LogEvent) :
    (s.withCommands q).logged events = (s.logged events).withCommands q := rfl

@[simp] theorem heldEndpoints_withCommands :
    (s.withCommands q).heldEndpoints = s.heldEndpoints := rfl

end PluginState

/-- A move that leads to other commands in their queue. -/
def Move.withCommands (q : Queue Command) (m : Move σ) : Move σ :=
  { m with state := m.state.withCommands q }

section Frame

variable (setup : Setup) (t fresh : Nat) (s : PluginState σ) (q : Queue Command)

theorem ReportTask.step?_withCommands (r : ReportTask) :
    r.step? setup t (s.withCommands q) =
      (r.step? setup t s).map fun p => (p.1.withCommands q, p.2) := by
  cases r with
  | check e =>
    simp only [step?, PluginState.errors_withCommands]
    by_cases hopen : s.errors.hasReceiver = true <;> simp [hopen]
  | record e =>
    simp only [step?, PluginState.ledger_withCommands]
    cases s.ledger with
    | none => rfl
    | some l => cases h : l.lastMilestone? <;> simp only [h] <;> rfl
  | emit l e => rfl
  | send e =>
    simp only [step?, PluginState.errors_withCommands]
    cases s.errors.send t e <;> rfl
  | wait e =>
    simp only [step?, PluginState.errors_withCommands]
    cases s.errors.resume? t with
    | none => rfl
    | some p => obtain ⟨taken, q⟩ := p; cases taken <;> rfl
  | done => rfl

theorem ServeTask.step?_withCommands (x : ServeTask) :
    x.step? t (s.withCommands q) = (x.step? t s).map fun p => (p.1.withCommands q, p.2) := by
  cases x with
  | greet plugin n =>
    simp only [step?, PluginState.acks_withCommands]
    cases s.acks.send t ⟨plugin, .start⟩ <;> rfl
  | wait n =>
    simp only [step?, PluginState.acks_withCommands]
    cases s.acks.resume? t with
    | none => rfl
    | some p => obtain ⟨taken, q⟩ := p; cases taken <;> rfl
  | «open» n => rfl
  | serve n =>
    simp only [step?, PluginState.listeners_withCommands]
    cases s.listeners[n]? with
    | none => rfl
    | some l => cases h : l.cancelled <;> simp only [h] <;> rfl
  | done => rfl

theorem StartTask.step?_withCommands (x : StartTask) :
    x.step? setup t (s.withCommands q) = (x.step? setup t s).map (Move.withCommands q) := by
  cases x with
  | enter plugin =>
    simp only [step?, PluginState.server_withCommands]
    cases s.server <;> rfl
  | bind plugin =>
    simp only [step?, PluginState.logged_withCommands, PluginState.heldEndpoints_withCommands]
    cases setup.bind (s.logged setup.bindEvents).heldEndpoints <;> rfl
  | report r =>
    simp only [step?, ReportTask.step?_withCommands]
    cases r.step? setup t s <;> rfl
  | _ => rfl

theorem StopTask.step?_withCommands (x : StopTask) :
    x.step? setup t (s.withCommands q) =
      (x.step? setup t s).map fun p => (p.1.withCommands q, p.2) := by
  cases x with
  | enter plugin =>
    simp only [step?, PluginState.logged_withCommands, PluginState.server_withCommands]
    cases (s.logged [.info "received shutdown message from kernel" [("plugin", plugin)]]).server <;>
      rfl
  | join plugin n =>
    simp only [step?, PluginState.listeners_withCommands]
    cases s.listeners[n]? with
    | none => rfl
    | some l => cases h : l.closed <;> simp only [h] <;> rfl
  | record plugin =>
    simp only [step?, PluginState.ledger_withCommands]
    cases s.ledger <;> rfl
  | acknowledge plugin =>
    simp only [step?, PluginState.acks_withCommands]
    cases s.acks.send t ⟨plugin, .stop⟩ <;> rfl
  | wait =>
    simp only [step?, PluginState.acks_withCommands]
    cases s.acks.resume? t with
    | none => rfl
    | some p => obtain ⟨taken, q⟩ := p; cases taken <;> rfl
  | emit plugin l => cases l <;> rfl
  | _ => rfl

theorem KeeperTask.step?_withCommands [RecordStore σ] (x : KeeperTask) :
    x.step? setup (s.withCommands q) =
      (x.step? setup s).map fun p => (p.1.withCommands q, p.2) := by
  cases x with
  | receive =>
    simp only [step?, PluginState.outbox_withCommands]
    cases s.outbox <;> rfl
  | persist filing l rest summary => cases rest <;> rfl
  | forward l => rfl

theorem CourierTask.step?_withCommands (x : CourierTask) :
    x.step? t (s.withCommands q) = (x.step? t s).map fun p => (p.1.withCommands q, p.2) := by
  cases x with
  | receive =>
    simp only [step?, PluginState.pending_withCommands]
    cases s.pending <;> rfl
  | send l =>
    simp only [step?, PluginState.dataflow_withCommands]
    cases s.dataflow.send t l <;> rfl
  | wait =>
    simp only [step?, PluginState.dataflow_withCommands]
    cases s.dataflow.resume? t <;> rfl

/-- A listener that takes no command now does not look at the commands. -/
theorem ListenTask.step?_withCommands {x : ListenTask} (hx : x ≠ receive) (hx' : x ≠ close) :
    x.step? t fresh (s.withCommands q) = (x.step? t fresh s).map (Move.withCommands q) := by
  cases x with
  | receive => exact absurd rfl hx
  | close => exact absurd rfl hx'
  | await tr =>
    simp only [step?, PluginState.lock_withCommands]
    by_cases hmine : s.lock.holder = some t
    · simp only [hmine, if_true]
      rfl
    · simp only [hmine, if_false]
      rfl
  | announce plugin =>
    simp only [step?, PluginState.errors_withCommands]
    cases s.errors.send t (.shuttingDown plugin) <;> rfl
  | wait =>
    simp only [step?, PluginState.errors_withCommands]
    cases s.errors.resume? t with
    | none => rfl
    | some p => obtain ⟨taken, q⟩ := p; cases taken <;> rfl
  | _ => rfl

/-- Whoever does not take commands does the same whatever commands there are. -/
theorem Task.step?_withCommands [RecordStore σ] {task : Task} (htask : task ≠ .listen .receive)
    (htask' : task ≠ .listen .close) : task.step? setup t fresh (s.withCommands q) =
      (task.step? setup t fresh s).map (Move.withCommands q) := by
  cases task with
  | call tr => rfl
  | await tr =>
    simp only [step?, PluginState.lock_withCommands]
    by_cases hmine : s.lock.holder = some t
    · simp only [hmine, if_true]
      rfl
    · simp only [hmine, if_false]
      rfl
  | start x => exact StartTask.step?_withCommands setup t s q x
  | listen x =>
    exact ListenTask.step?_withCommands t fresh s q (fun h => htask (congrArg _ h))
      fun h => htask' (congrArg _ h)
  | stop x =>
    simp only [step?, StopTask.step?_withCommands]
    cases x.step? setup t s <;> rfl
  | serve x =>
    simp only [step?, ServeTask.step?_withCommands]
    cases x.step? t s <;> rfl
  | report x =>
    simp only [step?, ReportTask.step?_withCommands]
    cases x.step? setup t s <;> rfl
  | keeper x =>
    simp only [step?, KeeperTask.step?_withCommands]
    cases x.step? setup s <;> rfl
  | courier x =>
    simp only [step?, CourierTask.step?_withCommands]
    cases x.step? t s <;> rfl

end Frame

/-! ## Commands behind a stop -/

namespace Queue

variable {q q' : Queue Command}

/-- Two queues hold the same commands up to a stop. -/
def AgreeToStop (q q' : Queue Command) : Prop :=
  q.waiting = [] ∧ q'.waiting = [] ∧ ∃ cs plugin rest rest',
    q.buffer = cs ++ ⟨plugin, .stop⟩ :: rest ∧ q'.buffer = cs ++ ⟨plugin, .stop⟩ :: rest'

theorem AgreeToStop.symm (h : q.AgreeToStop q') : q'.AgreeToStop q := by
  obtain ⟨hidle, hidle', cs, plugin, rest, rest', hq, hq'⟩ := h
  exact ⟨hidle', hidle, cs, plugin, rest', rest, hq', hq⟩

theorem AgreeToStop.post (h : q.AgreeToStop q') (c : Command) : (q.post c).AgreeToStop q' := by
  obtain ⟨hidle, hidle', cs, plugin, rest, rest', hq, hq'⟩ := h
  rw [post_eq]
  split
  · refine ⟨hidle, hidle', cs, plugin, rest ++ [c], rest', ?_, hq'⟩
    rw [push, hq, List.append_assoc, List.cons_append]
  · exact ⟨hidle, hidle', cs, plugin, rest, rest', hq, hq'⟩

/-- The same command is taken from both queues, and if it is no stop they go on to agree. -/
theorem AgreeToStop.next? (h : q.AgreeToStop q') : ∃ c p p', q.next? = some (c, p) ∧
    q'.next? = some (c, p') ∧ (c.request = .stop ∨ p.AgreeToStop p') := by
  obtain ⟨hidle, hidle', cs, plugin, rest, rest', hq, hq'⟩ := h
  cases cs with
  | nil => exact ⟨⟨plugin, .stop⟩, (q.take 1).2, (q'.take 1).2, by rw [Queue.next?, hq]; rfl,
      by rw [Queue.next?, hq']; rfl, .inl rfl⟩
  | cons c cs =>
    have hbuffer : ∀ p : Queue Command, p.waiting = [] → ∀ ds, p.buffer = c :: ds →
        (p.take 1).2.waiting = [] ∧ (p.take 1).2.buffer = ds := by
      intro p hp ds hds
      simp [take, hp, hds]
    obtain ⟨hw, hb⟩ := hbuffer q hidle _ hq
    obtain ⟨hw', hb'⟩ := hbuffer q' hidle' _ hq'
    exact ⟨c, (q.take 1).2, (q'.take 1).2, by rw [Queue.next?, hq]; rfl,
      by rw [Queue.next?, hq']; rfl, .inr ⟨hw, hw', cs, plugin, rest, rest', hb, hb'⟩⟩

end Queue

/-- The listener takes no more commands. -/
def ListenTask.IsDeaf : ListenTask → Prop
  | ask (.stop _) | await (.stop _) | announce _ | wait | close | done => True
  | _ => False

theorem ListenTask.isDeaf_next {t fresh : Nat} {s : PluginState σ} {x y : ListenTask} {m : Move σ}
    (h : x.step? t fresh s = some m) (hy : m.next = .listen y) (hx : x.IsDeaf) : y.IsDeaf := by
  cases x with
  | «open» | receive => cases hx
  | ask tr =>
    cases h
    cases hy
    cases tr <;> exact hx
  | await tr =>
    cases tr with
    | start plugin => cases hx
    | stop plugin =>
      simp only [step?] at h
      split at h <;> cases h
      cases hy
      trivial
  | _ =>
    simp only [step?] at h
    (repeat' split at h) <;> cases h <;> cases hy <;> trivial

/-- Whoever does not take commands leaves them where they are. -/
theorem Task.commands_step? [RecordStore σ] {setup : Setup} {t fresh : Nat} {s : PluginState σ}
    {task : Task} {m : Move σ} (h : task.step? setup t fresh s = some m)
    (htask : task ≠ .listen .receive) (htask' : task ≠ .listen .close) :
    m.state.commands = s.commands := by
  -- what the task does is the same for the commands that there are
  have hsame := step?_withCommands setup t fresh s s.commands htask htask'
  rw [show s.withCommands s.commands = s from rfl, h] at hsame
  rw [Option.some.inj hsame]
  rfl

/-- Whether an action is to send a command. -/
def HostAction.isCommand : HostAction → Bool
  | .command _ => true
  | _ => false

namespace Instance

/-- Two plugins are the same but for commands that nobody will hear. -/
structure Unheard (i j : Instance σ) : Prop where
  setup : j.setup = i.setup
  tasks : j.tasks = i.tasks
  state : j.state = i.state.withCommands j.state.commands
  deaf : ∀ (t : Nat) (x : ListenTask), i.tasks[t]? = some (.listen x) →
    t = 2 ∧ (x.IsDeaf ∨ i.state.commands.AgreeToStop j.state.commands)

variable {i j : Instance σ} {t : Nat}

theorem Unheard.symm (h : Unheard i j) : Unheard j i := by
  refine ⟨h.setup.symm, h.tasks.symm, ?_, fun t x hx => ?_⟩
  · rw [h.state]
    rfl
  · rw [h.tasks] at hx
    exact (h.deaf t x hx).imp_right (Or.imp_right Queue.AgreeToStop.symm)

/-- Moves that differ in the commands only. -/
theorem Unheard.move (h : Unheard i j) {m n : Move σ} (ht : t < i.tasks.length)
    (hstate : n.state = m.state.withCommands n.state.commands) (hnext : n.next = m.next)
    (hspawned : n.spawned = m.spawned) (hset : ∀ x, m.spawned ≠ some (.listen x))
    (hlisten : ∀ x, m.next = .listen x →
      t = 2 ∧ (x.IsDeaf ∨ m.state.commands.AgreeToStop n.state.commands))
    (hothers : t ≠ 2 → m.state.commands = i.state.commands ∧ n.state.commands = j.state.commands) :
    Unheard (i.move t m) (j.move t n) := by
  refine ⟨by rw [setup_move, setup_move, h.setup], ?_, ?_, fun u x hx => ?_⟩
  · rw [tasks_move, tasks_move, h.tasks, hnext, hspawned]
  · rw [state_move, state_move]
    exact hstate
  · rw [state_move, state_move]
    rw [getElem?_tasks_move ht] at hx
    split at hx
    next hu => exact hu ▸ hlisten x (Option.some.inj hx)
    next hu =>
      split at hx
      · exact absurd hx (hset x)
      · obtain ⟨rfl, hdeaf⟩ := h.deaf u x hx
        obtain ⟨hm, hn⟩ := hothers (Ne.symm hu)
        rw [hm, hn]
        exact ⟨rfl, hdeaf⟩

theorem act_command (i : Instance σ) (c : Command) : (i.act (.command c)).setup = i.setup ∧
    (i.act (.command c)).tasks = i.tasks ∧
      (i.act (.command c)).state = i.state.withCommands (i.state.commands.post c) :=
  ⟨rfl, rfl, rfl⟩

/-- One of the two gets a further command. -/
theorem Unheard.command (h : Unheard i j) (c : Command) : Unheard (i.act (.command c)) j := by
  obtain ⟨hsetup, htasks, hstate⟩ := act_command i c
  refine ⟨by rw [hsetup, h.setup], by rw [htasks, h.tasks], ?_, fun t x hx => ?_⟩
  · rw [hstate]
    exact h.state
  · rw [hstate, PluginState.commands_withCommands]
    rw [htasks] at hx
    exact (h.deaf t x hx).imp_right (Or.imp_right fun hagree => hagree.post c)

theorem Unheard.act (h : Unheard i j) {a : HostAction} (ha : a.isCommand = false) :
    Unheard (i.act a) (j.act a) := by
  have hlistener : ∀ (t : Nat) (x : ListenTask), (i.act a).tasks[t]? = some (.listen x) →
      i.tasks[t]? = some (.listen x) := by
    intro t x hx
    rw [getElem?_tasks_act] at hx
    split at hx
    · cases a <;> cases hx
    · exact hx
  have hcommands : ∀ k : Instance σ, (k.state.act a).commands = k.state.commands ∨
      a = .drop .commands := by
    intro k
    cases a with
    | command c => cases ha
    | drop e => cases e <;> first | exact .inr rfl | exact .inl rfl
    | _ => exact .inl rfl
  refine ⟨by rw [setup_act, setup_act, h.setup], ?_, ?_, fun t x hx => ?_⟩
  · rw [tasks_act, tasks_act, h.tasks]
  · rw [state_act, state_act, h.state]
    cases a with
    | drop e => cases e <;> rfl
    | _ => rfl
  · rw [state_act, state_act]
    refine (h.deaf t x (hlistener t x hx)).imp_right (Or.imp_right fun hagree => ?_)
    rcases hcommands i with hi | rfl
    · rcases hcommands j with hj | rfl
      · rwa [hi, hj]
      · exact hagree
    · exact hagree

variable [RecordStore σ]

/-- A listener that takes a command takes the same one in both. -/
theorem Unheard.receive (h : Unheard i j) (ht : i.tasks[t]? = some (.listen .receive)) :
    ∃ i' j', i.step? t = some i' ∧ j.step? t = some j' ∧ Unheard i' j' := by
  have hlt := (List.getElem?_eq_some_iff.1 ht).1
  obtain ⟨rfl, hdeaf | hagree⟩ := h.deaf t _ ht
  · cases hdeaf
  obtain ⟨c, p, p', hp, hp', hc⟩ := hagree.next?
  have hsteps : ∀ y : ListenTask, (c.request = .stop → y.IsDeaf) →
      Unheard (i.move 2 ⟨i.state.withCommands p, .listen y, none⟩)
        (j.move 2 ⟨j.state.withCommands p', .listen y, none⟩) := by
    intro y hy
    refine h.move hlt ?_ rfl rfl (by simp) (fun x hx => ⟨rfl, ?_⟩) fun hne => absurd rfl hne
    · rw [h.state]
      rfl
    · cases hx
      exact hc.imp_left hy
  have hi : i.step? 2 = ((Task.listen .receive).step? i.setup 2 i.tasks.length i.state).map
      (i.move 2) := step?_of_getElem? ht
  have hj : j.step? 2 = ((Task.listen .receive).step? j.setup 2 j.tasks.length j.state).map
      (j.move 2) := step?_of_getElem? (h.tasks ▸ ht)
  rw [hi, hj]
  simp only [Task.step?, ListenTask.step?, hp, hp']
  cases hrequest : c.request with
  | start => exact ⟨_, _, rfl, rfl, hsteps _ fun hstop => by rw [hrequest] at hstop; cases hstop⟩
  | stop => exact ⟨_, _, rfl, rfl, hsteps _ fun _ => trivial⟩
  | status => exact ⟨_, _, rfl, rfl, hsteps _ fun hstop => by rw [hrequest] at hstop; cases hstop⟩
  | unknown => exact ⟨_, _, rfl, rfl, hsteps _ fun hstop => by rw [hrequest] at hstop; cases hstop⟩

theorem Unheard.close (h : Unheard i j) (ht : i.tasks[t]? = some (.listen .close)) :
    ∃ i' j', i.step? t = some i' ∧ j.step? t = some j' ∧ Unheard i' j' := by
  have hlt := (List.getElem?_eq_some_iff.1 ht).1
  obtain ⟨rfl, -⟩ := h.deaf t _ ht
  rw [step?_of_getElem? ht, step?_of_getElem? (h.tasks ▸ ht)]
  refine ⟨_, _, rfl, rfl, h.move hlt ?_ rfl rfl (by simp) (fun x hx => ⟨rfl, .inl ?_⟩)
    fun hne => absurd rfl hne⟩
  · rw [h.state]
    rfl
  · cases hx
    trivial

/-- A task waits in both, or takes a turn in both. -/
theorem Unheard.step? (h : Unheard i j) (t : Nat) : (i.step? t = none ∧ j.step? t = none) ∨
    ∃ i' j', i.step? t = some i' ∧ j.step? t = some j' ∧ Unheard i' j' := by
  cases ht : i.tasks[t]? with
  | none => exact .inl ⟨by rw [Instance.step?, ht], by rw [Instance.step?, h.tasks, ht]⟩
  | some task =>
    by_cases hreceive : task = .listen .receive
    · exact .inr (h.receive (hreceive ▸ ht))
    by_cases hclose : task = .listen .close
    · exact .inr (h.close (hclose ▸ ht))
    have hlt := (List.getElem?_eq_some_iff.1 ht).1
    have hsame := Task.step?_withCommands j.setup t j.tasks.length i.state j.state.commands
      hreceive hclose
    rw [← h.state, h.setup, h.tasks] at hsame
    rw [step?_of_getElem? ht, step?_of_getElem? (h.tasks ▸ ht), h.setup, h.tasks, hsame]
    cases hm : task.step? i.setup t i.tasks.length i.state with
    | none => exact .inl ⟨rfl, rfl⟩
    | some m =>
      have hkept := Task.commands_step? hm hreceive hclose
      refine .inr ⟨_, _, rfl, rfl, h.move hlt rfl rfl rfl (Task.spawned_ne_listen hm)
        (fun y hy => ?_) fun _ => ⟨hkept, rfl⟩⟩
      obtain ⟨x, rfl⟩ := Task.listens_of_next hm hy
      obtain ⟨ht2, hdeaf⟩ := h.deaf t x ht
      refine ⟨ht2, hdeaf.imp (ListenTask.isDeaf_next hm hy) fun hagree => ?_⟩
      rw [hkept]
      exact hagree

theorem Unheard.quiescent (h : Unheard i j) (hq : i.Quiescent) : j.Quiescent := by
  intro t
  rcases h.step? t with ⟨-, hnone⟩ | ⟨i', -, hi', -⟩
  · exact hnone
  · rw [hq t] at hi'
    cases hi'

/-! ## Whatever the host does -/

theorem Runs.trans {k : Instance σ} {as bs : List HostAction} (h : i.Runs as j)
    (h' : j.Runs bs k) : i.Runs (as ++ bs) k := by
  induction h' with
  | refl =>
    rw [List.append_nil]
    exact h
  | step _ hs ih => exact ih.step hs
  | act _ a ih =>
    rw [← List.append_assoc]
    exact ih.act a

/-- The last action of a run comes after the others, and turns come after it. -/
theorem Runs.exists_act {k : Instance σ} {as : List HostAction} {a : HostAction}
    (h : i.Runs (as ++ [a]) k) : ∃ j, i.Runs as j ∧ (j.act a).Runs [] k := by
  generalize has : as ++ [a] = bs at h
  induction h with
  | refl => simp at has
  | step _ hs ih =>
    obtain ⟨j, hj, hrest⟩ := ih has
    exact ⟨j, hj, hrest.step hs⟩
  | @act bs j h b ih =>
    obtain ⟨rfl, hb⟩ := List.append_inj' has rfl
    cases hb
    exact ⟨j, h, .refl⟩

/-- What the host does besides sending commands. -/
def withoutCommands (as : List HostAction) : List HostAction := as.filter (!·.isCommand)

theorem withoutCommands_concat (as : List HostAction) (a : HostAction) :
    withoutCommands (as ++ [a]) = withoutCommands as ++ if a.isCommand then [] else [a] := by
  rw [withoutCommands, List.filter_append, withoutCommands]
  cases h : a.isCommand <;> simp [h]

/-- The other plugin follows without the commands. -/
theorem Unheard.runs (h : Unheard i j) {as : List HostAction} {i' : Instance σ}
    (hr : i.Runs as i') : ∃ j', j.Runs (withoutCommands as) j' ∧ Unheard i' j' := by
  induction hr with
  | refl => exact ⟨j, .refl, h⟩
  | step _ hs ih =>
    obtain ⟨j', hj', h'⟩ := ih
    obtain ⟨t, ht⟩ := hs
    rcases h'.step? t with ⟨hnone, -⟩ | ⟨k, k', hk, hk', hkk'⟩
    · rw [hnone] at ht
      cases ht
    · rw [ht] at hk
      cases hk
      exact ⟨k', hj'.step ⟨t, hk'⟩, hkk'⟩
  | act _ a ih =>
    obtain ⟨j', hj', h'⟩ := ih
    cases ha : a.isCommand with
    | true =>
      rw [withoutCommands_concat, ha, if_pos rfl, List.append_nil]
      cases a with
      | command c => exact ⟨j', hj', h'.command c⟩
      | _ => cases ha
    | false =>
      rw [withoutCommands_concat, ha, if_neg (by simp)]
      exact ⟨_, hj'.act a, h'.act ha⟩

/-- Whatever becomes of a plugin without the commands, the other one can follow. -/
theorem Unheard.runs_back (h : Unheard i j) (as : List HostAction) {j' : Instance σ}
    (hr : j.Runs (withoutCommands as) j') : ∃ i', i.Runs as i' ∧ Unheard i' j' := by
  -- turns alone are followed in the one direction as in the other
  have hturns : ∀ {i j j' : Instance σ}, Unheard i j → j.Runs [] j' →
      ∃ i', i.Runs [] i' ∧ Unheard i' j' := by
    intro i j j' h hr
    obtain ⟨i', hi', h'⟩ := h.symm.runs hr
    exact ⟨i', hi', h'.symm⟩
  induction as using List.reverseRecOn generalizing j' with
  | nil => exact hturns h hr
  | append_singleton as a ih =>
    rw [withoutCommands_concat] at hr
    cases ha : a.isCommand with
    | true =>
      rw [ha, if_pos rfl, List.append_nil] at hr
      obtain ⟨i', hi', h'⟩ := ih hr
      cases a with
      | command c => exact ⟨_, hi'.act (.command c), h'.command c⟩
      | _ => cases ha
    | false =>
      rw [ha, if_neg (by simp)] at hr
      obtain ⟨j₀, hj₀, hrest⟩ := hr.exists_act
      obtain ⟨i₀, hi₀, h₀⟩ := ih hj₀
      obtain ⟨i', hi', h'⟩ := hturns (h₀.act ha) hrest
      have hall := (hi₀.act a).trans hi'
      rw [List.append_nil] at hall
      exact ⟨i', hall, h'⟩

/-- Two plugins are the same but for the commands in their queues. -/
structure SameBesideCommands (i j : Instance σ) : Prop where
  setup : j.setup = i.setup
  tasks : j.tasks = i.tasks
  state : j.state = i.state.withCommands j.state.commands
  quiescent : i.Quiescent ↔ j.Quiescent

/-- Commands have no effect from now on: whatever the host does besides, the same can become of the
plugin with them and without them. -/
def IgnoresCommands (j : Instance σ) : Prop :=
  ∀ as : List HostAction,
    (∀ k, j.Runs as k → ∃ k', j.Runs (withoutCommands as) k' ∧ SameBesideCommands k k') ∧
      ∀ k', j.Runs (withoutCommands as) k' → ∃ k, j.Runs as k ∧ SameBesideCommands k k'

theorem Unheard.sameBesideCommands (h : Unheard i j) : SameBesideCommands i j :=
  ⟨h.setup, h.tasks, h.state, h.quiescent, h.symm.quiescent⟩

omit [RecordStore σ] in
/-- A stop that has got into the queue has been taken, or is still there. -/
theorem Hearing.isDeaf_or_agreeToStop {es : List (Event σ)} {x : ListenTask} (h : Hearing es j x)
    (hstop : ∃ c ∈ posted es, c.request = .stop) :
    x.IsDeaf ∨ j.state.commands.AgreeToStop j.state.commands := by
  obtain ⟨c, hc, hrequest⟩ := hstop
  by_cases hdone : x = .done
  · subst hdone
    exact .inl trivial
  obtain ⟨-, hposted⟩ := h.queues.rest hdone
  rw [← hposted] at hc
  rcases List.mem_append.1 hc with htaken | hleft
  · left
    have hheard := h.heard
    cases x with
    | «open» | receive => exact absurd hrequest (hheard.1 c htaken)
    | ask tr | await tr =>
      obtain ⟨before, d, hnoStop, hreceived, hd, -⟩ := hheard
      rw [hreceived] at htaken
      rcases List.mem_append.1 htaken with hbefore | hlast
      · exact absurd hrequest (hnoStop c hbefore)
      · obtain rfl := List.mem_singleton.1 hlast
        rw [Command.transition?, hrequest] at hd
        cases hd
        trivial
    | _ => trivial
  · right
    have hidle := h.queues.idle
    rw [Queue.contents, hidle, List.map_nil, List.append_nil] at hleft
    obtain ⟨cs, rest, hbuffer⟩ := List.append_of_mem hleft
    obtain ⟨plugin, request⟩ := c
    cases hrequest
    exact ⟨hidle, hidle, cs, plugin, rest, rest, hbuffer, hbuffer⟩

/-- Once a stop has got into the queue, what is sent after it has no effect. -/
theorem ignoresCommands_of_course {es : List (Event σ)} (hi : i.Fresh)
    (hnew : i.state.commands.IsNew) (h : i.Course es j) (hc : Commanded es)
    (hstop : ∃ c ∈ posted es, c.request = .stop) : j.IgnoresCommands := by
  obtain ⟨x, hx⟩ := hearing_of_course hi hnew h hc
  have hself : Unheard j j := by
    refine ⟨rfl, rfl, rfl, fun t y hy => ?_⟩
    obtain rfl := listener_of_reachable hi h.reachable t y hy
    have hlistens := hx.listens
    rw [hy] at hlistens
    cases hlistens
    exact ⟨rfl, hx.isDeaf_or_agreeToStop hstop⟩
  intro as
  constructor
  · intro k hk
    obtain ⟨k', hk', hsame⟩ := hself.runs hk
    exact ⟨k', hk', hsame.sameBesideCommands⟩
  · intro k' hk'
    obtain ⟨k, hk, hsame⟩ := hself.runs_back as hk'
    exact ⟨k, hk, hsame.sameBesideCommands⟩

end Instance

end PluginKernel
