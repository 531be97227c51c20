import PluginKernel.Proofs.Instance.Turn

/-!
# Tasks do not look at their numbers

The numbers of tasks only tell those apart who wait for the lifecycle lock or for room in a queue,
and nothing that was logged is ever read again. So if all tasks are numbered otherwise, by an
injective map, and something else was logged before, every task does what it would have done:
`Task.step?_recast`.

It follows that a number can only come into the state if it belongs to a task. This is `Numbered`,
said without looking into lines and locks: a map that leaves the numbers of tasks alone leaves the
state alone.
-/

namespace PluginKernel

variable {σ : Type}

/-! ## Queues and the lock -/

namespace Queue

variable {α : Type} {ρ : Nat → Nat}

/-- The same queue with its senders numbered otherwise. -/
def renumber (ρ : Nat → Nat) (q : Queue α) : Queue α :=
  { q with waiting := q.waiting.map fun p => (ρ p.1, p.2) }

theorem isWaiting_renumber (hρ : ρ.Injective) (q : Queue α) (t : Nat) :
    (q.renumber ρ).isWaiting (ρ t) = q.isWaiting t := by
  simp only [isWaiting, renumber, List.any_map]
  congr 1
  funext p
  exact Bool.eq_iff_iff.2 (by simp [hρ.eq_iff])

theorem send_renumber (q : Queue α) (t : Nat) (x : α) :
    (q.renumber ρ).send (ρ t) x =
      match q.send t x with
      | .sent q' => .sent (q'.renumber ρ)
      | .waits q' => .waits (q'.renumber ρ)
      | .refused => .refused := by
  have hroom : (q.renumber ρ).hasRoom = q.hasRoom := rfl
  have hreceiver : (q.renumber ρ).hasReceiver = q.hasReceiver := rfl
  rw [send, send, hroom, hreceiver]
  cases q.hasReceiver with
  | false => rfl
  | true =>
    cases q.hasRoom with
    | true => rfl
    | false => simp [renumber]

theorem resume?_renumber (hρ : ρ.Injective) (q : Queue α) (t : Nat) :
    (q.renumber ρ).resume? (ρ t) = (q.resume? t).map fun p => (p.1, p.2.renumber ρ) := by
  have hreceiver : (q.renumber ρ).hasReceiver = q.hasReceiver := rfl
  have hother : ((fun p : Nat × α => p.1 != ρ t) ∘ fun p : Nat × α => (ρ p.1, p.2)) =
      fun p : Nat × α => p.1 != t := by
    funext p
    exact Bool.eq_iff_iff.2 (by simp [hρ.eq_iff])
  rw [resume?, isWaiting_renumber hρ, hreceiver, resume?]
  cases q.isWaiting t with
  | false => rfl
  | true =>
    cases q.hasReceiver with
    | true => rfl
    | false => simp [renumber, List.filter_map, hother]

theorem take_renumber (q : Queue α) (n : Nat) :
    (q.renumber ρ).take n = ((q.take n).1, (q.take n).2.renumber ρ) := by
  simp [take, renumber, List.map_take, List.map_drop, Function.comp_def]

theorem read_renumber (q : Queue α) (n : Nat) : (q.renumber ρ).read n = (q.read n).renumber ρ := by
  have hreceiver : (q.renumber ρ).hasReceiver = q.hasReceiver := rfl
  rw [read, read, take_renumber, hreceiver]
  cases q.hasReceiver <;> rfl

end Queue

namespace Lock

variable {ρ : Nat → Nat}

/-- The same lock with those who hold it or wait for it numbered otherwise. -/
def renumber (ρ : Nat → Nat) (l : Lock) : Lock := ⟨l.holder.map ρ, l.line.map ρ⟩

theorem ask_renumber (l : Lock) (t : Nat) : (l.renumber ρ).ask (ρ t) = (l.ask t).renumber ρ := by
  cases h : l.holder <;> simp [ask, renumber, h]

theorem release_renumber (l : Lock) : (l.renumber ρ).release = l.release.renumber ρ := by
  simp [release, renumber]

theorem holder_renumber (hρ : ρ.Injective) (l : Lock) (t : Nat) :
    (l.renumber ρ).holder = some (ρ t) ↔ l.holder = some t := by
  cases h : l.holder <;> simp [renumber, h, hρ.eq_iff]

end Lock

/-! ## States and moves -/

/-- The same state with the tasks numbered otherwise and something logged before. -/
def PluginState.recast (ρ : Nat → Nat) (before : List LogEvent) (s : PluginState σ) :
    PluginState σ :=
  { s with
    lock := s.lock.renumber ρ
    acks := s.acks.renumber ρ
    dataflow := s.dataflow.renumber ρ
    errors := s.errors.renumber ρ
    log := before ++ s.log }

/-- The same move with the tasks numbered otherwise and something logged before. -/
def Move.recast (ρ : Nat → Nat) (before : List LogEvent) (m : Move σ) : Move σ :=
  { m with state := m.state.recast ρ before }

variable {ρ : Nat → Nat} {b : List LogEvent}

namespace PluginState

theorem recast_id (s : PluginState σ) (b : List LogEvent) :
    s.recast id b = { s with log := b ++ s.log } := by
  simp [recast, Lock.renumber, Queue.renumber]

theorem server_recast (s : PluginState σ) : (s.recast ρ b).server = s.server := rfl

theorem ledger_recast (s : PluginState σ) : (s.recast ρ b).ledger = s.ledger := rfl

theorem listeners_recast (s : PluginState σ) : (s.recast ρ b).listeners = s.listeners := rfl

theorem commands_recast (s : PluginState σ) : (s.recast ρ b).commands = s.commands := rfl

theorem outbox_recast (s : PluginState σ) : (s.recast ρ b).outbox = s.outbox := rfl

theorem pending_recast (s : PluginState σ) : (s.recast ρ b).pending = s.pending := rfl

theorem heldEndpoints_recast (s : PluginState σ) :
    (s.recast ρ b).heldEndpoints = s.heldEndpoints := rfl

theorem hasReceiver_errors_recast (s : PluginState σ) :
    (s.recast ρ b).errors.hasReceiver = s.errors.hasReceiver := rfl

theorem logged_recast (s : PluginState σ) (events : List LogEvent) :
    (s.recast ρ b).logged events = (s.logged events).recast ρ b := by
  simp [logged, recast]

theorem unlock_recast (s : PluginState σ) :
    (s.recast ρ b).unlock = s.unlock.recast ρ b := by
  simp [unlock, recast, Lock.release_renumber]

theorem act_recast (s : PluginState σ) (a : HostAction) :
    (s.recast ρ b).act a = (s.act a).recast ρ b := by
  cases a with
  | drop e => cases e <;> rfl
  | readAcks n => simp [act, recast, Queue.read_renumber]
  | readErrors n => simp [act, recast, Queue.read_renumber]
  | readLedgers n => simp [act, recast, Queue.read_renumber]
  | _ => rfl

end PluginState

/-! ## Tasks -/

theorem ReportTask.step?_recast (hρ : ρ.Injective) (setup : Setup) (t : Nat) (s : PluginState σ)
    (r : ReportTask) :
    r.step? setup (ρ t) (s.recast ρ b) =
      (r.step? setup t s).map fun p => (p.1.recast ρ b, p.2) := by
  cases r with
  | check e =>
    simp only [step?, PluginState.logged_recast, PluginState.hasReceiver_errors_recast]
    cases s.errors.hasReceiver <;> rfl
  | record e =>
    simp only [step?, PluginState.logged_recast, PluginState.ledger_recast]
    cases s.ledger with
    | none => rfl
    | some l =>
      dsimp only
      cases l.lastMilestone? <;> rfl
  | emit l e =>
    simp only [step?, PluginState.logged_recast]
    rfl
  | send e =>
    simp only [step?, PluginState.logged_recast]
    rw [PluginState.recast, Queue.send_renumber]
    cases s.errors.send t e <;> rfl
  | wait e =>
    simp only [step?, PluginState.logged_recast]
    rw [PluginState.recast, Queue.resume?_renumber hρ]
    cases s.errors.resume? t with
    | none => rfl
    | some p => obtain ⟨taken, q⟩ := p; cases taken <;> rfl
  | done => rfl

theorem ServeTask.step?_recast (hρ : ρ.Injective) (t : Nat) (s : PluginState σ) (x : ServeTask) :
    x.step? (ρ t) (s.recast ρ b) = (x.step? t s).map fun p => (p.1.recast ρ b, p.2) := by
  cases x with
  | greet plugin n =>
    simp only [step?, PluginState.logged_recast]
    rw [PluginState.recast, Queue.send_renumber]
    cases s.acks.send t ⟨plugin, .start⟩ <;> rfl
  | wait n =>
    simp only [step?, PluginState.logged_recast]
    rw [PluginState.recast, Queue.resume?_renumber hρ]
    cases s.acks.resume? t with
    | none => rfl
    | some p => obtain ⟨taken, q⟩ := p; cases taken <;> rfl
  | «open» n =>
    simp only [step?, PluginState.logged_recast]
    rfl
  | serve n =>
    have hset (f : Listener → Listener) :
        (s.recast ρ b).setListener n f = (s.setListener n f).recast ρ b := rfl
    simp only [step?, hset, PluginState.logged_recast, PluginState.listeners_recast]
    cases s.listeners[n]? with
    | none => rfl
    | some l => cases h : l.cancelled <;> simp [h]
  | done => rfl

theorem StartTask.step?_recast (hρ : ρ.Injective) (setup : Setup) (t : Nat) (s : PluginState σ)
    (x : StartTask) :
    x.step? setup (ρ t) (s.recast ρ b) = (x.step? setup t s).map (Move.recast ρ b) := by
  cases x with
  | enter plugin =>
    simp only [step?, PluginState.logged_recast, PluginState.unlock_recast,
      PluginState.server_recast]
    cases s.server <;> rfl
  | bind plugin =>
    simp only [step?, PluginState.logged_recast, PluginState.heldEndpoints_recast]
    cases setup.bind (s.logged setup.bindEvents).heldEndpoints <;> rfl
  | giveUp plugin e =>
    simp only [step?, PluginState.logged_recast, PluginState.unlock_recast]
    rfl
  | report r =>
    simp only [step?, ReportTask.step?_recast hρ]
    cases r.step? setup t s <;> rfl
  | release l =>
    simp only [step?, PluginState.unlock_recast]
    rfl
  | launch plugin n =>
    simp only [step?, PluginState.logged_recast]
    rfl
  | record plugin =>
    simp only [step?, PluginState.logged_recast]
    rfl
  | _ => rfl

theorem StopTask.step?_recast (hρ : ρ.Injective) (setup : Setup) (t : Nat) (s : PluginState σ)
    (x : StopTask) :
    x.step? setup (ρ t) (s.recast ρ b) =
      (x.step? setup t s).map fun p => (p.1.recast ρ b, p.2) := by
  cases x with
  | enter plugin =>
    simp only [step?, PluginState.logged_recast, PluginState.server_recast]
    cases (s.logged [.info "received shutdown message from kernel" [("plugin", plugin)]]).server <;>
      rfl
  | join plugin n =>
    simp only [step?, PluginState.logged_recast, PluginState.listeners_recast]
    cases s.listeners[n]? with
    | none => rfl
    | some l => cases h : l.closed <;> simp [h]
  | record plugin =>
    simp only [step?, PluginState.logged_recast, PluginState.ledger_recast]
    cases s.ledger <;> rfl
  | acknowledge plugin =>
    simp only [step?, PluginState.logged_recast]
    rw [PluginState.recast, Queue.send_renumber]
    cases s.acks.send t ⟨plugin, .stop⟩ <;> rfl
  | wait =>
    simp only [step?, PluginState.logged_recast]
    rw [PluginState.recast, Queue.resume?_renumber hρ]
    cases s.acks.resume? t with
    | none => rfl
    | some p => obtain ⟨taken, q⟩ := p; cases taken <;> rfl
  | release plugin l =>
    simp only [step?, PluginState.unlock_recast]
    rfl
  | emit plugin l => cases l <;> rfl
  | _ => rfl

theorem ListenTask.step?_recast (hρ : ρ.Injective) (t fresh : Nat) (s : PluginState σ)
    (x : ListenTask) :
    x.step? (ρ t) (ρ fresh) (s.recast ρ b) = (x.step? t fresh s).map (Move.recast ρ b) := by
  cases x with
  | «open» =>
    simp only [step?, PluginState.logged_recast]
    rfl
  | receive =>
    simp only [step?, PluginState.commands_recast]
    cases s.commands.next? with
    | none =>
      by_cases hsender : s.commands.hasSender = true <;> simp [hsender, Move.recast]
    | some p =>
      obtain ⟨c, q⟩ := p
      dsimp only
      cases c.request <;> rfl
  | ask tr =>
    simp only [step?]
    rw [PluginState.recast, Lock.ask_renumber]
    rfl
  | await tr =>
    simp only [step?]
    change (if (s.lock.renumber ρ).holder = some (ρ t) then _ else _) = _
    by_cases hmine : s.lock.holder = some t
    · rw [if_pos ((Lock.holder_renumber hρ _ _).2 hmine), if_pos hmine]
      rfl
    · rw [if_neg fun h => hmine ((Lock.holder_renumber hρ _ _).1 h), if_neg hmine]
      rfl
  | announce plugin =>
    simp only [step?, PluginState.logged_recast]
    rw [PluginState.recast, Queue.send_renumber]
    cases s.errors.send t (.shuttingDown plugin) <;> rfl
  | wait =>
    simp only [step?, PluginState.logged_recast]
    rw [PluginState.recast, Queue.resume?_renumber hρ]
    cases s.errors.resume? t with
    | none => rfl
    | some p => obtain ⟨taken, q⟩ := p; cases taken <;> rfl
  | close =>
    simp only [step?, PluginState.logged_recast]
    rfl
  | done => rfl

theorem CourierTask.step?_recast (hρ : ρ.Injective) (t : Nat) (s : PluginState σ)
    (x : CourierTask) :
    x.step? (ρ t) (s.recast ρ b) = (x.step? t s).map fun p => (p.1.recast ρ b, p.2) := by
  cases x with
  | receive =>
    simp only [step?, PluginState.pending_recast]
    cases s.pending <;> rfl
  | send l =>
    simp only [step?]
    rw [PluginState.recast, Queue.send_renumber]
    cases s.dataflow.send t l <;> rfl
  | wait =>
    simp only [step?]
    rw [PluginState.recast, Queue.resume?_renumber hρ]
    cases s.dataflow.resume? t <;> rfl

theorem KeeperTask.step?_recast [RecordStore σ] (setup : Setup) (s : PluginState σ)
    (x : KeeperTask) :
    x.step? setup (s.recast ρ b) =
      (x.step? setup s).map fun p => (p.1.recast ρ b, p.2) := by
  cases x with
  | receive =>
    simp only [step?, PluginState.outbox_recast]
    cases s.outbox <;> rfl
  | persist filing l rest summary =>
    cases rest <;> simp only [step?, PluginState.logged_recast] <;> rfl
  | forward l => rfl

/-- A task does the same whatever the numbers of tasks are and whatever was logged before. -/
theorem Task.step?_recast [RecordStore σ] (hρ : ρ.Injective) (setup : Setup) (t fresh : Nat)
    (s : PluginState σ) (task : Task) :
    task.step? setup (ρ t) (ρ fresh) (s.recast ρ b) =
      (task.step? setup t fresh s).map (Move.recast ρ b) := by
  cases task with
  | call tr =>
    simp only [step?]
    rw [PluginState.recast, Lock.ask_renumber]
    rfl
  | await tr =>
    simp only [step?]
    change (if (s.lock.renumber ρ).holder = some (ρ t) then _ else _) = _
    by_cases hmine : s.lock.holder = some t
    · rw [if_pos ((Lock.holder_renumber hρ _ _).2 hmine), if_pos hmine]
      rfl
    · rw [if_neg fun h => hmine ((Lock.holder_renumber hρ _ _).1 h), if_neg hmine]
      rfl
  | start x => exact StartTask.step?_recast hρ setup t s x
  | listen x => exact ListenTask.step?_recast hρ t fresh s x
  | stop x =>
    simp only [step?, StopTask.step?_recast hρ]
    cases x.step? setup t s <;> rfl
  | serve x =>
    simp only [step?, ServeTask.step?_recast hρ]
    cases x.step? t s <;> rfl
  | report x =>
    simp only [step?, ReportTask.step?_recast hρ]
    cases x.step? setup t s <;> rfl
  | keeper x =>
    simp only [step?, KeeperTask.step?_recast]
    cases x.step? setup s <;> rfl
  | courier x =>
    simp only [step?, CourierTask.step?_recast hρ]
    cases x.step? t s <;> rfl

/-- A turn in which no task is set off does not depend on the number that one would get. -/
theorem Task.step?_of_spawned_eq_none [RecordStore σ] {setup : Setup} {t fresh : Nat}
    {s : PluginState σ} {task : Task} {m : Move σ} (h : task.step? setup t fresh s = some m)
    (hm : m.spawned = none) (fresh' : Nat) : task.step? setup t fresh' s = some m := by
  cases task with
  | listen x =>
    cases x with
    | await tr =>
      simp only [step?, ListenTask.step?] at h
      split at h <;> cases h
      cases hm
    | _ => exact h
  | _ => exact h

namespace Instance

/-! ## Tasks that correspond to each other -/

/-- One plugin has the tasks of another one, numbered otherwise and as far as they can be seen, and
perhaps further ones of which something is known. -/
structure Corresponds {β : Type} (ρ : Nat → Nat) (f g : Task → β) (Further : Task → Prop)
    (i j : Instance σ) : Prop where
  /-- No two tasks get the same number. -/
  injective : ρ.Injective
  /-- Tasks that will be set off get the next numbers. -/
  fresh : ∀ d, ρ (i.tasks.length + d) = j.tasks.length + d
  tasks : ∀ t, (j.tasks[ρ t]?).map f = (i.tasks[t]?).map g
  further : ∀ u x, j.tasks[u]? = some x → (∀ t, ρ t ≠ u) → Further x

namespace Corresponds

variable {β : Type} {ρ : Nat → Nat} {f g : Task → β} {Further : Task → Prop} {i j : Instance σ}

/-- The next number of one plugin corresponds to the next number of the other. -/
theorem eq_length_iff (h : Corresponds ρ f g Further i j) (t : Nat) :
    ρ t = j.tasks.length ↔ t = i.tasks.length := by
  have hfresh : ρ i.tasks.length = j.tasks.length := h.fresh 0
  rw [← hfresh, h.injective.eq_iff]

/-- What a host sets off in both looks the same. -/
theorem act (h : Corresponds ρ f g Further i j) {a : HostAction}
    (ha : a.task?.map f = a.task?.map g) : Corresponds ρ f g Further (i.act a) (j.act a) where
  injective := h.injective
  fresh d := by simp only [tasks_act, List.length_append, Nat.add_assoc, h.fresh]
  tasks t := by
    rw [getElem?_tasks_act, getElem?_tasks_act]
    by_cases ht : t = i.tasks.length
    · rw [if_pos ht, if_pos ((h.eq_length_iff t).2 ht), ha]
    · rw [if_neg ht, if_neg fun e => ht ((h.eq_length_iff t).1 e), h.tasks]
  further u x hx hu := by
    rw [getElem?_tasks_act, if_neg fun e => hu _ (e ▸ h.fresh 0)] at hx
    exact h.further u x hx hu

/-- Tasks that correspond to each other make moves that do. -/
theorem move (h : Corresponds ρ f g Further i j) {t : Nat} (ht : t < i.tasks.length)
    (ht' : ρ t < j.tasks.length) {m n : Move σ} (hnext : f n.next = g m.next)
    (hspawned : n.spawned.map f = m.spawned.map g) :
    Corresponds ρ f g Further (i.move t m) (j.move (ρ t) n) where
  injective := h.injective
  fresh d := by
    have hlength : n.spawned.toList.length = m.spawned.toList.length := by
      cases hn : n.spawned <;> cases hm : m.spawned <;> rw [hn, hm] at hspawned <;>
        first | rfl | cases hspawned
    simp only [tasks_move, List.length_append, List.length_set, Nat.add_assoc, hlength]
    exact h.fresh _
  tasks u := by
    simp only [getElem?_tasks_move ht, getElem?_tasks_move ht', h.injective.eq_iff,
      h.eq_length_iff]
    split
    · exact congrArg some hnext
    · split
      · exact hspawned
      · exact h.tasks u
  further u x hx hu := by
    rw [getElem?_tasks_move ht', if_neg fun e => hu t e.symm,
      if_neg fun e => hu _ (e ▸ h.fresh 0)] at hx
    exact h.further u x hx hu

/-- A further task makes a move that sets nothing off. -/
theorem move_further (h : Corresponds ρ f g Further i j) {u : Nat} (hu : ∀ t, ρ t ≠ u)
    (hlt : u < j.tasks.length) {m : Move σ} (hnext : Further m.next) (hspawned : m.spawned = none) :
    Corresponds ρ f g Further i (j.move u m) where
  injective := h.injective
  fresh d := by
    rw [tasks_move, hspawned, Option.toList_none, List.append_nil, List.length_set]
    exact h.fresh d
  tasks t := by
    simp only [getElem?_tasks_move hlt, if_neg (hu t), h.eq_length_iff, hspawned]
    split
    next ht =>
      rw [ht, List.getElem?_eq_none (Nat.le_refl _)]
      rfl
    · exact h.tasks t
  further v y hy hv := by
    rw [getElem?_tasks_move hlt, hspawned] at hy
    split at hy
    · cases hy
      exact hnext
    · split at hy
      · cases hy
      · exact h.further v y hy hv

end Corresponds

/-! ## The numbers in the state -/

/-- Nobody but tasks waits or holds the lock: a map that leaves the numbers of tasks alone leaves
the state alone. -/
def Numbered (i : Instance σ) : Prop :=
  ∀ ρ : Nat → Nat, ρ.Injective → (∀ t, t < i.tasks.length → ρ t = t) → i.state.recast ρ [] = i.state

theorem numbered_of_attach {a : Attachment} {platform : Platform} {capacity : Nat} {store : σ}
    {i : Instance σ} (h : attach a platform capacity store = .ok i) : i.Numbered := by
  intro ρ _ _
  rw [state_of_attach h]
  rfl

theorem Numbered.act {i : Instance σ} (h : i.Numbered) (a : HostAction) : (i.act a).Numbered := by
  intro ρ hρ hfix
  have hlength : i.tasks.length ≤ (i.act a).tasks.length := by
    rw [tasks_act, List.length_append]
    exact Nat.le_add_right _ _
  rw [state_act, ← PluginState.act_recast, h ρ hρ fun t ht => hfix t (by omega)]

theorem Numbered.step [RecordStore σ] {i j : Instance σ} {t : Nat} (h : i.Numbered)
    (hs : i.step? t = some j) : j.Numbered := by
  obtain ⟨task, m, htask, hm, rfl⟩ := step?_eq_some_iff.1 hs
  have ht := (List.getElem?_eq_some_iff.1 htask).1
  intro ρ hρ hfix
  have hlength : (i.move t m).tasks.length = i.tasks.length + m.spawned.toList.length := by
    rw [tasks_move, List.length_append, List.length_set]
  have hstate := h ρ hρ fun u hu => hfix u (by omega)
  have hrecast := Task.step?_recast (b := []) hρ i.setup t i.tasks.length i.state task
  rw [hstate, hfix t (by omega), hm] at hrecast
  -- the number for a task that is set off is new, but it comes into the state only with the task
  have hfresh : task.step? i.setup t (ρ i.tasks.length) i.state = some m := by
    cases hsp : m.spawned with
    | none => exact Task.step?_of_spawned_eq_none hm hsp _
    | some x => rw [hfix _ (by simp [hlength, hsp])]; exact hm
  rw [hfresh, Option.map_some, Option.some.injEq] at hrecast
  rw [state_move]
  exact (congrArg Move.state hrecast).symm

/-- Whatever becomes of a plugin that was attached, only numbers of tasks occur in its state. -/
theorem numbered_of_reachable [RecordStore σ] {i j : Instance σ} (hi : i.Numbered)
    (h : i.Reachable j) : j.Numbered := by
  induction h with
  | refl => exact hi
  | step _ hs ih =>
    obtain ⟨t, ht⟩ := hs
    exact ih.step ht
  | act _ a ih => exact ih.act a

end Instance

end PluginKernel
