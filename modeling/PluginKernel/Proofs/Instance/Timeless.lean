import PluginKernel.Proofs.Instance.Renumbering
import PluginKernel.Proofs.Ledger.Untimed

/-!
# What decides about what comes next

Most of what a plugin does depends on a part of its state only. The clock and the times in ledgers
are written down and never looked at; what is stored and what was logged is not read by any task;
the health of the services is looked at by nobody but those who ask for it. `core` leaves all this
out, of a state, of a task and of a move. `Task.step?_core` says that the cores of a task and of the
state decide about the core of its next move: whether it has to wait, what it becomes, and all that
it does but for times, store, log and health.
-/

namespace PluginKernel

variable {σ : Type}

/-! ## Queues of other messages -/

namespace Queue

variable {α β : Type}

/-- The same queue with other messages. -/
def map (f : α → β) (q : Queue α) : Queue β where
  capacity := q.capacity
  buffer := q.buffer.map f
  waiting := q.waiting.map fun p => (p.1, f p.2)
  hasReceiver := q.hasReceiver
  hasSender := q.hasSender

variable (f : α → β) (q : Queue α)

@[simp] theorem map_map {γ : Type} (g : β → γ) : (q.map f).map g = q.map (g ∘ f) := by
  simp [map, Function.comp_def]

theorem renumber_map (ρ : Nat → Nat) : (q.map f).renumber ρ = (q.renumber ρ).map f := by
  simp [map, renumber, Function.comp_def]

theorem send_map (t : Nat) (x : α) :
    (q.map f).send t (f x) =
      match q.send t x with
      | .sent q' => .sent (q'.map f)
      | .waits q' => .waits (q'.map f)
      | .refused => .refused := by
  have hreceiver : (q.map f).hasReceiver = q.hasReceiver := rfl
  have hroom : (q.map f).hasRoom = q.hasRoom := by simp [hasRoom, map]
  rw [send, send, hreceiver, hroom]
  cases q.hasReceiver with
  | false => rfl
  | true => cases q.hasRoom <;> simp [map, push]

theorem resume?_map (t : Nat) :
    (q.map f).resume? t = (q.resume? t).map fun p => (p.1, p.2.map f) := by
  have hreceiver : (q.map f).hasReceiver = q.hasReceiver := rfl
  have hwaiting : (q.map f).isWaiting t = q.isWaiting t := by
    simp [isWaiting, map, Function.comp_def]
  rw [resume?, resume?, hwaiting, hreceiver]
  cases q.isWaiting t with
  | false => rfl
  | true => cases q.hasReceiver <;> simp [map, List.filter_map, Function.comp_def]

theorem take_map (n : Nat) : (q.map f).take n = ((q.take n).1.map f, (q.take n).2.map f) := by
  simp [take, map, List.map_take, List.map_drop, Function.comp_def]

theorem read_map (n : Nat) : (q.map f).read n = (q.read n).map f := by
  have hreceiver : (q.map f).hasReceiver = q.hasReceiver := rfl
  rw [read, read, take_map, hreceiver]
  cases q.hasReceiver <;> rfl

end Queue

@[simp] theorem Statistic.untimed_comp_untimed : untimed ∘ untimed = untimed := rfl

@[simp] theorem Ledger.statistics_untimed (l : Ledger) :
    l.untimed.statistics = l.statistics.map Statistic.untimed := rfl

@[simp] theorem Ledger.untimed_untimed (l : Ledger) : l.untimed.untimed = l.untimed := by
  have hstatistics : (l.statistics.map Statistic.untimed).map Statistic.untimed =
      l.statistics.map Statistic.untimed := by
    rw [List.map_map, Statistic.untimed_comp_untimed]
  rw [untimed, untimed, hstatistics]

@[simp] theorem Ledger.untimed_comp_untimed : untimed ∘ untimed = untimed := funext untimed_untimed

/-! ## Cores -/

/-- The core of a report: its stage without times. -/
def ReportTask.core : ReportTask → ReportTask
  | emit l e => emit l.untimed e
  | r => r

/-- The core of a start. -/
def StartTask.core : StartTask → StartTask
  | settle l => settle l.untimed
  | release l => release l.untimed
  | emit l => emit l.untimed
  | report r => report r.core
  | x => x

/-- The core of a stop. -/
def StopTask.core : StopTask → StopTask
  | settle plugin l => settle plugin (l.map Ledger.untimed)
  | release plugin l => release plugin (l.map Ledger.untimed)
  | emit plugin l => emit plugin (l.map Ledger.untimed)
  | x => x

/-- The core of what keeps ledgers: what became of the entries so far is only logged. -/
def KeeperTask.core : KeeperTask → KeeperTask
  | receive => receive
  | persist filing l rest _ => persist filing l.untimed (rest.map Statistic.untimed) {}
  | forward l => forward l.untimed

/-- The core of what delivers ledgers. -/
def CourierTask.core : CourierTask → CourierTask
  | send l => send l.untimed
  | x => x

/-- The core of a task. -/
def Task.core : Task → Task
  | start x => start x.core
  | stop x => stop x.core
  | report x => report x.core
  | keeper x => keeper x.core
  | courier x => courier x.core
  | x => x

/-- The core of a state: no times, no log, no health, and a given store. -/
def PluginState.core (store : σ) (s : PluginState σ) : PluginState σ :=
  { s with
    ledger := s.ledger.map Ledger.untimed
    dataflow := s.dataflow.map Ledger.untimed
    outbox := s.outbox.map Ledger.untimed
    pending := s.pending.map Ledger.untimed
    health := .empty
    store := store
    clock := 0
    log := [] }

/-- The core of a move. -/
def Move.core (store : σ) (m : Move σ) : Move σ :=
  ⟨m.state.core store, m.next.core, m.spawned.map Task.core⟩

variable (a : σ)

namespace PluginState

@[simp] theorem core_core (s : PluginState σ) : (s.core a).core a = s.core a := by
  simp [core]

@[simp] theorem core_logged (s : PluginState σ) (events : List LogEvent) :
    (s.logged events).core a = s.core a := rfl

@[simp] theorem core_emit (s : PluginState σ) (l : Ledger) :
    (s.emit l).core a = { s.core a with outbox := (s.core a).outbox ++ [l.untimed] } := by
  simp [core, emit]

theorem core_act (s : PluginState σ) (x : HostAction) :
    ((s.core a).act x).core a = (s.act x).core a := by
  cases x with
  | drop e => cases e <;> simp [act, drop, core, Queue.dropReceiver, Queue.map]
  | readLedgers n => simp [act, core, Queue.read_map]
  | _ => simp [act, core]

end PluginState

/-! ## Turns -/

theorem ReportTask.step?_core (setup : Setup) (t : Nat) (s : PluginState σ) (r : ReportTask) :
    (r.core.step? setup t (s.core a)).map (fun p => (p.1.core a, p.2.core)) =
      (r.step? setup t s).map fun p => (p.1.core a, p.2.core) := by
  have hledger : (s.core a).ledger = s.ledger.map Ledger.untimed := rfl
  have herrors : (s.core a).errors = s.errors := rfl
  have hclock : (s.core a).clock = 0 := rfl
  cases r with
  | check e =>
    simp only [core, step?, herrors]
    cases s.errors.hasReceiver <;> simp
  | record e =>
    simp only [core, step?, hledger, hclock]
    cases s.ledger with
    | none => simp
    | some l =>
      simp only [Option.map_some, Ledger.lastMilestone?_untimed]
      cases l.lastMilestone? with
      | none => simp
      | some m => simp [PluginState.core, PluginState.logged, Ledger.untimed_record]
  | emit l e => simp [core, step?]
  | send e =>
    simp only [core, step?, herrors]
    cases s.errors.send t e <;> simp [PluginState.core, PluginState.logged]
  | wait e =>
    simp only [core, step?, herrors]
    cases s.errors.resume? t with
    | none => rfl
    | some p =>
      obtain ⟨taken, q⟩ := p
      cases taken <;> simp [PluginState.core, PluginState.logged]
  | done => rfl

theorem ServeTask.step?_core (t : Nat) (s : PluginState σ) (x : ServeTask) :
    (x.step? t (s.core a)).map (fun p => (p.1.core a, p.2)) =
      (x.step? t s).map fun p => (p.1.core a, p.2) := by
  have hacks : (s.core a).acks = s.acks := rfl
  have hlisteners : (s.core a).listeners = s.listeners := rfl
  cases x with
  | greet plugin n =>
    simp only [step?, hacks]
    cases s.acks.send t ⟨plugin, .start⟩ <;> simp [PluginState.core, PluginState.logged]
  | wait n =>
    simp only [step?, hacks]
    cases s.acks.resume? t with
    | none => rfl
    | some p =>
      obtain ⟨taken, q⟩ := p
      cases taken <;> simp [PluginState.core, PluginState.logged]
  | «open» n => simp [step?]
  | serve n =>
    simp only [step?, hlisteners]
    cases s.listeners[n]? with
    | none => rfl
    | some l =>
      cases h : l.cancelled <;>
        simp [h, PluginState.core, PluginState.logged, PluginState.setListener]
  | done => rfl

theorem StartTask.step?_core (setup : Setup) (t : Nat) (s : PluginState σ) (x : StartTask) :
    (x.core.step? setup t (s.core a)).map (Move.core a) =
      (x.step? setup t s).map (Move.core a) := by
  have hserver : (s.core a).server = s.server := rfl
  have hclock : (s.core a).clock = 0 := rfl
  have hheld : ((s.core a).logged setup.bindEvents).heldEndpoints =
      (s.logged setup.bindEvents).heldEndpoints := rfl
  cases x with
  | enter plugin =>
    simp only [core, step?, hserver]
    cases s.server <;>
      simp [Move.core, PluginState.core, PluginState.logged, PluginState.unlock]
  | bind plugin =>
    simp only [core, step?, hheld]
    cases setup.bind (s.logged setup.bindEvents).heldEndpoints <;>
      simp [Move.core, PluginState.core, PluginState.logged]
  | announce plugin n => simp [core, step?, Move.core, PluginState.core]
  | launch plugin n => simp [core, step?, Move.core, PluginState.core, PluginState.logged]
  | record plugin =>
    simp [core, step?, Move.core, Task.core, PluginState.core, PluginState.logged,
      Ledger.untimed_start]
  | settle l => simp [core, step?, Move.core, Task.core, PluginState.core]
  | release l => simp [core, step?, Move.core, Task.core, PluginState.core, PluginState.unlock]
  | emit l => simp [core, step?, Move.core]
  | fail plugin e => simp [core, step?, Move.core, PluginState.core]
  | giveUp plugin e =>
    simp [core, step?, Move.core, PluginState.core, PluginState.logged, PluginState.unlock]
  | report r =>
    have hr := congrArg
      (Option.map fun p : PluginState σ × ReportTask =>
        (⟨p.1, .start (.report p.2), none⟩ : Move σ))
      (ReportTask.step?_core a setup t s r)
    simpa only [core, step?, Option.map_map, Function.comp_def, Move.core, Task.core,
      Option.map_none] using hr
  | done => rfl

theorem StopTask.step?_core (setup : Setup) (t : Nat) (s : PluginState σ) (x : StopTask) :
    (x.core.step? setup t (s.core a)).map (fun p => (p.1.core a, p.2.core)) =
      (x.step? setup t s).map fun p => (p.1.core a, p.2.core) := by
  have hserver (events : List LogEvent) :
      ((s.core a).logged events).server = (s.logged events).server := rfl
  have hledger : (s.core a).ledger = s.ledger.map Ledger.untimed := rfl
  have hacks : (s.core a).acks = s.acks := rfl
  have hlisteners : (s.core a).listeners = s.listeners := rfl
  have hclock : (s.core a).clock = 0 := rfl
  cases x with
  | enter plugin =>
    simp only [core, step?, hserver]
    cases (s.logged [.info "received shutdown message from kernel" [("plugin", plugin)]]).server <;>
      simp [PluginState.core, PluginState.logged]
  | silence plugin n => simp [core, step?, PluginState.core]
  | cancel plugin n => simp [core, step?, PluginState.core, PluginState.setListener]
  | join plugin n =>
    simp only [core, step?, hlisteners]
    cases s.listeners[n]? with
    | none => rfl
    | some l => cases h : l.closed <;> simp [h, PluginState.core, PluginState.logged]
  | record plugin =>
    simp only [core, step?, hledger, hclock]
    cases s.ledger with
    | none => simp
    | some l => simp [PluginState.core, PluginState.logged, Ledger.untimed_record]
  | settle plugin l => simp [core, step?, PluginState.core]
  | release plugin l => simp [core, step?, PluginState.core, PluginState.unlock]
  | emit plugin l => cases l <;> simp [core, step?]
  | acknowledge plugin =>
    simp only [core, step?, hacks]
    cases s.acks.send t ⟨plugin, .stop⟩ <;> simp [PluginState.core, PluginState.logged]
  | wait =>
    simp only [core, step?, hacks]
    cases s.acks.resume? t with
    | none => rfl
    | some p =>
      obtain ⟨taken, q⟩ := p
      cases taken <;> simp [PluginState.core, PluginState.logged]
  | done => rfl

theorem ListenTask.step?_core (t fresh : Nat) (s : PluginState σ) (x : ListenTask) :
    (x.step? t fresh (s.core a)).map (Move.core a) = (x.step? t fresh s).map (Move.core a) := by
  have hcommands : (s.core a).commands = s.commands := rfl
  have herrors : (s.core a).errors = s.errors := rfl
  have hlock : (s.core a).lock = s.lock := rfl
  cases x with
  | «open» => simp [step?, Move.core]
  | receive =>
    simp only [step?, hcommands]
    cases s.commands.next? with
    | none => cases s.commands.hasSender <;> simp [Move.core]
    | some p =>
      obtain ⟨c, q⟩ := p
      dsimp only
      cases c.request <;> simp [Move.core, PluginState.core]
  | ask tr => simp [step?, Move.core, PluginState.core]
  | await tr =>
    simp only [step?, hlock]
    by_cases hmine : s.lock.holder = some t
    · simp [hmine, Move.core, PluginState.core]
    · simp [hmine]
  | announce plugin =>
    simp only [step?, herrors]
    cases s.errors.send t (.shuttingDown plugin) <;>
      simp [Move.core, PluginState.core, PluginState.logged]
  | wait =>
    simp only [step?, herrors]
    cases s.errors.resume? t with
    | none => rfl
    | some p =>
      obtain ⟨taken, q⟩ := p
      cases taken <;> simp [Move.core, PluginState.core, PluginState.logged]
  | close => simp [step?, Move.core, PluginState.core, PluginState.logged]
  | done => rfl

theorem KeeperTask.step?_core [RecordStore σ] (setup : Setup) (s : PluginState σ)
    (x : KeeperTask) :
    (x.core.step? setup (s.core a)).map (fun p => (p.1.core a, p.2.core)) =
      (x.step? setup s).map fun p => (p.1.core a, p.2.core) := by
  have houtbox : (s.core a).outbox = s.outbox.map Ledger.untimed := rfl
  cases x with
  | receive =>
    simp only [core, step?, houtbox]
    cases s.outbox with
    | nil => rfl
    | cons l rest => cases setup.filing? <;> simp [PluginState.core]
  | persist filing l rest summary =>
    cases rest <;> simp [core, step?, PluginState.core, PluginState.logged]
  | forward l => simp [core, step?, PluginState.core]

theorem CourierTask.step?_core (t : Nat) (s : PluginState σ) (x : CourierTask) :
    (x.core.step? t (s.core a)).map (fun p => (p.1.core a, p.2.core)) =
      (x.step? t s).map fun p => (p.1.core a, p.2.core) := by
  have hpending : (s.core a).pending = s.pending.map Ledger.untimed := rfl
  have hdataflow : (s.core a).dataflow = s.dataflow.map Ledger.untimed := rfl
  cases x with
  | receive =>
    simp only [core, step?, hpending]
    cases s.pending <;> simp [PluginState.core]
  | send l =>
    simp only [core, step?, hdataflow, Queue.send_map]
    cases s.dataflow.send t l <;> simp [PluginState.core]
  | wait =>
    simp only [core, step?, hdataflow, Queue.resume?_map]
    cases s.dataflow.resume? t <;> simp [PluginState.core]

/-- The cores of a task and of the state decide about the core of the next move. -/
theorem Task.step?_core [RecordStore σ] (setup : Setup) (t fresh : Nat) (s : PluginState σ)
    (task : Task) :
    (task.core.step? setup t fresh (s.core a)).map (Move.core a) =
      (task.step? setup t fresh s).map (Move.core a) := by
  -- a task that sets nothing off moves as its own step says
  have hown {α : Type} (f : α → Task) (g : α → α) (hf : ∀ x, (f x).core = f (g x))
      {o o' : Option (PluginState σ × α)}
      (h : o.map (fun p => (p.1.core a, g p.2)) = o'.map fun p => (p.1.core a, g p.2)) :
      (o.map fun p => (⟨p.1, f p.2, none⟩ : Move σ)).map (Move.core a) =
        (o'.map fun p => (⟨p.1, f p.2, none⟩ : Move σ)).map (Move.core a) := by
    have hmove := congrArg (Option.map fun p : PluginState σ × α =>
      (⟨p.1, f p.2, none⟩ : Move σ)) h
    simpa only [Option.map_map, Function.comp_def, Move.core, hf, Option.map_none] using hmove
  cases task with
  | call tr => simp [core, step?, Move.core, PluginState.core]
  | await tr =>
    have hlock : (s.core a).lock = s.lock := rfl
    simp only [core, step?, hlock]
    by_cases hmine : s.lock.holder = some t
    · simp [hmine, Move.core]
    · simp [hmine]
  | start x => exact StartTask.step?_core a setup t s x
  | listen x => exact ListenTask.step?_core a t fresh s x
  | stop x => exact hown .stop StopTask.core (fun _ => rfl) (StopTask.step?_core a setup t s x)
  | serve x => exact hown .serve id (fun _ => rfl) (ServeTask.step?_core a t s x)
  | report x =>
    exact hown .report ReportTask.core (fun _ => rfl) (ReportTask.step?_core a setup t s x)
  | keeper x =>
    exact hown .keeper KeeperTask.core (fun _ => rfl) (KeeperTask.step?_core a setup s x)
  | courier x =>
    exact hown .courier CourierTask.core (fun _ => rfl) (CourierTask.step?_core a t s x)

end PluginKernel
