import PluginKernel.Proofs.Instance.Turn

/-!
# Closed listeners have no effect

A listener that is closed holds no place, and no task that comes later ever looks at it again. So if
a plugin has had listeners before that are all closed by now, every task does what it would have
done without them; only the numbers of the listeners have moved on. This is `Task.step?_behind`.
-/

namespace PluginKernel

variable {σ : Type}

/-! ## Tasks and states behind other listeners -/

/-- The same serving, with a number of listeners before its own. -/
def ServeTask.behind (n : Nat) : ServeTask → ServeTask
  | greet plugin m => greet plugin (n + m)
  | wait m => wait (n + m)
  | .open m => .open (n + m)
  | serve m => serve (n + m)
  | done => done

/-- The same start, with a number of listeners before its own. -/
def StartTask.behind (n : Nat) : StartTask → StartTask
  | announce plugin m => announce plugin (n + m)
  | launch plugin m => launch plugin (n + m)
  | x => x

/-- The same stop, with a number of listeners before its own. -/
def StopTask.behind (n : Nat) : StopTask → StopTask
  | silence plugin m => silence plugin (n + m)
  | cancel plugin m => cancel plugin (n + m)
  | join plugin m => join plugin (n + m)
  | x => x

/-- The same task, with a number of listeners before its own. -/
def Task.behind (n : Nat) : Task → Task
  | start x => start (x.behind n)
  | stop x => stop (x.behind n)
  | serve x => serve (x.behind n)
  | x => x

/-- The same state, with some listeners before its own. -/
def PluginState.behind (old : List Listener) (s : PluginState σ) : PluginState σ :=
  { s with
    server := s.server.map (old.length + ·)
    listeners := old ++ s.listeners }

/-- The same move, with some listeners before its own. -/
def Move.behind (old : List Listener) (m : Move σ) : Move σ :=
  ⟨m.state.behind old, m.next.behind old.length, m.spawned.map (Task.behind old.length)⟩

variable {old : List Listener}

theorem Task.behind_ofTransition (tr : Transition) (n : Nat) :
    (ofTransition tr).behind n = ofTransition tr := by
  cases tr <;> rfl

namespace PluginState

theorem ownEndpoints_behind (hold : ∀ l ∈ old, l.closed = true) (s : PluginState σ) :
    (s.behind old).ownEndpoints = s.ownEndpoints := by
  have hnone : old.filter (!·.closed) = [] :=
    List.filter_eq_nil_iff.2 fun l hl => by simp [hold l hl]
  rw [ownEndpoints, behind, List.filter_append, hnone, List.nil_append]
  rfl

theorem heldEndpoints_behind (hold : ∀ l ∈ old, l.closed = true) (s : PluginState σ) :
    (s.behind old).heldEndpoints = s.heldEndpoints :=
  congrArg (s.occupied ++ ·) (ownEndpoints_behind hold s)

/-- The own listeners come after the old ones. -/
theorem getElem?_listeners_behind (s : PluginState σ) (n : Nat) :
    (s.behind old).listeners[old.length + n]? = s.listeners[n]? := by
  rw [behind, List.getElem?_append_right (Nat.le_add_right _ _), Nat.add_sub_cancel_left]

theorem endpointText_behind (s : PluginState σ) (n : Nat) :
    (s.behind old).endpointText (old.length + n) = s.endpointText n := by
  rw [endpointText, getElem?_listeners_behind, endpointText]

theorem setListener_behind (s : PluginState σ) (n : Nat) (f : Listener → Listener) :
    (s.behind old).setListener (old.length + n) f = (s.setListener n f).behind old := by
  have hmodify :
      (old ++ s.listeners).modify (old.length + n) f = old ++ s.listeners.modify n f := by
    refine List.ext_getElem? fun k => ?_
    rw [List.getElem?_modify, List.getElem?_append, List.getElem?_append, List.getElem?_modify]
    by_cases hk : k < old.length
    · have hother : ¬ old.length + n = k := by omega
      simp [hk, hother]
    · have hsame : old.length + n = k ↔ n = k - old.length := by omega
      simp only [hk, hsame, if_false]
  simp only [setListener, behind, hmodify]

theorem logged_behind (s : PluginState σ) (events : List LogEvent) :
    (s.behind old).logged events = (s.logged events).behind old := rfl

theorem act_behind (s : PluginState σ) (a : HostAction) :
    (s.behind old).act a = (s.act a).behind old := by
  cases a with
  | drop e => cases e <;> rfl
  | _ => rfl

end PluginState

/-! ## Turns -/

theorem ReportTask.step?_behind (setup : Setup) (t : Nat) (s : PluginState σ) (r : ReportTask) :
    r.step? setup t (s.behind old) = (r.step? setup t s).map fun p => (p.1.behind old, p.2) := by
  have hledger : (s.behind old).ledger = s.ledger := rfl
  have herrors : (s.behind old).errors = s.errors := rfl
  cases r with
  | check e =>
    simp only [step?, herrors]
    cases s.errors.hasReceiver <;> rfl
  | record e =>
    simp only [step?, hledger]
    cases s.ledger with
    | none => rfl
    | some l =>
      dsimp only
      cases l.lastMilestone? <;> rfl
  | send e =>
    simp only [step?, herrors]
    cases s.errors.send t e <;> rfl
  | wait e =>
    simp only [step?, herrors]
    cases s.errors.resume? t with
    | none => rfl
    | some p => obtain ⟨taken, q⟩ := p; cases taken <;> rfl
  | _ => rfl

theorem ServeTask.step?_behind (t : Nat) (s : PluginState σ) (x : ServeTask) :
    (x.behind old.length).step? t (s.behind old) =
      (x.step? t s).map fun p => (p.1.behind old, p.2.behind old.length) := by
  have hacks : (s.behind old).acks = s.acks := rfl
  cases x with
  | greet plugin n =>
    simp only [behind, step?, hacks]
    cases s.acks.send t ⟨plugin, .start⟩ <;> rfl
  | wait n =>
    simp only [behind, step?, hacks]
    cases s.acks.resume? t with
    | none => rfl
    | some p => obtain ⟨taken, q⟩ := p; cases taken <;> rfl
  | «open» n =>
    simp only [behind, step?, PluginState.endpointText_behind]
    rfl
  | serve n =>
    simp only [behind, step?, PluginState.getElem?_listeners_behind,
      PluginState.setListener_behind, PluginState.logged_behind]
    cases s.listeners[n]? with
    | none => rfl
    | some l => cases h : l.cancelled <;> simp [h]
  | done => rfl

theorem StartTask.step?_behind (hold : ∀ l ∈ old, l.closed = true) (setup : Setup) (t : Nat)
    (s : PluginState σ) (x : StartTask) :
    (x.behind old.length).step? setup t (s.behind old) =
      (x.step? setup t s).map (Move.behind old) := by
  cases x with
  | enter plugin =>
    have hserver : (s.behind old).server = s.server.map (old.length + ·) := rfl
    simp only [behind, step?, hserver]
    cases s.server <;> rfl
  | bind plugin =>
    have hheld := PluginState.heldEndpoints_behind hold (s.logged setup.bindEvents)
    simp only [behind, step?, PluginState.logged_behind, hheld]
    cases setup.bind (s.logged setup.bindEvents).heldEndpoints with
    | error e => rfl
    | ok place =>
      have hlength : ((s.logged setup.bindEvents).behind old).listeners.length =
          old.length + (s.logged setup.bindEvents).listeners.length := List.length_append
      simp only [Option.map_some, Move.behind, hlength]
      rw [PluginState.behind, List.append_assoc]
      rfl
  | launch plugin n =>
    simp only [behind, step?, PluginState.endpointText_behind]
    rfl
  | report r =>
    simp only [behind, step?, ReportTask.step?_behind]
    cases r.step? setup t s <;> rfl
  | _ => rfl

theorem StopTask.step?_behind (setup : Setup) (t : Nat) (s : PluginState σ) (x : StopTask) :
    (x.behind old.length).step? setup t (s.behind old) =
      (x.step? setup t s).map fun p => (p.1.behind old, p.2.behind old.length) := by
  have hacks : (s.behind old).acks = s.acks := rfl
  have hledger : (s.behind old).ledger = s.ledger := rfl
  cases x with
  | enter plugin =>
    let s' := s.logged [.info "received shutdown message from kernel" [("plugin", plugin)]]
    have hserver : (s'.behind old).server = s'.server.map (old.length + ·) := rfl
    simp only [behind, step?, PluginState.logged_behind]
    rw [hserver]
    cases s'.server <;> rfl
  | cancel plugin n =>
    simp only [behind, step?, PluginState.setListener_behind]
    rfl
  | join plugin n =>
    simp only [behind, step?, PluginState.getElem?_listeners_behind, PluginState.logged_behind]
    cases s.listeners[n]? with
    | none => rfl
    | some l => cases h : l.closed <;> simp [h]
  | record plugin =>
    simp only [behind, step?, hledger]
    cases s.ledger <;> rfl
  | emit plugin l => cases l <;> rfl
  | acknowledge plugin =>
    simp only [behind, step?, hacks]
    cases s.acks.send t ⟨plugin, .stop⟩ <;> rfl
  | wait =>
    simp only [behind, step?, hacks]
    cases s.acks.resume? t with
    | none => rfl
    | some p => obtain ⟨taken, q⟩ := p; cases taken <;> rfl
  | _ => rfl

theorem ListenTask.step?_behind (t fresh : Nat) (s : PluginState σ) (x : ListenTask) :
    x.step? t fresh (s.behind old) = (x.step? t fresh s).map (Move.behind old) := by
  have hcommands : (s.behind old).commands = s.commands := rfl
  have herrors : (s.behind old).errors = s.errors := rfl
  have hlock : (s.behind old).lock = s.lock := rfl
  cases x with
  | receive =>
    simp only [step?, hcommands]
    cases s.commands.next? with
    | none => cases hsender : s.commands.hasSender <;> simp [Move.behind, Task.behind]
    | some p =>
      obtain ⟨c, q⟩ := p
      dsimp only
      cases c.request <;> rfl
  | await tr =>
    simp only [step?, hlock]
    by_cases hmine : s.lock.holder = some t
    · rw [if_pos hmine, if_pos hmine, Option.map_some, Move.behind, Option.map_some,
        Task.behind_ofTransition]
      rfl
    · rw [if_neg hmine, if_neg hmine, Option.map_none]
  | announce plugin =>
    simp only [step?, herrors]
    cases s.errors.send t (.shuttingDown plugin) <;> rfl
  | wait =>
    simp only [step?, herrors]
    cases s.errors.resume? t with
    | none => rfl
    | some p => obtain ⟨taken, q⟩ := p; cases taken <;> rfl
  | _ => rfl

theorem KeeperTask.step?_behind [RecordStore σ] (setup : Setup) (s : PluginState σ)
    (x : KeeperTask) :
    x.step? setup (s.behind old) = (x.step? setup s).map fun p => (p.1.behind old, p.2) := by
  have houtbox : (s.behind old).outbox = s.outbox := rfl
  cases x with
  | receive =>
    simp only [step?, houtbox]
    cases s.outbox <;> rfl
  | persist filing l rest summary => cases rest <;> rfl
  | forward l => rfl

theorem CourierTask.step?_behind (t : Nat) (s : PluginState σ) (x : CourierTask) :
    x.step? t (s.behind old) = (x.step? t s).map fun p => (p.1.behind old, p.2) := by
  have hpending : (s.behind old).pending = s.pending := rfl
  have hdataflow : (s.behind old).dataflow = s.dataflow := rfl
  cases x with
  | receive =>
    simp only [step?, hpending]
    cases s.pending <;> rfl
  | send l =>
    simp only [step?, hdataflow]
    cases s.dataflow.send t l <;> rfl
  | wait =>
    simp only [step?, hdataflow]
    cases s.dataflow.resume? t <;> rfl

/-- A task does the same whatever closed listeners there are before its own. -/
theorem Task.step?_behind [RecordStore σ] (hold : ∀ l ∈ old, l.closed = true) (setup : Setup)
    (t fresh : Nat) (s : PluginState σ) (task : Task) :
    (task.behind old.length).step? setup t fresh (s.behind old) =
      (task.step? setup t fresh s).map (Move.behind old) := by
  cases task with
  | call tr => rfl
  | await tr =>
    have hlock : (s.behind old).lock = s.lock := rfl
    simp only [behind, step?, hlock]
    by_cases hmine : s.lock.holder = some t
    · rw [if_pos hmine, if_pos hmine, Option.map_some, Move.behind, Task.behind_ofTransition]
      rfl
    · rw [if_neg hmine, if_neg hmine, Option.map_none]
  | start x => exact StartTask.step?_behind hold setup t s x
  | listen x => exact ListenTask.step?_behind t fresh s x
  | stop x =>
    simp only [behind, step?, StopTask.step?_behind]
    cases x.step? setup t s <;> rfl
  | serve x =>
    simp only [behind, step?, ServeTask.step?_behind]
    cases x.step? t s <;> rfl
  | report x =>
    simp only [behind, step?, ReportTask.step?_behind]
    cases x.step? setup t s <;> rfl
  | keeper x =>
    simp only [behind, step?, KeeperTask.step?_behind]
    cases x.step? setup s <;> rfl
  | courier x =>
    simp only [behind, step?, CourierTask.step?_behind]
    cases x.step? t s <;> rfl

end PluginKernel
