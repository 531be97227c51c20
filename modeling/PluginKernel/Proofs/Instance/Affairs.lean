import PluginKernel.Proofs.Instance.Commands
import PluginKernel.Proofs.Instance.Requests
import PluginKernel.Proofs.Ledger.Untimed

/-!
# What a task will have done

The affairs of a plugin are what its host can find out about it, but for times. `Task.ahead` says
what a task will have done to them when it is done. Each of its turns does a part of that: what is
ahead after the turn makes of the affairs what was ahead before it.

Two things that tasks do to the affairs do not get in each other's way: the listener announces the
shutdown and stops listening while a stop goes on, and neither depends on how far the other has
come.
-/

namespace PluginKernel

variable {σ : Type}

/-- What a host can find out about a plugin, but for times. -/
structure Affairs where
  phase : Phase
  /-- Whether there is a server. -/
  isUp : Bool
  health : Health
  /-- The ledger of the run. -/
  ledger : Option Ledger
  /-- Whether commands are listened to. -/
  listening : Bool
  /-- The snapshots that were queued, oldest first. -/
  queued : List Ledger
  /-- The errors that were sent to the host, oldest first. -/
  told : List PluginError

/-- What the tasks of a plugin depend on besides its affairs. -/
structure Surroundings where
  setup : Setup
  /-- The places that others hold. -/
  occupied : List Endpoint
  /-- Whether the host takes errors. -/
  hears : Bool
  /-- Whether the host may send more commands. -/
  speaks : Bool
  /-- How many commands there is room for. -/
  room : Nat

namespace PluginState

/-- The affairs of a plugin that has queued some snapshots and sent some errors so far. -/
def affairs (s : PluginState σ) (queued : List Ledger) (told : List PluginError) : Affairs where
  phase := s.phase
  isUp := s.server.isSome
  health := s.health
  ledger := s.ledger.map Ledger.untimed
  listening := s.listening
  queued := queued.map Ledger.untimed
  told := told

def surroundings (s : PluginState σ) (setup : Setup) : Surroundings :=
  ⟨setup, s.occupied, s.errors.hasReceiver, s.commands.hasSender, s.commands.capacity⟩

end PluginState

namespace Affairs

/-- Queue a snapshot. -/
def queue (a : Affairs) (l : Ledger) : Affairs := { a with queued := a.queued ++ [l] }

/-- Send an error to the host. -/
def tell (a : Affairs) (e : PluginError) : Affairs := { a with told := a.told ++ [e] }

/-- Listen to commands no longer. -/
def hush (a : Affairs) : Affairs := { a with listening := false }

/-- Charge an error to the run, if there is one, and send it to the host. -/
def charge (w : Surroundings) (e : PluginError) (a : Affairs) : Affairs :=
  match a.ledger with
  | none => a.tell e
  | some l =>
    match l.lastMilestone? with
    | none => a.tell e
    | some m =>
      let l' := l.record w.setup.equipment.argosId m.failed Outcome.failureMode 0
      (queue { a with ledger := some l' } l').tell e

/-- Close the ledger of the run, if there is one, in the idle phase. -/
def close (w : Surroundings) (plugin : String) (a : Affairs) : Affairs :=
  match a.ledger with
  | none => { a with phase := .idle }
  | some l => queue { a with phase := .idle, ledger := none }
      (l.record w.setup.equipment.argosId (.shutdown plugin) Outcome.successMode 0)

/-- Open a ledger in the running phase. -/
def begin (w : Surroundings) (plugin : String) (a : Affairs) : Affairs :=
  let l := Ledger.start w.setup.equipment.argosId plugin 0
  queue { a with phase := .running, ledger := some l } l

end Affairs

open Affairs

/-! ## What is ahead of each task -/

/-- What a report will have done. -/
def ReportTask.ahead (w : Surroundings) (a : Affairs) : ReportTask → Affairs
  | check e => if w.hears then a.charge w e else a
  | record e => a.charge w e
  | emit l e => (a.queue l.untimed).tell e
  | send e => a.tell e
  | wait _ | done => a

/-- What a start will have done. -/
def StartTask.ahead (w : Surroundings) (a : Affairs) : StartTask → Affairs
  | enter plugin => if a.isUp then a else bound plugin
  | bind plugin => bound plugin
  | announce plugin _ => served plugin
  | launch plugin _ => begin w plugin { a with isUp := true }
  | record plugin => begin w plugin a
  | settle l => { a with phase := .running }.queue l.untimed
  | release l | emit l => a.queue l.untimed
  | fail _ e => (ReportTask.check e).ahead w { a with phase := .idle }
  | giveUp _ e => (ReportTask.check e).ahead w a
  | report r => r.ahead w a
  | done => a
where
  /-- A place to listen on is found, or the start fails. -/
  bound (plugin : String) : Affairs :=
    match w.setup.bind w.occupied with
    | .error e => (ReportTask.check e).ahead w { a with phase := .idle }
    | .ok _ => served plugin
  /-- The services and the server are up. -/
  served (plugin : String) : Affairs :=
    begin w plugin { a with health := a.health.serve w.setup.choices.services, isUp := true }

/-- What a stop will have done. -/
def StopTask.ahead (w : Surroundings) (a : Affairs) : StopTask → Affairs
  | enter plugin =>
    if a.isUp then close w plugin { a with isUp := false, health := a.health.shutdown }
    else close w plugin a
  | silence plugin _ => close w plugin { a with health := a.health.shutdown }
  | cancel plugin _ | join plugin _ | record plugin => close w plugin a
  | settle _ l => l.elim { a with phase := .idle } fun l =>
      { a with phase := .idle }.queue l.untimed
  | release _ l | emit _ l => l.elim a fun l => a.queue l.untimed
  | acknowledge _ | wait | done => a

/-- What a task will have done that does not listen. -/
def Task.ahead (w : Surroundings) (a : Affairs) : Task → Affairs
  | call (.start plugin) | await (.start plugin) => (StartTask.enter plugin).ahead w a
  | call (.stop plugin) | await (.stop plugin) => (StopTask.enter plugin).ahead w a
  | start x => x.ahead w a
  | stop x => x.ahead w a
  | report x => x.ahead w a
  | serve _ | listen _ | keeper _ | courier _ => a

/-! ## Turns -/

/-- The snapshot that a report queues in its next turn. -/
def ReportTask.queues? : ReportTask → Option Ledger
  | emit l _ => some l
  | _ => none

/-- The snapshot that a task queues in its next turn. -/
def Task.queues? : Task → Option Ledger
  | start (.emit l) => some l
  | stop (.emit _ l) => l
  | start (.report r) | report r => r.queues?
  | _ => none

/-- The affairs after a snapshot was queued or an error was sent. -/
def Affairs.add (a : Affairs) (queued : Option Ledger) (sent : Option PluginError) : Affairs :=
  let a := queued.elim a fun l => a.queue l.untimed
  sent.elim a a.tell

variable {setup : Setup} {t fresh : Nat} {s s' : PluginState σ} {m : Move σ} {ls : List Ledger}
  {told : List PluginError}

theorem PluginState.affairs_append (s : PluginState σ) (queued : Option Ledger)
    (sent : Option PluginError) : s.affairs (ls ++ queued.toList) (told ++ sent.toList) =
      (s.affairs ls told).add queued sent := by
  cases queued <;> cases sent <;> simp [affairs, add, queue, Affairs.tell]

/-- Where all listeners are closed, only the places of others are held. -/
theorem PluginState.Silent.bind (h : s.Silent) (setup : Setup) :
    setup.bind s.heldEndpoints = setup.bind s.occupied := by
  rw [heldEndpoints, ownEndpoints_of_silent h, List.append_nil]

theorem ReportTask.ahead_step {r r' : ReportTask} (h : r.step? setup t s = some (s', r')) :
    r'.ahead (s.surroundings setup) ((s'.affairs ls told).add r.queues? r.sentError?) =
      r.ahead (s.surroundings setup) (s.affairs ls told) := by
  cases r with
  | check e =>
    simp only [step?] at h
    split at h <;> cases h <;>
    next hhears =>
      rw [ahead, PluginState.surroundings]
      simp only [hhears]
      rfl
  | record e =>
    simp only [step?] at h
    split at h
    next hledger =>
      cases h
      have hcharge : (s.affairs ls told).charge (s.surroundings setup) e =
          (s.affairs ls told).tell e := by
        simp [charge, PluginState.affairs, hledger]
      exact hcharge.symm
    next l hledger =>
      split at h <;> cases h
      next hlast =>
        have hcharge : (s.affairs ls told).charge (s.surroundings setup) e =
            (s.affairs ls told).tell e := by
          simp [charge, PluginState.affairs, hledger, Ledger.lastMilestone?_untimed, hlast]
        exact hcharge.symm
      next m hlast =>
        simp [ahead, charge, add, queues?, sentError?, PluginState.affairs,
          PluginState.surroundings, PluginState.logged, hledger, hlast,
          Ledger.lastMilestone?_untimed, Ledger.untimed_record]
  | send e =>
    simp only [step?] at h
    split at h <;> cases h <;> rfl
  | wait e =>
    simp only [step?] at h
    split at h <;> cases h <;> rfl
  | emit l e =>
    cases h
    rfl
  | done => cases h

/-- The phase in which a start looks for a place does not last. -/
theorem StartTask.ahead.bound_phase (w : Surroundings) (a : Affairs) (phase : Phase)
    (plugin : String) : bound w { a with phase := phase } plugin = bound w a plugin := by
  rw [bound, bound]
  split <;> rfl

theorem StartTask.ahead_step {x : StartTask} (h : x.step? setup t s = some m)
    (hx : x.lockStage = .inside → x.Knows s) :
    m.next.ahead (s.surroundings setup)
        ((m.state.affairs ls told).add (Task.start x).queues? (Task.start x).sentError?) =
      x.ahead (s.surroundings setup) (s.affairs ls told) := by
  cases x with
  | enter plugin =>
    simp only [step?] at h
    split at h <;> cases h
    next hserver =>
      have hup : (s.affairs ls told).isUp = true := by simp [PluginState.affairs, hserver]
      rw [ahead, if_pos hup]
      rfl
    next hserver =>
      have hdown : ¬ (s.affairs ls told).isUp = true := by simp [PluginState.affairs, hserver]
      rw [ahead, if_neg hdown]
      exact ahead.bound_phase _ (s.affairs ls told) .starting plugin
  | bind plugin =>
    have hbind := (hx rfl).2.2.1.bind setup
    simp only [step?] at h
    split at h <;> cases h <;>
    next hplace =>
      have hbound : (s.surroundings setup).setup.bind (s.surroundings setup).occupied = _ :=
        hbind.symm.trans hplace
      rw [ahead, ahead.bound, hbound]
      rfl
  | record plugin =>
    cases h
    rw [ahead, begin, ← Ledger.untimed_start _ _ s.clock]
    rfl
  | report r =>
    simp only [step?, Option.map_eq_some_iff, Prod.exists] at h
    obtain ⟨s', r', hr, rfl⟩ := h
    exact ReportTask.ahead_step hr
  | done => cases h
  | _ =>
    cases h
    rfl

/-- The phase in which a stop waits for its server does not last. -/
theorem Affairs.close_phase (w : Surroundings) (plugin : String) (a : Affairs) (phase : Phase) :
    close w plugin { a with phase := phase } = close w plugin a := by
  rw [close, close]

theorem StopTask.ahead_step {x x' : StopTask} (h : x.step? setup t s = some (s', x')) :
    x'.ahead (s.surroundings setup) ((s'.affairs ls told).add (Task.stop x).queues? none) =
      x.ahead (s.surroundings setup) (s.affairs ls told) := by
  cases x with
  | enter plugin =>
    simp only [step?] at h
    split at h <;> cases h
    next n hserver =>
      have hup : (s.affairs ls told).isUp = true := Option.isSome_iff_exists.2 ⟨n, hserver⟩
      rw [ahead, if_pos hup]
      exact close_phase _ plugin { s.affairs ls told with isUp := false, health := _ } .stopping
    next hserver =>
      have hdown : ¬ (s.affairs ls told).isUp = true := by
        have hnone : s.server = none := hserver
        simp [PluginState.affairs, hnone]
      rw [ahead, if_neg hdown]
      rfl
  | join plugin n =>
    simp only [step?] at h
    split at h
    · cases h
    split at h <;> cases h
    rfl
  | record plugin =>
    simp only [step?] at h
    split at h <;> cases h <;>
    next hledger =>
      simp [ahead, close, add, Task.queues?, PluginState.affairs, PluginState.surroundings,
        PluginState.logged, hledger, Ledger.untimed_record]
  | emit plugin l =>
    cases l <;> cases h <;> rfl
  | acknowledge plugin =>
    simp only [step?] at h
    split at h <;> cases h <;> rfl
  | wait =>
    simp only [step?] at h
    split at h <;> cases h <;> rfl
  | done => cases h
  | _ =>
    cases h
    rfl

theorem ServeTask.affairs_step {x x' : ServeTask} (h : x.step? t s = some (s', x')) :
    s'.affairs ls told = s.affairs ls told := by
  rw [ServeTask.writes h]
  rfl

theorem KeeperTask.affairs_step [RecordStore σ] {x x' : KeeperTask}
    (h : x.step? setup s = some (s', x')) : s'.affairs ls told = s.affairs ls told := by
  rw [KeeperTask.writes h]
  rfl

theorem CourierTask.affairs_step {x x' : CourierTask} (h : x.step? t s = some (s', x')) :
    s'.affairs ls told = s.affairs ls told := by
  rw [CourierTask.writes h]
  rfl

/-- A turn of a task that does not listen does a part of what is ahead of it. -/
theorem Task.ahead_step [RecordStore σ] {task : Task} (h : task.step? setup t fresh s = some m)
    (hknows : task.lockStage = .inside → task.Knows s) (hkind : task.kind ≠ .listener) :
    m.next.ahead (s.surroundings setup)
        ((m.state.affairs ls told).add task.queues? task.sentError?) =
      task.ahead (s.surroundings setup) (s.affairs ls told) := by
  cases Task.makes h with
  | call tr => cases tr <;> rfl
  | await tr _ => cases tr <;> rfl
  | start hx => exact StartTask.ahead_step hx hknows
  | stop hx => exact StopTask.ahead_step hx
  | report hx => exact ReportTask.ahead_step hx
  | serve hx => exact ServeTask.affairs_step hx
  | keeper hx => exact KeeperTask.affairs_step hx
  | courier hx => exact CourierTask.affairs_step hx
  | listen _ => exact absurd rfl hkind

/-! ## What is queued in a turn -/

theorem ReportTask.outbox_step {r r' : ReportTask} (h : r.step? setup t s = some (s', r')) :
    s'.outbox = s.outbox ++ r.queues?.toList := by
  cases r <;> simp only [step?] at h <;> (repeat' split at h) <;> cases h <;>
    first | rfl | exact (List.append_nil _).symm

theorem StartTask.outbox_step {x : StartTask} (h : x.step? setup t s = some m) :
    m.state.outbox = s.outbox ++ (Task.start x).queues?.toList := by
  cases x with
  | report r =>
    simp only [step?, Option.map_eq_some_iff, Prod.exists] at h
    obtain ⟨s', r', hr, rfl⟩ := h
    exact ReportTask.outbox_step hr
  | emit l =>
    cases h
    rfl
  | _ =>
    simp only [step?] at h
    (repeat' split at h) <;> cases h <;> exact (List.append_nil _).symm

theorem StopTask.outbox_step {x x' : StopTask} (h : x.step? setup t s = some (s', x')) :
    s'.outbox = s.outbox ++ (Task.stop x).queues?.toList := by
  cases x with
  | emit plugin l =>
    cases l <;> cases h
    · exact (List.append_nil _).symm
    · rfl
  | _ =>
    simp only [step?] at h
    (repeat' split at h) <;> cases h <;> exact (List.append_nil _).symm

/-- What is queued in a turn; a keeper only takes from there. -/
theorem Task.queued_step [RecordStore σ] {task : Task} (h : task.step? setup t fresh s = some m) :
    m.state.outbox.drop s.outbox.length = task.queues?.toList := by
  have hsame : m.state.outbox = s.outbox → m.state.outbox.drop s.outbox.length = [] :=
    fun he => by rw [he, List.drop_length]
  cases Task.makes h with
  | call _ | await _ _ => exact hsame rfl
  | listen hx => exact hsame (by rw [ListenTask.writes hx])
  | start hx => rw [StartTask.outbox_step hx, List.drop_left]
  | stop hx => exact (congrArg _ (StopTask.outbox_step hx)).trans List.drop_left
  | report hx => exact (congrArg _ (ReportTask.outbox_step hx)).trans List.drop_left
  | serve hx => exact hsame (by rw [ServeTask.writes hx])
  | keeper hx => exact List.drop_eq_nil_of_le (KeeperTask.conveys hx).2.1
  | courier hx => exact hsame (by rw [CourierTask.writes hx])

/-! ## What does not get in the way -/

section Apart

variable (w : Surroundings) (a : Affairs) (plugin : String) (e : PluginError)

theorem Affairs.charge_hush : charge w e a.hush = (charge w e a).hush := by
  simp only [charge, hush]
  split
  · rfl
  · split <;> rfl

theorem Affairs.close_hush : close w plugin a.hush = (close w plugin a).hush := by
  simp only [close, hush]
  split <;> rfl

theorem Affairs.close_tell : close w plugin (a.tell e) = (close w plugin a).tell e := by
  simp only [close, tell]
  split <;> rfl

theorem ReportTask.ahead_hush (r : ReportTask) : r.ahead w a.hush = (r.ahead w a).hush := by
  cases r with
  | check e =>
    simp only [ahead]
    split
    · exact charge_hush w a e
    · rfl
  | record e => exact charge_hush w a e
  | _ => rfl

theorem StartTask.bound_hush : ahead.bound w a.hush plugin = (ahead.bound w a plugin).hush := by
  simp only [ahead.bound]
  split
  · exact ReportTask.ahead_hush w { a with phase := .idle } _
  · rfl

theorem StartTask.ahead_hush (x : StartTask) : x.ahead w a.hush = (x.ahead w a).hush := by
  cases x with
  | enter plugin =>
    have hsame : a.hush.isUp = a.isUp := rfl
    simp only [ahead, hsame]
    split
    · rfl
    · exact bound_hush w a plugin
  | bind plugin => exact bound_hush w a plugin
  | fail plugin e => exact ReportTask.ahead_hush w { a with phase := .idle } (.check e)
  | giveUp plugin e => exact ReportTask.ahead_hush w a (.check e)
  | report r => exact ReportTask.ahead_hush w a r
  | _ => rfl

theorem StopTask.ahead_hush (x : StopTask) : x.ahead w a.hush = (x.ahead w a).hush := by
  cases x with
  | enter plugin =>
    have hsame : a.hush.isUp = a.isUp := rfl
    simp only [ahead, hsame]
    split
    · exact close_hush w { a with isUp := false, health := a.health.shutdown } plugin
    · exact close_hush w a plugin
  | silence plugin n => exact close_hush w { a with health := a.health.shutdown } plugin
  | cancel plugin n | join plugin n | record plugin => exact close_hush w a plugin
  | settle plugin l | release plugin l | emit plugin l => cases l <;> rfl
  | _ => rfl

/-- Whatever is ahead of a task, it has nothing to do with whether commands are listened to. -/
theorem Task.ahead_hush (task : Task) : task.ahead w a.hush = (task.ahead w a).hush := by
  cases task with
  | call tr | await tr =>
    cases tr with
    | start plugin => exact StartTask.ahead_hush w a (.enter plugin)
    | stop plugin => exact StopTask.ahead_hush w a (.enter plugin)
  | start x => exact StartTask.ahead_hush w a x
  | stop x => exact StopTask.ahead_hush w a x
  | report x => exact ReportTask.ahead_hush w a x
  | _ => rfl

/-- What is ahead of a stop has nothing to do with the errors that were sent. -/
theorem StopTask.ahead_tell (x : StopTask) : x.ahead w (a.tell e) = (x.ahead w a).tell e := by
  cases x with
  | enter plugin =>
    have hsame : (a.tell e).isUp = a.isUp := rfl
    simp only [ahead, hsame]
    split
    · exact close_tell w { a with isUp := false, health := a.health.shutdown } plugin e
    · exact close_tell w a plugin e
  | silence plugin n => exact close_tell w { a with health := a.health.shutdown } plugin e
  | cancel plugin n | join plugin n | record plugin => exact close_tell w a plugin e
  | settle plugin l | release plugin l | emit plugin l => cases l <;> rfl
  | _ => rfl

end Apart

/-! ## The listener -/

namespace ListenTask

/-- The start or the stop that the listener is about to set off, if at most one command is there
that it has not taken. -/
def pending? (commands : List Command) : ListenTask → Option Transition
  | .open | receive => commands.head?.bind Command.transition?
  | ask tr | await tr => some tr
  | announce _ | wait | close | done => none

/-- What the listener will have done if there is nothing more for it to set off. -/
def closing (w : Surroundings) (a : Affairs) : ListenTask → Affairs
  | .open | receive | ask _ | await _ => if w.speaks then a else a.hush
  | announce plugin => (a.tell (.shuttingDown plugin)).hush
  | wait | close => a.hush
  | done => a

/-- What the listener will have done, with the task that it is about to set off. -/
def ahead (w : Surroundings) (commands : List Command) (a : Affairs) (y : ListenTask) : Affairs :=
  match y.pending? commands with
  | none => y.closing w a
  | some tr => (after tr).closing w ((Task.ofTransition tr).ahead w a)

/-- What the listener does in its next turn. -/
def does (a : Affairs) : ListenTask → Affairs
  | announce plugin => a.tell (.shuttingDown plugin)
  | close => a.hush
  | _ => a

end ListenTask

/-- The listener is at a stage, and at most one command is there that it has not taken. -/
structure PluginState.Ear (s : PluginState σ) (y : ListenTask) : Prop where
  idle : s.commands.waiting = []
  few : s.commands.contents.length ≤ 1
  taken : s.commands.contents ≠ [] → y = .open ∨ y = .receive
  listening : s.listening = true ↔ y ≠ .done
  hasReceiver : s.commands.hasReceiver = true ↔ y ≠ .done

namespace PluginState.Ear

variable {y y' : ListenTask}

theorem contents_eq_nil (h : s.Ear y) (hy : y ≠ .open ∧ y ≠ .receive) :
    s.commands.contents = [] := by
  by_contra hne
  exact (h.taken hne).elim hy.1 hy.2

theorem congr (h : s.Ear y) (hcommands : s'.commands = s.commands)
    (hlistening : s'.listening = s.listening) : s'.Ear y := by
  obtain ⟨hidle, hfew, htaken, hlistens, hreceiver⟩ := h
  rw [← hcommands] at hidle hfew htaken hreceiver
  exact ⟨hidle, hfew, htaken, hlistening ▸ hlistens, hreceiver⟩

/-- The listener goes on to another stage at which it listens. -/
theorem next (h : s.Ear y) (hcommands : s'.commands = s.commands)
    (hlistening : s'.listening = s.listening) (hopen : y ≠ .done ∧ y' ≠ .done)
    (htaken : s.commands.contents ≠ [] → y' = .open ∨ y' = .receive) : s'.Ear y' := by
  obtain ⟨hidle, hfew, -, hlistens, hreceiver⟩ := h.congr hcommands hlistening
  rw [← hcommands] at htaken
  exact ⟨hidle, hfew, htaken, hlistens.trans (iff_of_true hopen.1 hopen.2),
    hreceiver.trans (iff_of_true hopen.1 hopen.2)⟩

/-- Once the listener has taken a command, no other is left. -/
theorem of_next? (h : s.Ear .receive) {c : Command} {q : Queue Command}
    (hq : s.commands.next? = some (c, q)) : s.commands.contents = [c] ∧ q.contents = [] := by
  have hcontents := Queue.contents_of_next? hq
  have hnil : q.contents = [] := by
    have hfew := h.few
    rw [hcontents, List.length_cons] at hfew
    exact List.length_eq_zero_iff.1 (Nat.le_zero.1 (Nat.le_of_succ_le_succ hfew))
  exact ⟨hnil ▸ hcontents, hnil⟩

theorem take (h : s.Ear .receive) {c : Command} {q : Queue Command}
    (hq : s.commands.next? = some (c, q)) (hy : y ≠ .done) :
    ({ s with commands := q } : PluginState σ).Ear y := by
  obtain ⟨-, hnil⟩ := h.of_next? hq
  obtain ⟨hreceiver, -, hidle⟩ := Queue.ends_next? hq
  refine ⟨hidle h.idle, by rw [hnil]; exact Nat.zero_le _, fun hne => absurd hnil hne, ?_, ?_⟩
  · exact h.listening.trans (iff_of_true (by simp) hy)
  · rw [hreceiver]
    exact h.hasReceiver.trans (iff_of_true (by simp) hy)

end PluginState.Ear

namespace ListenTask

variable {y : ListenTask}

/-- The listener takes a command, and sets off what it asks for, if anything, next. -/
theorem step?_receive {c : Command} {q : Queue Command} (hq : s.commands.next? = some (c, q)) :
    receive.step? t fresh s =
      some ⟨{ s with commands := q }, .listen (c.transition?.elim receive ask), none⟩ := by
  simp only [step?, hq, Command.transition?]
  cases c.request <;> rfl

theorem ear_step (h : y.step? t fresh s = some m) (hear : s.Ear y) :
    ∃ y', m.next = .listen y' ∧ m.state.Ear y' := by
  cases y with
  | receive =>
    cases hnext : s.commands.next? with
    | none =>
      simp only [step?, hnext] at h
      split at h <;> cases h
      exact ⟨_, rfl, hear.next rfl rfl (by simp)
        fun hne => absurd (Queue.contents_of_next?_eq_none hnext hear.idle) hne⟩
    | some p =>
      obtain ⟨c, q⟩ := p
      rw [step?_receive hnext] at h
      cases h
      exact ⟨_, rfl, hear.take hnext (by cases c.transition? <;> simp)⟩
  | close =>
    cases h
    have hidle : s.commands.dropReceiver.contents = [] := by
      simp [Queue.dropReceiver, Queue.contents, hear.idle]
    refine ⟨_, rfl, hear.idle, by simp [hidle], fun hne => absurd hidle hne, ?_, ?_⟩
    · exact iff_of_false Bool.false_ne_true (by simp)
    · exact iff_of_false Bool.false_ne_true (by simp)
  | await tr =>
    have hempty := hear.contents_eq_nil (by simp)
    simp only [step?] at h
    split at h <;> cases h
    cases tr <;>
      exact ⟨_, rfl, hear.next rfl rfl (by simp [after]) fun hne => absurd hempty hne⟩
  | «open» =>
    cases h
    exact ⟨_, rfl, hear.next rfl rfl (by simp) fun _ => .inr rfl⟩
  | ask tr | announce plugin | wait =>
    have hempty := hear.contents_eq_nil (by simp)
    simp only [step?] at h
    (repeat' split at h) <;> cases h <;>
      exact ⟨_, rfl, hear.next rfl rfl (by simp) fun hne => absurd hempty hne⟩
  | done => cases h

/-- What the listener does in a turn. -/
theorem affairs_step (h : y.step? t fresh s = some m) :
    (m.state.affairs ls told).add none (Task.listen y).sentError? = y.does (s.affairs ls told) := by
  cases y with
  | done => cases h
  | _ =>
    simp only [step?] at h
    (repeat' split at h) <;> cases h <;> rfl

/-- As long as the listener sets off nothing, it is about to set off the same. -/
theorem pending?_step {y' : ListenTask} (h : y.step? t fresh s = some m) (hear : s.Ear y)
    (hnext : m.next = .listen y') (hspawned : m.spawned = none) :
    y'.pending? m.state.commands.contents = y.pending? s.commands.contents := by
  cases y with
  | receive =>
    cases hn : s.commands.next? with
    | none =>
      have hempty := Queue.contents_of_next?_eq_none hn hear.idle
      simp only [step?, hn] at h
      split at h <;> cases h
      cases hnext
      rw [hempty]
      rfl
    | some p =>
      obtain ⟨c, q⟩ := p
      obtain ⟨hone, hempty⟩ := hear.of_next? hn
      rw [step?_receive hn] at h
      cases h
      cases hnext
      cases htr : c.transition? <;> simp [pending?, hone, hempty, htr]
  | await tr =>
    simp only [step?] at h
    split at h <;> cases h
    cases hspawned
  | done => cases h
  | _ =>
    simp only [step?] at h
    (repeat' split at h) <;> cases h <;> cases hnext <;> rfl

/-- As long as the listener sets off nothing, it does not come to announce a shutdown. -/
theorem next_ne_announce {plugin : String} (h : y.step? t fresh s = some m)
    (hspawned : m.spawned = none) : m.next ≠ .listen (announce plugin) := by
  cases y with
  | await tr =>
    simp only [step?] at h
    split at h <;> cases h
    cases hspawned
  | _ =>
    simp only [step?] at h
    (repeat' split at h) <;> cases h <;> simp

/-- A turn in which the listener sets off nothing is a part of what is ahead of it. -/
theorem ahead_step {y' : ListenTask} (h : y.step? t fresh s = some m) (hear : s.Ear y)
    (hnext : m.next = .listen y') (hspawned : m.spawned = none) (a : Affairs) :
    y'.ahead (s.surroundings setup) m.state.commands.contents (y.does a) =
      y.ahead (s.surroundings setup) s.commands.contents a := by
  rw [ahead, ahead, pending?_step h hear hnext hspawned]
  cases y with
  | receive =>
    cases hn : s.commands.next? with
    | none =>
      have hempty := Queue.contents_of_next?_eq_none hn hear.idle
      simp only [step?, hn] at h
      split at h <;> cases h
      next hsender =>
        cases hnext
        simp [pending?, closing, does, hempty, PluginState.surroundings, hsender]
    | some p =>
      obtain ⟨c, q⟩ := p
      rw [step?_receive hn] at h
      cases h
      cases hnext
      cases htr : c.transition? with
      | none => rfl
      | some tr => simp [pending?, (hear.of_next? hn).1, htr, does]
  | await tr =>
    simp only [step?] at h
    split at h <;> cases h
    cases hspawned
  | done => cases h
  | _ =>
    simp only [step?] at h
    (repeat' split at h) <;> cases h <;> cases hnext <;> rfl

/-- A turn in which the listener sets something off leaves what is ahead to the new task. -/
theorem of_spawned {x : Task} (h : y.step? t fresh s = some m) (hspawned : m.spawned = some x) :
    ∃ tr, y = await tr ∧ x = .ofTransition tr ∧ m.next = .listen (after tr) ∧
      m.state.commands = s.commands := by
  cases y with
  | await tr =>
    simp only [step?] at h
    split at h <;> cases h
    cases hspawned
    exact ⟨tr, rfl, rfl, rfl, rfl⟩
  | _ =>
    simp only [step?] at h
    (repeat' split at h) <;> cases h <;> cases hspawned

theorem ahead_after (w : Surroundings) (tr : Transition) (a : Affairs) :
    (after tr).ahead w [] ((Task.ofTransition tr).ahead w a) = (await tr).ahead w [] a := by
  cases tr <;> rfl

end ListenTask

/-! ## Surroundings -/

theorem ListenTask.ends_step {y : ListenTask} (h : y.step? t fresh s = some m) :
    m.state.commands.hasSender = s.commands.hasSender ∧
      m.state.commands.capacity = s.commands.capacity := by
  cases y with
  | receive =>
    cases hn : s.commands.next? with
    | none =>
      simp only [step?, hn] at h
      split at h <;> cases h
      exact ⟨rfl, rfl⟩
    | some p =>
      obtain ⟨c, q⟩ := p
      rw [step?_receive hn] at h
      cases h
      unfold Queue.next? at hn
      split at hn <;> cases hn
      exact ⟨rfl, rfl⟩
  | done => cases h
  | _ =>
    simp only [step?] at h
    (repeat' split at h) <;> cases h <;> exact ⟨rfl, rfl⟩

theorem Task.occupied_step [RecordStore σ] {task : Task}
    (h : task.step? setup t fresh s = some m) : m.state.occupied = s.occupied := by
  cases Task.makes h with
  | call _ | await _ _ => rfl
  | start hx => rw [StartTask.writes hx]
  | stop hx => rw [StopTask.writes hx]
  | serve hx => rw [ServeTask.writes hx]
  | report hx => rw [ReportTask.writes hx]
  | listen hx => rw [ListenTask.writes hx]
  | keeper hx => rw [KeeperTask.writes hx]
  | courier hx => rw [CourierTask.writes hx]

/-- Tasks leave the surroundings of a plugin alone. -/
theorem Task.surroundings_step [RecordStore σ] {task : Task}
    (h : task.step? setup t fresh s = some m) :
    m.state.surroundings setup = s.surroundings setup := by
  have hends : m.state.commands.hasSender = s.commands.hasSender ∧
      m.state.commands.capacity = s.commands.capacity := by
    by_cases hkind : task.kind = .listener
    · cases task with
      | listen y => exact ListenTask.ends_step h
      | _ => cases hkind
    · rw [(Task.leaves_commands h hkind).1]
      exact ⟨rfl, rfl⟩
  rw [PluginState.surroundings, PluginState.surroundings, Task.occupied_step h, hends.1, hends.2,
    Queue.hasReceiver_takes (Task.errors_takes h)]

end PluginKernel
