import PluginKernel.Proofs.Instance.Attaching
import PluginKernel.Proofs.Instance.Commands
import PluginKernel.Proofs.Instance.Course
import PluginKernel.Proofs.Instance.Footprint
import PluginKernel.Proofs.Ledger.GrowingSnapshots
import PluginKernel.Proofs.PlainLog

/-!
# Plain lines from a whole run

A name in a command or a call, the identifier, the host to listen on, the place where statistics are
kept and the wording of an error reach the log as they are: starting, stopping and reporting do not
sanitize them, and neither does a ledger. So one line break in any of them can begin a new line. The
wording of an error includes what others say of a document, a certificate, a key or a place that
they refuse, and the reader of documents may repeat what is in the document.

Nothing else can begin a line: as long as these texts are plain, so is all that is logged, whatever
else a host hands over, sends and does, and in whatever order the tasks take their turns.
-/

namespace PluginKernel

open Text

variable {σ : Type}

/-! ## What comes from outside -/

theorem Setup.IsPlain.filing? {setup : Setup} (h : setup.IsPlain) {filing : Filing}
    (hfiling : setup.filing? = some filing) : filing.IsPlain := by
  obtain ⟨place, hplace, rfl⟩ := Option.map_eq_some_iff.1 hfiling
  obtain ⟨hbase, hname⟩ := h.filingPlace place hplace
  exact ⟨hbase, hname, h.argosId⟩

/-- The plugin that is to be started or stopped has a plain name. -/
def Transition.IsPlain : Transition → Prop
  | start plugin | stop plugin => Text.IsPlain plugin

/-- A command that starts or stops a plugin names it plainly. -/
def Command.IsPlain (c : Command) : Prop :=
  c.request = .start ∨ c.request = .stop → Text.IsPlain c.plugin

/-- What a host says is plain where it is logged as it is. -/
def HostAction.IsPlain : HostAction → Prop
  | command c => c.IsPlain
  | call tr => tr.IsPlain
  | report e => Text.IsPlain e.message
  | _ => True

/-! ## The tasks -/

def ReportTask.IsPlain : ReportTask → Prop
  | check e => Text.IsPlain e.message
  | emit l _ => l.IsPlain
  | _ => True

def StartTask.IsPlain : StartTask → Prop
  | enter plugin | bind plugin | announce plugin _ | launch plugin _ | record plugin =>
    Text.IsPlain plugin
  | settle l | release l | emit l => l.IsPlain
  | fail plugin e | giveUp plugin e => Text.IsPlain plugin ∧ Text.IsPlain e.message
  | report r => r.IsPlain
  | done => True

def StopTask.IsPlain : StopTask → Prop
  | enter plugin | silence plugin _ | cancel plugin _ | join plugin _ | record plugin =>
    Text.IsPlain plugin
  | settle _ l | release _ l | emit _ l => ∀ l' ∈ l, l'.IsPlain
  | _ => True

def ListenTask.IsPlain : ListenTask → Prop
  | ask tr | await tr => tr.IsPlain
  | _ => True

def KeeperTask.IsPlain : KeeperTask → Prop
  | persist filing _ rest _ => filing.IsPlain ∧ ∀ s ∈ rest, s.IsPlain
  | _ => True

/-- What a task carries and may yet log is plain. -/
def Task.IsPlain : Task → Prop
  | call tr | await tr => tr.IsPlain
  | start x => x.IsPlain
  | stop x => x.IsPlain
  | report x => x.IsPlain
  | listen x => x.IsPlain
  | keeper x => x.IsPlain
  | serve _ | courier _ => True

theorem Task.isPlain_ofTransition {tr : Transition} (h : tr.IsPlain) :
    (ofTransition tr).IsPlain := by
  cases tr <;> exact h

/-- What was logged is plain, and so is what may yet be. -/
structure PluginState.IsPlain (s : PluginState σ) : Prop where
  log : PlainEvents s.log
  commands : ∀ c ∈ s.commands.contents, c.IsPlain
  ledger : ∀ l ∈ s.ledger, l.IsPlain
  outbox : ∀ l ∈ s.outbox, l.IsPlain

namespace PluginState

variable {s : PluginState σ}

/-- Plainness is about what a state logged and what it may yet log, and about nothing else. -/
theorem IsPlain.frame {s' : PluginState σ} (hs : s.IsPlain)
    (h : (s'.log, s'.commands.contents, s'.ledger, s'.outbox) =
      (s.log, s.commands.contents, s.ledger, s.outbox)) : s'.IsPlain := by
  simp only [Prod.mk.injEq] at h
  obtain ⟨hlog, hcommands, hledger, houtbox⟩ := h
  exact ⟨hlog ▸ hs.log, hcommands ▸ hs.commands, hledger ▸ hs.ledger, houtbox ▸ hs.outbox⟩

theorem IsPlain.logged (hs : s.IsPlain) {es : List LogEvent} (h : PlainEvents es) :
    (s.logged es).IsPlain :=
  ⟨hs.log.append h, hs.commands, hs.ledger, hs.outbox⟩

theorem IsPlain.emit (hs : s.IsPlain) {l : Ledger} (h : l.IsPlain) : (s.emit l).IsPlain :=
  ⟨hs.log, hs.commands, hs.ledger,
    List.forall_mem_append.2 ⟨hs.outbox, List.forall_mem_singleton.2 h⟩⟩

end PluginState

namespace LogEvent.IsPlain

variable {severity : Severity} {message a b x y : String}

theorem of_message (h : Text.IsPlain message) : LogEvent.IsPlain ⟨severity, message, []⟩ :=
  ⟨h, fun _ hf => nomatch hf⟩

theorem single (h : Text.IsPlain message) (hx : Text.IsPlain x) :
    LogEvent.IsPlain ⟨severity, message, [(a, x)]⟩ :=
  ⟨h, List.forall_mem_singleton.2 hx⟩

theorem pair (h : Text.IsPlain message) (hx : Text.IsPlain x) (hy : Text.IsPlain y) :
    LogEvent.IsPlain ⟨severity, message, [(a, x), (b, y)]⟩ :=
  ⟨h, List.forall_mem_cons.2 ⟨hx, List.forall_mem_singleton.2 hy⟩⟩

end LogEvent.IsPlain

theorem Endpoint.isPlain_text (e : Endpoint) : Text.IsPlain e.text := by
  refine .append (.append ?_ (by decide)) (isPlain_showInt _)
  have hfigures : ∀ n : UInt8, Text.IsPlain (showInt n.toNat) := fun n => isPlain_showInt _
  exact .append (.append (.append (.append (.append (.append (hfigures _) (by decide)) (hfigures _))
    (by decide)) (hfigures _)) (by decide)) (hfigures _)

theorem PluginState.isPlain_endpointText (s : PluginState σ) (n : Nat) :
    Text.IsPlain (s.endpointText n) := by
  rw [endpointText]
  split
  · exact Endpoint.isPlain_text _
  · decide

variable {setup : Setup} {t fresh : Nat} {s s' : PluginState σ} {m : Move σ}

theorem ReportTask.plain_step {r r' : ReportTask} (hsetup : setup.IsPlain) (hs : s.IsPlain)
    (hr : r.IsPlain) (h : r.step? setup t s = some (s', r')) : s'.IsPlain ∧ r'.IsPlain := by
  have hrefused : ∀ e, PlainEvents (step?.refusedEvents e) := fun e =>
    .singleton (LogEvent.IsPlain.single (by decide) (isPlain_sanitize _))
  cases r with
  | check e =>
    simp only [step?] at h
    split at h <;> cases h
    · exact ⟨hs, trivial⟩
    · exact ⟨hs.logged (.singleton (LogEvent.IsPlain.single (by decide) hr)), trivial⟩
  | record e =>
    simp only [step?] at h
    split at h
    · cases h
      exact ⟨hs, trivial⟩
    next l hl =>
    split at h <;> cases h
    · exact ⟨hs.logged (.singleton (LogEvent.IsPlain.single (by decide) (by decide))), trivial⟩
    next m hm =>
    have hledger : l.IsPlain := hs.ledger l hl
    have hfailed := Milestone.isPlain_failed (hledger.lastMilestone? hm)
    have hrecord := hledger.record hsetup.argosId hfailed Outcome.failureMode s.clock
    have hlogged := hs.logged (hledger.recordEvents hsetup.argosId hfailed Outcome.failureMode
      s.clock)
    exact ⟨⟨hlogged.log, hs.commands, fun l' hl' => by cases hl'; exact hrecord, hs.outbox⟩,
      hrecord⟩
  | emit l e =>
    simp only [step?] at h
    cases h
    have hevent : PlainEvents [.info "sending failed dataflow statistic to kernel"
        [("ledger", l.name)]] := .singleton (LogEvent.IsPlain.single (by decide) hr.name)
    exact ⟨(hs.logged hevent).emit hr, trivial⟩
  | send e =>
    simp only [step?] at h
    split at h <;> cases h
    · exact ⟨hs.frame rfl, trivial⟩
    · exact ⟨hs.frame rfl, trivial⟩
    · exact ⟨hs.logged (hrefused e), trivial⟩
  | wait e =>
    simp only [step?] at h
    split at h <;> cases h
    · exact ⟨hs.frame rfl, trivial⟩
    · have hlogged := hs.logged (hrefused e)
      exact ⟨hlogged.frame rfl, trivial⟩
  | done => cases h

theorem ServeTask.plain_step {x x' : ServeTask} (hs : s.IsPlain)
    (h : x.step? t s = some (s', x')) : s'.IsPlain := by
  have hrefused : PlainEvents [unacknowledged] := .singleton (.of_message (by decide))
  cases x with
  | greet plugin n =>
    simp only [step?] at h
    split at h <;> cases h
    · exact hs.frame rfl
    · exact hs.frame rfl
    · exact hs.logged hrefused
  | wait n =>
    simp only [step?] at h
    split at h <;> cases h
    · exact hs.frame rfl
    · have hlogged := hs.logged hrefused
      exact hlogged.frame rfl
  | «open» n =>
    simp only [step?] at h
    cases h
    exact hs.logged (.singleton (.single (by decide) (s.isPlain_endpointText n)))
  | serve n =>
    simp only [step?] at h
    split at h
    · cases h
    split at h <;> cases h
    have hclosed : (s.setListener n fun l => { l with closed := true }).IsPlain :=
      hs.frame rfl
    exact hclosed.logged (.singleton (.single (by decide) (Endpoint.isPlain_text _)))
  | done => cases h

theorem StopTask.plain_step {x x' : StopTask} (hsetup : setup.IsPlain) (hs : s.IsPlain)
    (hx : x.IsPlain) (h : x.step? setup t s = some (s', x')) : s'.IsPlain ∧ x'.IsPlain := by
  have hrefused : PlainEvents [unacknowledged] := .singleton (.of_message (by decide))
  cases x with
  | enter plugin =>
    have hreceived := hs.logged (.singleton (LogEvent.IsPlain.single (by decide) hx) :
      PlainEvents [.info "received shutdown message from kernel" [("plugin", plugin)]])
    simp only [step?] at h
    split at h <;> cases h
    · have hlogged := hreceived.logged (.singleton (.of_message (by decide)) :
        PlainEvents [.info "stopping server"])
      exact ⟨hlogged.frame rfl, hx⟩
    · exact ⟨hreceived.logged (.singleton (.of_message (by decide))), hx⟩
  | silence plugin n =>
    cases h
    exact ⟨hs.frame rfl, hx⟩
  | cancel plugin n =>
    cases h
    exact ⟨hs.frame rfl, hx⟩
  | join plugin n =>
    simp only [step?] at h
    split at h
    · cases h
    split at h <;> cases h
    exact ⟨hs.logged (.singleton (.of_message (by decide))), hx⟩
  | record plugin =>
    simp only [step?] at h
    split at h <;> cases h
    · exact ⟨hs, fun _ hl => by cases hl⟩
    next l hl =>
    have hledger : l.IsPlain := hs.ledger l hl
    have hshutdown := Milestone.isPlain_shutdown hx
    have hlogged := hs.logged (hledger.recordEvents hsetup.argosId hshutdown Outcome.successMode
      s.clock)
    refine ⟨⟨hlogged.log, hs.commands, fun _ hl => (by cases hl), hs.outbox⟩, fun l' hl' => ?_⟩
    cases hl'
    exact hledger.record hsetup.argosId hshutdown _ _
  | settle plugin l =>
    cases h
    exact ⟨hs.frame rfl, hx⟩
  | release plugin l =>
    cases h
    exact ⟨hs.frame rfl, hx⟩
  | emit plugin l =>
    cases l with
    | none =>
      cases h
      exact ⟨hs, trivial⟩
    | some l =>
      cases h
      exact ⟨hs.emit (hx l rfl), trivial⟩
  | acknowledge plugin =>
    simp only [step?] at h
    split at h <;> cases h
    · exact ⟨hs.frame rfl, trivial⟩
    · exact ⟨hs.frame rfl, trivial⟩
    · exact ⟨hs.logged hrefused, trivial⟩
  | wait =>
    simp only [step?] at h
    split at h <;> cases h
    · exact ⟨hs.frame rfl, trivial⟩
    · have hlogged := hs.logged hrefused
      exact ⟨hlogged.frame rfl, trivial⟩
  | done => cases h

/-- A move leaves plain what it touches. -/
structure Move.IsPlain (m : Move σ) : Prop where
  state : m.state.IsPlain
  next : m.next.IsPlain
  spawned : ∀ task ∈ m.spawned, task.IsPlain

/-- A move that spawns no task. -/
theorem Move.IsPlain.alone {next : Task} (hs : s.IsPlain) (hnext : next.IsPlain) :
    Move.IsPlain ⟨s, next, none⟩ :=
  ⟨hs, hnext, fun _ h => nomatch h⟩

theorem StartTask.plain_step {x : StartTask} (hsetup : setup.IsPlain) (hs : s.IsPlain)
    (hx : x.IsPlain) (h : x.step? setup t s = some m) : m.IsPlain := by
  cases x with
  | enter plugin =>
    simp only [step?] at h
    split at h <;> cases h
    · have hlogged := hs.logged (.singleton (LogEvent.IsPlain.single (by decide) hx) :
        PlainEvents [.info "already running, ignoring start" [("plugin", plugin)]])
      exact .alone (hlogged.frame rfl) trivial
    · exact .alone (hs.frame rfl) hx
  | bind plugin =>
    have hevents : PlainEvents setup.bindEvents := by
      rw [Setup.bindEvents]
      split
      · next e he =>
        exact .singleton (.single (by decide) (Setup.failsPlainly_config hsetup e he))
      · exact .nil
    have hlogged := hs.logged hevents
    simp only [step?] at h
    split at h <;> cases h
    · next e he =>
      exact .alone hlogged ⟨hx, Setup.failsPlainly_bind hsetup _ e he⟩
    · exact .alone (hlogged.frame rfl) hx
  | announce plugin n =>
    cases h
    exact .alone (hs.frame rfl) hx
  | launch plugin n =>
    cases h
    have hlogged := hs.logged (.singleton (LogEvent.IsPlain.pair (by decide) hx
      (s.isPlain_endpointText n)) :
        PlainEvents [.info "server listening" [("plugin", plugin), ("addr", s.endpointText n)]])
    refine ⟨hlogged.frame rfl, hx, fun y hy => ?_⟩
    cases hy
    trivial
  | record plugin =>
    cases h
    have hnew := Ledger.isPlain_new hsetup.argosId false s.clock
    have hstart := Milestone.isPlain_startUp hx
    have hrecord := hnew.record hsetup.argosId hstart Outcome.successMode s.clock
    have hlogged := hs.logged (hnew.recordEvents hsetup.argosId hstart Outcome.successMode s.clock)
    refine ⟨⟨hlogged.log, hs.commands, fun l hl => ?_, hs.outbox⟩, hrecord, fun _ hy => by cases hy⟩
    cases hl
    exact hrecord
  | settle l =>
    cases h
    exact .alone (hs.frame rfl) hx
  | release l =>
    cases h
    exact .alone (hs.frame rfl) hx
  | emit l =>
    cases h
    exact .alone (hs.emit hx) trivial
  | fail plugin e =>
    cases h
    exact .alone (hs.frame rfl) hx
  | giveUp plugin e =>
    cases h
    have hlogged := hs.logged (.singleton (LogEvent.IsPlain.pair (by decide) hx.1 hx.2) :
      PlainEvents [.warn "failed to start server" [("plugin", plugin), ("error", e.message)]])
    exact .alone (hlogged.frame rfl) hx.2
  | report r =>
    simp only [step?, Option.map_eq_some_iff, Prod.exists] at h
    obtain ⟨s', r', hr, rfl⟩ := h
    obtain ⟨hs', hr'⟩ := ReportTask.plain_step hsetup hs hx hr
    exact .alone hs' hr'
  | done => cases h

theorem ListenTask.plain_step {x : ListenTask} (hs : s.IsPlain) (hx : x.IsPlain)
    (h : x.step? t fresh s = some m) : m.IsPlain := by
  have hrefused : PlainEvents [unannounced] := .singleton (.of_message (by decide))
  cases x with
  | «open» =>
    cases h
    exact .alone (hs.logged (.singleton (.of_message (by decide)))) trivial
  | receive =>
    simp only [step?] at h
    split at h
    · split at h <;> cases h
      exact .alone hs trivial
    next c q hnext =>
    have hcontents := Queue.contents_of_next? hnext
    have hcommands := hs.commands
    rw [hcontents] at hcommands
    obtain ⟨hc, hq⟩ := List.forall_mem_cons.1 hcommands
    have hstate : ({ s with commands := q } : PluginState σ).IsPlain :=
      ⟨hs.log, hq, hs.ledger, hs.outbox⟩
    split at h <;> cases h
    · next hrequest => exact .alone hstate (hc (.inl hrequest))
    · next hrequest => exact .alone hstate (hc (.inr hrequest))
    · exact .alone hstate trivial
    · exact .alone hstate trivial
  | ask tr =>
    cases h
    exact .alone (hs.frame rfl) hx
  | await tr =>
    simp only [step?] at h
    split at h <;> cases h
    refine ⟨hs.frame rfl, ?_, fun y hy => ?_⟩
    · cases tr <;> trivial
    · cases hy
      exact Task.isPlain_ofTransition hx
  | announce plugin =>
    simp only [step?] at h
    split at h <;> cases h
    · exact .alone (hs.frame rfl) trivial
    · exact .alone (hs.frame rfl) trivial
    · exact .alone (hs.logged hrefused) trivial
  | wait =>
    simp only [step?] at h
    split at h <;> cases h
    · exact .alone (hs.frame rfl) trivial
    · have hlogged := hs.logged hrefused
      exact .alone (hlogged.frame rfl) trivial
  | close =>
    cases h
    have hlogged := hs.logged (.singleton (.of_message (by decide)) :
      PlainEvents [.info "command receiver terminated"])
    refine ⟨⟨hlogged.log, fun c hc => ?_, hs.ledger, hs.outbox⟩, trivial, fun _ hy => by cases hy⟩
    exact hs.commands c (List.mem_append_right _ hc)
  | done => cases h

theorem KeeperTask.plain_step [RecordStore σ] [PlainStore σ] {x x' : KeeperTask}
    (hsetup : setup.IsPlain) (hs : s.IsPlain) (hx : x.IsPlain)
    (h : x.step? setup s = some (s', x')) : s'.IsPlain ∧ x'.IsPlain := by
  cases x with
  | receive =>
    simp only [step?] at h
    split at h
    · cases h
    next l rest houtbox =>
    cases h
    have houtbox' := hs.outbox
    rw [houtbox] at houtbox'
    obtain ⟨hl, hrest⟩ := List.forall_mem_cons.1 houtbox'
    refine ⟨⟨hs.log, hs.commands, hs.ledger, hrest⟩, ?_⟩
    split
    · next filing hfiling => exact ⟨hsetup.filing? hfiling, hl.statistics⟩
    · trivial
  | persist filing l rest summary =>
    cases rest with
    | nil =>
      cases h
      refine ⟨hs.logged ?_, trivial⟩
      split
      · exact .singleton (.pair (by decide) (isPlain_showInt _) (isPlain_showInt _))
      · exact .nil
    | cons entry rest =>
      cases h
      obtain ⟨hentry, hrest⟩ := List.forall_mem_cons.1 hx.2
      have hevents := Ledger.plainEvents_persistEntry (p := ⟨s.store, summary, []⟩) hx.1 hentry .nil
      have hlogged := hs.logged hevents
      exact ⟨hlogged.frame rfl, hx.1, hrest⟩
  | forward l =>
    cases h
    exact ⟨hs.frame rfl, trivial⟩

theorem CourierTask.plain_step {x x' : CourierTask} (hs : s.IsPlain)
    (h : x.step? t s = some (s', x')) : s'.IsPlain := by
  have hwrites := CourierTask.writes h
  rw [hwrites]
  exact hs.frame rfl

/-- A turn of a task leaves plain what it touches. -/
theorem Task.plain_step [RecordStore σ] [PlainStore σ] {task : Task} (hsetup : setup.IsPlain)
    (hs : s.IsPlain) (htask : task.IsPlain) (h : task.step? setup t fresh s = some m) :
    m.IsPlain := by
  cases Task.makes h with
  | call _ => exact .alone (hs.frame rfl) htask
  | await _ _ => exact .alone hs (isPlain_ofTransition htask)
  | start hx => exact StartTask.plain_step hsetup hs htask hx
  | listen hx => exact ListenTask.plain_step hs htask hx
  | stop hx =>
    obtain ⟨hs', hx'⟩ := StopTask.plain_step hsetup hs htask hx
    exact .alone hs' hx'
  | serve hx => exact .alone (ServeTask.plain_step hs hx) trivial
  | report hx =>
    obtain ⟨hs', hx'⟩ := ReportTask.plain_step hsetup hs htask hx
    exact .alone hs' hx'
  | keeper hx =>
    obtain ⟨hs', hx'⟩ := KeeperTask.plain_step hsetup hs htask hx
    exact .alone hs' hx'
  | courier hx => exact .alone (CourierTask.plain_step hs hx) trivial

/-- Whatever the host says is as plain in the queue of commands. -/
theorem PluginState.IsPlain.act (hs : s.IsPlain) {a : HostAction} (ha : a.IsPlain) :
    (s.act a).IsPlain := by
  cases a with
  | command c =>
    refine ⟨hs.log, fun c' hc' => ?_, hs.ledger, hs.outbox⟩
    simp only [PluginState.act, Queue.post_eq] at hc'
    split at hc'
    · simp only [Queue.contents, Queue.push, List.append_assoc, List.mem_append,
        List.mem_singleton] at hc'
      rcases hc' with hc' | rfl | hc'
      · exact hs.commands c' (List.mem_append_left _ hc')
      · exact ha
      · exact hs.commands c' (List.mem_append_right _ hc')
    · exact hs.commands c' hc'
  | drop e => cases e <;> exact hs.frame rfl
  | _ => exact hs.frame rfl

theorem HostAction.isPlain_task {a : HostAction} (ha : a.IsPlain) {x : Task}
    (hx : a.task? = some x) : x.IsPlain := by
  cases a <;> cases hx <;> exact ha

namespace Instance

/-! ## Whole runs -/

/-- What was logged is plain, and so is all that may yet be. -/
structure IsPlain (i : Instance σ) : Prop where
  state : i.state.IsPlain
  tasks : ∀ (t : Nat) (task : Task), i.tasks[t]? = some task → task.IsPlain

variable {i j : Instance σ}

theorem Fresh.isPlain (h : i.Fresh) (hlog : PlainEvents i.state.log)
    (hcommands : ∀ c ∈ i.state.commands.contents, c.IsPlain) : i.IsPlain where
  state := {
    log := hlog
    commands := hcommands
    ledger := by simp [h.ledger]
    outbox := by simp [h.outbox] }
  tasks t task ht := by
    rcases h.eq_of_getElem? ht with rfl | rfl | rfl <;> trivial

theorem IsPlain.act (h : i.IsPlain) {a : HostAction} (ha : a.IsPlain) : (i.act a).IsPlain where
  state := by
    rw [state_act]
    exact h.state.act ha
  tasks t task ht := by
    rw [getElem?_tasks_act] at ht
    split at ht
    · exact HostAction.isPlain_task ha ht
    · exact h.tasks t task ht

variable [RecordStore σ] [PlainStore σ]

theorem IsPlain.step (h : i.IsPlain) (hsetup : i.setup.IsPlain) {t : Nat}
    (hs : i.step? t = some j) : j.IsPlain := by
  obtain ⟨task, m, htask, hm, rfl⟩ := step?_eq_some_iff.1 hs
  have hmove := Task.plain_step hsetup h.state (h.tasks t task htask) hm
  refine ⟨?_, fun u x hx => ?_⟩
  · rw [state_move]
    exact hmove.state
  · rw [getElem?_tasks_move (List.getElem?_eq_some_iff.1 htask).1] at hx
    split at hx
    · cases hx
      exact hmove.next
    split at hx
    · exact hmove.spawned x hx
    · exact h.tasks u x hx

/-- As long as what a host says is plain where it is logged as it is, so is the whole plugin. -/
theorem IsPlain.course (h : i.IsPlain) (hsetup : i.setup.IsPlain) {es : List (Event σ)}
    (hes : i.Course es j) (hactions : ∀ k a, Event.action k a ∈ es → a.IsPlain) : j.IsPlain := by
  induction hes with
  | refl => exact h
  | turn hes hs ih =>
    have hj := ih fun k a hmem => hactions k a (List.mem_append_left _ hmem)
    exact hj.step (by rwa [setup_of_reachable hes.reachable]) hs
  | action _ a ih =>
    have hj := ih fun k a hmem => hactions k a (List.mem_append_left _ hmem)
    exact hj.act (hactions _ a List.mem_concat_self)

/-- No line is forged unless a text that is logged as it is holds the line break. An attached plugin
logs plain lines, whatever a bag and a file hold and whatever its host does, if the texts of the
setup that are logged as they are, what the platform says of documents, keys and places, the names
in the starts and stops and the wordings of the errors are plain. So are the lines about keeping
ledgers and about reading them back if the ledgers are, the places where they are kept and what the
store holds there. -/
theorem logs_plain_lines {a : Attachment} (ha : a.IsPlain) :
    PlainEvents a.events ∧
      (∀ platform capacity (store : σ) i, attach a platform capacity store = .ok i →
        i.setup.IsPlain →
        ∀ es j, i.Course es j → (∀ k action, Event.action k action ∈ es → action.IsPlain) →
          PlainEvents j.state.log) ∧
      ∀ (filing : Filing) (l : Ledger) (store : σ), filing.IsPlain → l.IsPlain →
        PlainEvents (l.persist filing store).events ∧ PlainEvents l.finishEvents ∧
        ∀ g f, Text.IsPlain g → Text.IsPlain f →
          Ledger.PlainBelow store (filing.flowDirectory g f) →
          PlainEvents (Ledger.stored filing g f store).2 ∧
            PlainEvents (l.retrieve filing g f store).finishEvents := by
  refine ⟨a.plainEvents ha, fun platform capacity store i hi hsetup es j hes hactions => ?_,
    fun filing l store hfiling hl => ⟨Ledger.plainEvents_persist hfiling hl store,
      hl.finishEvents, fun g f hg hf hstore => ?_⟩⟩
  · have hfresh := fresh_of_attach hi
    have hlog : i.state.log = a.events ∧ i.state.commands.contents = [] := by
      unfold attach at hi
      cases hequipment : a.equipment with
      | error e => rw [hequipment] at hi; cases hi
      | ok equipment =>
        rw [hequipment] at hi
        cases hi
        exact ⟨rfl, rfl⟩
    have hplain : i.IsPlain := by
      refine hfresh.isPlain (hlog.1 ▸ a.plainEvents ha) ?_
      rw [hlog.2]
      exact fun _ hc => nomatch hc
    exact (hplain.course hsetup hes hactions).state.log
  · obtain ⟨hstored, hevents⟩ := Ledger.plain_stored hfiling hg hf hstore
    have hretrieved : (l.retrieve filing g f store).IsPlain :=
      ⟨hl.name, List.forall_mem_append.2 ⟨hl.statistics, hstored⟩⟩
    exact ⟨hevents, hretrieved.finishEvents⟩

/-! ## Two names -/

/-- What a plugin logs that was handed no certificate, if it is started under a name. -/
def failedStartEvents (plugin : String) : List LogEvent :=
  [.info "plugin initialized" [("plugin", "p1")],
    .warn "failed to start server" [("plugin", plugin), ("error", "missing config cert")]]

theorem log_failedStart (plugin : String) :
    ∃ (i j : Instance Store.Tree) (es : List (Event Store.Tree)),
      attach (offering Channels.all) .illiterate 16 Store.Tree.empty = .ok i ∧
      i.setup.IsPlain ∧ i.Course es j ∧
      (∀ k a, Event.action k a ∈ es → a = .call (.start plugin)) ∧
      j.state.log = failedStartEvents plugin := by
  obtain ⟨i, hi⟩ : ∃ i : Instance Store.Tree,
      attach (offering Channels.all) .illiterate 16 .empty = .ok i :=
    ⟨_, rfl⟩
  have hsetup : i.setup.IsPlain := by
    cases hi
    have hwords : Tls.Wordings.curt.IsPlain := {
      brokenText := fun _ => (by decide : Text.IsPlain "malformed section")
      refused := fun _ _ => (by decide : Text.IsPlain "certificate refused") }
    exact {
      argosId := by decide
      host := fun config hconfig => by cases hconfig; decide
      filingPlace := fun _ h => nomatch h
      document := fun _ h => nomatch h
      platform := Platform.isPlain_unconnected hwords }
  have hrun : ((i.act (.call (.start plugin))).steps? [3, 3, 3, 3, 3, 3]).map (·.state.log) =
      some (failedStartEvents plugin) := by
    cases hi
    with_unfolding_all rfl
  obtain ⟨j, hj, hlog⟩ := Option.map_eq_some_iff.1 hrun
  refine ⟨i, j, _, hi, hsetup, (Course.refl.action (.call (.start plugin))).turns hj,
    fun k a hmem => ?_, hlog⟩
  rw [List.nil_append, List.singleton_append, List.mem_cons] at hmem
  rcases hmem with hmem | hmem
  · cases hmem
    rfl
  · obtain ⟨_, -, h⟩ := List.mem_map.1 hmem
    cases h

/-- A store that holds the record of a state. -/
def storeOf (stateName : String) : Store.Tree :=
  Store.Tree.empty.write ((Filing.sample "7").recordPath "System" "p1" "1")
    (StoredStatistic.toMembers ⟨"System", "p1", stateName, "1", "0s", 1⟩)

theorem list_storeOf (stateName : String) :
    (storeOf stateName).list ((Filing.sample "7").flowDirectory "System" "p1") = ["1"] := by
  have hpaths : (storeOf stateName).paths =
      [Store.normalize ((Filing.sample "7").recordPath "System" "p1" "1")] := rfl
  rw [Store.Tree.list, hpaths]
  decide +kernel

theorem plainBelow_storeOf {stateName : String} (h : Text.IsPlain stateName) :
    Ledger.PlainBelow (storeOf stateName) ((Filing.sample "7").flowDirectory "System" "p1") where
  names names hnames := by
    change Except.ok ((storeOf stateName).list _) = .ok names at hnames
    rw [list_storeOf] at hnames
    cases hnames
    decide
  records name members hmembers r hr := by
    change Except.ok ((storeOf stateName).read _) = .ok (some members) at hmembers
    rw [storeOf, Store.Tree.read_write] at hmembers
    split at hmembers <;> cases hmembers
    rw [StoredStatistic.read_toMembers] at hr
    cases hr
    exact ⟨(by decide : Text.IsPlain "System"), (by decide : Text.IsPlain "p1"), h,
      (by decide : Text.IsPlain "1")⟩

/-- What finishing a ledger under a name logs after the state of a store was read back. -/
def readBackEvents (name stateName : String) : List LogEvent :=
  ((Ledger.new name false 0).retrieve (.sample "7") "System" "p1" (storeOf stateName)).finishEvents

theorem readBackEvents_eq (name stateName : String) : readBackEvents name stateName =
    [(StoredStatistic.toStatistic ⟨"System", "p1", stateName, "1", "0s", 1⟩).logEvent name] := by
  have hlist : RecordStore.list (storeOf stateName)
      ((Filing.sample "7").flowDirectory "System" "p1") = .ok ["1"] :=
    congrArg Except.ok (list_storeOf stateName)
  have hread : RecordStore.read (storeOf stateName)
      ((Filing.sample "7").flowDirectory "System" "p1" ++ "/" ++ "1") =
        .ok (some (StoredStatistic.toMembers ⟨"System", "p1", stateName, "1", "0s", 1⟩)) :=
    congrArg Except.ok ((Store.Tree.read_write _ _ _ _).trans (if_pos rfl))
  have hentry : Ledger.readEntry (storeOf stateName)
      ((Filing.sample "7").flowDirectory "System" "p1") "1" =
        .ok (some (StoredStatistic.toStatistic ⟨"System", "p1", stateName, "1", "0s", 1⟩)) := by
    rw [Ledger.readEntry, hread]
    simp only [StoredStatistic.read_toMembers]
  have hnames : ["1"].filter (!Ledger.isDirectory ·) = ["1"] := by decide
  rw [readBackEvents, Ledger.finishEvents, Ledger.retrieve, Ledger.stored, hlist]
  simp only [Ledger.readEntries, hnames, List.map_singleton, hentry]
  rfl

/-- A start under a plain name fails with a plain line, and a plain state that is read back gives
another one. -/
theorem plain_lines_of_plain_names : PlainEvents (failedStartEvents "p1") ∧
    PlainEvents (readBackEvents "argos-1" "Start up") := by
  have hattachment : (offering Channels.all).IsPlain :=
    ⟨(by decide : Text.IsPlain "p1"), fun _ h => nomatch h⟩
  obtain ⟨-, hruns, hledgers⟩ := logs_plain_lines (σ := Store.Tree) hattachment
  constructor
  · obtain ⟨i, j, es, hi, hsetup, hes, hactions, hlog⟩ := log_failedStart "p1"
    rw [← hlog]
    refine hruns _ _ _ i hi hsetup es j hes fun k a hmem => ?_
    rw [hactions k a hmem]
    exact (by decide : Text.IsPlain "p1")
  · have hfiling : (Filing.sample "7").IsPlain := ⟨by decide, by decide, by decide⟩
    have hledger : (Ledger.new "argos-1" false 0).IsPlain := Ledger.isPlain_new (by decide) _ _
    obtain ⟨-, -, hread⟩ := hledgers (.sample "7") _ (storeOf "Start up") hfiling hledger
    exact (hread "System" "p1" (by decide) (by decide) (plainBelow_storeOf (by decide))).2

/-- A line break in the name of a call and in the state of a record begins a line of its own. -/
theorem forged_lines : (∃ (i j : Instance Store.Tree) (es : List (Event Store.Tree)),
      attach (offering Channels.all) .illiterate 16 Store.Tree.empty = .ok i ∧
      i.Course es j ∧
      (.warn "failed to start server" [("plugin", "p1\nERROR forged"),
        ("error", "missing config cert")]) ∈ j.state.log ∧ ¬ PlainEvents j.state.log) ∧
    (readBackEvents "argos-1\nforged" "Start up\nERROR forged").map LogEvent.message =
      ["p1-Start up\nERROR forged"] ∧
      ¬ PlainEvents (readBackEvents "argos-1\nforged" "Start up\nERROR forged") := by
  refine ⟨?_, ?_, ?_⟩
  · obtain ⟨i, j, es, hi, -, hes, -, hlog⟩ := log_failedStart "p1\nERROR forged"
    refine ⟨i, j, es, hi, hes, ?_, fun hplain => ?_⟩
    · rw [hlog]
      exact List.mem_cons_of_mem _ List.mem_cons_self
    · rw [hlog] at hplain
      have hline := hplain _ (List.mem_cons_of_mem _ List.mem_cons_self)
      exact absurd (hline.fields ("plugin", "p1\nERROR forged") List.mem_cons_self) (by decide)
  · rw [readBackEvents_eq]
    rfl
  · intro hplain
    rw [readBackEvents_eq] at hplain
    exact absurd (hplain _ List.mem_cons_self).message (by decide)

end Instance

end PluginKernel
