import PluginKernel.Proofs.Instance.LateCommands
import PluginKernel.Proofs.Instance.OneServer
import PluginKernel.Proofs.Instance.Settling
import PluginKernel.Proofs.Instance.StartChecks

/-!
# Commands are carried out one after the other

What a host asks for by commands is done as if the plugin did one thing at a time, in whatever order
its tasks take their turns: `dispatched_of_course`. Up to the first stop, every start and every stop
goes inside the lifecycle lock once, in the order of the commands, while nobody else is inside. The
stop is announced to the host once, other commands do nothing, and nothing is heard after the stop.

Nobody but the listener announces a shutdown, unless the host reports one itself: the reports of
failed starts are about what bringing up a server objects to.
-/

namespace PluginKernel

variable {σ : Type}

/-! ## Announcing a shutdown -/

namespace Command

/-- The announcement that commands lead to: that of the first stop, if there is one. -/
def farewell (cs : List Command) : List PluginError :=
  (cs.find? (·.request = .stop)).toList.map fun c => .shuttingDown c.plugin

variable {cs : List Command}

theorem NoStop.farewell_eq (h : NoStop cs) : farewell cs = [] := by
  rw [farewell, h.find?]
  rfl

theorem EndsWithStop.farewell_eq {plugin : String} (h : EndsWithStop plugin cs) :
    farewell cs = [.shuttingDown plugin] := by
  rw [farewell, h.find?]
  rfl

end Command

/-- The error that a report has not sent yet. -/
def ReportTask.unsent? : ReportTask → Option PluginError
  | check e | record e | emit _ e | send e => some e
  | _ => none

/-- The error that a task has to report and has not sent yet. -/
def Task.unsent? : Task → Option PluginError
  | start (.fail _ e) | start (.giveUp _ e) => some e
  | start (.report r) | report r => r.unsent?
  | _ => none

theorem ReportTask.unsent?_next {setup : Setup} {t : Nat} {s s' : PluginState σ}
    {r r' : ReportTask} (h : r.step? setup t s = some (s', r')) {e : PluginError}
    (he : r'.unsent? = some e) : r.unsent? = some e := by
  cases r <;> simp only [step?] at h <;> (repeat' split at h) <;> cases h <;>
    first | exact he | cases he

/-- What bringing up a server objects to is no shutdown. -/
theorem Setup.bind_ne_shutdown {setup : Setup} {held : List Endpoint} {e : PluginError}
    (h : setup.bind held = .error e) : e.announcesShutdown = false := by
  obtain ⟨c, -, hfault⟩ := List.exists_of_findSome?_eq_some (StartCheck.first_fault_iff.2 h)
  obtain ⟨hconfiguration, htransport⟩ := StartCheck.class_of_fault hfault
  cases e with
  | shuttingDown plugin =>
    -- an error of a check blames either the configuration or the transport
    rw [← hconfiguration] at htransport
    cases htransport
  | _ => rfl

section Reports

variable {setup : Setup} {t fresh : Nat} {s : PluginState σ} {task : Task} {m : Move σ}

/-- A task has an error to report because it had it before, or because no server could be brought
up. -/
theorem Task.unsent?_next [RecordStore σ] (h : task.step? setup t fresh s = some m)
    {e : PluginError} (he : m.next.unsent? = some e) :
    task.unsent? = some e ∨ e.announcesShutdown = false := by
  cases task with
  | call tr =>
    cases h
    cases he
  | await tr =>
    simp only [step?] at h
    split at h <;> cases h
    cases tr <;> cases he
  | start x =>
    cases x with
    | bind plugin =>
      simp only [step?, StartTask.step?] at h
      split at h <;> cases h
      next hbind =>
        cases he
        exact .inr (Setup.bind_ne_shutdown hbind)
      · cases he
    | report r =>
      simp only [step?, StartTask.step?, Option.map_eq_some_iff, Prod.exists] at h
      obtain ⟨s', r', hr, rfl⟩ := h
      exact .inl (ReportTask.unsent?_next hr he)
    | fail plugin e' | giveUp plugin e' =>
      cases h
      exact .inl he
    | _ =>
      simp only [step?, StartTask.step?] at h
      (repeat' split at h) <;> cases h <;> cases he
  | report r =>
    simp only [step?, Option.map_eq_some_iff, Prod.exists] at h
    obtain ⟨s', r', hr, rfl⟩ := h
    exact .inl (ReportTask.unsent?_next hr he)
  | listen x =>
    obtain ⟨y, hy⟩ := ListenTask.next_listen h
    rw [hy] at he
    cases he
  | _ =>
    simp only [step?, Option.map_eq_some_iff] at h
    obtain ⟨_, -, rfl⟩ := h
    cases he

theorem Task.unsent?_spawned [RecordStore σ] (h : task.step? setup t fresh s = some m) {x : Task}
    (hx : m.spawned = some x) : x.unsent? = none := by
  rcases spawned_eq h hx with ⟨plugin, n, rfl⟩ | ⟨tr, -, rfl⟩
  · rfl
  · cases tr <;> rfl

/-- A task that has no shutdown to report sends one only if it is the listener that announces it. -/
theorem Task.filter_sentError? (h : ∀ e, task.unsent? = some e → e.announcesShutdown = false) :
    task.sentError?.toList.filter (·.announcesShutdown) = task.announced?.toList := by
  have hreport : ∀ r : ReportTask, (∀ e, r.unsent? = some e → e.announcesShutdown = false) →
      r.sentError?.toList.filter (·.announcesShutdown) = [] := by
    intro r hr
    cases r with
    | send e => simp [ReportTask.sentError?, hr e rfl]
    | _ => rfl
  cases task with
  | start x =>
    cases x with
    | report r => exact hreport r h
    | _ => rfl
  | report r => exact hreport r h
  | listen x => cases x <;> rfl
  | _ => rfl

end Reports

/-! ## The stages of the listener -/

namespace ListenTask.Heard

variable {s : PluginState σ} {x : ListenTask} {posted taken : List Command}
  {inside : List Transition} {announced : List PluginError}

/-- The first stop is the last command that the listener has taken. -/
theorem noStop_or_endsWithStop (h : x.Heard s posted taken inside announced) :
    Command.NoStop taken ∨ ∃ plugin, Command.EndsWithStop plugin taken := by
  cases x with
  | «open» | receive => exact .inl h.1
  | ask tr | await tr =>
    obtain ⟨before, c, hbefore, rfl, hc, -⟩ := h
    obtain rfl := Command.eq_ack_of_transition? hc
    cases tr with
    | start plugin => exact .inl (hbefore.concat fun h => by cases h)
    | stop plugin => exact .inr ⟨plugin, before, hbefore, rfl⟩
  | announce plugin => exact .inr ⟨plugin, h.1⟩
  | wait =>
    obtain ⟨plugin, hends, -⟩ := h
    exact .inr ⟨plugin, hends⟩
  | close | done =>
    rcases h.2 with ⟨plugin, hends, -⟩ | ⟨hnoStop, -⟩
    · exact .inr ⟨plugin, hends⟩
    · exact .inl hnoStop

/-- What has gone inside was asked for, and in that order. -/
theorem inside_prefix (h : x.Heard s posted taken inside announced) :
    inside <+: taken.filterMap Command.transition? := by
  cases x with
  | «open» | receive | announce plugin => exact h.2.1 ▸ List.prefix_rfl
  | ask tr | await tr =>
    obtain ⟨before, c, -, rfl, -, rfl, -⟩ := h
    exact (List.prefix_append before [c]).filterMap _
  | wait =>
    obtain ⟨plugin, -, rfl, -⟩ := h
    exact List.prefix_rfl
  | close | done => exact h.1 ▸ List.prefix_rfl

/-- A shutdown is announced only for a stop that was taken, and once. -/
theorem announced_prefix (h : x.Heard s posted taken inside announced) :
    announced <+: Command.farewell taken := by
  cases x with
  | «open» | receive | announce plugin => exact h.2.2 ▸ List.nil_prefix
  | ask tr | await tr =>
    obtain ⟨before, c, -, -, -, -, rfl⟩ := h
    exact List.nil_prefix
  | wait =>
    obtain ⟨plugin, hends, -, rfl⟩ := h
    exact hends.farewell_eq ▸ List.prefix_rfl
  | close | done =>
    rcases h.2 with ⟨plugin, hends, rfl⟩ | ⟨-, rfl, -⟩
    · exact hends.farewell_eq ▸ List.prefix_rfl
    · exact List.nil_prefix

/-- A listener that waits for the host has set off and announced all that it has taken. -/
theorem eq_of_idle (h : x.Heard s posted taken inside announced)
    (hx : x = receive ∨ x = wait ∨ x = done) :
    inside = taken.filterMap Command.transition? ∧ announced = Command.farewell taken := by
  rcases hx with rfl | rfl | rfl
  · obtain ⟨hnoStop, rfl, rfl⟩ := h
    exact ⟨rfl, hnoStop.farewell_eq.symm⟩
  · obtain ⟨plugin, hends, rfl, rfl⟩ := h
    exact ⟨rfl, hends.farewell_eq.symm⟩
  · obtain ⟨rfl, ⟨plugin, hends, rfl⟩ | ⟨hnoStop, rfl, -⟩⟩ := h
    · exact ⟨rfl, hends.farewell_eq.symm⟩
    · exact ⟨rfl, hnoStop.farewell_eq.symm⟩

end ListenTask.Heard

/-- A start or a stop is what the listener waits for, unless one was called for directly. -/
theorem Task.of_entered? {task : Task} {tr : Transition} (hcall : ¬ task.IsCall)
    (h : task.entered? = some tr) : task = .listen (.await tr) := by
  unfold entered? at h
  split at h <;> cases h
  · exact absurd trivial hcall
  · rfl

/-- A command that asks for no start and no stop is taken, and that is all. -/
theorem ListenTask.step?_of_ignored {t fresh : Nat} {s : PluginState σ} {c : Command}
    {q : Queue Command} (hnext : s.commands.next? = some (c, q)) (hc : c.transition? = none) :
    receive.step? t fresh s = some ⟨s.withCommands q, .listen receive, none⟩ := by
  simp only [step?, hnext]
  rw [Command.transition?] at hc
  cases hrequest : c.request with
  | start | stop =>
    rw [hrequest] at hc
    cases hc
  | status | unknown => rfl

namespace Instance

variable {i j k : Instance σ} {es : List (Event σ)} {t : Nat} {x : ListenTask}

/-- The queues between a plugin and its host are new, and there is room for an acknowledgment. -/
structure NewQueues (i : Instance σ) : Prop where
  commands : i.state.commands.IsNew
  acks : i.state.acks.IsNew
  errors : i.state.errors.IsNew
  room : 0 < i.state.acks.capacity

theorem newQueues_initial (setup : Setup) {capacity : Nat} (h : 0 < capacity) (store : σ) :
    (initial setup capacity store).NewQueues :=
  ⟨Queue.isNew_empty _, Queue.isNew_empty _, Queue.isNew_empty _, h⟩

/-! ## Announcements in a course -/

/-- The host reports no shutdown itself. -/
def ReportsNoShutdown (es : List (Event σ)) : Prop :=
  ∀ j e, Event.action j (.report e) ∈ es → e.announcesShutdown = false

theorem ReportsNoShutdown.of_append {es' : List (Event σ)} (h : ReportsNoShutdown (es ++ es')) :
    ReportsNoShutdown es :=
  fun j e hmem => h j e (List.mem_append_left _ hmem)

/-- No task has a shutdown to report. -/
def HasNoShutdown (j : Instance σ) : Prop :=
  ∀ (t : Nat) (task : Task) (e : PluginError), j.tasks[t]? = some task → task.unsent? = some e →
    e.announcesShutdown = false

theorem HasNoShutdown.act (h : j.HasNoShutdown) {a : HostAction}
    (ha : ∀ e, a = .report e → e.announcesShutdown = false) : (j.act a).HasNoShutdown := by
  intro t task e ht he
  rw [getElem?_tasks_act] at ht
  split at ht
  · cases a with
    | report e' =>
      cases ht
      cases he
      exact ha e rfl
    | call tr =>
      cases ht
      cases he
    | _ => cases ht
  · exact h t task e ht he

variable [RecordStore σ]

theorem HasNoShutdown.step (h : j.HasNoShutdown) (hs : j.step? t = some k) :
    k.HasNoShutdown := by
  obtain ⟨task, m, htask, hm, rfl⟩ := step?_eq_some_iff.1 hs
  intro u task' e hu he
  rw [getElem?_tasks_move (List.getElem?_eq_some_iff.1 htask).1] at hu
  split at hu
  · cases hu
    rcases Task.unsent?_next hm he with hold | hplain
    · exact h t task e htask hold
    · exact hplain
  · split at hu
    · rw [Task.unsent?_spawned hm hu] at he
      cases he
    · exact h u task' e hu he

theorem hasNoShutdown_of_course (hi : i.Fresh) (h : i.Course es j) (hr : ReportsNoShutdown es) :
    j.HasNoShutdown := by
  induction h with
  | refl =>
    intro t task e ht he
    rcases hi.eq_of_getElem? ht with rfl | rfl | rfl <;> cases he
  | turn _ hs ih => exact (ih hr.of_append).step hs
  | action _ a ih =>
    refine (ih hr.of_append).act fun e ha => ?_
    subst ha
    exact hr _ e List.mem_concat_self

/-- The shutdowns that are sent are those that the listener announces. -/
theorem filter_sent_errors (hi : i.Fresh) (h : i.Course es j) (hr : ReportsNoShutdown es) :
    (Outlet.errors.sent (turnsOf es)).filter (·.announcesShutdown) = announced (turnsOf es) := by
  induction h with
  | refl => rfl
  | @turn es j k t h hs ih =>
    have hplain := hasNoShutdown_of_course hi h hr.of_append
    obtain ⟨task, m, htask, -, rfl⟩ := step?_eq_some_iff.1 hs
    have hsent : Outlet.errors.sentIn ⟨t, j, j.move t m⟩ = task.sentError? :=
      Outlet.sentIn_of_getElem? htask
    rw [turnsOf_turn, Outlet.sent_concat, hsent, List.filter_append, ih hr.of_append,
      Task.filter_sentError? fun e he => hplain t task e htask he, announced, announced,
      filterMap_ofTask_concat (fun _ => Task.announced?) _ htask]
  | action _ a ih =>
    rw [turnsOf_action]
    exact ih hr.of_append

/-- The shutdowns that the host was told of: those that it has read, and those on their way. -/
def shutdowns (es : List (Event σ)) (j : Instance σ) : List PluginError :=
  (Outlet.errors.read es ++ j.state.errors.contents).filter (·.announcesShutdown)

theorem shutdowns_eq_announced (hi : i.Fresh) (hnew : i.state.errors.IsNew) (h : i.Course es j)
    (hr : ReportsNoShutdown es) (hopen : j.state.errors.hasReceiver = true) :
    shutdowns es j = announced (turnsOf es) := by
  have hconveyed := Outlet.errors.conveyed h (fun _ _ => hnew.idle) hopen
  have hnil : (Outlet.errors.queue i.state).contents = [] := hnew.contents
  rw [hnil, List.nil_append] at hconveyed
  rw [← filter_sent_errors hi h hr, ← hconveyed]
  rfl

/-! ## Commands in a course -/

omit [RecordStore σ] in
theorem Hearing.received_prefix (h : Hearing es j x) :
    received (turnsOf es) <+: Command.untilStop (posted es) := by
  obtain ⟨more, hmore⟩ := h.queues.sent
  rw [← hmore]
  rcases h.heard.noStop_or_endsWithStop with hnoStop | ⟨plugin, hends⟩
  · rw [Command.untilStop_append_of_noStop hnoStop]
    exact List.prefix_append _ _
  · have hreceived := Command.untilStop_append hends more
    exact ⟨[], by rw [List.append_nil, hreceived]⟩

omit [RecordStore σ] in
/-- A listener that finds no command, or that has taken the stop, has taken all that counts. -/
theorem Hearing.received_eq (h : Hearing es j x)
    (hx : x = .receive ∧ j.state.commands.next? = none ∨ x = .wait ∨ x = .done) :
    received (turnsOf es) = Command.untilStop (posted es) := by
  have hall : Command.NoStop (received (turnsOf es)) → received (turnsOf es) = posted es →
      received (turnsOf es) = Command.untilStop (posted es) := by
    intro hnoStop hposted
    rw [← hposted, Command.untilStop_of_noStop hnoStop]
  have hstop : ∀ plugin, Command.EndsWithStop plugin (received (turnsOf es)) →
      received (turnsOf es) = Command.untilStop (posted es) := by
    intro plugin hends
    obtain ⟨more, hmore⟩ := h.queues.sent
    rw [← hmore, Command.untilStop_append hends]
  have hheard := h.heard
  rcases hx with ⟨rfl, hnext⟩ | rfl | rfl
  · obtain ⟨-, hposted⟩ := h.queues.rest (by simp)
    rw [Queue.contents_of_next?_eq_none hnext h.queues.idle, List.append_nil] at hposted
    exact hall hheard.1 hposted
  · obtain ⟨plugin, hends, -⟩ := hheard
    exact hstop plugin hends
  · rcases hheard.2 with ⟨plugin, hends, -⟩ | ⟨hnoStop, -, hposted, -⟩
    · exact hstop plugin hends
    · exact hall hnoStop hposted

/-- What becomes of the commands of a host that calls for no start and no stop directly. -/
structure Dispatched (es : List (Event σ)) (j : Instance σ) : Prop where
  /-- Commands are taken in the order in which they were sent, and none after the first stop. -/
  taken : received (turnsOf es) <+: Command.untilStop (posted es)
  /-- Starts and stops go inside the lifecycle lock in the order of their commands. -/
  order : entered (turnsOf es) <+: (received (turnsOf es)).filterMap Command.transition?
  /-- Each goes inside while nobody is, as a task of its own. -/
  serial : ∀ w ∈ turnsOf es, ∀ tr, w.ofTask (fun _ => Task.entered?) = some tr →
    (∀ t, w.before.lockStage t ≠ .inside) ∧
      Event.SetsOff w.before.tasks.length tr (.turn w)
  /-- That task goes through the start or the stop, stage by stage. -/
  runs : ∀ w ∈ turnsOf es, ∀ t tr, Event.SetsOff t tr (.turn w) →
    ∃ task, j.tasks[t]? = some task ∧ task.Did tr (deeds (turnsOf es) t)
  /-- There are no other starts and stops. -/
  sole : ∀ (t : Nat) (task : Task), j.tasks[t]? = some task → task.kind = .transition →
    ∃ w ∈ turnsOf es, ∃ tr, Event.SetsOff t tr (.turn w)
  /-- A command that asks for no start and no stop is taken, and nothing else changes. -/
  ignored : ∀ w ∈ turnsOf es, ∀ c, w.ofTask Task.received? = some c → c.transition? = none →
    w.after.tasks = w.before.tasks ∧
      w.after.state = w.before.state.withCommands w.after.state.commands
  /-- What is sent after a stop has no effect. -/
  late : (∃ c ∈ posted es, c.request = .stop) → j.IgnoresCommands
  /-- The listening ends by a stop, or when the host has let go and all commands were taken. -/
  terminated : j.state.listening = false →
    (∃ c ∈ received (turnsOf es), c.request = .stop) ∨
      j.state.commands.hasSender = false ∧ received (turnsOf es) = posted es
  /-- A shutdown is announced once, and only for a stop that was taken. -/
  announced : j.state.errors.hasReceiver = true → ReportsNoShutdown es →
    shutdowns es j <+: Command.farewell (received (turnsOf es))
  /-- When nothing can go on, everything that counts has been taken, has gone inside and has come
  out again, and the stop was announced. -/
  settled : j.Quiescent → received (turnsOf es) = Command.untilStop (posted es) ∧
    entered (turnsOf es) = (Command.untilStop (posted es)).filterMap Command.transition? ∧
      (∀ t, j.lockStage t = .outside) ∧
        (j.state.errors.hasReceiver = true → ReportsNoShutdown es →
          shutdowns es j = Command.farewell (Command.untilStop (posted es)))

/-- Nobody is inside the lock when a start or a stop goes inside, and it is a command that has set
it off. -/
theorem serial_of_course (hi : i.Fresh) (h : i.Course es j) (hc : Commanded es) {w : Turn σ}
    (hw : w ∈ turnsOf es) {tr : Transition}
    (htr : w.ofTask (fun _ => Task.entered?) = some tr) :
    (∀ t, w.before.lockStage t ≠ .inside) ∧ Event.SetsOff w.before.tasks.length tr (.turn w) := by
  have hs := h.step?_of_mem hw
  obtain ⟨past, rest, rfl⟩ := List.append_of_mem (mem_turnsOf.1 hw)
  have hpast := h.of_append.1
  obtain ⟨task, m, htask, hm, -⟩ := step?_eq_some_iff.1 hs
  rw [Turn.ofTask, htask, Option.bind_some] at htr
  obtain rfl := Task.of_entered? (uncalled_of_course hi hpast hc.of_append w.task task htask) htr
  refine ⟨fun t => ?_, .command rfl htask⟩
  -- the listener can go on here only because the lock has come to it
  have hmine : w.before.state.lock.holder = some w.task := by
    simp only [Task.step?, ListenTask.step?] at hm
    split at hm
    next hmine => exact hmine
    · cases hm
  by_cases ht : t = w.task
  · rw [ht, lockStage_of_getElem? htask]
    intro h
    cases h
  · exact (lockOrderly_of_reachable hi hpast.reachable).not_inside hmine ht

/-- A command that asks for no start and no stop changes nothing but the queue that it is taken
from. -/
theorem ignored_of_course (h : i.Course es j) {w : Turn σ} (hw : w ∈ turnsOf es) {c : Command}
    (hreceived : w.ofTask Task.received? = some c) (hc : c.transition? = none) :
    w.after.tasks = w.before.tasks ∧
      w.after.state = w.before.state.withCommands w.after.state.commands := by
  obtain ⟨task, m, htask, hm, hafter⟩ := step?_eq_some_iff.1 (h.step?_of_mem hw)
  rw [Turn.ofTask, htask, Option.bind_some] at hreceived
  unfold Task.received? at hreceived
  split at hreceived
  · obtain ⟨⟨d, q⟩, hnext, rfl⟩ := Option.map_eq_some_iff.1 hreceived
    simp only [Task.step?, ListenTask.step?_of_ignored hnext hc] at hm
    cases hm
    rw [← hafter, tasks_move, state_move]
    refine ⟨?_, rfl⟩
    rw [Option.toList_none, List.append_nil]
    obtain ⟨hlt, htask⟩ := List.getElem?_eq_some_iff.1 htask
    rw [← htask, List.set_getElem_self]
  · cases hreceived

/-- Whatever order tasks take their turns in: as long as the host calls for no start and no stop
directly, its commands are carried out one after the other. -/
theorem dispatched_of_course (hi : i.Fresh) (hnew : i.NewQueues) (h : i.Course es j)
    (hc : Commanded es) : Dispatched es j := by
  obtain ⟨x, hx⟩ := hearing_of_course hi hnew.commands h hc
  have hdid := allDid_of_course hi h
  constructor
  case taken => exact hx.received_prefix
  case order => exact hx.heard.inside_prefix
  case serial => exact fun w hw tr htr => serial_of_course hi h hc hw htr
  case runs => exact fun w hw t tr hsets => hdid.did t tr ⟨_, mem_turnsOf.1 hw, hsets⟩
  case sole =>
    intro t task ht hkind
    obtain ⟨tr, e, he, hsets⟩ := hdid.begun t task ht hkind
    cases hsets with
    | call => exact absurd he (hc _ tr)
    | @command w ht hlisten => exact ⟨w, mem_turnsOf.2 he, tr, .command ht hlisten⟩
  case ignored => exact fun w hw c hreceived hc => ignored_of_course h hw hreceived hc
  case late => exact ignoresCommands_of_course hi hnew.commands h hc
  case terminated =>
    intro hlistening
    have hdone : x = .done := by
      by_contra hne
      rw [hx.queues.listening.2 hne] at hlistening
      cases hlistening
    subst hdone
    rcases hx.heard.2 with ⟨plugin, ⟨before, -, hreceived⟩, -⟩ | ⟨-, -, hposted, hgone⟩
    · refine .inl ⟨⟨plugin, .stop⟩, ?_, rfl⟩
      rw [hreceived]
      exact List.mem_concat_self
    · exact .inr ⟨hgone, hposted⟩
  case announced =>
    intro hopen hr
    rw [shutdowns_eq_announced hi hnew.errors h hr hopen]
    exact hx.heard.announced_prefix
  case settled =>
    intro hq
    have hfree := holder_eq_none_of_course hi hnew.acks hnew.room h hc hq
    have houtside := lockStage_of_free hi h.reachable hfree
    have hstuck : x.step? 2 j.tasks.length j.state = none := by
      have hnone := hq 2
      rw [step?_of_getElem? hx.listens, Option.map_eq_none_iff] at hnone
      exact hnone
    have hidle : x = .receive ∧ j.state.commands.next? = none ∨ x = .wait ∨ x = .done := by
      rcases ListenTask.stuck hstuck with hdone | ⟨hreceive, hnext, -⟩ | ⟨tr, rfl⟩ | ⟨hwait, -⟩
      · exact .inr (.inr hdone)
      · exact .inl ⟨hreceive, hnext⟩
      · -- whoever waits for the lock would not be outside
        have hout := houtside 2
        rw [lockStage_of_getElem? hx.listens] at hout
        cases hout
      · exact .inr (.inl hwait)
    have hall := hx.received_eq hidle
    obtain ⟨hinside, hannounced⟩ := hx.heard.eq_of_idle (hidle.imp_left And.left)
    refine ⟨hall, ?_, houtside, fun hopen hr => ?_⟩
    · rw [hinside, hall]
    · rw [shutdowns_eq_announced hi hnew.errors h hr hopen, hannounced, hall]

/-! ## A host that sends four commands -/

omit [RecordStore σ] in
theorem posted_turns (es : List (Event σ)) (ts : List (Turn σ)) :
    posted (es ++ ts.map .turn) = posted es := by
  rw [posted, List.filterMap_append, posted, List.filterMap_map]
  simp [Function.comp_def, Event.posted?]

omit [RecordStore σ] in
theorem Commanded.turns (h : Commanded es) (ts : List (Turn σ)) :
    Commanded (es ++ ts.map .turn) := by
  intro j tr hmem
  rcases List.mem_append.1 hmem with hold | hturn
  · exact h j tr hold
  · obtain ⟨w, -, hw⟩ := List.mem_map.1 hturn
    cases hw

omit [RecordStore σ] in
theorem ReportsNoShutdown.turns (h : ReportsNoShutdown es) (ts : List (Turn σ)) :
    ReportsNoShutdown (es ++ ts.map .turn) := by
  intro j e hmem
  rcases List.mem_append.1 hmem with hold | hturn
  · exact h j e hold
  · obtain ⟨w, -, hw⟩ := List.mem_map.1 hturn
    cases hw

/-- Turns until nothing can go on end where settling ends. -/
theorem Course.exists_settle (h : i.Course es j) {n : Nat}
    (hn : (takeTurns n j).next?.isNone = true) : ∃ (ts : List (Turn σ)) (k : Instance σ),
      i.Course (es ++ ts.map .turn) k ∧ k.Quiescent ∧ k.state = (takeTurns n j).state := by
  obtain ⟨ts, k, hk, hq, hsame⟩ := exists_steps_settle j
  refine ⟨j.turns ts, k, h.turns hk, hq, ?_⟩
  rw [← hsame.state, settle_eq_takeTurns (Option.isNone_iff_eq_none.1 hn)]

/-- A host sends a start, asks for the status, sends a stop and then another start. -/
def fourCommands : Instance Store.Tree :=
  ((((initial sampleSetup 16 .empty).act (.command ⟨"p1", .start⟩)).act
    (.command ⟨"p1", .status⟩)).act (.command ⟨"p1", .stop⟩)).act (.command ⟨"p2", .start⟩)

/-- In the end the first start and the stop have gone inside, and the stop was announced. -/
theorem dispatched_of_fourCommands :
    ∃ (es : List (Event Store.Tree)) (j : Instance Store.Tree),
      (initial sampleSetup 16 Store.Tree.empty).Course es j ∧ j.Quiescent ∧
        posted es = [⟨"p1", .start⟩, ⟨"p1", .status⟩, ⟨"p1", .stop⟩, ⟨"p2", .start⟩] ∧
        entered (turnsOf es) = [.start "p1", .stop "p1"] ∧
        shutdowns es j = [.shuttingDown "p1"] := by
  obtain ⟨es, hsent, hposted, hc, hr⟩ : ∃ es : List (Event Store.Tree),
      (initial sampleSetup 16 Store.Tree.empty).Course es fourCommands ∧
        posted es = [⟨"p1", .start⟩, ⟨"p1", .status⟩, ⟨"p1", .stop⟩, ⟨"p2", .start⟩] ∧
        Commanded es ∧ ReportsNoShutdown es :=
    ⟨_, (((Course.refl.action _).action _).action _).action _, rfl, by simp [Commanded],
      by simp [ReportsNoShutdown]⟩
  obtain ⟨ts, j, hcourse, hq, hstate⟩ := hsent.exists_settle (n := 60) (by with_unfolding_all rfl)
  have hopen : j.state.errors.hasReceiver = true := by
    rw [hstate]
    with_unfolding_all rfl
  have hall := dispatched_of_course (fresh_initial _ _ _) (newQueues_initial _ (by decide) _)
    hcourse (hc.turns ts)
  obtain ⟨-, hentered, -, hshutdowns⟩ := hall.settled hq
  refine ⟨_, j, hcourse, hq, ?_, ?_, ?_⟩
  · rw [posted_turns, hposted]
  · rw [hentered, posted_turns, hposted]
    rfl
  · rw [hshutdowns hopen (hr.turns ts), posted_turns, hposted]
    rfl

end Instance

end PluginKernel
