import PluginKernel.Proofs.Instance.Deeds
import PluginKernel.Proofs.Instance.Waiting

/-!
# Commands are heard in the order in which they were sent

The listener takes commands one after the other. It has a start or a stop set off before it takes
another command, and the first stop is the last command that it takes. `ListenTask.Heard` says how
far it has come at each of its stages: which commands it has taken, which starts and stops have gone
inside the lifecycle lock, and which shutdowns have been announced. In a course in which the host
calls for no start and no stop directly, nobody else sets any off: `hearing_of_course`.
-/

namespace PluginKernel

variable {σ : Type}

namespace Command

/-- The commands up to the first stop, that one included. -/
def untilStop : List Command → List Command
  | [] => []
  | c :: rest => if c.request = .stop then [c] else c :: untilStop rest

/-- There is no stop among some commands. -/
def NoStop (cs : List Command) : Prop := ∀ c ∈ cs, c.request ≠ .stop

/-- Some commands end with their first stop, which bears a name. -/
def EndsWithStop (plugin : String) (cs : List Command) : Prop :=
  ∃ before, NoStop before ∧ cs = before ++ [⟨plugin, .stop⟩]

variable {c : Command} {cs : List Command} {plugin : String}

theorem NoStop.concat (h : NoStop cs) (hc : c.request ≠ .stop) : NoStop (cs ++ [c]) := by
  intro d hd
  rcases List.mem_append.1 hd with hd | hd
  · exact h d hd
  · rwa [List.mem_singleton.1 hd]

theorem untilStop_of_noStop (h : NoStop cs) : untilStop cs = cs := by
  induction cs with
  | nil => rfl
  | cons c rest ih =>
    rw [untilStop, if_neg (h c List.mem_cons_self)]
    rw [ih fun d hd => h d (List.mem_cons_of_mem c hd)]

/-- Nothing after the first stop counts. -/
theorem untilStop_append (h : EndsWithStop plugin cs) (more : List Command) :
    untilStop (cs ++ more) = cs := by
  obtain ⟨before, hbefore, rfl⟩ := h
  induction before with
  | nil => rfl
  | cons c rest ih =>
    rw [List.cons_append, List.cons_append, untilStop, if_neg (hbefore c List.mem_cons_self)]
    rw [ih fun d hd => hbefore d (List.mem_cons_of_mem c hd)]

/-- What comes before all stops counts. -/
theorem untilStop_append_of_noStop (h : NoStop cs) (more : List Command) :
    untilStop (cs ++ more) = cs ++ untilStop more := by
  induction cs with
  | nil => rfl
  | cons c rest ih =>
    rw [List.cons_append, untilStop, if_neg (h c List.mem_cons_self)]
    rw [ih fun d hd => h d (List.mem_cons_of_mem c hd), List.cons_append]

theorem EndsWithStop.find? (h : EndsWithStop plugin cs) :
    cs.find? (·.request = .stop) = some ⟨plugin, .stop⟩ := by
  obtain ⟨before, hbefore, rfl⟩ := h
  have hnone : before.find? (·.request = .stop) = none := by
    rw [List.find?_eq_none]
    intro c hc
    simpa using hbefore c hc
  rw [List.find?_append, hnone]
  rfl

theorem NoStop.find? (h : NoStop cs) : cs.find? (·.request = .stop) = none := by
  rw [List.find?_eq_none]
  intro c hc
  simpa using h c hc

/-- A command that asks for a start or a stop is the one that acknowledges it. -/
theorem eq_ack_of_transition? {tr : Transition} (h : c.transition? = some tr) : c = tr.ack := by
  obtain ⟨p, r⟩ := c
  cases r <;> cases h <;> rfl

end Command

namespace Queue

variable {α : Type} {q q' : Queue α} {x : α}

/-- Nothing was sent to the queue, and nobody has let go of it. -/
structure IsNew (q : Queue α) : Prop where
  contents : q.contents = []
  hasReceiver : q.hasReceiver = true
  hasSender : q.hasSender = true

theorem IsNew.idle (h : q.IsNew) : q.waiting = [] :=
  List.map_eq_nil_iff.1 (List.append_eq_nil_iff.1 h.contents).2

theorem isNew_empty (n : Nat) : (empty n : Queue α).IsNew := ⟨rfl, rfl, rfl⟩

/-- Whether a message that is posted gets into the queue. -/
def takesIn (q : Queue α) : Bool := q.hasSender && (q.hasReceiver && q.hasRoom)

/-- A message that gets into the queue goes to the end. -/
theorem post_eq (q : Queue α) (x : α) : q.post x = if q.takesIn then q.push x else q := by
  unfold post offer takesIn
  cases q.hasSender <;> cases q.hasReceiver <;> cases q.hasRoom <;> rfl

theorem contents_post (hidle : q.waiting = []) (x : α) :
    (q.post x).contents = q.contents ++ if q.takesIn then [x] else [] := by
  rw [post_eq]
  split
  · simp [contents, push, hidle]
  · rw [List.append_nil]

/-- Taking a message leaves the ends of the queue alone. -/
theorem ends_next? (h : q.next? = some (x, q')) :
    q'.hasReceiver = q.hasReceiver ∧ q'.hasSender = q.hasSender ∧
      (q.waiting = [] → q'.waiting = []) := by
  unfold next? at h
  split at h <;> cases h
  exact ⟨rfl, rfl, fun hidle => by rw [take, hidle, List.drop_nil]⟩

theorem contents_of_next?_eq_none (h : q.next? = none) (hidle : q.waiting = []) :
    q.contents = [] := by
  unfold next? at h
  split at h
  next hbuffer => rw [contents, hbuffer, hidle, List.map_nil, List.append_nil]
  · cases h

end Queue

namespace Task

/-- The command that a task takes in its next turn. -/
def received? (s : PluginState σ) : Task → Option Command
  | listen .receive => s.commands.next?.map (·.1)
  | _ => none

/-- The start or the stop that goes inside the lifecycle lock by the next turn of a task. -/
def entered? : Task → Option Transition
  | await tr | listen (.await tr) => some tr
  | _ => none

/-- The shutdown that a task announces in its next turn. -/
def announced? : Task → Option PluginError
  | listen (.announce plugin) => some (.shuttingDown plugin)
  | _ => none

/-- A start or a stop that was called for directly and has not begun. -/
def IsCall : Task → Prop
  | call _ | await _ => True
  | _ => False

theorem not_isCall_ofTransition (tr : Transition) : ¬ (ofTransition tr).IsCall := by
  cases tr <;> exact id

theorem isCall_next [RecordStore σ] {setup : Setup} {t fresh : Nat} {s : PluginState σ}
    {task : Task} {m : Move σ} (h : task.step? setup t fresh s = some m) (hn : m.next.IsCall) :
    task.IsCall := by
  cases task with
  | call tr => trivial
  | await tr => trivial
  | start x =>
    obtain ⟨y, hy⟩ := StartTask.next_start h
    rw [hy] at hn
    cases hn
  | listen x =>
    obtain ⟨y, hy⟩ := ListenTask.next_listen h
    rw [hy] at hn
    cases hn
  | _ =>
    simp only [step?, Option.map_eq_some_iff] at h
    obtain ⟨_, -, rfl⟩ := h
    cases hn

theorem not_isCall_spawned [RecordStore σ] {setup : Setup} {t fresh : Nat} {s : PluginState σ}
    {task x : Task} {m : Move σ} (h : task.step? setup t fresh s = some m)
    (hx : m.spawned = some x) : ¬ x.IsCall := by
  rcases spawned_eq h hx with ⟨plugin, n, rfl⟩ | ⟨tr, -, rfl⟩
  · exact id
  · exact not_isCall_ofTransition tr

end Task

/-- Only the listener takes commands and ends the listening. -/
theorem Task.leaves_commands [RecordStore σ] {setup : Setup} {t fresh : Nat} {s : PluginState σ}
    {task : Task} {m : Move σ} (h : task.step? setup t fresh s = some m)
    (hkind : task.kind ≠ .listener) :
    m.state.commands = s.commands ∧ m.state.listening = s.listening := by
  cases task with
  | listen x => exact absurd rfl hkind
  | call tr =>
    cases h
    exact ⟨rfl, rfl⟩
  | await tr =>
    simp only [step?] at h
    split at h <;> cases h
    exact ⟨rfl, rfl⟩
  | start x =>
    have hw := StartTask.writes h
    exact ⟨by rw [hw], by rw [hw]⟩
  | stop x =>
    simp only [step?, Option.map_eq_some_iff, Prod.exists] at h
    obtain ⟨s', x', hx, rfl⟩ := h
    have hw := StopTask.writes hx
    exact ⟨by rw [hw], by rw [hw]⟩
  | serve x =>
    simp only [step?, Option.map_eq_some_iff, Prod.exists] at h
    obtain ⟨s', x', hx, rfl⟩ := h
    have hw := ServeTask.writes hx
    exact ⟨by rw [hw], by rw [hw]⟩
  | report x =>
    simp only [step?, Option.map_eq_some_iff, Prod.exists] at h
    obtain ⟨s', x', hx, rfl⟩ := h
    have hw := ReportTask.writes hx
    exact ⟨by rw [hw], by rw [hw]⟩
  | keeper x =>
    simp only [step?, Option.map_eq_some_iff, Prod.exists] at h
    obtain ⟨s', x', hx, rfl⟩ := h
    have hw := KeeperTask.writes hx
    exact ⟨by rw [hw], by rw [hw]⟩
  | courier x =>
    simp only [step?, Option.map_eq_some_iff, Prod.exists] at h
    obtain ⟨s', x', hx, rfl⟩ := h
    have hw := CourierTask.writes hx
    exact ⟨by rw [hw], by rw [hw]⟩

/-! ## What the listener has heard at each of its stages -/

open Command in
/-- How far the listener has come at each of its stages, if some commands were posted and some of
these taken, some starts and stops have gone inside and some shutdowns were announced. -/
def ListenTask.Heard (s : PluginState σ) (posted taken : List Command) (inside : List Transition)
    (announced : List PluginError) : ListenTask → Prop
  | .open | receive =>
    NoStop taken ∧ inside = taken.filterMap transition? ∧ announced = []
  | ask tr | await tr => ∃ before c, NoStop before ∧ taken = before ++ [c] ∧
    c.transition? = some tr ∧ inside = before.filterMap transition? ∧ announced = []
  | announce plugin =>
    EndsWithStop plugin taken ∧ inside = taken.filterMap transition? ∧ announced = []
  | wait => ∃ plugin, EndsWithStop plugin taken ∧ inside = taken.filterMap transition? ∧
    announced = [.shuttingDown plugin]
  | close | done => inside = taken.filterMap transition? ∧
    ((∃ plugin, EndsWithStop plugin taken ∧ announced = [.shuttingDown plugin]) ∨
      NoStop taken ∧ announced = [] ∧ taken = posted ∧ s.commands.hasSender = false)

/-- Commands are taken from their queue in the order in which they were posted, until the listening
ends. -/
structure PluginState.Queues (s : PluginState σ) (posted taken : List Command) (x : ListenTask) :
    Prop where
  idle : s.commands.waiting = []
  sent : taken <+: posted
  rest : x ≠ .done → s.commands.hasReceiver = true ∧ taken ++ s.commands.contents = posted
  listening : s.listening = true ↔ x ≠ .done

theorem PluginState.Queues.congr {s s' : PluginState σ} {posted taken : List Command}
    {x y : ListenTask} (h : s.Queues posted taken x) (hcommands : s'.commands = s.commands)
    (hlistening : s'.listening = s.listening) (hopen : x ≠ .done ∧ y ≠ .done) :
    s'.Queues posted taken y := by
  refine ⟨by rw [hcommands, h.idle], h.sent, fun _ => ?_, ?_⟩
  · rw [hcommands]
    exact h.rest hopen.1
  · rw [hlistening, h.listening]
    exact iff_of_true hopen.1 hopen.2

section Listener

variable {t fresh : Nat} {s : PluginState σ} {x : ListenTask} {m : Move σ}
  {posted taken : List Command} {inside : List Transition} {announced : List PluginError}

/-- The listener takes the next command, or finds that there will be no more. -/
theorem ListenTask.heard_receive (h : receive.step? t fresh s = some m)
    (hq : s.Queues posted taken receive) (hx : receive.Heard s posted taken inside announced) :
    ∃ y, m.next = .listen y ∧
      m.state.Queues posted (taken ++ ((Task.listen receive).received? s).toList) y ∧
      y.Heard m.state posted (taken ++ ((Task.listen receive).received? s).toList) inside
        announced := by
  obtain ⟨hnoStop, rfl, rfl⟩ := hx
  obtain ⟨hopen, hposted⟩ := hq.rest (by simp)
  simp only [step?] at h
  split at h
  next hnext =>
    have hnone : (Task.listen receive).received? s = none := by simp [Task.received?, hnext]
    rw [hnone, Option.toList_none, List.append_nil]
    split at h
    · cases h
    next hsender =>
      cases h
      rw [Queue.contents_of_next?_eq_none hnext hq.idle, List.append_nil] at hposted
      exact ⟨close, rfl, hq.congr rfl rfl (by simp), rfl,
        .inr ⟨hnoStop, rfl, hposted, by simpa using hsender⟩⟩
  next c q hnext =>
    have hsome : (Task.listen receive).received? s = some c := by simp [Task.received?, hnext]
    rw [hsome, Option.toList_some]
    obtain ⟨hreceiver, -, hidle⟩ := Queue.ends_next? hnext
    rw [Queue.contents_of_next? hnext, List.append_cons] at hposted
    have hqueues : ∀ y, y ≠ done →
        ({ s with commands := q } : PluginState σ).Queues posted (taken ++ [c]) y := by
      intro y hy
      refine ⟨hidle hq.idle, ⟨q.contents, hposted⟩, fun _ => ⟨hreceiver.trans hopen, hposted⟩, ?_⟩
      exact iff_of_true (hq.listening.2 (by simp)) hy
    -- a start or a stop is wanted now, and whatever else was sent is done with
    have hwanted : ∀ tr, c.transition? = some tr →
        (ask tr).Heard ({ s with commands := q } : PluginState σ) posted (taken ++ [c])
          (taken.filterMap Command.transition?) [] :=
      fun tr hc => ⟨taken, c, hnoStop, rfl, hc, rfl, rfl⟩
    have hignored : c.request ≠ .stop → c.transition? = none →
        receive.Heard ({ s with commands := q } : PluginState σ) posted (taken ++ [c])
          (taken.filterMap Command.transition?) [] :=
      fun hc hnone => ⟨hnoStop.concat hc, by simp [hnone], rfl⟩
    split at h
    all_goals
      next hrequest =>
        cases h
        refine ⟨_, rfl, hqueues _ (by simp), ?_⟩
        first
        | exact hwanted _ (by rw [Command.transition?, hrequest])
        | exact hignored (by rw [hrequest]; simp) (by rw [Command.transition?, hrequest])

/-- The listener sets off what it has asked the lock for. -/
theorem ListenTask.heard_await {tr : Transition} (h : (await tr).step? t fresh s = some m)
    (hq : s.Queues posted taken (await tr))
    (hx : (await tr).Heard s posted taken inside announced) :
    ∃ y, m.next = .listen y ∧ m.state.Queues posted taken y ∧
      y.Heard m.state posted taken (inside ++ [tr]) announced := by
  obtain ⟨before, c, hnoStop, rfl, hc, rfl, rfl⟩ := hx
  simp only [step?] at h
  split at h
  · cases h
    have hentered : before.filterMap Command.transition? ++ [tr] =
        (before ++ [c]).filterMap Command.transition? := by simp [hc]
    obtain rfl := Command.eq_ack_of_transition? hc
    cases tr with
    | start plugin =>
      have hno : Command.NoStop (before ++ [⟨plugin, .start⟩]) :=
        hnoStop.concat fun h => by cases h
      exact ⟨receive, rfl, hq.congr rfl rfl (by simp), hno, hentered, rfl⟩
    | stop plugin =>
      exact ⟨announce plugin, rfl, hq.congr rfl rfl (by simp), ⟨before, hnoStop, rfl⟩,
        hentered, rfl⟩
  · cases h

/-- A turn of the listener adds what it takes, sets off and announces. -/
theorem ListenTask.heard_next (h : x.step? t fresh s = some m)
    (hq : s.Queues posted taken x) (hx : x.Heard s posted taken inside announced) :
    ∃ y, m.next = .listen y ∧
      m.state.Queues posted (taken ++ ((Task.listen x).received? s).toList) y ∧
      y.Heard m.state posted (taken ++ ((Task.listen x).received? s).toList)
        (inside ++ (Task.listen x).entered?.toList)
        (announced ++ (Task.listen x).announced?.toList) := by
  have htaken : x ≠ receive → taken ++ ((Task.listen x).received? s).toList = taken := by
    intro hx
    cases x <;> first | exact absurd rfl hx | exact List.append_nil taken
  have hinside : (Task.listen x).entered? = none →
      inside ++ (Task.listen x).entered?.toList = inside := fun hnone => by
    rw [hnone, Option.toList_none, List.append_nil]
  have hannounced : (Task.listen x).announced? = none →
      announced ++ (Task.listen x).announced?.toList = announced := fun hnone => by
    rw [hnone, Option.toList_none, List.append_nil]
  cases x with
  | «open» =>
    cases h
    rw [htaken (by simp), hinside rfl, hannounced rfl]
    exact ⟨receive, rfl, hq.congr rfl rfl (by simp), hx⟩
  | receive =>
    rw [hinside rfl, hannounced rfl]
    exact heard_receive h hq hx
  | ask tr =>
    cases h
    rw [htaken (by simp), hinside rfl, hannounced rfl]
    exact ⟨await tr, rfl, hq.congr rfl rfl (by simp), hx⟩
  | await tr =>
    rw [htaken (by simp), hannounced rfl]
    exact heard_await h hq hx
  | announce plugin =>
    rw [htaken (by simp), hinside rfl]
    obtain ⟨hends, rfl, rfl⟩ := hx
    simp only [step?] at h
    split at h <;> cases h
    · exact ⟨close, rfl, hq.congr rfl rfl (by simp), rfl, .inl ⟨plugin, hends, rfl⟩⟩
    · exact ⟨wait, rfl, hq.congr rfl rfl (by simp), plugin, hends, rfl, rfl⟩
    · exact ⟨close, rfl, hq.congr rfl rfl (by simp), rfl, .inl ⟨plugin, hends, rfl⟩⟩
  | wait =>
    rw [htaken (by simp), hinside rfl, hannounced rfl]
    obtain ⟨plugin, hends, rfl, rfl⟩ := hx
    simp only [step?] at h
    split at h <;> cases h <;>
      exact ⟨close, rfl, hq.congr rfl rfl (by simp), rfl, .inl ⟨plugin, hends, rfl⟩⟩
  | close =>
    cases h
    rw [htaken (by simp), hinside rfl, hannounced rfl]
    refine ⟨done, rfl, ⟨hq.idle, hq.sent, fun h => absurd rfl h, ?_⟩, hx⟩
    exact iff_of_false (by simp) fun h => h rfl
  | done => cases h

end Listener

/-- A command that gets into its queue goes to its end, and a host that has let go sends no more. -/
theorem PluginState.Queues.act {s : PluginState σ} {posted taken : List Command} {x : ListenTask}
    (h : s.Queues posted taken x) (a : HostAction) : (s.act a).Queues (posted ++ (match a with
      | .command c => if s.commands.takesIn then [c] else []
      | _ => [])) taken x := by
  have hsame : ∀ s' : PluginState σ, s'.commands = s.commands → s'.listening = s.listening →
      s'.Queues (posted ++ []) taken x := by
    intro s' hcommands hlistening
    rw [List.append_nil]
    refine ⟨by rw [hcommands, h.idle], h.sent, fun hx => ?_, by rw [hlistening, h.listening]⟩
    rw [hcommands]
    exact h.rest hx
  cases a with
  | command c =>
    refine ⟨?_, h.sent.trans (List.prefix_append _ _), fun hx => ?_, h.listening⟩
    · simp only [PluginState.act, Queue.post_eq]
      split <;> exact h.idle
    · obtain ⟨hopen, hposted⟩ := h.rest hx
      have hreceiver : (s.commands.post c).hasReceiver = true := by
        rw [Queue.post_eq]
        split <;> exact hopen
      refine ⟨hreceiver, ?_⟩
      simp only [PluginState.act, Queue.contents_post h.idle, ← List.append_assoc, hposted]
  | drop e =>
    cases e with
    | commands =>
      rw [List.append_nil]
      exact ⟨h.idle, h.sent, h.rest, h.listening⟩
    | _ => exact hsame _ rfl rfl
  | _ => exact hsame _ rfl rfl

namespace Instance

/-! ## In every course -/

/-- The command that gets into its queue by an event. -/
def Event.posted? : Event σ → Option Command
  | .action j (.command c) => if j.state.commands.takesIn then some c else none
  | _ => none

/-- The commands that have got into their queue, oldest first. -/
def posted (es : List (Event σ)) : List Command := es.filterMap Event.posted?

/-- What is read off the task that has a turn. -/
def Turn.ofTask {β : Type} (f : PluginState σ → Task → Option β) (w : Turn σ) : Option β :=
  w.before.tasks[w.task]?.bind (f w.before.state)

/-- The commands that the listener has taken, oldest first. -/
def received (ts : List (Turn σ)) : List Command := ts.filterMap (Turn.ofTask Task.received?)

/-- The starts and stops that have gone inside the lifecycle lock, oldest first. -/
def entered (ts : List (Turn σ)) : List Transition :=
  ts.filterMap (Turn.ofTask fun _ => Task.entered?)

/-- The shutdowns that were announced, oldest first. -/
def announced (ts : List (Turn σ)) : List PluginError :=
  ts.filterMap (Turn.ofTask fun _ => Task.announced?)

/-- The host has called for no start and no stop directly. -/
def Commanded (es : List (Event σ)) : Prop := ∀ j tr, Event.action j (.call tr) ∉ es

/-- No start and no stop was called for directly that has not begun. -/
def Uncalled (j : Instance σ) : Prop :=
  ∀ (t : Nat) (task : Task), j.tasks[t]? = some task → ¬ task.IsCall

variable {i j k : Instance σ} {es : List (Event σ)} {t : Nat} {x : ListenTask}

theorem filterMap_ofTask_concat {β : Type} (f : PluginState σ → Task → Option β)
    (ts : List (Turn σ)) {m : Move σ} {task : Task} (htask : j.tasks[t]? = some task) :
    (ts ++ [(⟨t, j, j.move t m⟩ : Turn σ)]).filterMap (Turn.ofTask f) =
      ts.filterMap (Turn.ofTask f) ++ (f j.state task).toList := by
  have hw : Turn.ofTask f ⟨t, j, j.move t m⟩ = f j.state task := by
    rw [Turn.ofTask, htask, Option.bind_some]
  rw [List.filterMap_append]
  cases h : f j.state task <;> simp [hw, h]

theorem posted_turn (es : List (Event σ)) (w : Turn σ) : posted (es ++ [.turn w]) = posted es := by
  simp [posted, Event.posted?]

theorem Commanded.of_append {es' : List (Event σ)} (h : Commanded (es ++ es')) : Commanded es :=
  fun j tr hmem => h j tr (List.mem_append_left _ hmem)

theorem Fresh.uncalled (h : i.Fresh) : i.Uncalled := by
  intro t task ht
  rcases h.eq_of_getElem? ht with rfl | rfl | rfl <;> exact id

theorem Uncalled.act (h : j.Uncalled) {a : HostAction} (ha : ∀ tr, a ≠ .call tr) :
    (j.act a).Uncalled := by
  intro t task ht
  rw [getElem?_tasks_act] at ht
  split at ht
  · cases a with
    | call tr => exact absurd rfl (ha tr)
    | report e =>
      cases ht
      exact id
    | _ => cases ht
  · exact h t task ht

theorem Uncalled.step [RecordStore σ] (h : j.Uncalled) (hs : j.step? t = some k) :
    k.Uncalled := by
  obtain ⟨task, m, htask, hm, rfl⟩ := step?_eq_some_iff.1 hs
  intro u task' hu
  rw [getElem?_tasks_move (List.getElem?_eq_some_iff.1 htask).1] at hu
  split at hu
  · cases hu
    exact fun hcall => h t task htask (Task.isCall_next hm hcall)
  · split at hu
    · exact Task.not_isCall_spawned hm hu
    · exact h u task' hu

theorem uncalled_of_course [RecordStore σ] (hi : i.Fresh) (h : i.Course es j)
    (hc : Commanded es) : j.Uncalled := by
  induction h with
  | refl => exact hi.uncalled
  | turn _ hs ih => exact (ih hc.of_append).step hs
  | action _ a ih =>
    refine (ih hc.of_append).act fun tr ha => ?_
    subst ha
    exact hc _ tr List.mem_concat_self

/-- How far the listener has come. -/
structure Hearing (es : List (Event σ)) (j : Instance σ) (x : ListenTask) : Prop where
  listens : j.tasks[2]? = some (.listen x)
  queues : j.state.Queues (posted es) (received (turnsOf es)) x
  heard : x.Heard j.state (posted es) (received (turnsOf es)) (entered (turnsOf es))
    (announced (turnsOf es))

theorem Fresh.hearing (h : i.Fresh) (hnew : i.state.commands.IsNew) : Hearing [] i .open := by
  refine ⟨by rw [h.tasks]; rfl, ⟨hnew.idle, List.prefix_rfl, fun _ => ⟨hnew.hasReceiver, ?_⟩, ?_⟩,
    fun c hc => (by cases hc), rfl, rfl⟩
  · exact hnew.contents
  · exact iff_of_true h.listening (by simp)

theorem Hearing.act (h : Hearing es j x) (a : HostAction) :
    Hearing (es ++ [.action j a]) (j.act a) x := by
  have hlt := (List.getElem?_eq_some_iff.1 h.listens).1
  have hposted : posted (es ++ [.action j a]) = posted es ++ (match a with
      | .command c => if j.state.commands.takesIn then [c] else []
      | _ => []) := by
    rw [posted, List.filterMap_append, posted]
    cases a with
    | command c => cases hc : j.state.commands.takesIn <;> simp [Event.posted?, hc]
    | _ => rfl
  refine ⟨?_, ?_, ?_⟩
  · rw [getElem?_tasks_act, if_neg (by omega)]
    exact h.listens
  · rw [state_act, turnsOf_action, hposted]
    exact h.queues.act a
  · rw [state_act, turnsOf_action, hposted]
    have hheard := h.heard
    cases x with
    | close | done =>
      obtain ⟨hentered, hended⟩ := hheard
      refine ⟨hentered, hended.imp_right fun ⟨hnoStop, hannounced, hall, hgone⟩ => ?_⟩
      -- nothing is sent any more by a host that has let go
      have hnothing : j.state.commands.takesIn = false := by simp [Queue.takesIn, hgone]
      refine ⟨hnoStop, hannounced, ?_, ?_⟩
      · cases a <;> simp [hnothing, hall]
      · cases a with
        | command c =>
          have hpost : j.state.commands.post c = j.state.commands := by
            rw [Queue.post_eq, if_neg (by simp [hnothing])]
          exact (congrArg Queue.hasSender hpost).trans hgone
        | drop e => cases e <;> first | rfl | exact hgone
        | _ => exact hgone
    | _ => exact hheard

variable [RecordStore σ]

theorem Hearing.step (h : Hearing es j x) (hc : j.Uncalled)
    (honly : ∀ u y, j.tasks[u]? = some (.listen y) → u = 2) (hs : j.step? t = some k) :
    ∃ y, Hearing (es ++ [.turn ⟨t, j, k⟩]) k y := by
  obtain ⟨task, m, htask, hm, rfl⟩ := step?_eq_some_iff.1 hs
  have ht := (List.getElem?_eq_some_iff.1 htask).1
  have hlt := (List.getElem?_eq_some_iff.1 h.listens).1
  have hreceived := filterMap_ofTask_concat Task.received? (turnsOf es) (m := m) htask
  have hentered := filterMap_ofTask_concat (fun _ => Task.entered?) (turnsOf es) (m := m) htask
  have hannounced := filterMap_ofTask_concat (fun _ => Task.announced?) (turnsOf es) (m := m) htask
  by_cases ht2 : t = 2
  · subst ht2
    obtain rfl : task = .listen x := Option.some.inj (htask.symm.trans h.listens)
    obtain ⟨y, hy, hqueues, hheard⟩ := ListenTask.heard_next hm h.queues h.heard
    refine ⟨y, ?_, ?_, ?_⟩
    · rw [getElem?_tasks_move ht, if_pos rfl, hy]
    · rw [state_move, posted_turn, turnsOf_turn, received, hreceived]
      exact hqueues
    · rw [state_move, posted_turn, turnsOf_turn, received, entered, announced, hreceived, hentered,
        hannounced]
      exact hheard
  · -- nobody but the listener has to do with commands
    have hkind : task.kind ≠ .listener := by
      intro hkind
      cases task with
      | listen y => exact ht2 (honly t y htask)
      | _ => cases hkind
    obtain ⟨hcommands, hlistening⟩ := Task.leaves_commands hm hkind
    have hnothing : task.received? j.state = none ∧ task.entered? = none ∧
        task.announced? = none := by
      cases task with
      | listen y => exact absurd rfl hkind
      | await tr => exact absurd trivial (hc t _ htask)
      | _ => exact ⟨rfl, rfl, rfl⟩
    refine ⟨x, ?_, ?_, ?_⟩
    · rw [getElem?_tasks_move ht, if_neg (Ne.symm ht2), if_neg (by omega), h.listens]
    · rw [state_move, posted_turn, turnsOf_turn, received, hreceived, hnothing.1,
        Option.toList_none, List.append_nil]
      obtain ⟨hidle, hsent, hrest, hl⟩ := h.queues
      refine ⟨by rw [hcommands, hidle], hsent, ?_, by rw [hlistening, hl]⟩
      rw [hcommands]
      exact hrest
    · rw [state_move, posted_turn, turnsOf_turn, received, entered, announced, hreceived, hentered,
        hannounced, hnothing.1, hnothing.2.1, hnothing.2.2]
      simp only [Option.toList_none, List.append_nil]
      have hheard := h.heard
      cases x with
      | close | done =>
        rw [ListenTask.Heard, hcommands]
        exact hheard
      | _ => exact hheard

/-- As long as the host calls for no start and no stop directly, the listener is at one of its
stages in every course. -/
theorem hearing_of_course (hi : i.Fresh) (hnew : i.state.commands.IsNew) (h : i.Course es j)
    (hc : Commanded es) : ∃ x, Hearing es j x := by
  induction h with
  | refl => exact ⟨.open, hi.hearing hnew⟩
  | turn h hs ih =>
    obtain ⟨x, hx⟩ := ih hc.of_append
    exact hx.step (uncalled_of_course hi h hc.of_append)
      (listener_of_reachable hi h.reachable) hs
  | action _ a ih =>
    obtain ⟨x, hx⟩ := ih hc.of_append
    exact ⟨x, hx.act a⟩

end Instance

end PluginKernel
