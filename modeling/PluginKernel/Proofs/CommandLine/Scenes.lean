import PluginKernel.Proofs.CommandLine.Parts

/-!
# The scenes of a run

A host that runs a plugin sends one start and, once that was acknowledged, one stop. So there are
never more than three tasks beside the listener, the keeper and the courier: the start, the server
that it lets run, and the stop. A run goes through four scenes, in which nobody, the first, the
first two or all three of them are there; a start that fails ends in a scene of its own.

The step lemmas of the parts are put together in `Scene.step_actor`, and `inScene_of_session` says
that every run is in one of the scenes all the time.
-/

namespace PluginKernel

open Instance (Event Turn queued turnsOf)

variable {σ : Type}

namespace CommandLine

variable {s : PluginState σ} {setup : Setup} {m : Move σ} {id n : String}

/-- The stages of the host before the start is taken up: whether it was sent. -/
inductive BeforeStart : Stage → Bool → Prop where
  | attached : BeforeStart .attached false
  | starting : BeforeStart .starting true

/-- The stages of the host before the stop is taken up: whether the host has heard of the start, and
whether the stop was sent. -/
inductive BeforeStop : Stage → Bool → Bool → Prop where
  | starting : BeforeStop .starting false false
  | running : BeforeStop .running true false
  | stopping : BeforeStop .stopping true true

/-- Where a run stands: the stage of the host, the ledgers that were queued, the tasks but the
keeper and the courier, and what they act upon. -/
inductive Scene (id n : String) : Stage → List Ledger → List Task → Setting → Prop where
  /-- The start has not been taken up. -/
  | opening {st : Stage} {sent : Bool} {z : ListenTask} {cs : List Command} {waits : List Nat}
      (hst : BeforeStart st sent)
      (hz : Hears ⟨n, .start⟩ (.start n) sent z cs waits) :
      Scene id n st [] [.listen z]
        ⟨.ofLine waits, none, none, [], true, .holding cs, .holding [], .holding []⟩
  /-- The server is brought up. -/
  | raising {x : StartTask} {ls : List Listener} (hx : Raises n x ls) :
      Scene id n .starting [] [.listen .receive, .start x]
        ⟨.ofLine [3], none, none, ls, true, .holding [], .holding [], .holding []⟩
  /-- The server could not be brought up. -/
  | failing {x : StartTask} {lock : Lock} {ls : List Listener} {errors : Queue PluginError}
      (hx : HasFailed x) :
      Scene id n .starting [] [.listen .receive, .start x]
        ⟨lock, none, none, ls, true, .holding [], .holding [], errors⟩
  /-- The server runs, and the stop has not been taken up. -/
  | running {st : Stage} {sent heard : Bool} {q : List Ledger} {z : ListenTask} {x : StartTask}
      {v : ServeTask} {cs acks : List Command} {holds waits : List Nat} {ledger : Option Ledger}
      {e : Endpoint} (hst : BeforeStop st heard sent)
      (hz : Hears ⟨n, .stop⟩ (.stop n) sent z cs waits) (hx : Opens id n x ledger holds q)
      (hv : Serves n heard v acks) :
      Scene id n st q [.listen z, .start x, .serve v] ⟨.ofLine (holds ++ waits), some 0, ledger,
        [{ endpoint := e }], true, .holding cs, .holding acks, .holding []⟩
  /-- The stop has been taken up. -/
  | closing {st : Stage} {q q₁ q₂ : List Ledger} {z : ListenTask} {x : StartTask} {v : ServeTask}
      {p : StopTask} {l : Ledger} {commands : Queue Command} {acks : List Command}
      {errors : List PluginError} {line : List Nat} {server : Option Nat} {ledger : Option Ledger}
      {listening cancelled closed : Bool} {e : Endpoint} (hl : IsOpened id n l)
      (hz : Closes n z listening errors) (hx : Emits l x q₁) (hv : Quits v cancelled closed)
      (hp : Stops id n l p server ledger line cancelled q₂) (hanswers : Answers n st p acks)
      (hq : q.Perm (q₁ ++ q₂)) :
      Scene id n st q [.listen z, .start x, .serve v, .stop p] ⟨.ofLine line, server, ledger,
        [⟨e, cancelled, closed⟩], listening, commands, .holding acks, .holding errors⟩

/-- The scene after a turn of one of the tasks. -/
def Scene.Follows (id n : String) (st : Stage) (q : List Ledger) (actors : List Task)
    (s : PluginState σ) (u : Nat) (m : Move σ) : Prop :=
  Scene id n st (q ++ m.state.outbox.drop s.outbox.length)
    (actors.set u m.next ++ m.spawned.toList) m.state.setting

theorem Scene.follows {st : Stage} {q out : List Ledger} {actors : List Task} {u : Nat}
    {w : Setting} {next : Task} {spawned : Option Task} (h : m.LeadsTo s w out next spawned)
    (hscene : Scene id n st (q ++ out) (actors.set u next ++ spawned.toList) w) :
    Scene.Follows id n st q actors s u m := by
  rw [Scene.Follows, h.setting, h.outbox, h.next, h.spawned, List.drop_left]
  exact hscene

/-- Once the listener has taken up the stop, the stop holds the lock. Then the start has let go of
it, so the ledger is open. -/
theorem Scene.closing_of_taken {q : List Ledger} {x : StartTask} {v : ServeTask}
    {acks : List Command} {ledger : Option Ledger} {e : Endpoint} (hx : Opens id n x ledger [] q)
    (hv : Serves n true v acks) : Scene id n .stopping q
      [.listen (.announce n), .start x, .serve v, .stop (.enter n)] ⟨.ofLine [5], some 0, ledger,
        [{ endpoint := e }], true, .holding [], .holding acks, .holding []⟩ := by
  obtain ⟨l, hl, rfl, hemits⟩ := hx.emits
  cases hv with
  | heard hv =>
    refine .closing hl .announce hemits (.serving hv false) .enter (.pending nofun) ?_
    rw [List.append_nil]

/-- Whose turn it is among some tasks. -/
theorem getElem?_cons_cases {t task : Task} {ts : List Task} {u : Nat}
    (h : (t :: ts)[u]? = some task) : (u = 0 ∧ task = t) ∨ ∃ v, u = v + 1 ∧ ts[v]? = some task := by
  cases u with
  | zero => exact .inl ⟨rfl, (Option.some.inj h).symm⟩
  | succ v => exact .inr ⟨v, rfl, h⟩

/-! ## What the host does in a scene -/

section Host

variable {st : Stage} {q : List Ledger} {actors : List Task} {w : Setting}

/-- The start is sent to a listener that has heard nothing. -/
theorem Scene.send_start (h : Scene id n .attached q actors w) :
    Scene id n .starting q actors { w with commands := w.commands.post ⟨n, .start⟩ } := by
  cases h with
  | opening hst hz =>
    cases hst
    cases hz with
    | idle hz =>
      rw [Queue.post_holding (by decide)]
      exact .opening .starting (.sent hz)
  | running hst => cases hst
  | closing _ _ _ _ _ hanswers => cases hanswers with | heard hst => cases hst

/-- Only a server that runs has acknowledged the start. -/
theorem Scene.hear_start (h : Scene id n .starting q actors w) (hacks : w.acks.buffer ≠ []) :
    Scene id n .running q actors { w with acks := w.acks.read 1 } := by
  cases h with
  | opening | raising | failing => exact absurd rfl hacks
  | running hst hz hx hv =>
    cases hst
    cases hv with
    | greet => exact absurd rfl hacks
    | acknowledged hv =>
      rw [Queue.read_holding]
      exact .running .running hz hx (.heard hv)
  | closing _ _ _ _ _ hanswers => cases hanswers with | heard hst => cases hst

/-- The stop is sent to a listener that has heard nothing since the start. -/
theorem Scene.send_stop (h : Scene id n .running q actors w) :
    Scene id n .stopping q actors { w with commands := w.commands.post ⟨n, .stop⟩ } := by
  cases h with
  | opening hst => cases hst
  | running hst hz hx hv =>
    cases hst
    cases hz with
    | idle hz =>
      rw [Queue.post_holding (by decide)]
      exact .running .stopping (.sent hz) hx hv
  | closing _ _ _ _ _ hanswers => cases hanswers with | heard hst => cases hst

/-- Only a stop that is done has been acknowledged: what the server had to say was heard before. -/
theorem Scene.hear_stop (h : Scene id n .stopping q actors w) (hacks : w.acks.buffer ≠ []) :
    Scene id n .leaving q actors { w with acks := w.acks.read 1 } := by
  cases h with
  | opening hst => cases hst
  | running hst hz hx hv =>
    cases hst
    cases hv with
    | heard => exact absurd rfl hacks
  | closing hl hz hx hv hp hanswers hq =>
    cases hanswers with
    | pending => exact absurd rfl hacks
    | answered =>
      rw [Queue.read_holding]
      exact .closing hl hz hx hv hp (.heard .leaving) hq
    | heard hst => cases hst

/-- The host lets go of the commands. -/
theorem Scene.leave (h : Scene id n .leaving q actors w) :
    Scene id n .gone q actors { w with commands := w.commands.dropSender } := by
  cases h with
  | opening hst => cases hst
  | running hst => cases hst
  | closing hl hz hx hv hp hanswers hq =>
    cases hanswers with
    | heard => exact .closing hl hz hx hv hp (.heard .gone) hq

/-- Nothing in a scene depends on whether errors have been read. -/
theorem Scene.read_errors (h : Scene id n st q actors w) (k : Nat) :
    Scene id n st q actors { w with errors := w.errors.read k } := by
  cases h with
  | opening hst hz =>
    rw [Queue.read_holding, List.drop_nil]
    exact .opening hst hz
  | raising hx =>
    rw [Queue.read_holding, List.drop_nil]
    exact .raising hx
  | failing hx => exact .failing hx
  | running hst hz hx hv =>
    rw [Queue.read_holding, List.drop_nil]
    exact .running hst hz hx hv
  | closing hl hz hx hv hp hanswers hq =>
    rw [Queue.read_holding]
    exact .closing hl (hz.read k) hx hv hp hanswers hq

end Host

/-! ## Turns of the tasks in a scene -/

variable [RecordStore σ]

/-- While the server runs, the listener waits for the stop, and may take it up only after the start
has let go of the lock. -/
theorem Scene.step_running {st : Stage} {sent heard : Bool} {q : List Ledger} {z : ListenTask}
    {x : StartTask} {v : ServeTask} {cs acks : List Command} {holds waits : List Nat}
    {ledger : Option Ledger} {e : Endpoint} {u : Nat} {task : Task}
    (hw : s.setting = ⟨.ofLine (holds ++ waits), some 0, ledger, [{ endpoint := e }], true,
      .holding cs, .holding acks, .holding []⟩)
    (hst : BeforeStop st heard sent) (hz : Hears ⟨n, .stop⟩ (.stop n) sent z cs waits)
    (hx : Opens setup.equipment.argosId n x ledger holds q) (hv : Serves n heard v acks)
    (htask : [.listen z, .start x, .serve v][u]? = some task)
    (hm : task.step? setup (u + 2) 5 s = some m) :
    Scene.Follows setup.equipment.argosId n st q [.listen z, .start x, .serve v] s u m := by
  have hlock := congrArg Setting.lock hw
  obtain ⟨rfl, rfl⟩ | ⟨u, rfl, hstart⟩ := getElem?_cons_cases htask
  · have hholds := hx.two_notMem
    rcases hz.step rfl hholds hlock (congrArg Setting.commands hw) hm with
      ⟨z', cs', waits', hz', hleads⟩ | ⟨rfl, rfl, rfl, hleads⟩
    · rw [hw] at hleads
      exact .follows hleads (.running hst hz' (by rwa [List.append_nil]) hv)
    · cases hst
      rw [hw] at hleads
      refine .follows hleads ?_
      rw [List.append_nil]
      exact closing_of_taken hx hv
  obtain ⟨rfl, rfl⟩ | ⟨u, rfl, hserve⟩ := getElem?_cons_cases hstart
  · obtain ⟨x', ledger', holds', out, hx', hleads⟩ :=
      hx.step (congrArg Setting.ledger hw) hlock hm
    rw [hw] at hleads
    exact .follows hleads (.running hst hz hx' hv)
  obtain ⟨rfl, rfl⟩ | ⟨u, -, hnone⟩ := getElem?_cons_cases hserve
  · simp only [Task.step?, Option.map_eq_some_iff, Prod.exists] at hm
    obtain ⟨s', v', hm, rfl⟩ := hm
    obtain ⟨acks', hv', hleads⟩ :=
      hv.step (congrArg Setting.listeners hw) (congrArg Setting.acks hw) hm
    rw [hw] at hleads
    exact .follows hleads (.running hst hz (by rwa [List.append_nil]) hv')
  · cases hnone

/-- Once the stop is taken up, the start only queues its ledger, and the stop waits for the
server. -/
theorem Scene.step_closing {st : Stage} {q q₁ q₂ : List Ledger} {z : ListenTask} {x : StartTask}
    {v : ServeTask} {p : StopTask} {l : Ledger} {commands : Queue Command} {acks : List Command}
    {errors : List PluginError} {line : List Nat} {server : Option Nat} {ledger : Option Ledger}
    {listening cancelled closed : Bool} {e : Endpoint} {u : Nat} {task : Task}
    (hw : s.setting = ⟨.ofLine line, server, ledger, [⟨e, cancelled, closed⟩], listening, commands,
      .holding acks, .holding errors⟩)
    (hl : IsOpened setup.equipment.argosId n l) (hz : Closes n z listening errors)
    (hx : Emits l x q₁) (hv : Quits v cancelled closed)
    (hp : Stops setup.equipment.argosId n l p server ledger line cancelled q₂)
    (hanswers : Answers n st p acks) (hq : q.Perm (q₁ ++ q₂))
    (htask : [.listen z, .start x, .serve v, .stop p][u]? = some task)
    (hm : task.step? setup (u + 2) 6 s = some m) :
    Scene.Follows setup.equipment.argosId n st q [.listen z, .start x, .serve v, .stop p] s u
      m := by
  obtain ⟨rfl, rfl⟩ | ⟨u, rfl, hstart⟩ := getElem?_cons_cases htask
  · obtain ⟨z', listening', commands', errors', hz', hleads⟩ :=
      hz.step (congrArg Setting.listening hw) (congrArg Setting.errors hw) hm
    rw [hw] at hleads
    exact .follows hleads (.closing hl hz' hx hv hp hanswers (by rwa [List.append_nil]))
  obtain ⟨rfl, rfl⟩ | ⟨u, rfl, hserve⟩ := getElem?_cons_cases hstart
  · obtain ⟨x', out, hx', hleads⟩ := hx.step hm
    rw [hw] at hleads
    refine .follows hleads (.closing hl hz hx' hv hp hanswers ?_)
    -- what the start has queued may stand behind what the stop has queued
    calc
      (q ++ out).Perm (q₁ ++ q₂ ++ out) := hq.append_right out
      (q₁ ++ q₂ ++ out).Perm (q₁ ++ out ++ q₂) := by
        rw [List.append_assoc, List.append_assoc]
        exact List.perm_append_comm.append_left q₁
  obtain ⟨rfl, rfl⟩ | ⟨u, rfl, hstop⟩ := getElem?_cons_cases hserve
  · simp only [Task.step?, Option.map_eq_some_iff, Prod.exists] at hm
    obtain ⟨s', v', hm, rfl⟩ := hm
    obtain ⟨closed', hv', hleads⟩ := hv.step (congrArg Setting.listeners hw) hm
    rw [hw] at hleads
    exact .follows hleads (.closing hl hz hx hv' hp hanswers (by rwa [List.append_nil]))
  obtain ⟨rfl, rfl⟩ | ⟨u, -, hnone⟩ := getElem?_cons_cases hstop
  · simp only [Task.step?, Option.map_eq_some_iff, Prod.exists] at hm
    obtain ⟨s', p', hm, rfl⟩ := hm
    obtain ⟨server', ledger', line', cancelled', out, acks', hp', hanswers', hc, hleads⟩ :=
      hp.step hanswers (by rw [hw]) hm
    rw [hw] at hleads
    refine .follows hleads (.closing hl hz hx (hv.cancel hc) hp' hanswers' ?_)
    rw [← List.append_assoc]
    exact hq.append_right out
  · cases hnone

/-- A turn in a scene leads to the same scene or the next. -/
theorem Scene.step_actor {st : Stage} {q : List Ledger} {actors : List Task} {u : Nat}
    {task : Task} (h : Scene setup.equipment.argosId n st q actors s.setting)
    (htask : actors[u]? = some task)
    (hm : task.step? setup (u + 2) (actors.length + 2) s = some m) :
    Scene.Follows setup.equipment.argosId n st q actors s u m := by
  generalize hw : s.setting = w at h
  cases h with
  | opening hst hz =>
    obtain ⟨rfl, rfl⟩ | ⟨u, -, hnone⟩ := getElem?_cons_cases htask
    · rcases hz.step rfl List.not_mem_nil (congrArg Setting.lock hw)
        (congrArg Setting.commands hw) hm with
          ⟨z', cs', waits', hz', hleads⟩ | ⟨hsent, rfl, -, hleads⟩
      · rw [hw] at hleads
        exact .follows hleads (.opening hst hz')
      · rw [hsent] at hst
        cases hst
        rw [hw] at hleads
        exact .follows hleads (.raising .enter)
    · cases hnone
  | raising hx =>
    obtain ⟨rfl, rfl⟩ | ⟨u, rfl, hstart⟩ := getElem?_cons_cases htask
    · rw [Task.step?, step?_receive_eq_none (congrArg Setting.commands hw)] at hm
      cases hm
    obtain ⟨rfl, rfl⟩ | ⟨u, -, hnone⟩ := getElem?_cons_cases hstart
    · rcases hx.step (congrArg Setting.server hw) (congrArg Setting.listeners hw) hm with
        ⟨x', ls', hx' | hx', hleads⟩ | ⟨e, rfl, hleads⟩
      · rw [hw] at hleads
        exact .follows hleads (.raising hx')
      · rw [hw] at hleads
        exact .follows hleads (.failing hx')
      · rw [hw] at hleads
        exact .follows hleads (.running .starting (.idle (.inr rfl)) .record .greet)
    · cases hnone
  | failing hx =>
    obtain ⟨rfl, rfl⟩ | ⟨u, rfl, hstart⟩ := getElem?_cons_cases htask
    · rw [Task.step?, step?_receive_eq_none (congrArg Setting.commands hw)] at hm
      cases hm
    obtain ⟨rfl, rfl⟩ | ⟨u, -, hnone⟩ := getElem?_cons_cases hstart
    · obtain ⟨x', lock', errors', hx', hleads⟩ := hx.step (congrArg Setting.ledger hw) hm
      rw [hw] at hleads
      exact .follows hleads (.failing hx')
    · cases hnone
  | running hst hz hx hv => exact step_running hw hst hz hx hv htask hm
  | closing hl hz hx hv hp hanswers hq =>
    exact step_closing hw hl hz hx hv hp hanswers hq htask hm

/-! ## The plugin of a run -/

/-- A plugin in a scene. The keeper and the courier may be at any stage. -/
def InScene (id n : String) (st : Stage) (q : List Ledger) (j : Instance σ) : Prop :=
  ∃ x y actors, j.tasks = .keeper x :: .courier y :: actors ∧
    Scene id n st q actors j.state.setting

/-- A plugin that was attached for a run: it is fresh, keeps its statistics in a store, and has
empty queues with the room that a run gives them. -/
structure Prepared (filing : Filing) (store : σ) (i : Instance σ) : Prop where
  fresh : i.Fresh
  argosId : i.setup.equipment.argosId = filing.id
  filing : i.setup.filing? = some filing
  store : i.state.store = store
  commands : i.state.commands = .holding []
  acks : i.state.acks = .holding []
  errors : i.state.errors = .holding []
  dataflow : i.state.dataflow = .holding []

omit [RecordStore σ] in
theorem Prepared.inScene {filing : Filing} {store : σ} {i : Instance σ}
    (h : Prepared filing store i) : InScene filing.id n .attached [] i := by
  refine ⟨_, _, _, h.fresh.tasks, ?_⟩
  rw [PluginState.setting, h.fresh.lock, h.fresh.server, h.fresh.ledger, h.fresh.listeners,
    h.fresh.listening, h.commands, h.acks, h.errors]
  exact .opening .attached (.idle (.inl rfl))

variable {i j k : Instance σ} {st st' : Stage} {q : List Ledger} {es : List (Event σ)}

theorem InScene.step {t : Nat} (h : InScene id n st q j) (hid : j.setup.equipment.argosId = id)
    (hs : j.step? t = some k) : InScene id n st (q ++ (⟨t, j, k⟩ : Turn σ).queued) k := by
  obtain ⟨x, y, actors, htasks, hscene⟩ := h
  obtain ⟨task, m, htask, hm, rfl⟩ := Instance.step?_eq_some_iff.1 hs
  have hqueued : (⟨t, j, j.move t m⟩ : Turn σ).queued =
      m.state.outbox.drop j.state.outbox.length := by
    rw [Turn.queued, Instance.state_move]
  have hmoved := Instance.tasks_move j t m
  rw [htasks] at htask hmoved hm
  rw [hqueued]
  rcases t with - | - | u
  · -- the keeper takes ledgers out of their queue and leaves the setting alone
    cases htask
    simp only [Task.step?, Option.map_eq_some_iff, Prod.exists] at hm
    obtain ⟨s', x', hx, rfl⟩ := hm
    refine ⟨x', y, actors, ?_, ?_⟩
    · rw [hmoved, List.set_cons_zero, Option.toList_none, List.append_nil]
    · have hsame : s'.setting = j.state.setting := by rw [KeeperTask.writes hx]; rfl
      rw [Instance.state_move, List.drop_eq_nil_of_le (KeeperTask.conveys hx).2.1,
        List.append_nil, hsame]
      exact hscene
  · cases htask
    simp only [Task.step?, Option.map_eq_some_iff, Prod.exists] at hm
    obtain ⟨s', y', hy, rfl⟩ := hm
    refine ⟨x, y', actors, ?_, ?_⟩
    · rw [hmoved, List.set_cons_succ, List.set_cons_zero, Option.toList_none, List.append_nil]
    · have hsame : s'.setting = j.state.setting := by rw [CourierTask.writes hy]; rfl
      rw [Instance.state_move, (CourierTask.leaves hy).2.2.1, List.drop_length, List.append_nil,
        hsame]
      exact hscene
  · refine ⟨x, y, actors.set u m.next ++ m.spawned.toList, ?_, ?_⟩
    · rw [hmoved, List.set_cons_succ, List.set_cons_succ, List.cons_append, List.cons_append]
    · rw [Instance.state_move]
      rw [← hid] at hscene ⊢
      exact hscene.step_actor htask hm

omit [RecordStore σ] in
theorem InScene.act {a : HostAction} {q : List Ledger} (h : InScene id n st q j)
    (htask : a.task? = none) (hscene : ∀ actors, Scene id n st q actors j.state.setting →
      Scene id n st' q actors (j.state.act a).setting) : InScene id n st' q (j.act a) := by
  obtain ⟨x, y, actors, htasks, hbefore⟩ := h
  refine ⟨x, y, actors, ?_, ?_⟩
  · rw [Instance.act, htask]
    exact htasks
  · rw [Instance.state_act]
    exact hscene actors hbefore

omit [RecordStore σ] in
/-- What happens beside what the host does in turn leaves a scene as it is. -/
theorem InScene.incident {a : HostAction} (h : InScene id n st q j) (ha : a.IsIncidental) :
    InScene id n st q (j.act a) := by
  cases ha with
  | readErrors k => exact h.act rfl fun _ hscene => hscene.read_errors k
  | readLedgers k => exact h.act rfl fun _ hscene => hscene
  | ambient ha => cases ha <;> exact h.act rfl fun _ hscene => hscene

omit [RecordStore σ] in
/-- What the host does in turn leads a scene on to the next stage. -/
theorem InScene.next {a : HostAction} (h : InScene id n st q j) (ha : st.Next n j.state a st') :
    InScene id n st' q (j.act a) := by
  cases ha with
  | start => exact h.act rfl fun _ hscene => hscene.send_start
  | started hacks => exact h.act rfl fun _ hscene => hscene.hear_start hacks
  | stop => exact h.act rfl fun _ hscene => hscene.send_stop
  | stopped hacks => exact h.act rfl fun _ hscene => hscene.hear_stop hacks
  | leave => exact h.act rfl fun _ hscene => hscene.leave

/-- A run is in a scene all the time. -/
theorem inScene_of_session {filing : Filing} {store : σ} (hi : Prepared filing store i)
    (h : Session n i st es j) : InScene filing.id n st (queued (turnsOf es)) j := by
  induction h with
  | refl => exact hi.inScene
  | turn h hs ih =>
    rw [Instance.turnsOf_turn, Instance.queued_concat]
    have hsetup := Instance.setup_of_reachable h.course.reachable
    exact ih.step (by rw [hsetup, hi.argosId]) hs
  | incident _ ha ih =>
    rw [Instance.turnsOf_action]
    exact ih.incident ha
  | next _ ha ih =>
    rw [Instance.turnsOf_action]
    exact ih.next ha

end CommandLine

end PluginKernel
