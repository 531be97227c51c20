import PluginKernel.Proofs.Instance.Acknowledging
import PluginKernel.Proofs.Instance.Affairs

/-!
# One operation at a time

While a plugin is busy with one thing that its host has asked for, at most two of its tasks have
anything to do with its affairs: the one that leads, and the listener. All others are bystanders.
`Instance.prospect` is what the affairs will be when both are done, and every turn of whatever task
and everything that a host does to get on keeps it: `Underway.step` and `Underway.upkeep`. So when
the plugin has come to rest, the affairs are what they were bound to be from the beginning, in
whatever order turns were taken, and whichever ends the host has let go of in the meantime.
-/

namespace PluginKernel

variable {σ : Type}

/-! ## Bystanders -/

/-- A task that has nothing to do with the affairs of its plugin, or nothing more. -/
inductive Task.IsBystander : Task → Prop where
  | serve (x : ServeTask) : IsBystander (.serve x)
  | keeper (x : KeeperTask) : IsBystander (.keeper x)
  | courier (x : CourierTask) : IsBystander (.courier x)
  | started : IsBystander (.start .done)
  | failed : IsBystander (.start (.report .done))
  | stopped : IsBystander (.stop .done)
  | reported : IsBystander (.report .done)

namespace Task.IsBystander

variable {x : Task}

theorem ahead (h : x.IsBystander) (w : Surroundings) (a : Affairs) : x.ahead w a = a := by
  cases h <;> rfl

theorem kind_ne (h : x.IsBystander) : x.kind ≠ .listener := by
  cases h <;> simp [kind]

theorem next [RecordStore σ] {setup : Setup} {t fresh : Nat} {s : PluginState σ} {m : Move σ}
    (h : x.IsBystander) (hs : x.step? setup t fresh s = some m) :
    m.next.IsBystander ∧ m.spawned = none := by
  cases h with
  | serve | keeper | courier =>
    simp only [step?, Option.map_eq_some_iff] at hs
    obtain ⟨_, -, rfl⟩ := hs
    exact ⟨by constructor, rfl⟩
  | _ => cases hs

end Task.IsBystander

/-- What is set off by anybody but the listener is a bystander. -/
theorem Task.isBystander_spawned [RecordStore σ] {setup : Setup} {t fresh : Nat}
    {s : PluginState σ} {task x : Task} {m : Move σ} (h : task.step? setup t fresh s = some m)
    (hkind : task.kind ≠ .listener) (hx : m.spawned = some x) : x.IsBystander := by
  rcases Task.spawned_eq h hx with ⟨n, l, rfl⟩ | ⟨tr, rfl, -⟩
  · exact .serve _
  · exact absurd rfl hkind

/-- A host does not reach the affairs of a plugin. -/
theorem PluginState.affairs_act (s : PluginState σ) (a : HostAction) (ls : List Ledger)
    (told : List PluginError) : (s.act a).affairs ls told = s.affairs ls told := by
  cases a with
  | drop e => cases e <;> rfl
  | _ => rfl

/-! ## What a host does to get on -/

/-- Reading, letting go of the acknowledgments or of the ledgers, and letting time pass. -/
inductive HostAction.IsUpkeep : HostAction → Prop where
  | readAcks (n : Nat) : IsUpkeep (.readAcks n)
  | readErrors (n : Nat) : IsUpkeep (.readErrors n)
  | readLedgers (n : Nat) : IsUpkeep (.readLedgers n)
  | readChat (n : Nat) : IsUpkeep (.readChat n)
  | dropAcks : IsUpkeep (.drop .acks)
  | dropLedgers : IsUpkeep (.drop .dataflow)
  | wait (nanos : Nat) : IsUpkeep (.wait nanos)

theorem HostAction.IsUpkeep.task?_eq_none {a : HostAction} (h : a.IsUpkeep) : a.task? = none := by
  cases h <;> rfl

/-- The surroundings of a plugin after an action of its host. -/
def Surroundings.act (w : Surroundings) : HostAction → Surroundings
  | .drop .errors => { w with hears := false }
  | .drop .commands => { w with speaks := false }
  | .occupy e => { w with occupied := w.occupied ++ [e] }
  | .vacate e => { w with occupied := w.occupied.filter (· != e) }
  | _ => w

theorem PluginState.surroundings_act (s : PluginState σ) (setup : Setup) (a : HostAction) :
    (s.act a).surroundings setup = (s.surroundings setup).act a := by
  cases a with
  | readErrors n =>
    simp only [PluginState.act, surroundings, Queue.read, Surroundings.act]
    split <;> rfl
  | command c =>
    simp only [PluginState.act, surroundings, Queue.post_eq, Surroundings.act]
    split <;> rfl
  | drop e => cases e <;> rfl
  | _ => rfl

theorem Surroundings.act_upkeep (w : Surroundings) {a : HostAction} (h : a.IsUpkeep) :
    w.act a = w := by
  cases h <;> rfl

/-- What a host does to get on does not reach the commands. -/
theorem HostAction.IsUpkeep.leaves_commands {a : HostAction} (h : a.IsUpkeep)
    (s : PluginState σ) : (s.act a).commands = s.commands ∧ (s.act a).listening = s.listening := by
  cases h <;> exact ⟨rfl, rfl⟩

namespace Queue

variable {α : Type} {q : Queue α}

/-- All that was sent has been read, unless nobody reads. -/
def Drained (q : Queue α) : Prop := q.hasReceiver = true → q.contents = []

theorem Drained.isWaiting_eq_false (h : q.Drained) (hopen : q.hasReceiver = true) (t : Nat) :
    q.isWaiting t = false := by
  have hidle : q.waiting = [] :=
    List.map_eq_nil_iff.1 (List.append_eq_nil_iff.1 (h hopen)).2
  rw [isWaiting, hidle]
  rfl

end Queue

/-! ## What an operation brings about -/

/-- The listener of a plugin that is at ease: it waits for a command, or it listens no longer. -/
def ListenTask.resting (listening : Bool) : ListenTask := if listening then .receive else .done

/-- The commands that are there to be taken after an action, if there were none before. -/
def HostAction.posted (w : Surroundings) (a : Affairs) : HostAction → List Command
  | .command c => if w.speaks ∧ a.listening ∧ 0 < w.room then [c] else []
  | _ => []

/-- The affairs when all is done that an action brings about. -/
def Affairs.after (w : Surroundings) (a : Affairs) (op : HostAction) : Affairs :=
  (ListenTask.resting a.listening).ahead w (op.posted w a) (op.task?.elim a fun x => x.ahead w a)

namespace Instance

variable [RecordStore σ] {i j k : Instance σ} {t u : Nat} {x z : Task} {y : ListenTask}
  {es fs : List (Event σ)}

/-! ## The affairs of a plugin after a course -/

/-- The affairs of a plugin of which a course is known. -/
def affairs (j : Instance σ) (es : List (Event σ)) : Affairs :=
  j.state.affairs (queued (turnsOf es)) (Outlet.errors.sent (turnsOf es))

def surroundings (j : Instance σ) : Surroundings := j.state.surroundings j.setup

theorem affairs_turn {task : Task} {m : Move σ} (htask : j.tasks[u]? = some task)
    (hm : task.step? j.setup u j.tasks.length j.state = some m) :
    (j.move u m).affairs (es ++ [.turn ⟨u, j, j.move u m⟩]) =
      (m.state.affairs (queued (turnsOf es)) (Outlet.errors.sent (turnsOf es))).add
        task.queues? task.sentError? := by
  have hqueued : (⟨u, j, j.move u m⟩ : Turn σ).queued = task.queues?.toList := by
    rw [Turn.queued, state_move]
    exact Task.queued_step hm
  have hsent : Outlet.errors.sentIn (⟨u, j, j.move u m⟩ : Turn σ) = task.sentError? :=
    Outlet.sentIn_of_getElem? htask
  rw [affairs, turnsOf_turn, queued_concat, Outlet.sent_concat, hqueued, hsent, state_move,
    PluginState.affairs_append]

theorem affairs_action (a : HostAction) :
    (j.act a).affairs (es ++ [.action j a]) = j.affairs es := by
  rw [affairs, turnsOf_action, state_act, PluginState.affairs_act]
  rfl

theorem surroundings_step (hs : j.step? u = some k) : k.surroundings = j.surroundings := by
  obtain ⟨task, m, -, hm, rfl⟩ := step?_eq_some_iff.1 hs
  rw [surroundings, setup_move, state_move, Task.surroundings_step hm]
  rfl

omit [RecordStore σ] in
theorem surroundings_act (j : Instance σ) (a : HostAction) :
    (j.act a).surroundings = j.surroundings.act a := by
  rw [surroundings, setup_act, state_act, PluginState.surroundings_act]
  rfl

/-! ## What is under way -/

/-- At most two tasks have anything to do with the affairs: one that leads, and the listener. -/
structure Underway (k : Instance σ) (t : Nat) (x : Task) (y : ListenTask) : Prop where
  listener : k.tasks[2]? = some (.listen y)
  leader : k.tasks[t]? = some x
  kind : x.kind ≠ .listener
  others : ∀ (u : Nat) (z : Task), k.tasks[u]? = some z → u ≠ 2 → u ≠ t → z.IsBystander
  ear : k.state.Ear y
  /-- While the listener is about to set something off, nothing else is under way. -/
  alone : (y.pending? k.state.commands.contents).isSome → x.IsBystander
  /-- While the listener announces a shutdown, nothing else is under way but a stop. -/
  announces : ∀ plugin, y = .announce plugin → x.IsBystander ∨ ∃ z, x = .stop z

/-- What the affairs will be when the task that leads and the listener are done. -/
def prospect (k : Instance σ) (es : List (Event σ)) (x : Task) (y : ListenTask) : Affairs :=
  y.ahead k.surroundings k.state.commands.contents (x.ahead k.surroundings (k.affairs es))

namespace Underway

omit [RecordStore σ] in
theorem ne (h : Underway k t x y) : t ≠ 2 := by
  rintro rfl
  cases h.leader.symm.trans h.listener
  exact h.kind rfl

omit [RecordStore σ] in
/-- Everybody but the listener is the one who leads or a bystander. -/
theorem kind_ne (h : Underway k t x y) (hz : k.tasks[u]? = some z) (hu : u ≠ 2) :
    z.kind ≠ .listener := by
  by_cases hut : u = t
  · subst hut
    cases h.leader.symm.trans hz
    exact h.kind
  · exact (h.others u z hz hu hut).kind_ne

omit [RecordStore σ] in
/-- What is ahead of the task that leads does not get in the way of what the listener does. -/
theorem ahead_does (h : Underway k t x y) (w : Surroundings) (a : Affairs) :
    x.ahead w (y.does a) = y.does (x.ahead w a) := by
  cases y with
  | announce plugin =>
    rcases h.announces plugin rfl with hx | ⟨z, rfl⟩
    · rw [hx.ahead, hx.ahead]
    · exact StopTask.ahead_tell w a _ z
  | close => exact Task.ahead_hush w a x
  | _ => rfl

section Turns

variable {m : Move σ}

/-- A turn of anybody but the listener does a part of what is ahead of it, and leaves the listener
and the commands alone. -/
theorem of_turn (h : Underway j t x y) (hc : j.Coherent) (hu : u ≠ 2)
    (hz : j.tasks[u]? = some z) (hm : z.step? j.setup u j.tasks.length j.state = some m)
    (es : List (Event σ)) :
    (j.move u m).tasks[2]? = some (.listen y) ∧ (j.move u m).state.Ear y ∧
      (j.move u m).state.commands = j.state.commands ∧
      (j.move u m).surroundings = j.surroundings ∧
      m.next.ahead j.surroundings ((j.move u m).affairs (es ++ [.turn ⟨u, j, j.move u m⟩])) =
        z.ahead j.surroundings (j.affairs es) := by
  have hkind := h.kind_ne hz hu
  have hlt : u < j.tasks.length := (List.getElem?_eq_some_iff.1 hz).1
  have hlt2 : 2 < j.tasks.length := (List.getElem?_eq_some_iff.1 h.listener).1
  obtain ⟨hcommands, hlistening⟩ := Task.leaves_commands hm hkind
  refine ⟨?_, ?_, ?_, surroundings_step (step?_eq_some_iff.2 ⟨z, m, hz, hm, rfl⟩), ?_⟩
  · rw [getElem?_tasks_move hlt, if_neg (Ne.symm hu), if_neg (by omega), h.listener]
  · rw [state_move]
    exact h.ear.congr hcommands hlistening
  · rw [state_move, hcommands]
  · rw [affairs_turn hz hm]
    exact Task.ahead_step hm (hc.inside u z hz) hkind

/-- A turn of the task that leads. -/
theorem step_leader (h : Underway j t x y) (hc : j.Coherent)
    (hm : x.step? j.setup t j.tasks.length j.state = some m) :
    Underway (j.move t m) t m.next y ∧
      (j.move t m).prospect (es ++ [.turn ⟨t, j, j.move t m⟩]) m.next y = j.prospect es x y := by
  obtain ⟨hlistener, hear, hsame, hsurroundings, hahead⟩ := h.of_turn hc h.ne h.leader hm es
  have htasks := getElem?_tasks_move (List.getElem?_eq_some_iff.1 h.leader).1 m
  refine ⟨⟨hlistener, by rw [htasks, if_pos rfl], Task.kind_next hm ▸ h.kind, ?_, hear,
    fun hp => ?_, fun plugin hy => ?_⟩, ?_⟩
  · intro v z hz hv hvt
    rw [htasks, if_neg hvt] at hz
    split at hz
    · exact Task.isBystander_spawned hm h.kind hz
    · exact h.others v z hz hv hvt
  · rw [hsame] at hp
    exact ((h.alone hp).next hm).1
  · rcases h.announces plugin hy with hx | ⟨z, rfl⟩
    · exact .inl (hx.next hm).1
    · cases Task.makes hm with
      | stop _ => exact .inr ⟨_, rfl⟩
  · rw [prospect, prospect, hsurroundings, hsame, hahead]

/-- A turn of a bystander, which goes on as one. -/
theorem step_bystander (h : Underway j t x y) (hc : j.Coherent) (hu : u ≠ 2) (hut : u ≠ t)
    (hz : j.tasks[u]? = some z) (hm : z.step? j.setup u j.tasks.length j.state = some m) :
    Underway (j.move u m) t x y ∧
      (j.move u m).prospect (es ++ [.turn ⟨u, j, j.move u m⟩]) x y = j.prospect es x y := by
  obtain ⟨hlistener, hear, hsame, hsurroundings, hahead⟩ := h.of_turn hc hu hz hm es
  have hbystander := h.others u z hz hu hut
  obtain ⟨hnext, hspawned⟩ := hbystander.next hm
  rw [hnext.ahead, hbystander.ahead] at hahead
  have htasks := getElem?_tasks_move (List.getElem?_eq_some_iff.1 hz).1 m
  have hlt : t < j.tasks.length := (List.getElem?_eq_some_iff.1 h.leader).1
  refine ⟨⟨hlistener, ?_, h.kind, ?_, hear, by rw [hsame]; exact h.alone, h.announces⟩, ?_⟩
  · rw [htasks, if_neg (Ne.symm hut), if_neg (by omega), h.leader]
  · intro v z' hz' hv hvt
    rw [htasks, hspawned] at hz'
    split at hz'
    · cases hz'
      exact hnext
    split at hz'
    · cases hz'
    · exact h.others v z' hz' hv hvt
  · rw [prospect, prospect, hsurroundings, hsame, hahead]

end Turns

/-- A turn of the listener. -/
theorem step_listener (h : Underway j t x y) (hs : j.step? 2 = some k) :
    ∃ t' x' y', Underway k t' x' y' ∧
      k.prospect (es ++ [.turn ⟨2, j, k⟩]) x' y' = j.prospect es x y := by
  have hsurroundings := surroundings_step hs
  obtain ⟨z, m, hz, hm, rfl⟩ := step?_eq_some_iff.1 hs
  obtain rfl : z = .listen y := Option.some.inj (hz.symm.trans h.listener)
  have hlt : 2 < j.tasks.length := (List.getElem?_eq_some_iff.1 hz).1
  have hltt : t < j.tasks.length := (List.getElem?_eq_some_iff.1 h.leader).1
  have htasks := getElem?_tasks_move hlt m
  obtain ⟨y', hnext, hear⟩ := ListenTask.ear_step hm h.ear
  rw [← state_move j 2 m] at hear
  have haffairs : (j.move 2 m).affairs (es ++ [.turn ⟨2, j, j.move 2 m⟩]) =
      y.does (j.affairs es) := by
    rw [affairs_turn hz hm]
    exact ListenTask.affairs_step hm
  cases hspawned : m.spawned with
  | none =>
    have hpending := ListenTask.pending?_step hm h.ear hnext hspawned
    rw [← state_move j 2 m] at hpending
    refine ⟨t, x, y', ⟨by rw [htasks, if_pos rfl, hnext], ?_, h.kind, ?_, hear,
      fun hp => h.alone (hpending ▸ hp), fun plugin hy => ?_⟩, ?_⟩
    · rw [htasks, if_neg h.ne, if_neg (by omega), h.leader]
    · intro v z' hz' hv hvt
      rw [htasks, if_neg hv, hspawned] at hz'
      split at hz'
      · cases hz'
      · exact h.others v z' hz' hv hvt
    · rw [hy] at hnext
      exact absurd hnext (ListenTask.next_ne_announce hm hspawned)
    · rw [prospect, prospect, hsurroundings, haffairs, h.ahead_does, state_move]
      exact ListenTask.ahead_step hm h.ear hnext hspawned _
  | some x' =>
    -- the new task leads from now on, since nothing else was under way
    obtain ⟨tr, rfl, rfl, hafter, hcommands⟩ := ListenTask.of_spawned hm hspawned
    obtain rfl : y' = .after tr := Task.listen.inj (hnext.symm.trans hafter)
    have hx : x.IsBystander := h.alone rfl
    have hempty : (j.move 2 m).state.commands.contents = [] := by
      rw [state_move, hcommands]
      exact h.ear.contents_eq_nil (by simp)
    refine ⟨j.tasks.length, .ofTransition tr, .after tr, ⟨by rw [htasks, if_pos rfl, hnext], ?_, ?_,
      ?_, hear, ?_, ?_⟩, ?_⟩
    · rw [htasks, if_neg (by omega), if_pos rfl, hspawned]
    · rw [Task.kind_ofTransition]
      simp
    · intro v z' hz' hv hvl
      rw [htasks, if_neg hv, if_neg hvl] at hz'
      by_cases hvt : v = t
      · rw [hvt, h.leader] at hz'
        exact Option.some.inj hz' ▸ hx
      · exact h.others v z' hz' hv hvt
    · rw [hempty]
      cases tr <;> exact fun hp => by cases hp
    · intro plugin hy
      cases tr with
      | start p => cases hy
      | stop p => exact .inr ⟨_, rfl⟩
    · have hold : j.state.commands.contents = [] := h.ear.contents_eq_nil (by simp)
      rw [prospect, prospect, hsurroundings, haffairs, hempty, hold, hx.ahead,
        ListenTask.ahead_after]
      rfl

/-- Whoever takes a turn: what is under way goes on, and its prospect stays the same. -/
theorem step (h : Underway j t x y) (hc : j.Coherent) (hs : j.step? u = some k) :
    ∃ t' x' y', Underway k t' x' y' ∧
      k.prospect (es ++ [.turn ⟨u, j, k⟩]) x' y' = j.prospect es x y := by
  by_cases hu : u = 2
  · subst hu
    exact h.step_listener hs
  obtain ⟨z, m, hz, hm, rfl⟩ := step?_eq_some_iff.1 hs
  by_cases hut : u = t
  · subst hut
    obtain rfl : z = x := Option.some.inj (hz.symm.trans h.leader)
    exact ⟨u, m.next, y, h.step_leader hc hm⟩
  · exact ⟨t, x, y, h.step_bystander hc hu hut hz hm⟩

theorem upkeep (h : Underway j t x y) {a : HostAction} (ha : a.IsUpkeep) :
    Underway (j.act a) t x y ∧
      (j.act a).prospect (es ++ [.action j a]) x y = j.prospect es x y := by
  have htasks : (j.act a).tasks = j.tasks := by rw [act, ha.task?_eq_none]
  obtain ⟨hcommands, hlistening⟩ := ha.leaves_commands j.state
  rw [← state_act] at hcommands hlistening
  have hsurroundings : (j.act a).surroundings = j.surroundings := by
    rw [surroundings_act, Surroundings.act_upkeep _ ha]
  refine ⟨⟨htasks ▸ h.listener, htasks ▸ h.leader, h.kind, htasks ▸ h.others,
    h.ear.congr hcommands hlistening, hcommands ▸ h.alone, h.announces⟩, ?_⟩
  rw [prospect, prospect, hsurroundings, hcommands, affairs_action]

end Underway

/-- The host does nothing but to get on. -/
def OnlyUpkeep (es : List (Event σ)) : Prop := ∀ l a, .action l a ∈ es → a.IsUpkeep

omit [RecordStore σ] in
theorem OnlyUpkeep.of_append (h : OnlyUpkeep (es ++ fs)) : OnlyUpkeep es :=
  fun l a he => h l a (List.mem_append_left _ he)

theorem surroundings_course (hc : j.Course fs k) (hup : OnlyUpkeep fs) :
    k.surroundings = j.surroundings := by
  induction hc with
  | refl => rfl
  | turn _ hs ih => rw [surroundings_step hs, ih hup.of_append]
  | action _ a ih =>
    rw [surroundings_act, Surroundings.act_upkeep _ (hup _ a List.mem_concat_self),
      ih hup.of_append]

/-- Whatever turns are taken while the host does nothing but to get on: what is under way goes on,
and its prospect stays the same. -/
theorem Underway.course (h : Underway j t x y) (hi : i.Fresh) (hj : i.Course es j)
    (hc : j.Course fs k) (hup : OnlyUpkeep fs) :
    ∃ t' x' y', Underway k t' x' y' ∧ k.prospect (es ++ fs) x' y' = j.prospect es x y := by
  induction hc with
  | refl => exact ⟨t, x, y, h, by rw [List.append_nil]⟩
  | turn hk hs ih =>
    obtain ⟨t', x', y', h', hprospect⟩ := ih hup.of_append
    have hcoherent := coherent_of_reachable hi (hj.trans hk).reachable
    obtain ⟨t'', x'', y'', h'', hsame⟩ := h'.step hcoherent hs
    exact ⟨t'', x'', y'', h'', by rw [← List.append_assoc, hsame, hprospect]⟩
  | action hk a ih =>
    obtain ⟨t', x', y', h', hprospect⟩ := ih hup.of_append
    obtain ⟨h'', hsame⟩ := h'.upkeep (hup _ a List.mem_concat_self)
    exact ⟨t', x', y', h'', by rw [← List.append_assoc, hsame, hprospect]⟩

/-! ## At rest -/

/-- Nothing can go on, and the host has read all that was sent to the ends that it has kept. -/
structure Concluded (k : Instance σ) : Prop where
  quiescent : k.Quiescent
  acks : k.state.acks.Drained
  errors : k.state.errors.Drained
  dataflow : k.state.dataflow.Drained

/-- Nothing has anything to do with the affairs but a listener that waits for a command. -/
structure AtEase (j : Instance σ) : Prop where
  others : ∀ (u : Nat) (z : Task), j.tasks[u]? = some z → u ≠ 2 → z.IsBystander
  listener : j.tasks[2]? = some (.listen (.resting j.state.listening))
  ear : j.state.Ear (.resting j.state.listening)
  empty : j.state.commands.contents = []

namespace Concluded

theorem stuck (h : k.Concluded) (hz : k.tasks[u]? = some z) :
    z.step? k.setup u k.tasks.length k.state = none := by
  have hnone := h.quiescent u
  rw [step?_of_getElem? hz] at hnone
  simpa using hnone

/-- Nobody stands at the lock. -/
theorem lockStage (h : k.Concluded) (hi : i.Fresh) (hr : i.Reachable k)
    (hz : k.tasks[u]? = some z) : z.lockStage = .outside := by
  have hfree : k.state.lock.holder = none := by
    refine h.quiescent.holder_eq_none hi hr fun v x hx => ?_
    have hnone := h.stuck hx
    rw [Task.step?, Option.map_eq_none_iff] at hnone
    rcases ServeTask.stuck hnone with hdone | hserve | ⟨n, -, hwaits, hopen⟩
    · exact .inl hdone
    · exact .inr hserve
    · rw [h.acks.isWaiting_eq_false hopen] at hwaits
      cases hwaits
  rw [← lockStage_of_getElem? hz]
  exact lockStage_of_free hi hr hfree u

theorem report (h : k.Concluded) {r : ReportTask}
    (hr : r.step? k.setup u k.state = none) : r = .done := by
  rcases ReportTask.stuck hr with hdone | ⟨-, hwaits, hopen⟩
  · exact hdone
  · rw [h.errors.isWaiting_eq_false hopen] at hwaits
    cases hwaits

/-- Where nothing can go on and all was read, everybody but the listener is a bystander. -/
theorem isBystander (h : k.Concluded) (hi : i.Fresh) (hr : i.Reachable k)
    (hz : k.tasks[u]? = some z) (hkind : z.kind ≠ .listener) : z.IsBystander := by
  have hnone := h.stuck hz
  have hstage := h.lockStage hi hr hz
  cases z with
  | call tr => cases hnone
  | await tr => cases hstage
  | listen y => exact absurd rfl hkind
  | serve x => exact .serve x
  | keeper x => exact .keeper x
  | courier x => exact .courier x
  | start x =>
    rcases StartTask.stuck hnone with rfl | ⟨r, rfl⟩
    · exact .started
    · rw [Task.step?, StartTask.step?, Option.map_eq_none_iff] at hnone
      rw [h.report hnone]
      exact .failed
  | stop x =>
    rw [Task.step?, Option.map_eq_none_iff] at hnone
    rcases StopTask.stuck hnone with rfl | ⟨plugin, n, rfl⟩ | ⟨-, hwaits, hopen⟩
    · exact .stopped
    · cases hstage
    · rw [h.acks.isWaiting_eq_false hopen] at hwaits
      cases hwaits
  | report r =>
    rw [Task.step?, Option.map_eq_none_iff] at hnone
    rw [h.report hnone]
    exact .reported

/-- Where nothing can go on and all was read, the plugin is at ease, and its affairs are what was
ahead. -/
theorem atEase (h : k.Concluded) (hi : i.Fresh) (hr : i.Reachable k) (hu : Underway k t x y)
    (es : List (Event σ)) :
    k.AtEase ∧ k.prospect es x y = k.affairs es := by
  have hx : x.IsBystander := h.isBystander hi hr hu.leader hu.kind
  have hothers (v : Nat) (z : Task) (hz : k.tasks[v]? = some z) (hv : v ≠ 2) : z.IsBystander :=
    h.isBystander hi hr hz (hu.kind_ne hz hv)
  have hnone := h.stuck hu.listener
  have hstage := h.lockStage hi hr hu.listener
  rw [prospect, hx.ahead]
  rcases ListenTask.stuck hnone with rfl | ⟨rfl, hnext, hsender⟩ | ⟨tr, rfl⟩ | ⟨rfl, hwaits, hopen⟩
  · have hdeaf : k.state.listening = false := by simpa using hu.ear.listening.not
    exact ⟨⟨hothers, by rw [hdeaf]; exact hu.listener, by rw [hdeaf]; exact hu.ear,
      hu.ear.contents_eq_nil (by simp)⟩, rfl⟩
  · have hlistens : k.state.listening = true := hu.ear.listening.2 (by simp)
    have hempty := Queue.contents_of_next?_eq_none hnext hu.ear.idle
    have hspeaks : k.surroundings.speaks = true := hsender
    refine ⟨⟨hothers, by rw [hlistens]; exact hu.listener, by rw [hlistens]; exact hu.ear,
      hempty⟩, ?_⟩
    simp [ListenTask.ahead, ListenTask.pending?, ListenTask.closing, hempty, hspeaks]
  · cases hstage
  · rw [h.errors.isWaiting_eq_false hopen] at hwaits
    cases hwaits

end Concluded

/-! ## An operation -/

omit [RecordStore σ] in
theorem AtEase.takesIn (h : j.AtEase) : j.state.commands.takesIn = true ↔
    j.surroundings.speaks = true ∧ j.state.listening = true ∧ 0 < j.surroundings.room := by
  have hbuffer : j.state.commands.buffer = [] := (List.append_eq_nil_iff.1 h.empty).1
  have hreceiver : j.state.commands.hasReceiver = true ↔ j.state.listening = true :=
    h.ear.hasReceiver.trans h.ear.listening.symm
  simp [Queue.takesIn, Queue.hasRoom, hbuffer, hreceiver, surroundings, PluginState.surroundings]

theorem AtEase.contents_act (h : j.AtEase) (es : List (Event σ)) (a : HostAction) :
    (j.state.act a).commands.contents = a.posted (j.surroundings.act a) (j.affairs es) := by
  cases a with
  | command c =>
    have hposted : (HostAction.command c).posted (j.surroundings.act (.command c))
        (j.affairs es) = if j.state.commands.takesIn = true then [c] else [] :=
      if_congr h.takesIn.symm rfl rfl
    rw [PluginState.act, Queue.contents_post h.ear.idle, h.empty, List.nil_append, hposted]
  | drop e => cases e <;> exact h.empty
  | _ => exact h.empty

omit [RecordStore σ] in
theorem AtEase.ear_act (h : j.AtEase) (a : HostAction) :
    (j.state.act a).Ear (.resting j.state.listening) := by
  have hear := h.ear
  obtain ⟨hidle, hfew, htaken, hlistening, hreceiver⟩ := id hear
  cases a with
  | command c =>
    by_cases htakes : j.state.commands.takesIn = true
    · -- the command gets in, and it is the only one
      have hpost : (j.state.act (.command c)).commands = j.state.commands.push c :=
        (Queue.post_eq _ _).trans (if_pos htakes)
      have hone : (j.state.commands.push c).contents = [c] := by
        have hbuffer : j.state.commands.buffer = [] := (List.append_eq_nil_iff.1 h.empty).1
        simp [Queue.push, Queue.contents, hbuffer, hidle]
      refine ⟨by rw [hpost]; exact hidle, by rw [hpost, hone]; exact Nat.le_refl 1,
        fun _ => .inr (if_pos (h.takesIn.1 htakes).2.1), hlistening, ?_⟩
      rw [hpost]
      exact hreceiver
    · exact hear.congr ((Queue.post_eq _ _).trans (if_neg htakes)) rfl
  | drop e => cases e <;> exact ⟨hidle, hfew, htaken, hlistening, hreceiver⟩
  | _ => exact hear.congr rfl rfl

/-- What an action of the host brings about when the plugin is at ease. -/
theorem AtEase.act (h : j.AtEase) (es : List (Event σ)) (a : HostAction) :
    ∃ t x y, Underway (j.act a) t x y ∧
      (j.act a).prospect (es ++ [.action j a]) x y =
        (j.affairs es).after (j.surroundings.act a) a := by
  have hlt : 2 < j.tasks.length := (List.getElem?_eq_some_iff.1 h.listener).1
  have hlistener : (j.act a).tasks[2]? = some (.listen (.resting j.state.listening)) := by
    rw [getElem?_tasks_act, if_neg (by omega), h.listener]
  have hear := h.ear_act a
  have hcontents := h.contents_act es a
  rw [← state_act] at hear hcontents
  have hsurroundings := surroundings_act j a
  have hquiet (plugin : String) : ListenTask.resting j.state.listening ≠ .announce plugin := by
    rw [ListenTask.resting]
    split <;> simp
  cases htask : a.task? with
  | none =>
    -- nobody leads, so any bystander does
    have htasks : (j.act a).tasks = j.tasks := by rw [Instance.act, htask]
    obtain ⟨z, hz⟩ : ∃ z, j.tasks[0]? = some z := ⟨_, List.getElem?_eq_getElem (by omega)⟩
    have hbystander := h.others 0 z hz (by simp)
    refine ⟨0, z, _, ⟨hlistener, htasks ▸ hz, hbystander.kind_ne, ?_, hear, fun _ => hbystander,
      fun _ _ => .inl hbystander⟩, ?_⟩
    · intro u z' hz' hu _
      exact h.others u z' (htasks ▸ hz') hu
    · rw [prospect, hsurroundings, hcontents, affairs_action, hbystander.ahead, Affairs.after,
        htask]
      rfl
  | some x =>
    have hposted : a.posted (j.surroundings.act a) (j.affairs es) = [] := by
      cases a <;> first | rfl | cases htask
    rw [hposted] at hcontents
    refine ⟨j.tasks.length, x, _, ⟨hlistener, ?_, ?_, ?_, hear, ?_, fun plugin hy =>
      absurd hy (hquiet plugin)⟩, ?_⟩
    · rw [getElem?_tasks_act, if_pos rfl, htask]
    · rcases HostAction.kind_task htask with hkind | hkind <;> rw [hkind] <;> simp
    · intro u z hz hu hul
      rw [getElem?_tasks_act, if_neg hul] at hz
      exact h.others u z hz hu
    · rw [hcontents, ListenTask.resting]
      split <;> exact fun hp => by cases hp
    · rw [prospect, hsurroundings, hcontents, affairs_action, Affairs.after, htask, hposted]
      rfl

/-- Whatever turns are taken after an action of the host, and whatever it does to get on: when the
plugin has come to rest and all was read, all is done that the action brings about. -/
theorem AtEase.operation (h : j.AtEase) (hi : i.Fresh) (hj : i.Course es j) (a : HostAction)
    (hc : (j.act a).Course fs k) (hup : OnlyUpkeep fs) (hk : k.Concluded) :
    k.AtEase ∧ k.surroundings = j.surroundings.act a ∧
      k.affairs (es ++ [.action j a] ++ fs) = (j.affairs es).after (j.surroundings.act a) a := by
  obtain ⟨t, x, y, hunderway, hprospect⟩ := h.act es a
  obtain ⟨t', x', y', hend, hsame⟩ := hunderway.course hi (hj.action a) hc hup
  obtain ⟨hease, haffairs⟩ := hk.atEase hi ((hj.action a).trans hc).reachable hend
    (es ++ [.action j a] ++ fs)
  exact ⟨hease, by rw [surroundings_course hc hup, surroundings_act],
    by rw [← haffairs, hsame, hprospect]⟩

end Instance

end PluginKernel
