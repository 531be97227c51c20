import PluginKernel.Proofs.Instance.Attendance
import PluginKernel.Proofs.Instance.Occasions
import PluginKernel.Proofs.Instance.Outlet
import PluginKernel.Proofs.Instance.Requests

/-!
# What starts, stops and servers have done

A few of the turns of a task decide what becomes of it: that a start is ignored, fails or opens a
listener and sets off a server, that a stop takes the server of a listener down, and that either is
acknowledged. These are its *deeds*, and the stage of a task says which it has done and in which
order: `Task.Did`. So whatever order tasks take their turns in, each start and each stop does
everything once.
-/

namespace PluginKernel

variable {σ : Type}

/-- Something that a start, a stop or a server has done. -/
inductive Deed where
  /-- A start has found a server. -/
  | ignored
  /-- A start could not bring a server up. -/
  | failed (e : PluginError)
  /-- A start has opened a listener. -/
  | bound (n : Nat)
  /-- A start has set a server off, by a number, in its name and for its listener. -/
  | launched (server : Nat) (plugin : String) (n : Nat)
  /-- A stop takes the server of a listener down. -/
  | took (n : Nat)
  | acked (c : Command)

namespace Deed

def ack? : Deed → Option Command
  | acked c => some c
  | _ => none

def server? : Deed → Option Nat
  | launched u _ _ => some u
  | _ => none

end Deed

/-- The acknowledgment of a start or a stop. -/
def Transition.ack : Transition → Command
  | start plugin => ⟨plugin, .start⟩
  | stop plugin => ⟨plugin, .stop⟩

/-! ## Deeds and stages -/

/-- What a task does when it comes from one stage to the next. A task that it sets off gets the
number `fresh`. -/
def Task.deed? (s : PluginState σ) (fresh : Nat) : Task → Task → Option Deed
  | start (.enter _), _ => s.server.map fun _ => .ignored
  | start (.bind _), start (.fail _ e) => some (.failed e)
  | start (.bind _), start (.announce _ n) => some (.bound n)
  | start (.launch plugin n), _ => some (.launched fresh plugin n)
  | stop (.enter _), _ => s.server.map .took
  | stop (.acknowledge plugin), _ => some (.acked ⟨plugin, .stop⟩)
  | serve (.greet plugin _), _ => some (.acked ⟨plugin, .start⟩)
  | _, _ => none

theorem Task.of_ack? {task : Task} {c : Command} (h : task.ack? = some c) :
    (∃ plugin n, task = .serve (.greet plugin n) ∧ c = ⟨plugin, .start⟩) ∨
      ∃ plugin, task = .stop (.acknowledge plugin) ∧ c = ⟨plugin, .stop⟩ := by
  unfold ack? at h
  split at h
  next plugin n => exact .inl ⟨plugin, n, rfl, (Option.some.inj h).symm⟩
  next plugin => exact .inr ⟨plugin, rfl, (Option.some.inj h).symm⟩
  · cases h

theorem Task.ack?_deed? (s : PluginState σ) (fresh : Nat) (task next : Task) :
    (task.deed? s fresh next).bind Deed.ack? = task.ack? := by
  cases task with
  | start x =>
    cases x with
    | enter plugin => cases h : s.server <;> simp [deed?, h, Deed.ack?, ack?]
    | bind plugin =>
      cases next with
      | start y => cases y <;> rfl
      | _ => rfl
    | _ => rfl
  | stop x =>
    cases x with
    | enter plugin => cases h : s.server <;> simp [deed?, h, Deed.ack?, ack?]
    | _ => rfl
  | serve x => cases x <;> rfl
  | _ => rfl

/-- What a start in a name has done at each of its stages. -/
def StartTask.Did (plugin : String) (ds : List Deed) : StartTask → Prop
  | enter p | bind p => p = plugin ∧ ds = []
  | announce p n | launch p n => p = plugin ∧ ds = [.bound n]
  | record _ | settle _ | release _ | emit _ => ∃ n u, ds = [.bound n, .launched u plugin n]
  | fail _ e | giveUp _ e => ds = [.failed e]
  | report _ => ∃ e, ds = [.failed e]
  | done => ds = [.ignored] ∨ ∃ n u, ds = [.bound n, .launched u plugin n]

/-- What a stop in a name has done at each of its stages. -/
def StopTask.Did (plugin : String) (ds : List Deed) : StopTask → Prop
  | enter p => p = plugin ∧ ds = []
  | silence p n | cancel p n | join p n => p = plugin ∧ ds = [.took n]
  | record p | settle p _ | release p _ | emit p _ | acknowledge p =>
    p = plugin ∧ (ds = [] ∨ ∃ n, ds = [.took n])
  | wait | done =>
    ds = [.acked ⟨plugin, .stop⟩] ∨ ∃ n, ds = [.took n, .acked ⟨plugin, .stop⟩]

/-- What the server of a start in a name has done at each of its stages. -/
def ServeTask.Did (plugin : String) (n : Nat) (ds : List Deed) : ServeTask → Prop
  | greet p k => p = plugin ∧ k = n ∧ ds = []
  | wait k | .open k | serve k => k = n ∧ ds = [.acked ⟨plugin, .start⟩]
  | done => ds = [.acked ⟨plugin, .start⟩]

/-- What a task has done that goes through a start or a stop. -/
def Task.Did (tr : Transition) (ds : List Deed) : Task → Prop
  | call tr' | await tr' => tr' = tr ∧ ds = []
  | start x => ∃ plugin, tr = .start plugin ∧ x.Did plugin ds
  | stop x => ∃ plugin, tr = .stop plugin ∧ x.Did plugin ds
  | _ => False

theorem StartTask.Did.of_launched {x : StartTask} {ds : List Deed} {p plugin : String} {u n : Nat}
    (h : x.Did p ds) (hd : .launched u plugin n ∈ ds) :
    p = plugin ∧ ds = [.bound n, .launched u plugin n] := by
  have hboth : (∃ n' u', ds = [.bound n', .launched u' p n']) →
      p = plugin ∧ ds = [.bound n, .launched u plugin n] := by
    rintro ⟨n', u', rfl⟩
    simp only [List.mem_cons, reduceCtorEq, List.not_mem_nil, or_false, false_or,
      Deed.launched.injEq] at hd
    obtain ⟨rfl, rfl, rfl⟩ := hd
    exact ⟨rfl, rfl⟩
  cases x with
  | record | settle | release | emit => exact hboth h
  | done =>
    rcases h with rfl | h
    · simp at hd
    · exact hboth h
  | report r =>
    obtain ⟨e, rfl⟩ := h
    simp at hd
  | fail p' e | giveUp p' e =>
    obtain rfl : ds = [.failed e] := h
    simp at hd
  | _ =>
    obtain ⟨-, rfl⟩ := h
    simp at hd

/-- A start that has set a server off has opened its listener before. -/
theorem Task.Did.of_launched {task : Task} {tr : Transition} {ds : List Deed} {plugin : String}
    {u n : Nat} (h : task.Did tr ds) (hd : .launched u plugin n ∈ ds) :
    tr = .start plugin ∧ ds = [.bound n, .launched u plugin n] := by
  cases task with
  | call | await =>
    obtain ⟨-, rfl⟩ := h
    cases hd
  | start x =>
    obtain ⟨p, rfl, hx⟩ := h
    obtain ⟨rfl, hds⟩ := hx.of_launched hd
    exact ⟨rfl, hds⟩
  | stop x =>
    obtain ⟨p, rfl, hx⟩ := h
    cases x with
    | enter | silence | cancel | join =>
      obtain ⟨-, rfl⟩ := hx
      simp at hd
    | wait | done => rcases hx with rfl | ⟨k, rfl⟩ <;> simp at hd
    | _ => rcases hx with ⟨-, rfl | ⟨k, rfl⟩⟩ <;> simp at hd
  | _ => cases h

/-- A task has acknowledged nothing itself, or what it goes through, and that once. -/
theorem Task.Did.ack? {task : Task} {tr : Transition} {ds : List Deed} (h : task.Did tr ds) :
    ds.filterMap Deed.ack? = [] ∨ ds.filterMap Deed.ack? = [tr.ack] := by
  cases task with
  | call | await =>
    obtain ⟨-, rfl⟩ := h
    exact .inl rfl
  | start x =>
    left
    obtain ⟨p, rfl, hx⟩ := h
    cases x with
    | record | settle | release | emit =>
      obtain ⟨n, u, rfl⟩ := hx
      rfl
    | done => rcases hx with rfl | ⟨n, u, rfl⟩ <;> rfl
    | report r =>
      obtain ⟨e, rfl⟩ := hx
      rfl
    | fail p' e | giveUp p' e =>
      obtain rfl : ds = [.failed e] := hx
      rfl
    | _ =>
      obtain ⟨-, rfl⟩ := hx
      rfl
  | stop x =>
    obtain ⟨p, rfl, hx⟩ := h
    cases x with
    | enter | silence | cancel | join =>
      obtain ⟨-, rfl⟩ := hx
      exact .inl rfl
    | wait | done => rcases hx with rfl | ⟨k, rfl⟩ <;> exact .inr rfl
    | _ => rcases hx with ⟨-, rfl | ⟨k, rfl⟩⟩ <;> exact .inl rfl
  | _ => cases h

theorem Task.did_ofTransition (tr : Transition) : (ofTransition tr).Did tr [] := by
  cases tr <;> exact ⟨_, rfl, rfl, rfl⟩

section Steps

variable {setup : Setup} {t fresh : Nat} {s s' : PluginState σ} {plugin : String} {n : Nat}
  {ds : List Deed}

theorem StartTask.did_next {x : StartTask} {m : Move σ} (h : x.step? setup t s = some m)
    (hd : x.Did plugin ds) (fresh : Nat) : ∃ y, m.next = .start y ∧
      y.Did plugin (ds ++ ((Task.start x).deed? s fresh m.next).toList) := by
  cases x with
  | enter p =>
    obtain ⟨rfl, rfl⟩ := hd
    simp only [step?] at h
    split at h <;> cases h
    next hserver => exact ⟨_, rfl, .inl (by simp [Task.deed?, hserver])⟩
    next hserver => exact ⟨_, rfl, rfl, by simp [Task.deed?, hserver]⟩
  | bind p =>
    obtain ⟨rfl, rfl⟩ := hd
    simp only [step?] at h
    split at h <;> cases h
    · exact ⟨_, rfl, rfl⟩
    · exact ⟨_, rfl, rfl, rfl⟩
  | announce p k =>
    obtain ⟨rfl, rfl⟩ := hd
    cases h
    exact ⟨_, rfl, rfl, rfl⟩
  | launch p k =>
    obtain ⟨rfl, rfl⟩ := hd
    cases h
    exact ⟨_, rfl, k, fresh, rfl⟩
  | record p | settle l | release l =>
    obtain ⟨k, u, rfl⟩ := hd
    cases h
    exact ⟨_, rfl, k, u, rfl⟩
  | emit l =>
    obtain ⟨k, u, rfl⟩ := hd
    cases h
    exact ⟨_, rfl, .inr ⟨k, u, rfl⟩⟩
  | fail p e =>
    obtain rfl : ds = [.failed e] := hd
    cases h
    exact ⟨_, rfl, rfl⟩
  | giveUp p e =>
    obtain rfl : ds = [.failed e] := hd
    cases h
    exact ⟨_, rfl, e, rfl⟩
  | report r =>
    obtain ⟨e, rfl⟩ := hd
    simp only [step?, Option.map_eq_some_iff, Prod.exists] at h
    obtain ⟨s', r', -, rfl⟩ := h
    exact ⟨_, rfl, e, rfl⟩
  | done => cases h

theorem StopTask.did_next {x x' : StopTask} (h : x.step? setup t s = some (s', x'))
    (hd : x.Did plugin ds) :
    x'.Did plugin (ds ++ ((Task.stop x).deed? s fresh (.stop x')).toList) := by
  have hkeep : ∀ y : StopTask, y.Did plugin ds → y.Did plugin (ds ++ (none : Option Deed).toList) :=
    fun y hy => by rwa [Option.toList_none, List.append_nil]
  cases x with
  | enter p =>
    obtain ⟨rfl, rfl⟩ := hd
    simp only [step?, PluginState.logged] at h
    split at h <;> cases h
    next hserver => exact ⟨rfl, by simp [Task.deed?, hserver]⟩
    next hserver => exact ⟨rfl, .inl (by simp [Task.deed?, hserver])⟩
  | silence p k | cancel p k =>
    cases h
    exact hkeep _ hd
  | join p k =>
    obtain ⟨rfl, rfl⟩ := hd
    simp only [step?] at h
    (repeat' split at h) <;> cases h
    exact ⟨rfl, .inr ⟨k, rfl⟩⟩
  | record p =>
    simp only [step?] at h
    split at h <;> cases h <;> exact hkeep _ hd
  | settle p l | release p l =>
    cases h
    exact hkeep _ hd
  | emit p l => cases l <;> cases h <;> exact hkeep _ hd
  | acknowledge p =>
    obtain ⟨rfl, hd⟩ := hd
    have hdone : ds ++ [.acked ⟨p, .stop⟩] = [.acked ⟨p, .stop⟩] ∨
        ∃ n, ds ++ [.acked ⟨p, .stop⟩] = [.took n, .acked ⟨p, .stop⟩] := by
      rcases hd with rfl | ⟨k, rfl⟩
      · exact .inl rfl
      · exact .inr ⟨k, rfl⟩
    simp only [step?] at h
    split at h <;> cases h <;> exact hdone
  | wait =>
    simp only [step?] at h
    split at h <;> cases h <;> exact hkeep _ hd
  | done => cases h

theorem ServeTask.did_next {x x' : ServeTask} (h : x.step? t s = some (s', x'))
    (hd : x.Did plugin n ds) :
    x'.Did plugin n (ds ++ ((Task.serve x).deed? s fresh (.serve x')).toList) := by
  have hkeep : ∀ y : ServeTask, y.Did plugin n ds →
      y.Did plugin n (ds ++ (none : Option Deed).toList) :=
    fun y hy => by rwa [Option.toList_none, List.append_nil]
  cases x with
  | greet p k =>
    obtain ⟨rfl, rfl, rfl⟩ := hd
    simp only [step?] at h
    split at h <;> cases h <;> exact ⟨rfl, rfl⟩
  | wait k =>
    simp only [step?] at h
    split at h <;> cases h <;> exact hkeep _ hd
  | «open» k =>
    cases h
    exact hkeep _ hd
  | serve k =>
    simp only [step?] at h
    (repeat' split at h) <;> cases h
    exact hkeep done hd.2
  | done => cases h

/-- A turn adds what it does to what was done before. -/
theorem Task.did_next [RecordStore σ] {task : Task} {m : Move σ} {tr : Transition}
    (h : task.step? setup t fresh s = some m) (hd : task.Did tr ds) :
    m.next.Did tr (ds ++ (task.deed? s fresh m.next).toList) := by
  cases task with
  | call tr' =>
    obtain ⟨rfl, rfl⟩ := hd
    cases h
    exact ⟨rfl, rfl⟩
  | await tr' =>
    obtain ⟨rfl, rfl⟩ := hd
    simp only [step?] at h
    split at h <;> cases h
    exact did_ofTransition tr'
  | start x =>
    obtain ⟨plugin, rfl, hx⟩ := hd
    obtain ⟨y, hy, hdid⟩ := StartTask.did_next h hx fresh
    rw [hy] at hdid ⊢
    exact ⟨plugin, rfl, hdid⟩
  | stop x =>
    obtain ⟨plugin, rfl, hx⟩ := hd
    simp only [step?, Option.map_eq_some_iff, Prod.exists] at h
    obtain ⟨s', x', hs, rfl⟩ := h
    exact ⟨plugin, rfl, StopTask.did_next hs hx⟩
  | _ => cases hd

end Steps

theorem StartTask.next_start {setup : Setup} {t : Nat} {s : PluginState σ} {x : StartTask}
    {m : Move σ} (h : x.step? setup t s = some m) : ∃ y, m.next = .start y := by
  cases x with
  | report r =>
    simp only [step?, Option.map_eq_some_iff] at h
    obtain ⟨_, -, rfl⟩ := h
    exact ⟨_, rfl⟩
  | _ =>
    simp only [step?] at h
    (repeat' split at h) <;> cases h <;> exact ⟨_, rfl⟩

theorem ListenTask.next_listen {t fresh : Nat} {s : PluginState σ} {x : ListenTask} {m : Move σ}
    (h : x.step? t fresh s = some m) : ∃ y, m.next = .listen y := by
  cases x <;> simp only [step?] at h <;> (repeat' split at h) <;> cases h <;> exact ⟨_, rfl⟩

section Origins

variable {setup : Setup} {t fresh : Nat} {s : PluginState σ} {task next : Task} {m : Move σ}

theorem Task.of_launched {u n : Nat} {plugin : String}
    (h : task.deed? s fresh next = some (.launched u plugin n)) :
    task = .start (.launch plugin n) ∧ u = fresh := by
  unfold deed? at h
  split at h <;> simp_all

theorem Task.of_bound {n : Nat} (h : task.deed? s fresh next = some (.bound n)) :
    ∃ plugin plugin', task = .start (.bind plugin) ∧ next = .start (.announce plugin' n) := by
  unfold deed? at h
  split at h <;> simp_all

theorem Task.of_took {n : Nat} (h : task.deed? s fresh next = some (.took n)) :
    ∃ plugin, task = .stop (.enter plugin) ∧ s.server = some n := by
  unfold deed? at h
  split at h <;> simp_all

variable [RecordStore σ]

/-- A server that is set off is the one of a start. -/
theorem Task.of_spawned_serve {x : ServeTask} (h : task.step? setup t fresh s = some m)
    (hx : m.spawned = some (.serve x)) :
    ∃ plugin n, task = .start (.launch plugin n) ∧ x = .greet plugin n := by
  rcases spawned_eq h hx with ⟨plugin, n, hgreet⟩ | ⟨tr, -, htr⟩
  · cases hgreet
    cases listenerEffect h with
    | keep _ _ hspawned => cases hspawned _ hx
    | launch plugin' n' htask _ hspawned =>
      rw [hx] at hspawned
      cases hspawned
      exact ⟨plugin, n, htask, rfl⟩
    | bind _ _ _ _ hspawned | cancel _ _ _ _ hspawned | close _ _ _ hspawned =>
      rw [hx] at hspawned
      cases hspawned
  · cases tr <;> cases htr

/-- A stop goes on as a stop, and it begins when the lock has come to it. -/
theorem Task.of_next_stop {x : StopTask} (h : task.step? setup t fresh s = some m)
    (hx : m.next = .stop x) :
    (∃ y s', task = .stop y ∧ y.step? setup t s = some (s', x)) ∨ ∃ plugin, x = .enter plugin := by
  cases task with
  | stop y =>
    simp only [step?, Option.map_eq_some_iff, Prod.exists] at h
    obtain ⟨s', y', hy, rfl⟩ := h
    cases hx
    exact .inl ⟨y, s', rfl, hy⟩
  | call tr =>
    cases h
    cases hx
  | await tr =>
    simp only [step?] at h
    split at h <;> cases h
    cases tr <;> cases hx
    exact .inr ⟨_, rfl⟩
  | start y =>
    obtain ⟨z, hz⟩ := StartTask.next_start h
    rw [hz] at hx
    cases hx
  | listen y =>
    obtain ⟨z, hz⟩ := ListenTask.next_listen h
    rw [hz] at hx
    cases hx
  | _ =>
    simp only [step?, Option.map_eq_some_iff] at h
    obtain ⟨_, -, rfl⟩ := h
    cases hx

/-- The listener that a start opens is a new one. -/
theorem Task.listeners_of_bound {n : Nat} (h : task.step? setup t fresh s = some m)
    (hd : task.deed? s fresh m.next = some (.bound n)) :
    n = s.listeners.length ∧
      ∃ place, m.state.listeners = s.listeners ++ [{ endpoint := place }] := by
  obtain ⟨plugin, plugin', rfl, hnext⟩ := of_bound hd
  cases listenerEffect h with
  | keep _ hattends => rw [hnext] at hattends; cases hattends
  | bind _ place _ hnext' _ hlisteners =>
    rw [hnext] at hnext'
    cases hnext'
    exact ⟨rfl, place, hlisteners⟩
  | launch _ _ htask | cancel _ _ htask | close _ htask => cases htask

/-- Starts bring a server up, and stops take it down. -/
theorem Task.server_step? (h : task.step? setup t fresh s = some m) :
    m.state.server = s.server ∨ m.state.server = none ∨
      ∃ plugin n, task = .start (.launch plugin n) ∧ m.state.server = some n := by
  by_cases hin : task.lockStage = .inside
  · cases task with
    | start x =>
      cases x with
      | launch plugin n =>
        cases h
        exact .inr (.inr ⟨plugin, n, rfl, rfl⟩)
      | report | emit | done => cases hin
      | _ =>
        simp only [step?, StartTask.step?] at h
        (repeat' split at h) <;> cases h <;> exact .inl rfl
    | stop x =>
      simp only [step?, Option.map_eq_some_iff, Prod.exists] at h
      obtain ⟨s', x', hx, rfl⟩ := h
      cases x with
      | enter plugin =>
        simp only [StopTask.step?, PluginState.logged] at hx
        split at hx <;> cases hx
        · exact .inr (.inl rfl)
        · exact .inl rfl
      | _ =>
        simp only [StopTask.step?] at hx
        (repeat' split at hx) <;> cases hx <;> exact .inl rfl
    | listen x => cases x <;> cases hin
    | _ => cases hin
  · exact .inl (background h hin).server

end Origins

/-- A stop has done with the server that it took down. -/
def StopTask.HasJoined : StopTask → Prop
  | enter _ | silence .. | cancel .. | join .. => False
  | _ => True

theorem StopTask.joined_next {setup : Setup} {t : Nat} {s s' : PluginState σ} {x x' : StopTask}
    (h : x.step? setup t s = some (s', x')) (hx' : x'.HasJoined) :
    x.HasJoined ∨ (∃ plugin, x = enter plugin ∧ s.server = none) ∨
      ∃ plugin n l, x = join plugin n ∧ s.listeners[n]? = some l ∧ l.closed = true := by
  cases x with
  | enter plugin =>
    simp only [step?, PluginState.logged] at h
    split at h <;> cases h
    · cases hx'
    next hserver => exact .inr (.inl ⟨plugin, rfl, hserver⟩)
  | join plugin n =>
    simp only [step?] at h
    split at h
    · cases h
    next l hl =>
      split at h <;> cases h
      next hclosed => exact .inr (.inr ⟨plugin, n, l, rfl, hl, hclosed⟩)
  | silence | cancel =>
    cases h
    cases hx'
  | _ => exact .inl trivial

/-- A listener is closed. -/
def PluginState.IsClosed (s : PluginState σ) (n : Nat) : Prop :=
  ∃ l, s.listeners[n]? = some l ∧ l.closed = true

namespace Instance

/-! ## Deeds in a course -/

/-- What is done in a turn. -/
def Turn.deed? (w : Turn σ) : Option Deed :=
  match w.before.tasks[w.task]?, w.after.tasks[w.task]? with
  | some task, some next => task.deed? w.before.state w.before.tasks.length next
  | _, _ => none

/-- What the task of a number has done, oldest first. -/
def deeds (ts : List (Turn σ)) (t : Nat) : List Deed :=
  (ts.filter (·.task == t)).filterMap Turn.deed?

theorem deeds_concat (ts : List (Turn σ)) (w : Turn σ) (t : Nat) :
    deeds (ts ++ [w]) t = deeds ts t ++ if w.task = t then w.deed?.toList else [] := by
  rw [deeds, filter_task_concat, List.filterMap_append, deeds]
  split
  · cases h : w.deed? <;> simp [h]
  · rfl

theorem mem_deeds {ts : List (Turn σ)} {t : Nat} {d : Deed} :
    d ∈ deeds ts t ↔ ∃ w ∈ ts, w.task = t ∧ w.deed? = some d := by
  simp [deeds, and_assoc]

theorem deeds_append (ts us : List (Turn σ)) (t : Nat) :
    deeds (ts ++ us) t = deeds ts t ++ deeds us t := by
  rw [deeds, List.filter_append, List.filterMap_append]
  rfl

/-- A start or a stop is set off, as the task of a number. -/
inductive Event.SetsOff (t : Nat) (tr : Transition) : Event σ → Prop where
  | call {j : Instance σ} (ht : j.tasks.length = t) : SetsOff t tr (.action j (.call tr))
  | command {w : Turn σ} (ht : w.before.tasks.length = t)
      (hlisten : w.before.tasks[w.task]? = some (.listen (.await tr))) : SetsOff t tr (.turn w)

/-- The task of a number is a start or a stop that was called for by the host, or that was set off
by the listener for a command. -/
def Begun (es : List (Event σ)) (t : Nat) (tr : Transition) : Prop :=
  ∃ e ∈ es, Event.SetsOff t tr e

variable {i j k : Instance σ} {es : List (Event σ)} {t : Nat} {tr : Transition}

theorem Asked.begun (h : Asked i es t tr) : Begun es t tr := by
  cases h with
  | call h ht => exact ⟨_, h, .call ht⟩
  | command hw ht hlisten => exact ⟨_, hw, .command ht hlisten⟩

theorem Begun.mono (h : Begun es t tr) (more : List (Event σ)) : Begun (es ++ more) t tr := by
  obtain ⟨e, he, hsets⟩ := h
  exact ⟨e, List.mem_append_left _ he, hsets⟩

theorem begun_concat {e : Event σ} :
    Begun (es ++ [e]) t tr ↔ Begun es t tr ∨ Event.SetsOff t tr e := by
  simp [Begun, or_and_right, exists_or]

theorem deed?_move {task : Task} {m : Move σ} (htask : j.tasks[t]? = some task) :
    (⟨t, j, j.move t m⟩ : Turn σ).deed? = task.deed? j.state j.tasks.length m.next := by
  have hnext : (j.move t m).tasks[t]? = some m.next := by
    rw [getElem?_tasks_move (List.getElem?_eq_some_iff.1 htask).1, if_pos rfl]
  simp only [Turn.deed?, htask, hnext]

/-- The deeds of starts and stops fit their stages. -/
structure AllDid (es : List (Event σ)) (j : Instance σ) : Prop where
  did : ∀ t tr, Begun es t tr →
    ∃ task, j.tasks[t]? = some task ∧ task.Did tr (deeds (turnsOf es) t)
  /-- Every start and every stop was set off. -/
  begun : ∀ (t : Nat) (task : Task), j.tasks[t]? = some task → task.kind = .transition →
    ∃ tr, Begun es t tr
  /-- Numbers without a task have done nothing. -/
  unused : ∀ t, j.tasks.length ≤ t → deeds (turnsOf es) t = []

theorem Fresh.allDid (h : i.Fresh) : AllDid [] i := by
  refine ⟨fun t tr hbegun => ?_, fun t task htask hkind => ?_, fun t _ => rfl⟩
  · obtain ⟨e, he, -⟩ := hbegun
    cases he
  · rcases h.eq_of_getElem? htask with rfl | rfl | rfl <;> cases hkind

theorem AllDid.act (h : AllDid es j) (a : HostAction) :
    AllDid (es ++ [.action j a]) (j.act a) := by
  refine ⟨fun t tr hbegun => ?_, fun t task htask hkind => ?_, fun t ht => ?_⟩
  · rw [turnsOf_action, getElem?_tasks_act]
    rcases begun_concat.1 hbegun with hold | hnew
    · obtain ⟨task, htask, hdid⟩ := h.did t tr hold
      have hlt : t < j.tasks.length := (List.getElem?_eq_some_iff.1 htask).1
      rw [if_neg (by omega)]
      exact ⟨task, htask, hdid⟩
    · cases hnew with
      | call ht =>
        rw [if_pos ht.symm, h.unused t (by omega)]
        exact ⟨.call tr, rfl, rfl, rfl⟩
  · rw [getElem?_tasks_act] at htask
    split at htask
    next ht =>
      cases a with
      | call tr => exact ⟨tr, begun_concat.2 (.inr (.call ht.symm))⟩
      | report e =>
        cases htask
        cases hkind
      | _ => cases htask
    · obtain ⟨tr, hold⟩ := h.begun t task htask hkind
      exact ⟨tr, hold.mono _⟩
  · have hlength : j.tasks.length ≤ (j.act a).tasks.length := by
      rw [tasks_act, List.length_append]
      exact Nat.le_add_right _ _
    rw [turnsOf_action]
    exact h.unused t (by omega)

/-- What is done in a turn is what its task does between two stages. -/
theorem Turn.of_deed? {w : Turn σ} {d : Deed} (h : w.deed? = some d) :
    ∃ task next, w.before.tasks[w.task]? = some task ∧ w.after.tasks[w.task]? = some next ∧
      task.deed? w.before.state w.before.tasks.length next = some d := by
  unfold Turn.deed? at h
  split at h
  next task next htask hnext => exact ⟨task, next, htask, hnext, h⟩
  · cases h

variable [RecordStore σ]

/-- A server is set off by a start that was asked for. -/
theorem asked_of_launched (hi : i.Fresh) (h : i.Course es j) {u n : Nat} {plugin : String}
    (hd : .launched u plugin n ∈ deeds (turnsOf es) t) : Asked i es t (.start plugin) := by
  obtain ⟨w, hw, rfl, hdeed⟩ := mem_deeds.1 hd
  obtain ⟨task, next, htask, -, hdeed⟩ := Turn.of_deed? hdeed
  obtain ⟨rfl, -⟩ := Task.of_launched hdeed
  obtain ⟨past, rest, rfl⟩ := List.append_of_mem (mem_turnsOf.1 hw)
  have hpast := h.of_append.1
  exact ((requested_of_course hi hpast).asked w.task _ _ htask rfl).mono _

theorem AllDid.step (h : AllDid es j) (hs : j.step? t = some k) :
    AllDid (es ++ [.turn ⟨t, j, k⟩]) k := by
  obtain ⟨task, m, htask, hm, rfl⟩ := step?_eq_some_iff.1 hs
  have ht : t < j.tasks.length := (List.getElem?_eq_some_iff.1 htask).1
  have htasks := getElem?_tasks_move ht m
  refine ⟨fun u tr hbegun => ?_, fun u task' hu hkind => ?_, fun u hu => ?_⟩
  · rw [turnsOf_turn, deeds_concat, htasks]
    rcases begun_concat.1 hbegun with hold | hnew
    · obtain ⟨task', htask', hdid⟩ := h.did u tr hold
      have hlt : u < j.tasks.length := (List.getElem?_eq_some_iff.1 htask').1
      by_cases hut : u = t
      · subst hut
        obtain rfl : task' = task := Option.some.inj (htask'.symm.trans htask)
        rw [if_pos rfl, if_pos rfl, deed?_move htask]
        exact ⟨m.next, rfl, Task.did_next hm hdid⟩
      · rw [if_neg hut, if_neg (by omega), if_neg (Ne.symm hut), List.append_nil]
        exact ⟨task', htask', hdid⟩
    · cases hnew with
      | command hul hlisten =>
        -- the task that was just set off has done nothing yet
        obtain rfl : j.tasks.length = u := hul
        obtain rfl : task = .listen (.await tr) := Option.some.inj (htask.symm.trans hlisten)
        rw [if_neg (by omega), if_pos rfl, if_neg (Nat.ne_of_lt ht), h.unused _ (Nat.le_refl _)]
        simp only [Task.step?, ListenTask.step?] at hm
        split at hm <;> cases hm
        exact ⟨_, rfl, Task.did_ofTransition tr⟩
  · rw [htasks] at hu
    split at hu
    next hut =>
      cases hu
      subst hut
      rw [Task.kind_next hm] at hkind
      obtain ⟨tr, hold⟩ := h.begun u task htask hkind
      exact ⟨tr, hold.mono _⟩
    · split at hu
      next hul =>
        rcases Task.spawned_eq hm hu with ⟨_, _, rfl⟩ | ⟨tr, rfl, -⟩
        · cases hkind
        · exact ⟨tr, begun_concat.2 (.inr (.command hul.symm htask))⟩
      · obtain ⟨tr, hold⟩ := h.begun u task' hu hkind
        exact ⟨tr, hold.mono _⟩
  · have hlength : j.tasks.length ≤ (j.move t m).tasks.length := by
      rw [tasks_move, List.length_append, List.length_set]
      omega
    rw [turnsOf_turn, deeds_concat, if_neg (by simp only; omega), List.append_nil]
    exact h.unused u (by omega)

omit [RecordStore σ] in
theorem AllDid.stop (h : AllDid es j) {x : StopTask} (ht : j.tasks[t]? = some (.stop x)) :
    ∃ plugin, Begun es t (.stop plugin) ∧ x.Did plugin (deeds (turnsOf es) t) := by
  obtain ⟨tr, hbegun⟩ := h.begun t _ ht rfl
  obtain ⟨task, htask, hdid⟩ := h.did t tr hbegun
  obtain rfl : task = .stop x := Option.some.inj (htask.symm.trans ht)
  obtain ⟨plugin, rfl, hx⟩ := hdid
  exact ⟨plugin, hbegun, hx⟩

theorem allDid_of_course (hi : i.Fresh) (h : i.Course es j) : AllDid es j := by
  induction h with
  | refl => exact hi.allDid
  | turn _ hs ih => exact ih.step hs
  | action _ a ih => exact ih.act a

end Instance

end PluginKernel
