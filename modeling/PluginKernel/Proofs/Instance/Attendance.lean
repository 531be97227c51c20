import PluginKernel.Proofs.Instance.Coherence
import PluginKernel.Proofs.Instance.Course

/-!
# Every open listener is attended

A listener is opened by a start, which hands it to the server that it sets off; the server closes it
when it has been told to stop. So at every time each open listener is attended by one task, the
start that has not launched its server yet or the server that is not done yet, and nobody attends a
listener that is closed. `Task.listenerEffect` says what a turn can do to listeners and to those who
attend them, and `attended_of_reachable` is what follows.

A stop that waits for a server has told it to stop: `joined_of_reachable`.
-/

namespace PluginKernel

variable {σ : Type}

/-- The listener of a server that is not done. -/
def ServeTask.listener? : ServeTask → Option Nat
  | greet _ n | wait n | .open n | serve n => some n
  | done => none

/-- The listener that a task attends. -/
def Task.listener? : Task → Option Nat
  | start (.announce _ n) | start (.launch _ n) => some n
  | serve x => x.listener?
  | _ => none

/-- A listener is open. -/
def PluginState.IsOpen (s : PluginState σ) (n : Nat) : Prop :=
  ∃ l, s.listeners[n]? = some l ∧ l.closed = false

theorem Task.listener?_ofTransition (tr : Transition) : (ofTransition tr).listener? = none := by
  cases tr <;> rfl

/-! ## What a turn does to listeners -/

/-- What a turn of a task can do to listeners and to those who attend them. -/
inductive Task.ListenerEffect (s : PluginState σ) (task : Task) (m : Move σ) : Prop where
  | keep (hlisteners : m.state.listeners = s.listeners)
      (hnext : m.next.listener? = task.listener?)
      (hspawned : ∀ x, m.spawned = some x → x.listener? = none)
      (hjoin : ∀ plugin n, m.next ≠ .stop (.join plugin n))
  | bind (plugin : String) (place : Endpoint) (htask : task = .start (.bind plugin))
      (hnext : m.next = .start (.announce plugin s.listeners.length)) (hspawned : m.spawned = none)
      (hlisteners : m.state.listeners = s.listeners ++ [{ endpoint := place }])
  | launch (plugin : String) (n : Nat) (htask : task = .start (.launch plugin n))
      (hnext : m.next = .start (.record plugin))
      (hspawned : m.spawned = some (.serve (.greet plugin n)))
      (hlisteners : m.state.listeners = s.listeners)
  | cancel (plugin : String) (n : Nat) (htask : task = .stop (.cancel plugin n))
      (hnext : m.next = .stop (.join plugin n)) (hspawned : m.spawned = none)
      (hlisteners : m.state.listeners =
        s.listeners.modify n fun l => { l with cancelled := true })
  | close (n : Nat) (htask : task = .serve (.serve n)) (hnext : m.next = .serve .done)
      (hspawned : m.spawned = none)
      (hlisteners : m.state.listeners = s.listeners.modify n fun l => { l with closed := true })

/-- A turn that sets nothing off and has nothing to do with listeners. -/
theorem Task.ListenerEffect.quiet {s s' : PluginState σ} {task next : Task}
    (hlisteners : s'.listeners = s.listeners) (hnext : next.listener? = task.listener?)
    (hjoin : ∀ plugin n, next ≠ .stop (.join plugin n)) : task.ListenerEffect s ⟨s', next, none⟩ :=
  .keep hlisteners hnext (fun _ hx => by cases hx) hjoin

theorem ReportTask.listeners_step? {setup : Setup} {t : Nat} {s s' : PluginState σ}
    {r r' : ReportTask} (h : r.step? setup t s = some (s', r')) : s'.listeners = s.listeners := by
  cases r <;> simp only [step?] at h <;> (repeat' split at h) <;> cases h <;> rfl

theorem KeeperTask.listeners_step? [RecordStore σ] {setup : Setup} {s s' : PluginState σ}
    {r r' : KeeperTask} (h : r.step? setup s = some (s', r')) : s'.listeners = s.listeners := by
  cases r with
  | receive => simp only [step?] at h; split at h <;> cases h; rfl
  | persist filing l rest summary => cases rest <;> simp only [step?] at h <;> cases h <;> rfl
  | forward l => simp only [step?] at h; cases h; rfl

theorem CourierTask.listeners_step? {t : Nat} {s s' : PluginState σ} {r r' : CourierTask}
    (h : r.step? t s = some (s', r')) : s'.listeners = s.listeners := by
  cases r with
  | receive => simp only [step?] at h; split at h <;> cases h; rfl
  | send l => simp only [step?] at h; split at h <;> cases h <;> rfl
  | wait =>
    simp only [step?, Option.map_eq_some_iff] at h
    obtain ⟨_, _, h⟩ := h
    cases h
    rfl

theorem StartTask.listenerEffect {setup : Setup} {t : Nat} {s : PluginState σ} {x : StartTask}
    {m : Move σ} (h : x.step? setup t s = some m) : (Task.start x).ListenerEffect s m := by
  cases x with
  | bind plugin =>
    simp only [step?] at h
    split at h <;> cases h
    · exact .quiet rfl rfl (by simp)
    next place _ => exact .bind plugin place rfl rfl rfl rfl
  | launch plugin n =>
    simp only [step?] at h
    cases h
    exact .launch plugin n rfl rfl rfl rfl
  | report r =>
    simp only [step?, Option.map_eq_some_iff, Prod.exists] at h
    obtain ⟨s', r', hr, rfl⟩ := h
    exact .quiet (ReportTask.listeners_step? hr) rfl (by simp)
  | _ =>
    simp only [step?] at h
    (repeat' split at h) <;> cases h <;> exact .quiet rfl rfl (by simp)

theorem StopTask.listenerEffect {setup : Setup} {t : Nat} {s s' : PluginState σ} {x x' : StopTask}
    (h : x.step? setup t s = some (s', x')) :
    (Task.stop x).ListenerEffect s ⟨s', .stop x', none⟩ := by
  cases x with
  | cancel plugin n =>
    simp only [step?] at h
    cases h
    exact .cancel plugin n rfl rfl rfl rfl
  | _ =>
    simp only [step?] at h
    (repeat' split at h) <;> cases h <;> exact .quiet rfl rfl (by simp)

theorem ServeTask.listenerEffect {t : Nat} {s s' : PluginState σ} {x x' : ServeTask}
    (h : x.step? t s = some (s', x')) :
    (Task.serve x).ListenerEffect s ⟨s', .serve x', none⟩ := by
  cases x with
  | serve n =>
    simp only [step?] at h
    (repeat' split at h) <;> cases h
    exact .close n rfl rfl rfl rfl
  | _ =>
    simp only [step?] at h
    (repeat' split at h) <;> cases h <;> exact .quiet rfl rfl (by simp)

theorem ListenTask.listenerEffect {t fresh : Nat} {s : PluginState σ} {x : ListenTask} {m : Move σ}
    (h : x.step? t fresh s = some m) : (Task.listen x).ListenerEffect s m := by
  cases x with
  | await tr =>
    simp only [step?] at h
    split at h <;> cases h
    refine .keep rfl rfl (fun x hx => ?_) (by simp)
    cases hx
    exact Task.listener?_ofTransition tr
  | _ =>
    simp only [step?] at h
    (repeat' split at h) <;> cases h <;> exact .quiet rfl rfl (by simp)

/-- A turn does one of five things to listeners and to those who attend them. -/
theorem Task.listenerEffect [RecordStore σ] {setup : Setup} {t fresh : Nat} {s : PluginState σ}
    {task : Task} {m : Move σ} (h : task.step? setup t fresh s = some m) :
    task.ListenerEffect s m := by
  cases task with
  | call tr =>
    cases h
    exact .quiet rfl rfl (by simp)
  | await tr =>
    simp only [step?] at h
    split at h <;> cases h
    exact .quiet rfl (listener?_ofTransition tr) (by cases tr <;> simp [ofTransition])
  | start x => exact StartTask.listenerEffect h
  | listen x => exact ListenTask.listenerEffect h
  | stop x =>
    simp only [step?, Option.map_eq_some_iff, Prod.exists] at h
    obtain ⟨s', x', hx, rfl⟩ := h
    exact StopTask.listenerEffect hx
  | serve x =>
    simp only [step?, Option.map_eq_some_iff, Prod.exists] at h
    obtain ⟨s', x', hx, rfl⟩ := h
    exact ServeTask.listenerEffect hx
  | report x =>
    simp only [step?, Option.map_eq_some_iff, Prod.exists] at h
    obtain ⟨s', x', hx, rfl⟩ := h
    exact .quiet (ReportTask.listeners_step? hx) rfl (by simp)
  | keeper x =>
    simp only [step?, Option.map_eq_some_iff, Prod.exists] at h
    obtain ⟨s', x', hx, rfl⟩ := h
    exact .quiet (KeeperTask.listeners_step? hx) rfl (by simp)
  | courier x =>
    simp only [step?, Option.map_eq_some_iff, Prod.exists] at h
    obtain ⟨s', x', hx, rfl⟩ := h
    exact .quiet (CourierTask.listeners_step? hx) rfl (by simp)

theorem PluginState.isOpen_congr {s s' : PluginState σ} (h : s'.listeners = s.listeners) (n : Nat) :
    s'.IsOpen n ↔ s.IsOpen n := by
  rw [IsOpen, IsOpen, h]

theorem PluginState.isOpen_append {s s' : PluginState σ} {place : Endpoint}
    (h : s'.listeners = s.listeners ++ [{ endpoint := place }]) (n : Nat) :
    s'.IsOpen n ↔ n = s.listeners.length ∨ s.IsOpen n := by
  simp only [IsOpen, h, List.getElem?_append]
  split
  next hlt => simp [Nat.ne_of_lt hlt]
  next hge =>
    have hnone : s.listeners[n]? = none := List.getElem?_eq_none (by omega)
    by_cases hn : n = s.listeners.length
    · simp [hn]
    · have hpos : 0 < n - s.listeners.length := by omega
      rw [List.getElem?_eq_none (l := [_]) (by simp; omega)]
      simp [hn, hnone]

theorem PluginState.isOpen_cancel {s s' : PluginState σ} {k : Nat}
    (h : s'.listeners = s.listeners.modify k fun l => { l with cancelled := true }) (n : Nat) :
    s'.IsOpen n ↔ s.IsOpen n := by
  simp only [IsOpen, h, List.getElem?_modify]
  by_cases hkn : k = n
  · cases hl : s.listeners[n]? <;> simp [hkn]
  · simp [hkn]

theorem PluginState.isOpen_close {s s' : PluginState σ} {k : Nat}
    (h : s'.listeners = s.listeners.modify k fun l => { l with closed := true }) (n : Nat) :
    s'.IsOpen n ↔ n ≠ k ∧ s.IsOpen n := by
  simp only [IsOpen, h, List.getElem?_modify]
  by_cases hkn : k = n
  · cases hl : s.listeners[n]? <;> simp [hkn]
  · simp [hkn, Ne.symm hkn]

/-- The host does not reach the listeners. -/
theorem PluginState.listeners_act (s : PluginState σ) (a : HostAction) :
    (s.act a).listeners = s.listeners := by
  cases a with
  | drop e => cases e <;> rfl
  | _ => rfl

/-! ## All tasks together -/

namespace Instance

/-- The listener that the task of a number attends. -/
def listenerOf (i : Instance σ) (t : Nat) : Option Nat := i.tasks[t]?.bind Task.listener?

/-- Open listeners and those who attend them correspond to each other. -/
structure Attended (i : Instance σ) : Prop where
  /-- Every open listener is attended. -/
  attendant : ∀ n, i.state.IsOpen n → ∃ t, i.listenerOf t = some n
  isOpen : ∀ t n, i.listenerOf t = some n → i.state.IsOpen n
  /-- No two tasks attend one listener. -/
  sole : ∀ t u n, i.listenerOf t = some n → i.listenerOf u = some n → t = u

/-- Whoever waits for a server has told it to stop. -/
def Joined (i : Instance σ) : Prop :=
  ∀ (t : Nat) (plugin : String) (n : Nat), i.tasks[t]? = some (.stop (.join plugin n)) →
    ∃ l, i.state.listeners[n]? = some l ∧ l.cancelled = true

variable {i j : Instance σ} {t : Nat}

theorem listenerOf_of_getElem? {task : Task} (h : i.tasks[t]? = some task) :
    i.listenerOf t = task.listener? := by
  rw [listenerOf, h, Option.bind_some]

theorem listenerOf_length (i : Instance σ) : i.listenerOf i.tasks.length = none := by
  simp [listenerOf]

theorem listenerOf_move (ht : t < i.tasks.length) (m : Move σ) (u : Nat) :
    (i.move t m).listenerOf u =
      if u = t then m.next.listener?
      else if u = i.tasks.length then m.spawned.bind Task.listener?
      else i.listenerOf u := by
  simp only [listenerOf, getElem?_tasks_move ht]
  split
  · rfl
  · split <;> rfl

theorem listenerOf_act (i : Instance σ) (a : HostAction) (t : Nat) :
    (i.act a).listenerOf t = i.listenerOf t := by
  rw [listenerOf, getElem?_tasks_act]
  split
  next ht =>
    rw [ht, listenerOf_length]
    cases a <;> rfl
  · rfl

theorem Fresh.attended (h : i.Fresh) : i.Attended := by
  have hnobody : ∀ t, i.listenerOf t = none := by
    intro t
    rw [listenerOf]
    cases ht : i.tasks[t]? with
    | none => rfl
    | some task => rcases h.eq_of_getElem? ht with rfl | rfl | rfl <;> rfl
  refine ⟨fun n hn => ?_, fun t n ht => ?_, fun t u n ht => ?_⟩
  · obtain ⟨l, hl, -⟩ := hn
    rw [h.listeners] at hl
    cases hl
  · rw [hnobody] at ht
    cases ht
  · rw [hnobody] at ht
    cases ht

theorem Attended.act (h : i.Attended) (a : HostAction) : (i.act a).Attended := by
  have hopen : ∀ n, (i.act a).state.IsOpen n ↔ i.state.IsOpen n := by
    rw [state_act]
    exact PluginState.isOpen_congr (PluginState.listeners_act i.state a)
  constructor
  · intro n hn
    simp only [listenerOf_act]
    exact h.attendant n ((hopen n).1 hn)
  · intro t n ht
    rw [listenerOf_act] at ht
    exact (hopen n).2 (h.isOpen t n ht)
  · intro t u n ht hu
    rw [listenerOf_act] at ht hu
    exact h.sole t u n ht hu

/-- Attendants that are the same, for listeners that are open as before. -/
theorem Attended.congr (h : i.Attended) (hopen : ∀ n, j.state.IsOpen n ↔ i.state.IsOpen n)
    (hsame : ∀ u, j.listenerOf u = i.listenerOf u) : j.Attended := by
  refine ⟨fun n hn => ?_, fun u n hu => ?_, fun u v n hu hv => ?_⟩
  · obtain ⟨u, hu⟩ := h.attendant n ((hopen n).1 hn)
    exact ⟨u, (hsame u).trans hu⟩
  · exact (hopen n).2 (h.isOpen u n ((hsame u).symm.trans hu))
  · exact h.sole u v n ((hsame u).symm.trans hu) ((hsame v).symm.trans hv)

/-- A task opens a listener. -/
theorem Attended.bind (h : i.Attended)
    (hopen : ∀ n, j.state.IsOpen n ↔ n = i.state.listeners.length ∨ i.state.IsOpen n)
    (ht : i.listenerOf t = none) (hsame : ∀ u, j.listenerOf u =
      if u = t then some i.state.listeners.length else i.listenerOf u) : j.Attended := by
  have hnew : ¬ i.state.IsOpen i.state.listeners.length := by
    rintro ⟨l, hl, -⟩
    simp at hl
  refine ⟨fun n hn => ?_, fun u n hu => ?_, fun u v n hu hv => ?_⟩
  · rcases (hopen n).1 hn with rfl | hold
    · exact ⟨t, by rw [hsame, if_pos rfl]⟩
    · obtain ⟨u, hu⟩ := h.attendant n hold
      have hut : u ≠ t := fun e => by rw [e, ht] at hu; cases hu
      exact ⟨u, by rw [hsame, if_neg hut, hu]⟩
  · rw [hsame] at hu
    split at hu
    · cases hu
      exact (hopen _).2 (.inl rfl)
    · exact (hopen n).2 (.inr (h.isOpen u n hu))
  · rw [hsame] at hu hv
    split at hu <;> split at hv
    next hut hvt => rw [hut, hvt]
    · cases hu
      exact absurd (h.isOpen v _ hv) hnew
    · cases hv
      exact absurd (h.isOpen u _ hu) hnew
    · exact h.sole u v n hu hv

/-- A task hands the listener that it attends to another. -/
theorem Attended.hand (h : i.Attended) {n f : Nat}
    (hopen : ∀ n, j.state.IsOpen n ↔ i.state.IsOpen n) (ht : i.listenerOf t = some n)
    (hf : i.listenerOf f = none) (hsame : ∀ u, j.listenerOf u =
      if u = t then none else if u = f then some n else i.listenerOf u) : j.Attended := by
  have htf : t ≠ f := fun e => by rw [e, hf] at ht; cases ht
  -- whoever attends a listener afterwards did so before, or it is the one that was handed over
  have hback : ∀ u k, j.listenerOf u = some k →
      u = f ∧ k = n ∨ u ≠ t ∧ u ≠ f ∧ i.listenerOf u = some k := by
    intro u k hu
    rw [hsame] at hu
    split at hu
    · cases hu
    next hut =>
      split at hu
      next huf =>
        cases hu
        exact .inl ⟨huf, rfl⟩
      next huf => exact .inr ⟨hut, huf, hu⟩
  refine ⟨fun k hk => ?_, fun u k hu => ?_, fun u v k hu hv => ?_⟩
  · obtain ⟨u, hu⟩ := h.attendant k ((hopen k).1 hk)
    by_cases hut : u = t
    · subst hut
      obtain rfl : n = k := Option.some.inj (ht.symm.trans hu)
      exact ⟨f, by rw [hsame, if_neg (Ne.symm htf), if_pos rfl]⟩
    · have huf : u ≠ f := fun e => by rw [e, hf] at hu; cases hu
      exact ⟨u, by rw [hsame, if_neg hut, if_neg huf, hu]⟩
  · rcases hback u k hu with ⟨rfl, rfl⟩ | ⟨-, -, hold⟩
    · exact (hopen k).2 (h.isOpen t k ht)
    · exact (hopen k).2 (h.isOpen u k hold)
  · rcases hback u k hu with ⟨rfl, rfl⟩ | ⟨hut, -, hu⟩ <;>
      rcases hback v _ hv with ⟨rfl, hk⟩ | ⟨hvt, -, hv⟩
    · rfl
    · exact absurd (h.sole v t k hv ht) hvt
    · subst hk
      exact absurd (h.sole u t k hu ht) hut
    · exact h.sole u v k hu hv

/-- A task closes the listener that it attends. -/
theorem Attended.close (h : i.Attended) {n : Nat}
    (hopen : ∀ k, j.state.IsOpen k ↔ k ≠ n ∧ i.state.IsOpen k) (ht : i.listenerOf t = some n)
    (hsame : ∀ u, j.listenerOf u = if u = t then none else i.listenerOf u) : j.Attended := by
  have hback : ∀ u k, j.listenerOf u = some k → u ≠ t ∧ i.listenerOf u = some k := by
    intro u k hu
    rw [hsame] at hu
    split at hu
    · cases hu
    next hut => exact ⟨hut, hu⟩
  refine ⟨fun k hk => ?_, fun u k hu => ?_, fun u v k hu hv => ?_⟩
  · obtain ⟨hkn, hold⟩ := (hopen k).1 hk
    obtain ⟨u, hu⟩ := h.attendant k hold
    have hut : u ≠ t := by
      rintro rfl
      exact hkn (Option.some.inj (hu.symm.trans ht))
    exact ⟨u, by rw [hsame, if_neg hut, hu]⟩
  · obtain ⟨hut, hold⟩ := hback u k hu
    refine (hopen k).2 ⟨?_, h.isOpen u k hold⟩
    rintro rfl
    exact hut (h.sole u t k hold ht)
  · exact h.sole u v k (hback u k hu).2 (hback v k hv).2

variable [RecordStore σ]

theorem Attended.step (h : i.Attended) (hs : i.step? t = some j) : j.Attended := by
  obtain ⟨task, m, htask, hm, rfl⟩ := step?_eq_some_iff.1 hs
  have ht : t < i.tasks.length := (List.getElem?_eq_some_iff.1 htask).1
  have hold := listenerOf_of_getElem? htask
  have hstate : (i.move t m).state = m.state := state_move i t m
  have hlength := listenerOf_length i
  -- who attends what, if nobody is set off or whoever is set off attends nothing
  have hsame : m.spawned.bind Task.listener? = none → ∀ u, (i.move t m).listenerOf u =
      if u = t then m.next.listener? else i.listenerOf u := by
    intro hspawned u
    rw [listenerOf_move ht]
    split
    · rfl
    · split
      next hu => rw [hspawned, hu, hlength]
      · rfl
  cases Task.listenerEffect hm with
  | keep hlisteners hnext hspawned =>
    refine h.congr (by rw [hstate]; exact PluginState.isOpen_congr hlisteners) fun u => ?_
    rw [hsame (Option.bind_eq_none_iff.2 hspawned)]
    split
    next hut => rw [hnext, hut, hold]
    · rfl
  | bind plugin place htask' hnext hspawned hlisteners =>
    subst htask'
    refine h.bind (by rw [hstate]; exact PluginState.isOpen_append hlisteners) hold fun u => ?_
    rw [hsame (by rw [hspawned]; rfl), hnext]
    rfl
  | launch plugin n htask' hnext hspawned hlisteners =>
    subst htask'
    refine h.hand (by rw [hstate]; exact PluginState.isOpen_congr hlisteners) hold hlength
      fun u => ?_
    rw [listenerOf_move ht, hnext, hspawned]
    rfl
  | cancel plugin n htask' hnext hspawned hlisteners =>
    subst htask'
    refine h.congr (by rw [hstate]; exact PluginState.isOpen_cancel hlisteners) fun u => ?_
    rw [hsame (by rw [hspawned]; rfl), hnext]
    split
    next hut => rw [hut, hold]; rfl
    · rfl
  | close n htask' hnext hspawned hlisteners =>
    subst htask'
    refine h.close (by rw [hstate]; exact PluginState.isOpen_close hlisteners) hold fun u => ?_
    rw [hsame (by rw [hspawned]; rfl), hnext]
    rfl

/-- Whatever happens, every open listener is attended by one task, and only open listeners are. -/
theorem attended_of_reachable (hi : i.Fresh) (h : i.Reachable j) : j.Attended := by
  induction h with
  | refl => exact hi.attended
  | step _ hs ih =>
    obtain ⟨t, ht⟩ := hs
    exact ih.step ht
  | act _ a ih => exact ih.act a

/-- What holds of a listener goes on to hold if neither telling it to stop nor closing it changes
that. -/
theorem exists_listener_of_step {P : Listener → Prop}
    (hcancel : ∀ l, P l → P { l with cancelled := true })
    (hclose : ∀ l, P l → P { l with closed := true }) (hs : i.step? t = some j) {n : Nat}
    (h : ∃ l, i.state.listeners[n]? = some l ∧ P l) :
    ∃ l, j.state.listeners[n]? = some l ∧ P l := by
  obtain ⟨task, m, htask, hm, rfl⟩ := step?_eq_some_iff.1 hs
  obtain ⟨l, hl, hp⟩ := h
  rw [state_move]
  cases Task.listenerEffect hm with
  | keep hlisteners | launch _ _ _ _ _ hlisteners => exact ⟨l, by rw [hlisteners, hl], hp⟩
  | bind _ _ _ _ _ hlisteners =>
    have hn := (List.getElem?_eq_some_iff.1 hl).1
    exact ⟨l, by rw [hlisteners, List.getElem?_append_left hn, hl], hp⟩
  | cancel _ k _ _ _ hlisteners =>
    rw [hlisteners, List.getElem?_modify, hl]
    by_cases hkn : k = n
    · exact ⟨_, by simp [hkn], hcancel l hp⟩
    · exact ⟨l, by simp [hkn], hp⟩
  | close k _ _ _ hlisteners =>
    rw [hlisteners, List.getElem?_modify, hl]
    by_cases hkn : k = n
    · exact ⟨_, by simp [hkn], hclose l hp⟩
    · exact ⟨l, by simp [hkn], hp⟩

/-- No listener is ever given up. -/
theorem listeners_length_le (hs : i.step? t = some j) :
    i.state.listeners.length ≤ j.state.listeners.length := by
  obtain ⟨task, m, htask, hm, rfl⟩ := step?_eq_some_iff.1 hs
  rw [state_move]
  cases Task.listenerEffect hm with
  | keep hlisteners | launch _ _ _ _ _ hlisteners | cancel _ _ _ _ _ hlisteners
    | close _ _ _ _ hlisteners | bind _ _ _ _ _ hlisteners => simp [hlisteners]

theorem Joined.step (h : i.Joined) (hi : i.Coherent) (hs : i.step? t = some j) : j.Joined := by
  have hkept (n : Nat) : (∃ l, i.state.listeners[n]? = some l ∧ l.cancelled = true) →
      ∃ l, j.state.listeners[n]? = some l ∧ l.cancelled = true :=
    exists_listener_of_step (fun _ _ => rfl) (fun _ h => h) hs
  obtain ⟨task, m, htask, hm, rfl⟩ := step?_eq_some_iff.1 hs
  intro u plugin n hu
  rw [getElem?_tasks_move (List.getElem?_eq_some_iff.1 htask).1] at hu
  split at hu
  · -- only a stop that tells its server to stop begins to wait for it
    have hnext : m.next = .stop (.join plugin n) := Option.some.inj hu
    cases Task.listenerEffect hm with
    | keep _ _ _ hjoin => exact absurd hnext (hjoin plugin n)
    | bind _ _ _ hnext' | launch _ _ _ hnext' | close _ _ hnext' =>
      rw [hnext] at hnext'
      cases hnext'
    | cancel _ k htask' hnext' _ hlisteners =>
      rw [hnext] at hnext'
      cases hnext'
      subst htask'
      obtain ⟨-, -, ⟨e, he⟩, -⟩ := hi.inside t _ htask rfl
      rw [state_move, hlisteners, List.getElem?_modify_eq, he]
      exact ⟨_, rfl, rfl⟩
  · split at hu
    · rcases Task.spawned_eq hm hu with ⟨_, _, hx⟩ | ⟨tr, -, hx⟩
      · cases hx
      · cases tr <;> cases hx
    · exact hkept n (h u plugin n hu)

/-- Whatever happens, whoever waits for a server has told it to stop. -/
theorem joined_of_reachable (hi : i.Fresh) (h : i.Reachable j) : j.Joined := by
  induction h with
  | refl =>
    intro t plugin n ht
    rcases hi.eq_of_getElem? ht with h | h | h <;> cases h
  | step h hs ih =>
    obtain ⟨t, ht⟩ := hs
    exact ih.step (coherent_of_reachable hi h) ht
  | act _ a ih =>
    intro t plugin n ht
    rw [state_act, PluginState.listeners_act]
    rw [getElem?_tasks_act] at ht
    split at ht
    · cases a <;> cases ht
    · exact ih t plugin n ht

end Instance

end PluginKernel
