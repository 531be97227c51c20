import PluginKernel.Proofs.Instance.QueueOrder

/-!
# The course of a plugin

A course is all that has happened to a plugin, oldest first: the turns that its tasks have taken and
what its host has done in between. Its turns alone are a history. The host's part of it says which
messages the host has read and which tasks it has set off.

Tasks are of a few kinds, and no turn changes the kind of a task: what keeps ledgers goes on keeping
ledgers. So whatever only tasks of one kind can touch is touched by one task alone.
-/

namespace PluginKernel

variable {σ : Type}

/-! ## Kinds of tasks -/

/-- What a task is there for. -/
inductive TaskKind where
  /-- Starting or stopping the plugin. -/
  | transition
  /-- Serving on a listener. -/
  | service
  /-- Handing an error to the host. -/
  | report
  /-- Listening to commands. -/
  | listener
  /-- Keeping ledgers. -/
  | keeper
  /-- Delivering ledgers. -/
  | courier
deriving DecidableEq

namespace Task

def kind : Task → TaskKind
  | call _ | await _ | start _ | stop _ => .transition
  | serve _ => .service
  | report _ => .report
  | listen _ => .listener
  | keeper _ => .keeper
  | courier _ => .courier

theorem kind_ofTransition (tr : Transition) : (ofTransition tr).kind = .transition := by
  cases tr <;> rfl

theorem isKeeper_iff_kind {task : Task} : task.IsKeeper ↔ task.kind = .keeper := by
  cases task <;> simp [IsKeeper, kind]

/-- No turn changes the kind of a task. -/
theorem kind_next [RecordStore σ] {setup : Setup} {t fresh : Nat} {s : PluginState σ} {task : Task}
    {m : Move σ} (h : task.step? setup t fresh s = some m) : m.next.kind = task.kind := by
  cases task with
  | call tr => cases h; rfl
  | await tr =>
    simp only [step?] at h
    split at h <;> cases h
    exact kind_ofTransition tr
  | start x =>
    cases x with
    | report r =>
      -- a start that has failed stays a start while it reports
      simp only [step?, StartTask.step?, Option.map_eq_some_iff] at h
      obtain ⟨_, -, rfl⟩ := h
      rfl
    | _ =>
      simp only [step?, StartTask.step?] at h
      (repeat' split at h) <;> cases h <;> rfl
  | listen x =>
    cases x <;> simp only [step?, ListenTask.step?] at h <;> (repeat' split at h) <;> cases h <;>
      rfl
  | _ =>
    simp only [step?, Option.map_eq_some_iff] at h
    obtain ⟨_, -, rfl⟩ := h
    rfl

/-- What is set off in a turn: a server by a start, and a start or a stop by the listener. -/
theorem spawned_eq [RecordStore σ] {setup : Setup} {t fresh : Nat} {s : PluginState σ}
    {task x : Task} {m : Move σ} (h : task.step? setup t fresh s = some m)
    (hx : m.spawned = some x) :
    (∃ n l, x = .serve (.greet n l)) ∨ ∃ tr, task = .listen (.await tr) ∧ x = ofTransition tr := by
  cases task with
  | call tr => cases h; cases hx
  | await tr =>
    simp only [step?] at h
    split at h <;> cases h
    cases hx
  | start y =>
    cases y with
    | report r =>
      simp only [step?, StartTask.step?, Option.map_eq_some_iff] at h
      obtain ⟨_, -, rfl⟩ := h
      cases hx
    | launch plugin n =>
      simp only [step?, StartTask.step?] at h
      cases h
      cases hx
      exact .inl ⟨plugin, n, rfl⟩
    | _ =>
      simp only [step?, StartTask.step?] at h
      (repeat' split at h) <;> cases h <;> cases hx
  | listen y =>
    cases y with
    | await tr =>
      simp only [step?, ListenTask.step?] at h
      split at h <;> cases h
      cases hx
      exact .inr ⟨tr, rfl, rfl⟩
    | _ =>
      simp only [step?, ListenTask.step?] at h
      (repeat' split at h) <;> cases h <;> cases hx
  | _ =>
    simp only [step?, Option.map_eq_some_iff] at h
    obtain ⟨_, -, rfl⟩ := h
    cases hx

theorem kind_spawned [RecordStore σ] {setup : Setup} {t fresh : Nat} {s : PluginState σ}
    {task x : Task} {m : Move σ} (h : task.step? setup t fresh s = some m)
    (hx : m.spawned = some x) : x.kind = .transition ∨ x.kind = .service := by
  rcases spawned_eq h hx with ⟨n, l, rfl⟩ | ⟨tr, -, rfl⟩
  · exact .inr rfl
  · exact .inl (kind_ofTransition tr)

end Task

/-- The host does not reach what the tasks have among themselves. -/
theorem PluginState.internals_act (s : PluginState σ) (a : HostAction) :
    (s.act a).ledger = s.ledger ∧ (s.act a).outbox = s.outbox ∧ (s.act a).pending = s.pending ∧
      (s.act a).store = s.store := by
  cases a with
  | drop e => cases e <;> exact ⟨rfl, rfl, rfl, rfl⟩
  | _ => exact ⟨rfl, rfl, rfl, rfl⟩

theorem HostAction.kind_task {a : HostAction} {x : Task} (hx : a.task? = some x) :
    x.kind = .transition ∨ x.kind = .report := by
  cases a <;> cases hx
  · exact .inl rfl
  · exact .inr rfl

namespace Instance

/-- The kind of the task of a number. -/
def kindOf (i : Instance σ) (t : Nat) : Option TaskKind := i.tasks[t]?.map Task.kind

/-- Among all tasks, one is of a kind. -/
def Sole (i : Instance σ) (k : TaskKind) (t : Nat) : Prop := ∀ u, i.kindOf u = some k ↔ u = t

theorem Sole.act {i : Instance σ} {k : TaskKind} {t : Nat} (h : i.Sole k t) (a : HostAction)
    (htransition : k ≠ .transition) (hreport : k ≠ .report) : (i.act a).Sole k t := by
  intro u
  rw [← h u, kindOf, kindOf, getElem?_tasks_act]
  split
  next hu =>
    rw [hu, List.getElem?_eq_none (Nat.le_refl _)]
    cases hx : a.task? with
    | none => rfl
    | some x =>
      have hkind := HostAction.kind_task hx
      have hk : x.kind ≠ k := by
        rintro rfl
        exact hkind.elim htransition hreport
      simp [hk]
  · rfl

theorem Sole.step [RecordStore σ] {i j : Instance σ} {k : TaskKind} {t u : Nat} (h : i.Sole k t)
    (hs : i.step? u = some j) (htransition : k ≠ .transition) (hservice : k ≠ .service) :
    j.Sole k t := by
  obtain ⟨task, m, htask, hm, rfl⟩ := step?_eq_some_iff.1 hs
  intro v
  rw [← h v, kindOf, kindOf, getElem?_tasks_move (List.getElem?_eq_some_iff.1 htask).1]
  split
  next hv => simp [hv, htask, Task.kind_next hm]
  · split
    next hv =>
      rw [hv, List.getElem?_eq_none (Nat.le_refl _)]
      cases hx : m.spawned with
      | none => rfl
      | some x =>
        have hkind := Task.kind_spawned hm hx
        have hk : x.kind ≠ k := by
          rintro rfl
          exact hkind.elim htransition hservice
        simp [hk]
    · rfl

/-- At first ledgers are kept and delivered and commands are listened to, and nothing else goes
on. -/
theorem Fresh.eq_of_getElem? {i : Instance σ} (h : i.Fresh) {t : Nat} {task : Task}
    (ht : i.tasks[t]? = some task) :
    task = .keeper .receive ∨ task = .courier .receive ∨ task = .listen .open := by
  have hmem := List.mem_of_getElem? ht
  rw [h.tasks] at hmem
  simpa using hmem

theorem Fresh.sole {i : Instance σ} (h : i.Fresh) :
    i.Sole .keeper 0 ∧ i.Sole .courier 1 ∧ i.Sole .listener 2 := by
  refine ⟨fun u => ?_, fun u => ?_, fun u => ?_⟩
  all_goals
    rw [kindOf, h.tasks]
    match u with
    | 0 | 1 | 2 => simp [Task.kind]
    | _ + 3 => simp

/-! ## Courses -/

/-- Something that has happened to a plugin. -/
inductive Event (σ : Type) where
  | turn (x : Turn σ)
  | action (i : Instance σ) (a : HostAction)

def Event.before : Event σ → Instance σ
  | turn x => x.before
  | action i _ => i

def Event.after : Event σ → Instance σ
  | turn x => x.after
  | action i a => i.act a

def Event.turn? : Event σ → Option (Turn σ)
  | turn x => some x
  | action _ _ => none

/-- What has happened, oldest first, while one plugin has become another. -/
inductive Course [RecordStore σ] (i : Instance σ) : List (Event σ) → Instance σ → Prop where
  | refl : Course i [] i
  | turn {es : List (Event σ)} {j k : Instance σ} {t : Nat} (h : Course i es j)
      (hs : j.step? t = some k) : Course i (es ++ [.turn ⟨t, j, k⟩]) k
  | action {es : List (Event σ)} {j : Instance σ} (h : Course i es j) (a : HostAction) :
      Course i (es ++ [.action j a]) (j.act a)

def turnsOf (es : List (Event σ)) : List (Turn σ) := es.filterMap Event.turn?

@[simp] theorem turnsOf_turn (es : List (Event σ)) (x : Turn σ) :
    turnsOf (es ++ [.turn x]) = turnsOf es ++ [x] := by
  simp [turnsOf, Event.turn?]

@[simp] theorem turnsOf_action (es : List (Event σ)) (i : Instance σ) (a : HostAction) :
    turnsOf (es ++ [.action i a]) = turnsOf es := by
  simp [turnsOf, Event.turn?]

@[simp] theorem turnsOf_map_turn (es : List (Event σ)) (ts : List (Turn σ)) :
    turnsOf (es ++ ts.map .turn) = turnsOf es ++ ts := by
  have hts : turnsOf (ts.map Event.turn) = ts := by
    rw [turnsOf, List.filterMap_map]
    exact List.filterMap_some
  rw [turnsOf, List.filterMap_append]
  exact congrArg _ hts

theorem mem_turnsOf {es : List (Event σ)} {w : Turn σ} : w ∈ turnsOf es ↔ Event.turn w ∈ es := by
  rw [turnsOf, List.mem_filterMap]
  constructor
  · rintro ⟨e, he, hw⟩
    cases e with
    | turn x => cases hw; exact he
    | action i a => cases hw
  · exact fun h => ⟨_, h, rfl⟩

theorem mem_turnsOf_turn (es : List (Event σ)) (w : Turn σ) : w ∈ turnsOf (es ++ [.turn w]) :=
  mem_turnsOf.2 List.mem_concat_self

variable [RecordStore σ] {i j k : Instance σ} {es : List (Event σ)}

/-- The turns of a course are a history. -/
theorem Course.history (h : i.Course es j) : i.History (turnsOf es) j := by
  induction h with
  | refl => exact .refl
  | turn _ hs ih =>
    rw [turnsOf_turn]
    exact ih.step hs
  | action _ a ih =>
    rw [turnsOf_action]
    exact ih.act a

theorem Course.reachable (h : i.Course es j) : i.Reachable j :=
  reachable_iff_history.2 ⟨_, h.history⟩

/-- The turns of some tasks, one after the other, as a part of a course. -/
theorem Course.turns (h : i.Course es j) {us : List Nat} (hs : j.steps? us = some k) :
    i.Course (es ++ (j.turns us).map .turn) k := by
  induction us generalizing es j with
  | nil =>
    cases hs
    rw [Instance.turns, List.map_nil, List.append_nil]
    exact h
  | cons t rest ih =>
    obtain ⟨j', hj', hrest⟩ := Option.bind_eq_some_iff.1 hs
    have hturns : j.turns (t :: rest) = ⟨t, j, j'⟩ :: j'.turns rest := by
      rw [Instance.turns, hj']
    have hsplit : es ++ (j.turns (t :: rest)).map .turn =
        (es ++ [.turn ⟨t, j, j'⟩]) ++ (j'.turns rest).map .turn := by
      rw [hturns, List.map_cons, List.append_assoc, List.singleton_append]
    rw [hsplit]
    exact ih (h.turn hj') hrest

/-- What comes before a turn in a history is a history that leads to it. -/
theorem History.of_append {past rest : List (Turn σ)} {x : Turn σ}
    (h : i.History (past ++ x :: rest) j) :
    i.History past x.before ∧ x.before.step? x.task = some x.after := by
  generalize hts : past ++ x :: rest = ts at h
  induction h generalizing rest with
  | refl => simp at hts
  | @step ts j k t h hs ih =>
    rcases List.eq_nil_or_concat rest with rfl | ⟨rest, y, rfl⟩
    · obtain ⟨rfl, hx⟩ := List.append_inj' hts rfl
      cases hx
      exact ⟨h, hs⟩
    · rw [List.concat_eq_append, ← List.cons_append, ← List.append_assoc] at hts
      exact ih (List.append_inj' hts rfl).1
  | act _ a ih => exact ih hts

/-- What comes before an event in a course leads to it, and what comes after it goes on from
there. -/
theorem Course.of_append {past rest : List (Event σ)} {e : Event σ}
    (h : i.Course (past ++ e :: rest) j) :
    i.Course past e.before ∧ i.Course (past ++ [e]) e.after ∧ e.after.Course rest j := by
  generalize hes : past ++ e :: rest = es at h
  induction h generalizing rest with
  | refl => simp at hes
  | @turn es j k t h hs ih =>
    -- the event is this turn, or the last of what comes after it is
    rcases List.eq_nil_or_concat rest with rfl | ⟨rest, y, rfl⟩
    · obtain ⟨rfl, he⟩ := List.append_inj' hes rfl
      cases he
      exact ⟨h, h.turn hs, .refl⟩
    · rw [List.concat_eq_append, ← List.cons_append, ← List.append_assoc] at hes
      obtain ⟨hfront, hy⟩ := List.append_inj' hes rfl
      cases hy
      obtain ⟨hpast, hnow, hrest⟩ := ih hfront
      rw [List.concat_eq_append]
      exact ⟨hpast, hnow, hrest.turn hs⟩
  | @action es j h a ih =>
    rcases List.eq_nil_or_concat rest with rfl | ⟨rest, y, rfl⟩
    · obtain ⟨rfl, he⟩ := List.append_inj' hes rfl
      cases he
      exact ⟨h, h.action a, .refl⟩
    · rw [List.concat_eq_append, ← List.cons_append, ← List.append_assoc] at hes
      obtain ⟨hfront, hy⟩ := List.append_inj' hes rfl
      cases hy
      obtain ⟨hpast, hnow, hrest⟩ := ih hfront
      rw [List.concat_eq_append]
      exact ⟨hpast, hnow, hrest.action a⟩

end Instance

end PluginKernel
