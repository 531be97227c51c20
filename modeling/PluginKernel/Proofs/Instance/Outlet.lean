import PluginKernel.Proofs.Instance.Pipeline

/-!
# What tasks send to the host

Acknowledgments and errors go to the host in the same way: some tasks send a message in a turn and
wait for room if there is none, and the host reads the messages or lets go of their queue. An
`Outlet` is such a queue, together with what is sent to it and read from it. As long as the host has
not let go, what it has read and what is still on its way are together what was sent, in the order
of the turns in which it was sent: `Outlet.conveyed`.
-/

namespace PluginKernel

variable {σ α : Type}

namespace Queue

variable {q q' : Queue α} {t : Nat} {sent : Option α}

theorem capacity_takes (h : Takes t q q' sent) : q'.capacity = q.capacity := by
  cases h with
  | keep he | refuse _ he => rw [he]
  | accept ha =>
    obtain ⟨-, rfl⟩ := accepts_iff.1 ha
    split <;> rfl
  | resume taken hr =>
    unfold resume? at hr
    split at hr
    · cases hr
      rfl
    · split at hr <;> cases hr
      rfl

theorem hasReceiver_takes (h : Takes t q q' sent) : q'.hasReceiver = q.hasReceiver := by
  cases h with
  | keep he | refuse _ he => rw [he]
  | accept ha => exact hasReceiver_accepts ha
  | resume taken hr => exact hasReceiver_resume? hr

/-- Whoever finds that its message is no longer in line changes nothing, unless the receiver is
gone. -/
theorem eq_of_resume? {taken : Bool} (h : q.resume? t = some (taken, q'))
    (hopen : q.hasReceiver = true) : taken = true ∧ q' = q := by
  unfold resume? at h
  split at h
  · cases h
    exact ⟨rfl, rfl⟩
  · cases h

theorem Tight.contents_takes (h : q.Tight) (ht : Takes t q q' sent)
    (hopen : q.hasReceiver = true) : q'.contents = q.contents ++ sent.toList := by
  cases ht with
  | keep he => rw [he, Option.toList_none, List.append_nil]
  | accept ha => exact h.contents_accepts ha
  | refuse hclosed =>
    rw [hopen] at hclosed
    cases hclosed
  | resume taken hr => rw [(eq_of_resume? hr hopen).2, Option.toList_none, List.append_nil]

/-- The messages that a host gets when it reads up to a number of them. -/
def readOut (q : Queue α) (n : Nat) : List α := if q.hasReceiver then (q.take n).1 else []

/-- What an action of the host can do with a queue that it reads, and which messages it gets. -/
inductive Yields (q q' : Queue α) : List α → Prop where
  | keep (h : q' = q) : Yields q q' []
  | read (n : Nat) (h : q' = q.read n) : Yields q q' (q.readOut n)
  | drop (h : q' = q.dropReceiver) : Yields q q' []

variable {out : List α}

theorem Tight.yields (h : q.Tight) (hy : Yields q q' out) : q'.Tight := by
  cases hy with
  | keep he => rw [he]; exact h
  | read n he => rw [he]; exact h.read n
  | drop he => rw [he]; exact tight_dropReceiver q

theorem capacity_yields (h : Yields q q' out) : q'.capacity = q.capacity := by
  cases h with
  | keep he | drop he =>
    subst he
    rfl
  | read n he =>
    rw [he, Queue.read]
    split <;> rfl

/-- A queue that still has a receiver had one before. -/
theorem hasReceiver_of_yields (h : Yields q q' out) (hopen : q'.hasReceiver = true) :
    q.hasReceiver = true := by
  cases h with
  | keep he => rwa [he] at hopen
  | read n he =>
    rw [he, Queue.read] at hopen
    split at hopen <;> exact hopen
  | drop he =>
    rw [he] at hopen
    cases hopen

/-- What is read is what was in front. -/
theorem append_contents_yields (h : Yields q q' out) (hopen : q'.hasReceiver = true) :
    out ++ q'.contents = q.contents := by
  have hwas := hasReceiver_of_yields h hopen
  cases h with
  | keep he => rw [he, List.nil_append]
  | read n he => rw [he, readOut, Queue.read, if_pos hwas, if_pos hwas, take_append_contents]
  | drop he =>
    rw [he] at hopen
    cases hopen

end Queue

/-! ## Acknowledgments -/

/-- What a task acknowledges in its next turn. -/
def Task.ack? : Task → Option Command
  | serve (.greet plugin _) => some ⟨plugin, .start⟩
  | stop (.acknowledge plugin) => some ⟨plugin, .stop⟩
  | _ => none

theorem ServeTask.acks_takes {t : Nat} {s s' : PluginState σ} {x x' : ServeTask}
    (h : x.step? t s = some (s', x')) : Queue.Takes t s.acks s'.acks (Task.serve x).ack? := by
  cases x with
  | greet plugin n =>
    simp only [step?] at h
    split at h <;> cases h
    next hq => exact .accept (.inl hq)
    next hq => exact .accept (.inr hq)
    next hq => exact .refuse (Queue.hasReceiver_of_refused hq) rfl
  | wait n =>
    simp only [step?] at h
    split at h <;> cases h
    next hq => exact .resume _ hq
    next hq => exact .resume _ hq
  | _ =>
    simp only [step?] at h
    (repeat' split at h) <;> cases h <;> exact .keep rfl

theorem StopTask.acks_takes {setup : Setup} {t : Nat} {s s' : PluginState σ} {x x' : StopTask}
    (h : x.step? setup t s = some (s', x')) :
    Queue.Takes t s.acks s'.acks (Task.stop x).ack? := by
  cases x with
  | acknowledge plugin =>
    simp only [step?] at h
    split at h <;> cases h
    next hq => exact .accept (.inl hq)
    next hq => exact .accept (.inr hq)
    next hq => exact .refuse (Queue.hasReceiver_of_refused hq) rfl
  | wait =>
    simp only [step?] at h
    split at h <;> cases h
    next hq => exact .resume _ hq
    next hq => exact .resume _ hq
  | _ =>
    simp only [step?] at h
    (repeat' split at h) <;> cases h <;> exact .keep rfl

/-- Servers and stops are all that touches the acknowledgments. -/
theorem Task.acks_takes [RecordStore σ] {setup : Setup} {t fresh : Nat} {s : PluginState σ}
    {task : Task} {m : Move σ} (h : task.step? setup t fresh s = some m) :
    Queue.Takes t s.acks m.state.acks task.ack? := by
  cases task with
  | call tr =>
    cases h
    exact .keep rfl
  | await tr =>
    simp only [step?] at h
    split at h <;> cases h
    exact .keep rfl
  | start x => exact .keep (by rw [StartTask.writes h])
  | listen x => exact .keep (by rw [ListenTask.writes h])
  | stop x =>
    simp only [step?, Option.map_eq_some_iff, Prod.exists] at h
    obtain ⟨s', x', hx, rfl⟩ := h
    exact StopTask.acks_takes hx
  | serve x =>
    simp only [step?, Option.map_eq_some_iff, Prod.exists] at h
    obtain ⟨s', x', hx, rfl⟩ := h
    exact ServeTask.acks_takes hx
  | report x =>
    simp only [step?, Option.map_eq_some_iff, Prod.exists] at h
    obtain ⟨s', x', hx, rfl⟩ := h
    exact .keep (by rw [ReportTask.writes hx])
  | keeper x =>
    simp only [step?, Option.map_eq_some_iff, Prod.exists] at h
    obtain ⟨s', x', hx, rfl⟩ := h
    exact .keep (by rw [KeeperTask.writes hx])
  | courier x =>
    simp only [step?, Option.map_eq_some_iff, Prod.exists] at h
    obtain ⟨s', x', hx, rfl⟩ := h
    exact .keep (by rw [CourierTask.writes hx])

/-! ## Outlets -/

/-- A queue that tasks send to and that the host reads. -/
structure Outlet (σ α : Type) [RecordStore σ] where
  queue : PluginState σ → Queue α
  /-- What a task sends in its next turn. -/
  sent? : Task → Option α
  /-- What the host gets by an action. -/
  readBy : PluginState σ → HostAction → List α
  takes : ∀ {setup : Setup} {t fresh : Nat} {s : PluginState σ} {task : Task} {m : Move σ},
    task.step? setup t fresh s = some m → Queue.Takes t (queue s) (queue m.state) (sent? task)
  yields : ∀ (s : PluginState σ) (a : HostAction),
    Queue.Yields (queue s) (queue (s.act a)) (readBy s a)

namespace Outlet

variable [RecordStore σ]

/-- The way of acknowledgments. -/
def acks : Outlet σ Command where
  queue := PluginState.acks
  sent? := Task.ack?
  readBy s a := match a with
    | .readAcks n => s.acks.readOut n
    | _ => []
  takes h := Task.acks_takes h
  yields s a := by
    cases a with
    | readAcks n => exact .read n rfl
    | drop e =>
      cases e with
      | acks => exact .drop rfl
      | _ => exact .keep rfl
    | _ => exact .keep rfl

/-- The way of errors. -/
def errors : Outlet σ PluginError where
  queue := PluginState.errors
  sent? := Task.sentError?
  readBy s a := match a with
    | .readErrors n => s.errors.readOut n
    | _ => []
  takes h := Task.errors_takes h
  yields s a := by
    cases a with
    | readErrors n => exact .read n rfl
    | drop e =>
      cases e with
      | errors => exact .drop rfl
      | _ => exact .keep rfl
    | _ => exact .keep rfl

open Instance

/-- What is sent in a turn. -/
def sentIn (o : Outlet σ α) (w : Turn σ) : Option α := w.before.tasks[w.task]?.bind o.sent?

/-- What was sent, oldest first. -/
def sent (o : Outlet σ α) (ts : List (Turn σ)) : List α := ts.filterMap o.sentIn

/-- What the host gets in an event. -/
def readIn (o : Outlet σ α) : Event σ → List α
  | .turn _ => []
  | .action j a => o.readBy j.state a

/-- What the host has read, oldest first. -/
def read (o : Outlet σ α) (es : List (Event σ)) : List α := es.flatMap o.readIn

variable {o : Outlet σ α} {i j : Instance σ} {es : List (Event σ)}

theorem sentIn_of_getElem? {w : Turn σ} {task : Task} (h : w.before.tasks[w.task]? = some task) :
    o.sentIn w = o.sent? task := by
  rw [sentIn, h, Option.bind_some]

@[simp] theorem sent_append (ts us : List (Turn σ)) : o.sent (ts ++ us) = o.sent ts ++ o.sent us :=
  List.filterMap_append

theorem sent_concat (ts : List (Turn σ)) (w : Turn σ) :
    o.sent (ts ++ [w]) = o.sent ts ++ (o.sentIn w).toList := by
  rw [sent_append]
  cases h : o.sentIn w <;> simp [sent, h]

@[simp] theorem read_turn (es : List (Event σ)) (w : Turn σ) :
    o.read (es ++ [.turn w]) = o.read es := by
  simp [read, readIn]

@[simp] theorem read_action (es : List (Event σ)) (j : Instance σ) (a : HostAction) :
    o.read (es ++ [.action j a]) = o.read es ++ o.readBy j.state a := by
  simp [read, readIn]

theorem capacity_of_course (o : Outlet σ α) (h : i.Course es j) :
    (o.queue j.state).capacity = (o.queue i.state).capacity := by
  induction h with
  | refl => rfl
  | turn _ hs ih =>
    obtain ⟨task, m, -, hm, rfl⟩ := step?_eq_some_iff.1 hs
    rw [state_move, Queue.capacity_takes (o.takes hm), ih]
  | action _ a ih => rw [state_act, Queue.capacity_yields (o.yields _ a), ih]

theorem tight_of_course (o : Outlet σ α) (h : i.Course es j) (htight : (o.queue i.state).Tight) :
    (o.queue j.state).Tight := by
  induction h with
  | refl => exact htight
  | turn _ hs ih =>
    obtain ⟨task, m, -, hm, rfl⟩ := step?_eq_some_iff.1 hs
    rw [state_move]
    exact ih.takes (o.takes hm)
  | action _ a ih =>
    rw [state_act]
    exact ih.yields (o.yields _ a)

/-- As long as the host has not let go of a queue, what it has read and what is on its way are
together what was sent, in the order in which it was sent. -/
theorem conveyed (h : i.Course es j) (htight : (o.queue i.state).Tight)
    (hopen : (o.queue j.state).hasReceiver = true) :
    o.read es ++ (o.queue j.state).contents =
      (o.queue i.state).contents ++ o.sent (turnsOf es) := by
  induction h with
  | refl => rw [turnsOf, List.filterMap_nil, sent, List.filterMap_nil, List.append_nil]; rfl
  | @turn es j k t h hs ih =>
    obtain ⟨task, m, htask, hm, rfl⟩ := step?_eq_some_iff.1 hs
    have htakes := o.takes hm
    rw [state_move] at hopen ⊢
    rw [Queue.hasReceiver_takes htakes] at hopen
    have hsent : o.sentIn ⟨t, j, j.move t m⟩ = o.sent? task := sentIn_of_getElem? htask
    rw [turnsOf_turn, sent_concat, read_turn, hsent,
      (o.tight_of_course h htight).contents_takes htakes hopen, ← List.append_assoc, ih hopen,
      List.append_assoc]
  | @action es j h a ih =>
    rw [state_act] at hopen ⊢
    have hyields := o.yields j.state a
    rw [turnsOf_action, read_action, List.append_assoc,
      Queue.append_contents_yields hyields hopen, ih (Queue.hasReceiver_of_yields hyields hopen)]

end Outlet

end PluginKernel
