import PluginKernel.Proofs.Instance.Course
import PluginKernel.Proofs.Instance.ErrorQueue
import PluginKernel.Proofs.Instance.Outcomes

/-!
# Snapshots on their way to the host

A snapshot that was queued goes through two pairs of hands. The keeper takes it out of its queue,
tries to write its entries one after the other and queues it again, for the courier; the courier
sends it to the host and waits as long as there is no room. Nobody else touches what lies between
the first queue and the host.

So whatever the other tasks do, and whether the host reads or not, the two invariants below hold
after every turn and every action: what was read, what is in the queues and what the two tasks
carry are together the snapshots that were queued, in their order; and the entries whose write was
tried are those of all snapshots that were passed on, and then some of the one that the keeper is
at work on.
-/

namespace PluginKernel

variable {σ : Type}

/-! ## The two tasks -/

/-- The ledger that a keeper has taken and not yet passed on. -/
def KeeperTask.carried : KeeperTask → List Ledger
  | receive => []
  | persist _ l _ _ | forward l => [l]

/-- The entry that a keeper tries to write in its next turn. -/
def KeeperTask.nextEntry? : KeeperTask → Option Statistic
  | persist _ _ (s :: _) _ => some s
  | _ => none

/-- The entry that a task tries to write in its next turn. -/
def Task.nextEntry? : Task → Option Statistic
  | keeper x => x.nextEntry?
  | _ => none

theorem Task.nextEntry?_eq_none {task : Task} (h : ¬ task.IsKeeper) : task.nextEntry? = none := by
  cases task with
  | keeper x => exact absurd trivial h
  | _ => rfl

/-- The ledger that a courier has taken and not yet sent. A ledger that waits for room is in line
already. -/
def CourierTask.carried : CourierTask → List Ledger
  | send l => [l]
  | _ => []

/-- A store after a write was tried, whatever has become of it. -/
def Ledger.attemptedStore [RecordStore σ] (filing : Filing) (store : σ) (s : Statistic) : σ :=
  (persistEntry filing ⟨store, {}, []⟩ s).store

theorem Ledger.store_persistEntry [RecordStore σ] (filing : Filing) (p : Persisting σ)
    (s : Statistic) : (persistEntry filing p s).store = attemptedStore filing p.store s := by
  simp only [attemptedStore, persistEntry]
  cases RecordStore.write p.store (pathOf filing s) (StoredStatistic.ofStatistic s).toMembers <;>
    rfl

namespace KeeperTask

variable [RecordStore σ] {setup : Setup} {s s' : PluginState σ} {x x' : KeeperTask}

/-- What a keeper takes it carries, and what it carries it passes on. -/
theorem conveys (h : x.step? setup s = some (s', x')) :
    s'.dataflow = s.dataflow ∧ s'.outbox.length ≤ s.outbox.length ∧
      ∃ fs, s'.pending = s.pending ++ fs ∧
        fs ++ x'.carried ++ s'.outbox = x.carried ++ s.outbox := by
  cases x with
  | receive =>
    simp only [step?] at h
    split at h
    · cases h
    next l rest houtbox =>
      cases h
      rw [houtbox]
      refine ⟨rfl, Nat.le_succ _, [], (List.append_nil _).symm, ?_⟩
      cases setup.filing? <;> rfl
  | persist filing l rest summary =>
    cases rest <;> simp only [step?] at h <;> cases h <;>
      exact ⟨rfl, Nat.le_refl _, [], (List.append_nil _).symm, rfl⟩
  | forward l =>
    simp only [step?] at h
    cases h
    exact ⟨rfl, Nat.le_refl _, [l], rfl, rfl⟩

/-- A keeper that can do nothing has nothing to do. -/
theorem eq_receive_of_step?_eq_none (h : x.step? setup s = none) :
    x = receive ∧ s.outbox = [] := by
  cases x with
  | receive =>
    simp only [step?] at h
    split at h
    next houtbox => exact ⟨rfl, houtbox⟩
    · cases h
  | persist filing l rest summary => cases rest <;> cases h
  | forward l => cases h

/-- How far a keeper has come with the ledger that it carries: the writes of some of its entries
were tried, and the others are left. -/
def HasTried (x : KeeperTask) (tried : List Statistic) : Prop :=
  x.carried.flatMap Ledger.statistics = tried ++ x.unwritten

/-- A turn of a keeper tries at most one write, that of the entry that comes next, and a ledger is
passed on when no entry is left. -/
theorem tries {filing : Filing} {tried : List Statistic} (h : x.step? setup s = some (s', x'))
    (hfiling : setup.filing? = some filing) (hx : x.FilesUnder filing) (htried : x.HasTried tried) :
    x'.FilesUnder filing ∧
      s'.store = x.nextEntry?.toList.foldl (Ledger.attemptedStore filing) s.store ∧
      ∀ fs, s'.pending = s.pending ++ fs → ∃ tried', x'.HasTried tried' ∧
        tried ++ x.nextEntry?.toList = fs.flatMap Ledger.statistics ++ tried' := by
  cases x with
  | receive =>
    -- nothing is carried, so nothing of it was tried
    obtain rfl : tried = [] := (List.append_eq_nil_iff.1 (Eq.symm htried)).1
    simp only [step?] at h
    split at h
    · cases h
    next l rest houtbox =>
      rw [hfiling] at h
      cases h
      refine ⟨rfl, rfl, fun fs hfs => ⟨[], by simp [HasTried, carried, unwritten], ?_⟩⟩
      rw [List.self_eq_append_right.1 hfs]
      rfl
  | persist filing' l rest summary =>
    obtain rfl : filing' = filing := hx
    cases rest with
    | nil =>
      -- no entry is left, and the ledger is still carried
      simp only [step?] at h
      cases h
      refine ⟨trivial, rfl, fun fs hfs => ⟨tried, htried, ?_⟩⟩
      rw [List.self_eq_append_right.1 hfs]
      exact List.append_nil tried
    | cons e rest =>
      simp only [step?] at h
      cases h
      refine ⟨rfl, Ledger.store_persistEntry _ _ _, fun fs hfs => ⟨tried ++ [e], ?_, ?_⟩⟩
      · have hall : [l].flatMap Ledger.statistics = tried ++ e :: rest := htried
        rw [HasTried, carried, hall, unwritten, List.append_assoc, List.singleton_append]
      · rw [List.self_eq_append_right.1 hfs]
        rfl
  | forward l =>
    simp only [step?] at h
    cases h
    refine ⟨trivial, rfl, fun fs hfs => ⟨[], rfl, ?_⟩⟩
    have hall : [l].flatMap Ledger.statistics = tried ++ [] := htried
    rw [← List.append_cancel_left hfs, hall, List.append_nil, List.append_nil]
    exact List.append_nil tried

end KeeperTask

namespace Queue

variable {α : Type} {q q' : Queue α} {t : Nat} {x : α}

theorem waiting_send_sent (h : q.send t x = .sent q') : q'.waiting = q.waiting := by
  unfold send at h
  split at h
  · cases h
  · split at h <;> cases h
    rfl

theorem waiting_send_waits (h : q.send t x = .waits q') :
    q'.waiting = q.waiting ++ [(t, x)] := by
  unfold send at h
  split at h
  · cases h
  · split at h <;> cases h
    rfl

theorem send_ne_refused (h : q.hasReceiver = true) : q.send t x ≠ .refused := by
  simp only [send, h, Bool.not_true, Bool.false_eq_true, if_false]
  split <;> simp

theorem hasReceiver_accepts (h : q.Accepts t x q') : q'.hasReceiver = q.hasReceiver := by
  obtain ⟨-, rfl⟩ := accepts_iff.1 h
  split <;> rfl

theorem hasReceiver_resume? {taken : Bool} (h : q.resume? t = some (taken, q')) :
    q'.hasReceiver = q.hasReceiver := by
  unfold resume? at h
  split at h
  · cases h
    rfl
  · split at h <;> cases h
    rfl

/-- At most one sender waits in line, of a number, and only if it is at a stage for that. -/
def LinedBy (q : Queue α) (t : Nat) (waits : Prop) : Prop :=
  q.waiting = [] ∨ waits ∧ ∃ x, q.waiting = [(t, x)]

theorem LinedBy.waiting_eq_nil {waits : Prop} (h : q.LinedBy t waits) (hw : ¬waits) :
    q.waiting = [] :=
  h.resolve_right fun hwaits => hw hwaits.1

theorem LinedBy.read {waits : Prop} (h : q.LinedBy t waits) (n : Nat) :
    (q.read n).LinedBy t waits := by
  unfold Queue.read
  split
  · rcases h with hnil | ⟨hwaits, x, hone⟩
    · exact .inl (by simp [take, hnil])
    · cases hroom : q.capacity - (q.buffer.drop n).length with
      | zero => exact .inr ⟨hwaits, x, by simp only [take, hroom, hone, List.drop_zero]⟩
      | succ room =>
        exact .inl (by simp only [take, hroom, hone, List.drop_succ_cons, List.drop_nil])
  · exact h

end Queue

namespace CourierTask

variable {t : Nat} {s s' : PluginState σ} {y y' : CourierTask}

/-- What a courier takes it carries, and what it carries it sends. -/
theorem conveys (h : y.step? t s = some (s', y')) (hopen : s.dataflow.hasReceiver = true)
    (hline : s.dataflow.LinedBy t (y = wait)) :
    s'.dataflow.LinedBy t (y' = wait) ∧
      s'.dataflow.contents ++ y'.carried ++ s'.pending =
        s.dataflow.contents ++ y.carried ++ s.pending := by
  cases y with
  | receive =>
    simp only [step?] at h
    split at h
    · cases h
    next l rest hpending =>
      cases h
      exact ⟨.inl (hline.waiting_eq_nil (by simp)), by simp [carried, hpending]⟩
  | send l =>
    have hnil : s.dataflow.waiting = [] := hline.waiting_eq_nil (by simp)
    simp only [step?] at h
    split at h
    next q hq =>
      cases h
      refine ⟨.inl ((Queue.waiting_send_sent hq).trans hnil), ?_⟩
      simp [carried, Queue.contents_send_sent hnil hq]
    next q hq =>
      cases h
      refine ⟨.inr ⟨rfl, l, ?_⟩, by simp [carried, Queue.contents_send_waits hq]⟩
      rw [Queue.waiting_send_waits hq, hnil, List.nil_append]
    next hq => exact absurd hq (Queue.send_ne_refused hopen)
  | wait =>
    simp only [step?, Option.map_eq_some_iff, Prod.exists] at h
    obtain ⟨taken, q, hq, h⟩ := h
    cases h
    -- the courier goes on only when it is not in line any more, and nobody else is in line
    simp only [Queue.resume?, hopen] at hq
    split at hq
    next hout =>
      cases hq
      refine ⟨.inl ?_, rfl⟩
      rcases hline with hnil | ⟨-, l, hone⟩
      · exact hnil
      · simp [Queue.isWaiting, hone] at hout
    · cases hq

/-- A courier that can do nothing has nothing to do, or waits for room. -/
theorem eq_of_step?_eq_none (h : y.step? t s = none) :
    (y = receive ∧ s.pending = []) ∨ (y = wait ∧ s.dataflow.isWaiting t = true) := by
  cases y with
  | receive =>
    simp only [step?] at h
    split at h
    next hpending => exact .inl ⟨rfl, hpending⟩
    · cases h
  | send l =>
    simp only [step?] at h
    split at h <;> cases h
  | wait =>
    simp only [step?, Option.map_eq_none_iff, Queue.resume?] at h
    split at h
    · cases h
    next hwaits => exact .inr ⟨rfl, by simpa using hwaits⟩

/-- A courier leaves alone what it does not deliver. -/
theorem leaves (h : y.step? t s = some (s', y')) :
    s'.dataflow.hasReceiver = s.dataflow.hasReceiver ∧ s'.store = s.store ∧
      s'.outbox = s.outbox ∧ s'.pending.length ≤ s.pending.length := by
  cases y with
  | receive =>
    simp only [step?] at h
    split at h
    · cases h
    next hpending =>
      cases h
      rw [hpending]
      exact ⟨rfl, rfl, rfl, Nat.le_succ _⟩
  | send l =>
    simp only [step?] at h
    split at h
    next hq =>
      cases h
      exact ⟨Queue.hasReceiver_accepts (.inl hq), rfl, rfl, Nat.le_refl _⟩
    next hq =>
      cases h
      exact ⟨Queue.hasReceiver_accepts (.inr hq), rfl, rfl, Nat.le_refl _⟩
    · cases h
      exact ⟨rfl, rfl, rfl, Nat.le_refl _⟩
  | wait =>
    simp only [step?, Option.map_eq_some_iff, Prod.exists] at h
    obtain ⟨taken, q, hq, h⟩ := h
    cases h
    exact ⟨Queue.hasReceiver_resume? hq, rfl, rfl, Nat.le_refl _⟩

end CourierTask

/-! ## Everybody else -/

theorem ReportTask.leaves_pipeline {setup : Setup} {t : Nat} {s s' : PluginState σ}
    {r r' : ReportTask} (h : r.step? setup t s = some (s', r')) :
    s'.pending = s.pending ∧ s'.dataflow = s.dataflow := by
  cases r <;> simp only [step?] at h <;> (repeat' split at h) <;> cases h <;> exact ⟨rfl, rfl⟩

/-- Only the keeper and the courier touch what lies between the first queue and the host. -/
theorem Task.leaves_pipeline [RecordStore σ] {setup : Setup} {t fresh : Nat} {s : PluginState σ}
    {task : Task} {m : Move σ} (h : task.step? setup t fresh s = some m)
    (hkeeper : task.kind ≠ .keeper) (hcourier : task.kind ≠ .courier) :
    m.state.pending = s.pending ∧ m.state.dataflow = s.dataflow := by
  cases task with
  | call tr =>
    cases h
    exact ⟨rfl, rfl⟩
  | await tr =>
    simp only [step?] at h
    split at h <;> cases h
    exact ⟨rfl, rfl⟩
  | start x =>
    cases x with
    | report r =>
      simp only [step?, StartTask.step?, Option.map_eq_some_iff, Prod.exists] at h
      obtain ⟨s', r', hr, rfl⟩ := h
      exact ReportTask.leaves_pipeline hr
    | _ =>
      simp only [step?, StartTask.step?] at h
      (repeat' split at h) <;> cases h <;> exact ⟨rfl, rfl⟩
  | listen x =>
    cases x <;> simp only [step?, ListenTask.step?] at h <;> (repeat' split at h) <;> cases h <;>
      exact ⟨rfl, rfl⟩
  | stop x =>
    simp only [step?, Option.map_eq_some_iff, Prod.exists] at h
    obtain ⟨s', x', hx, rfl⟩ := h
    cases x <;> simp only [StopTask.step?] at hx <;> (repeat' split at hx) <;> cases hx <;>
      exact ⟨rfl, rfl⟩
  | serve x =>
    simp only [step?, Option.map_eq_some_iff, Prod.exists] at h
    obtain ⟨s', x', hx, rfl⟩ := h
    cases x <;> simp only [ServeTask.step?] at hx <;> (repeat' split at hx) <;> cases hx <;>
      exact ⟨rfl, rfl⟩
  | report x =>
    simp only [step?, Option.map_eq_some_iff, Prod.exists] at h
    obtain ⟨s', x', hx, rfl⟩ := h
    exact ReportTask.leaves_pipeline hx
  | keeper x => exact absurd rfl hkeeper
  | courier x => exact absurd rfl hcourier

namespace Instance

/-! ## What is read off a course -/

/-- The ledgers that the host has read. -/
def Event.delivered : Event σ → List Ledger
  | action i (.readLedgers n) =>
    if i.state.dataflow.hasReceiver then (i.state.dataflow.take n).1 else []
  | _ => []

/-- The ledgers that the host has read, oldest first. -/
def delivered (es : List (Event σ)) : List Ledger := es.flatMap Event.delivered

/-- The ledgers that were passed on to the courier in a turn. -/
def Turn.forwarded (w : Turn σ) : List Ledger :=
  w.after.state.pending.drop w.before.state.pending.length

/-- The ledgers that were passed on to the courier, oldest first. -/
def forwarded (ts : List (Turn σ)) : List Ledger := ts.flatMap Turn.forwarded

/-- The entry whose write was tried in a turn. -/
def Turn.attempted? (w : Turn σ) : Option Statistic :=
  w.before.tasks[w.task]?.bind Task.nextEntry?

/-- The entries whose write was tried, oldest first. -/
def attempted (ts : List (Turn σ)) : List Statistic := ts.filterMap Turn.attempted?

@[simp] theorem forwarded_concat (ts : List (Turn σ)) (w : Turn σ) :
    forwarded (ts ++ [w]) = forwarded ts ++ w.forwarded := by
  simp [forwarded]

@[simp] theorem attempted_concat (ts : List (Turn σ)) (w : Turn σ) :
    attempted (ts ++ [w]) = attempted ts ++ w.attempted?.toList := by
  rw [attempted, List.filterMap_append, attempted]
  cases h : w.attempted? <;> simp [h]

@[simp] theorem delivered_turn (es : List (Event σ)) (w : Turn σ) :
    delivered (es ++ [.turn w]) = delivered es := by
  simp [delivered, Event.delivered]

@[simp] theorem delivered_map_turn (es : List (Event σ)) (ts : List (Turn σ)) :
    delivered (es ++ ts.map .turn) = delivered es := by
  simp [delivered, List.flatMap_map, Event.delivered]

theorem delivered_action (es : List (Event σ)) (j : Instance σ) (a : HostAction) :
    delivered (es ++ [.action j a]) = delivered es ++ (Event.action j a).delivered := by
  simp [delivered]

/-! ## Who works on the way to the host -/

/-- One task keeps ledgers and one delivers them; the stages of both. -/
structure Staffed (j : Instance σ) (x : KeeperTask) (y : CourierTask) : Prop where
  keeper : j.tasks[0]? = some (.keeper x)
  courier : j.tasks[1]? = some (.courier y)
  soleKeeper : j.Sole .keeper 0
  soleCourier : j.Sole .courier 1

/-- One task keeps ledgers and one delivers them, and no ledger is on its way to the host yet. Which
other tasks there are, and so which snapshots they will queue, is left open. -/
structure PipelineEmpty (i : Instance σ) : Prop where
  staffed : i.Staffed .receive .receive
  outbox : i.state.outbox = []
  pending : i.state.pending = []
  dataflow : i.state.dataflow.contents = []

theorem Fresh.pipelineEmpty {i : Instance σ} (h : i.Fresh)
    (hdataflow : i.state.dataflow.contents = []) : i.PipelineEmpty := by
  obtain ⟨hkeeper, hcourier, -⟩ := h.sole
  refine ⟨⟨?_, ?_, hkeeper, hcourier⟩, h.outbox, h.pending, hdataflow⟩ <;>
    rw [h.tasks] <;> rfl

variable {i j k : Instance σ} {x x' : KeeperTask} {y y' : CourierTask} {es : List (Event σ)}
  {ts : List (Turn σ)}

theorem Staffed.eq_keeper (h : j.Staffed x y) (hmem : .keeper x' ∈ j.tasks) : x' = x := by
  obtain ⟨u, hu⟩ := List.getElem?_of_mem hmem
  have hkind : j.kindOf u = some .keeper := by rw [kindOf, hu]; rfl
  obtain rfl := (h.soleKeeper u).1 hkind
  cases hu.symm.trans h.keeper
  rfl

theorem Staffed.eq_courier (h : j.Staffed x y) (hmem : .courier y' ∈ j.tasks) : y' = y := by
  obtain ⟨u, hu⟩ := List.getElem?_of_mem hmem
  have hkind : j.kindOf u = some .courier := by rw [kindOf, hu]; rfl
  obtain rfl := (h.soleCourier u).1 hkind
  cases hu.symm.trans h.courier
  rfl

theorem Staffed.act (h : j.Staffed x y) (a : HostAction) : (j.act a).Staffed x y := by
  have hpos : 1 < j.tasks.length := (List.getElem?_eq_some_iff.1 h.courier).1
  refine ⟨?_, ?_, h.soleKeeper.act a (by simp) (by simp), h.soleCourier.act a (by simp) (by simp)⟩
  · rw [getElem?_tasks_act, if_neg (by omega)]
    exact h.keeper
  · rw [getElem?_tasks_act, if_neg (by omega)]
    exact h.courier

variable [RecordStore σ]

/-- Whose turn it was: the keeper's, the courier's, or that of a task that has nothing to do with
the way to the host. -/
inductive Turn.Work (w : Turn σ) (x : KeeperTask) (y : CourierTask) :
    KeeperTask → CourierTask → Prop where
  | keep {x' : KeeperTask} (htask : w.before.tasks[w.task]? = some (.keeper x))
      (h : x.step? w.before.setup w.before.state = some (w.after.state, x')) : Work w x y x' y
  | deliver {y' : CourierTask} (htask : w.before.tasks[w.task]? = some (.courier y))
      (ht : w.task = 1) (h : y.step? w.task w.before.state = some (w.after.state, y')) :
      Work w x y x y'
  | other {task : Task} (htask : w.before.tasks[w.task]? = some task) (hkeeper : ¬ task.IsKeeper)
      (houtbox : w.after.state.outbox = w.before.state.outbox ++ w.queued)
      (hpending : w.after.state.pending = w.before.state.pending)
      (hdataflow : w.after.state.dataflow = w.before.state.dataflow)
      (hstore : w.after.state.store = w.before.state.store) : Work w x y x y

theorem Staffed.step (h : j.Staffed x y) {t : Nat} (hs : j.step? t = some k) :
    ∃ x' y', k.Staffed x' y' ∧ (⟨t, j, k⟩ : Turn σ).Work x y x' y' := by
  have hkeeper := h.soleKeeper.step hs (by simp) (by simp)
  have hcourier := h.soleCourier.step hs (by simp) (by simp)
  obtain ⟨task, m, htask, hm, rfl⟩ := step?_eq_some_iff.1 hs
  have hpos : 1 < j.tasks.length := (List.getElem?_eq_some_iff.1 h.courier).1
  have htasks := getElem?_tasks_move (List.getElem?_eq_some_iff.1 htask).1 m
  by_cases ht0 : t = 0
  · subst ht0
    obtain rfl : task = .keeper x := Option.some.inj (htask.symm.trans h.keeper)
    simp only [Task.step?, Option.map_eq_some_iff, Prod.exists] at hm
    obtain ⟨s', x', hx, rfl⟩ := hm
    refine ⟨x', y, ⟨?_, ?_, hkeeper, hcourier⟩, .keep htask (by rw [state_move]; exact hx)⟩
    · rw [htasks, if_pos rfl]
    · rw [htasks, if_neg (by omega), if_neg (by omega)]
      exact h.courier
  by_cases ht1 : t = 1
  · subst ht1
    obtain rfl : task = .courier y := Option.some.inj (htask.symm.trans h.courier)
    simp only [Task.step?, Option.map_eq_some_iff, Prod.exists] at hm
    obtain ⟨s', y', hy, rfl⟩ := hm
    refine ⟨x, y', ⟨?_, ?_, hkeeper, hcourier⟩, .deliver htask rfl (by rw [state_move]; exact hy)⟩
    · rw [htasks, if_neg (by omega), if_neg (by omega)]
      exact h.keeper
    · rw [htasks, if_pos rfl]
  -- whoever else takes a turn is of another kind
  have hkind : j.kindOf t = some task.kind := by rw [kindOf, htask, Option.map_some]
  have hnotKeeper : task.kind ≠ .keeper := fun he =>
    ht0 ((h.soleKeeper t).1 (hkind.trans (he ▸ rfl)))
  have hnotCourier : task.kind ≠ .courier := fun he =>
    ht1 ((h.soleCourier t).1 (hkind.trans (he ▸ rfl)))
  have hkeeps : ¬ task.IsKeeper := fun hk => hnotKeeper (Task.isKeeper_iff_kind.1 hk)
  obtain ⟨hpending, hdataflow⟩ := Task.leaves_pipeline hm hnotKeeper hnotCourier
  refine ⟨x, y, ⟨?_, ?_, hkeeper, hcourier⟩, .other htask hkeeps (Turn.outbox_eq hs htask hkeeps)
    ?_ ?_ ?_⟩
  · rw [htasks, if_neg (by omega), if_neg (by omega)]
    exact h.keeper
  · rw [htasks, if_neg (by omega), if_neg (by omega)]
    exact h.courier
  · rw [state_move]
    exact hpending
  · rw [state_move]
    exact hdataflow
  · rw [state_move]
    exact (Task.store_of_not_isKeeper hm hkeeps).1

/-! ## Nothing is lost -/

/-- Where the snapshots are that were queued: with the keeper or passed on by it, and if they were
passed on, with the courier, in line, in the queue of the host or read. -/
structure Flow (es : List (Event σ)) (j : Instance σ) (x : KeeperTask) (y : CourierTask) :
    Prop where
  kept : forwarded (turnsOf es) ++ x.carried ++ j.state.outbox = queued (turnsOf es)
  line : j.state.dataflow.hasReceiver = true → j.state.dataflow.LinedBy 1 (y = .wait)
  sent : j.state.dataflow.hasReceiver = true →
    delivered es ++ j.state.dataflow.contents ++ y.carried ++ j.state.pending =
      forwarded (turnsOf es)

omit [RecordStore σ] in
theorem PipelineEmpty.flow (h : i.PipelineEmpty) : Flow [] i .receive .receive := by
  obtain ⟨-, houtbox, hpending, hdataflow⟩ := h
  refine ⟨?_, fun _ => .inl ?_, fun _ => ?_⟩
  · rw [houtbox]
    rfl
  · exact List.map_eq_nil_iff.1 (List.append_eq_nil_iff.1 hdataflow).2
  · rw [hpending, hdataflow]
    rfl

theorem Flow.turn {w : Turn σ} (h : Flow es w.before x y) (hw : w.Work x y x' y') :
    Flow (es ++ [.turn w]) w.after x' y' := by
  obtain ⟨hkept, hline, hsent⟩ := h
  cases hw with
  | keep htask hx =>
    obtain ⟨hdataflow, hshrinks, fs, hpending, hpasses⟩ := KeeperTask.conveys hx
    have hqueued : w.queued = [] := List.drop_eq_nil_of_le hshrinks
    have hforwarded : w.forwarded = fs := by rw [Turn.forwarded, hpending, List.drop_left]
    refine ⟨?_, hdataflow ▸ hline, fun hopen => ?_⟩
    · rw [turnsOf_turn, forwarded_concat, queued_concat, hqueued, hforwarded, List.append_nil,
        ← hkept, List.append_assoc, List.append_assoc, List.append_assoc, ← List.append_assoc fs,
        hpasses]
    · rw [hdataflow] at hopen ⊢
      rw [turnsOf_turn, forwarded_concat, delivered_turn, hforwarded, hpending,
        ← List.append_assoc, hsent hopen]
  | deliver htask ht hy =>
    obtain ⟨hreceiver, -, houtbox, hshrinks⟩ := CourierTask.leaves hy
    have hqueued : w.queued = [] := by rw [Turn.queued, houtbox, List.drop_length]
    have hforwarded : w.forwarded = [] := List.drop_eq_nil_of_le hshrinks
    rw [ht] at hy
    refine ⟨?_, fun hopen => ?_, fun hopen => ?_⟩
    · rw [turnsOf_turn, forwarded_concat, queued_concat, hqueued, hforwarded, houtbox,
        List.append_nil, List.append_nil, hkept]
    · rw [hreceiver] at hopen
      exact (CourierTask.conveys hy hopen (hline hopen)).1
    · rw [hreceiver] at hopen
      have hpasses := (CourierTask.conveys hy hopen (hline hopen)).2
      rw [turnsOf_turn, forwarded_concat, delivered_turn, hforwarded, List.append_nil,
        ← hsent hopen, List.append_assoc, List.append_assoc, ← List.append_assoc _ y'.carried,
        hpasses, List.append_assoc, List.append_assoc, List.append_assoc]
  | other htask hkeeper houtbox hpending hdataflow =>
    have hforwarded : w.forwarded = [] := by rw [Turn.forwarded, hpending, List.drop_length]
    refine ⟨?_, hdataflow ▸ hline, fun hopen => ?_⟩
    · rw [turnsOf_turn, forwarded_concat, queued_concat, hforwarded, houtbox, List.append_nil,
        ← hkept, List.append_assoc _ _ w.queued]
    · rw [hdataflow] at hopen ⊢
      rw [turnsOf_turn, forwarded_concat, delivered_turn, hforwarded, hpending, List.append_nil,
        hsent hopen]

omit [RecordStore σ] in
theorem Flow.action (h : Flow es j x y) (a : HostAction) :
    Flow (es ++ [.action j a]) (j.act a) x y := by
  obtain ⟨hkept, hline, hsent⟩ := h
  obtain ⟨-, houtbox, hpending, -⟩ := PluginState.internals_act j.state a
  -- what the host reads leaves the queue, and a queue that is open now was open before
  suffices hread : (j.state.act a).dataflow.hasReceiver = true →
      j.state.dataflow.hasReceiver = true ∧
        (j.state.act a).dataflow.LinedBy 1 (y = .wait) ∧
        (Event.action j a).delivered ++ (j.state.act a).dataflow.contents =
          j.state.dataflow.contents by
    refine ⟨?_, fun hopen => ?_, fun hopen => ?_⟩
    · rw [turnsOf_action, state_act, houtbox, hkept]
    · rw [state_act] at hopen ⊢
      exact (hread hopen).2.1
    · rw [state_act] at hopen ⊢
      obtain ⟨hwas, -, hcontents⟩ := hread hopen
      rw [turnsOf_action, delivered_action, hpending, ← hsent hwas, ← hcontents,
        ← List.append_assoc]
  have hsame : j.state.dataflow.hasReceiver = true →
      j.state.dataflow.hasReceiver = true ∧ j.state.dataflow.LinedBy 1 (y = .wait) ∧
        [] ++ j.state.dataflow.contents = j.state.dataflow.contents :=
    fun hopen => ⟨hopen, hline hopen, rfl⟩
  cases a with
  | readLedgers n =>
    intro hopen
    have hwas : j.state.dataflow.hasReceiver = true := by
      by_contra hclosed
      simp only [PluginState.act, Queue.read, if_neg hclosed] at hopen
      exact hclosed hopen
    refine ⟨hwas, (hline hwas).read n, ?_⟩
    simp only [Event.delivered, PluginState.act, Queue.read, hwas, if_true]
    exact Queue.take_append_contents _ n
  | drop e =>
    cases e with
    | dataflow =>
      intro hopen
      cases hopen
    | _ => exact hsame
  | _ => exact hsame

/-! ## Every write is tried -/

/-- How far writing has come: what was tried is what the store shows, and it is the entries of all
ledgers that were passed on, followed by some of the one that is carried. -/
structure Tried (filing : Filing) (store : σ) (ts : List (Turn σ)) (j : Instance σ)
    (x : KeeperTask) (tried : List Statistic) : Prop where
  /-- The keeper files in one place. -/
  files : x.FilesUnder filing
  carried : x.HasTried tried
  entries : attempted ts = (forwarded ts).flatMap Ledger.statistics ++ tried
  store : j.state.store = (attempted ts).foldl (Ledger.attemptedStore filing) store

theorem Tried.idle {filing : Filing} {store : σ} {w : Turn σ} {tried : List Statistic}
    (h : Tried filing store ts w.before x tried) (hforwarded : w.forwarded = [])
    (hattempted : w.attempted? = none) (hstore : w.after.state.store = w.before.state.store) :
    Tried filing store (ts ++ [w]) w.after x tried := by
  refine ⟨h.files, h.carried, ?_, ?_⟩
  · rw [attempted_concat, forwarded_concat, hforwarded, hattempted, List.append_nil,
      Option.toList_none, List.append_nil, h.entries]
  · rw [attempted_concat, hattempted, Option.toList_none, List.append_nil, hstore, h.store]

theorem Tried.turn {filing : Filing} {store : σ} {w : Turn σ} {tried : List Statistic}
    (h : Tried filing store ts w.before x tried)
    (hfiling : w.before.setup.filing? = some filing) (hw : w.Work x y x' y') :
    ∃ tried', Tried filing store (ts ++ [w]) w.after x' tried' := by
  cases hw with
  | keep htask hx =>
    obtain ⟨-, -, fs, hpending, -⟩ := KeeperTask.conveys hx
    obtain ⟨hfiles, hstore, htries⟩ := KeeperTask.tries hx hfiling h.files h.carried
    obtain ⟨tried', hcarried, htried⟩ := htries fs hpending
    have hforwarded : w.forwarded = fs := by rw [Turn.forwarded, hpending, List.drop_left]
    have hattempted : w.attempted? = x.nextEntry? := by
      rw [Turn.attempted?, htask]
      rfl
    refine ⟨tried', hfiles, hcarried, ?_, ?_⟩
    · rw [attempted_concat, forwarded_concat, List.flatMap_append, h.entries, hattempted,
        hforwarded, List.append_assoc, htried, List.append_assoc]
    · rw [attempted_concat, List.foldl_append, ← h.store, hattempted, hstore]
  | deliver htask ht hy =>
    obtain ⟨-, hstore, -, hshrinks⟩ := CourierTask.leaves hy
    have hattempted : w.attempted? = none := by
      rw [Turn.attempted?, htask]
      rfl
    exact ⟨tried, h.idle (List.drop_eq_nil_of_le hshrinks) hattempted hstore⟩
  | other htask hkeeper houtbox hpending hdataflow hstore =>
    have hforwarded : w.forwarded = [] := by rw [Turn.forwarded, hpending, List.drop_length]
    have hattempted : w.attempted? = none := by
      rw [Turn.attempted?, htask]
      exact Task.nextEntry?_eq_none hkeeper
    exact ⟨tried, h.idle hforwarded hattempted hstore⟩

theorem Tried.action {filing : Filing} {store : σ} {tried : List Statistic}
    (h : Tried filing store ts j x tried) (a : HostAction) :
    Tried filing store ts (j.act a) x tried := by
  obtain ⟨-, -, -, hstore⟩ := PluginState.internals_act j.state a
  refine ⟨h.files, h.carried, h.entries, ?_⟩
  rw [state_act, hstore]
  exact h.store

/-! ## Every course -/

/-- Whatever happens, nothing is lost and every write is tried. -/
theorem conveyed_of_course (hi : i.PipelineEmpty) (h : i.Course es j) :
    ∃ x y, j.Staffed x y ∧ Flow es j x y ∧
      ∀ filing, i.setup.filing? = some filing →
        ∃ tried, Tried filing i.state.store (turnsOf es) j x tried := by
  induction h with
  | refl =>
    exact ⟨.receive, .receive, hi.staffed, hi.flow, fun filing _ => ⟨[], trivial, rfl, rfl, rfl⟩⟩
  | @turn es j k t h hs ih =>
    obtain ⟨x, y, hstaffed, hflow, htried⟩ := ih
    obtain ⟨x', y', hstaffed', hwork⟩ := hstaffed.step hs
    refine ⟨x', y', hstaffed', hflow.turn hwork, fun filing hfiling => ?_⟩
    obtain ⟨tried, htried⟩ := htried filing hfiling
    have hsetup : j.setup = i.setup := setup_of_reachable h.reachable
    rw [turnsOf_turn]
    exact htried.turn (hsetup ▸ hfiling) hwork
  | @action es j h a ih =>
    obtain ⟨x, y, hstaffed, hflow, htried⟩ := ih
    refine ⟨x, y, hstaffed.act a, hflow.action a, fun filing hfiling => ?_⟩
    obtain ⟨tried, htried⟩ := htried filing hfiling
    rw [turnsOf_action]
    exact ⟨tried, htried.action a⟩

/-! ## The keeper does not wait for the host -/

theorem Staffed.eq_receive (h : j.Staffed x y) (hs : j.step? 0 = none) :
    x = .receive ∧ j.state.outbox = [] := by
  rw [step?_of_getElem? h.keeper, Option.map_eq_none_iff, Task.step?, Option.map_eq_none_iff] at hs
  exact KeeperTask.eq_receive_of_step?_eq_none hs

theorem Staffed.courier_waits (h : j.Staffed x y) (hs : j.step? 1 = none) :
    (y = .receive ∧ j.state.pending = []) ∨
      (y = .wait ∧ j.state.dataflow.isWaiting 1 = true) := by
  rw [step?_of_getElem? h.courier, Option.map_eq_none_iff, Task.step?, Option.map_eq_none_iff] at hs
  exact CourierTask.eq_of_step?_eq_none hs

/-- The keeper by itself passes on all that was queued. -/
theorem Staffed.drain (h : j.Staffed x y) : ∃ n k, j.steps? (List.replicate n 0) = some k ∧
    k.Staffed .receive y ∧ k.state.outbox = [] ∧ k.state.dataflow = j.state.dataflow ∧
      queued (j.turns (List.replicate n 0)) = [] := by
  -- on what there is to do for the keeper, of which each of its turns does some
  induction hload : j.state.load + (Task.keeper x).load using Nat.strongRecOn
    generalizing j x with
  | ind load ih =>
    cases hs : j.step? 0 with
    | none =>
      obtain ⟨rfl, houtbox⟩ := h.eq_receive hs
      exact ⟨0, j, rfl, h, houtbox, rfl, rfl⟩
    | some j' =>
      obtain ⟨x', y', hstaffed, hwork⟩ := h.step hs
      cases hwork with
      | keep htask hx =>
        have hless := (KeeperTask.load_lt hx).1
        obtain ⟨hdataflow, hshrinks, -⟩ := KeeperTask.conveys hx
        obtain ⟨n, k, hsteps, hk, houtbox, hsame, hqueued⟩ :=
          ih _ (hload ▸ hless) hstaffed rfl
        refine ⟨n + 1, k, ?_, hk, houtbox, hsame.trans hdataflow, ?_⟩
        · rw [List.replicate_succ, steps?, hs, Option.bind_some, hsteps]
        · have hturn : (⟨0, j, j'⟩ : Turn σ).queued = [] := List.drop_eq_nil_of_le hshrinks
          have hturns : j.turns (0 :: List.replicate n 0) =
              ⟨0, j, j'⟩ :: j'.turns (List.replicate n 0) := by rw [Instance.turns, hs]
          rw [List.replicate_succ, hturns, queued, List.flatMap_cons, hturn]
          exact hqueued
      | deliver htask ht => cases ht
      | other htask hkeeper =>
        rw [h.keeper] at htask
        cases htask
        exact absurd trivial hkeeper

/-- Whichever snapshots are queued by whatever tasks, however many ledgers the host has room for and
whatever it does: as long as the host has not let go, what it has read, what is in its queue and in
line for it, what the courier carries and what waits for it, what the keeper carries and what waits
for it are together all snapshots that were queued, in their order.

A snapshot is passed on to the courier only after the write of each of its entries was tried, and
the store is what these tries have made of it. The keeper waits for nothing but a snapshot: from
wherever it stands it gets through with all that was queued by itself, with the queue of the host
left as it is, full or closed. -/
theorem pipeline_conveys (hi : i.PipelineEmpty) (h : i.Course es j) :
    ∃ x y, j.tasks[0]? = some (.keeper x) ∧ j.tasks[1]? = some (.courier y) ∧
      (j.state.dataflow.hasReceiver = true →
        delivered es ++ j.state.dataflow.contents ++ y.carried ++ j.state.pending ++ x.carried ++
          j.state.outbox = queued (turnsOf es)) ∧
      forwarded (turnsOf es) ++ x.carried ++ j.state.outbox = queued (turnsOf es) ∧
      (∀ filing, i.setup.filing? = some filing →
        (forwarded (turnsOf es)).flatMap Ledger.statistics <+: attempted (turnsOf es) ∧
          j.state.store =
            (attempted (turnsOf es)).foldl (Ledger.attemptedStore filing) i.state.store) ∧
      (j.step? 0 = none → x = .receive ∧ j.state.outbox = []) ∧
      ∃ n k, j.steps? (List.replicate n 0) = some k ∧ k.state.dataflow = j.state.dataflow ∧
        forwarded (turnsOf es ++ j.turns (List.replicate n 0)) = queued (turnsOf es) ∧
        ∀ filing, i.setup.filing? = some filing →
          attempted (turnsOf es ++ j.turns (List.replicate n 0)) =
            (queued (turnsOf es)).flatMap Ledger.statistics := by
  obtain ⟨x, y, hstaffed, hflow, htried⟩ := conveyed_of_course hi h
  refine ⟨x, y, hstaffed.keeper, hstaffed.courier, fun hopen => ?_, hflow.kept, fun filing hf => ?_,
    hstaffed.eq_receive, ?_⟩
  · rw [← hflow.kept, ← hflow.sent hopen]
  · obtain ⟨tried, htried⟩ := htried filing hf
    exact ⟨⟨tried, htried.entries.symm⟩, htried.store⟩
  · obtain ⟨n, k, hsteps, hk, houtbox, hdataflow, hqueued⟩ := hstaffed.drain
    -- the turns of the keeper go on with the course, so at their end the invariants hold as well
    obtain ⟨x', y', hstaffed', hflow', htried'⟩ := conveyed_of_course hi (h.turns hsteps)
    obtain rfl : x' = .receive := by
      have hsame := hk.keeper.symm.trans hstaffed'.keeper
      cases hsame
      rfl
    have hkept := hflow'.kept
    rw [turnsOf_map_turn, houtbox, KeeperTask.carried, List.append_nil, List.append_nil, queued,
      List.flatMap_append] at hkept
    have hall : forwarded (turnsOf es ++ j.turns (List.replicate n 0)) = queued (turnsOf es) := by
      rw [hkept]
      exact (congrArg _ hqueued).trans (List.append_nil _)
    refine ⟨n, k, hsteps, hdataflow, hall, fun filing hf => ?_⟩
    obtain ⟨tried, htried⟩ := htried' filing hf
    obtain rfl : tried = [] := (List.append_eq_nil_iff.1 (Eq.symm htried.carried)).1
    have hentries := htried.entries
    rwa [turnsOf_map_turn, List.append_nil, hall] at hentries

/-- A start and a report to a host that has room for one ledger. -/
def narrowStart : Instance Store.Tree :=
  ((initial sampleSetup 1 .empty).act (.call (.start "p1"))).act (.report (.other "disk full"))

/-- Both snapshots are kept and passed on. The first one fills the queue of the host, so the courier
waits with the second. -/
def narrowTurns : List Nat :=
  [3, 3, 3, 3, 3, 3, 3, 3, 3, 3, 4, 4, 4, 0, 0, 0, 0, 0, 0, 0, 0, 0, 1, 1, 1, 1]

theorem course_narrowStart {us : List Nat} {j : Instance Store.Tree}
    (h : narrowStart.steps? us = some j) : ∃ es, turnsOf es = narrowStart.turns us ∧
      delivered es = [] ∧ (initial sampleSetup 1 Store.Tree.empty).Course es j := by
  have hcourse := ((Course.refl (i := initial sampleSetup 1 Store.Tree.empty)).action
    (.call (.start "p1"))).action (.report (.other "disk full")) |>.turns h
  refine ⟨_, turnsOf_map_turn _ _, ?_, hcourse⟩
  rw [delivered_map_turn]
  rfl

/-- The host reads the first snapshot and finds the second behind it. -/
theorem pipeline_conveys_narrowStart : ∃ es j,
    (initial sampleSetup 1 Store.Tree.empty).Course es j ∧
      delivered es = [sampleSnapshot [startUpEntry]] ∧
      j.state.dataflow.buffer = [sampleSnapshot [startUpEntry, failureEntry]] ∧
      [startUpEntry, startUpEntry, failureEntry] <+: attempted (turnsOf es) := by
  have hrun : (narrowStart.steps? narrowTurns).map (fun j => (j.tasks[0]?, j.tasks[1]?,
      j.state.outbox, j.state.pending, j.state.dataflow)) =
        some (some (.keeper .receive), some (.courier .wait), [], [],
          ⟨1, [sampleSnapshot [startUpEntry]],
            [(1, sampleSnapshot [startUpEntry, failureEntry])], true, true⟩) := by
    with_unfolding_all rfl
  obtain ⟨j, hj, hseen⟩ := Option.map_eq_some_iff.1 hrun
  simp only [Prod.mk.injEq] at hseen
  obtain ⟨hkeeper, hcourier, houtbox, hpending, hdataflow⟩ := hseen
  obtain ⟨past, hpast, -, hturns⟩ := course_narrowStart hj
  obtain ⟨es, hes, hcourse⟩ : ∃ es, turnsOf es = narrowStart.turns narrowTurns ∧
      (initial sampleSetup 1 Store.Tree.empty).Course es (j.act (.readLedgers 1)) :=
    ⟨_, (turnsOf_action _ _ _).trans hpast, hturns.action _⟩
  obtain ⟨x, y, hx, hy, hall, hkept, htried, -⟩ :=
    pipeline_conveys ((fresh_initial _ _ _).pipelineEmpty rfl) hcourse
  have hread : (j.act (.readLedgers 1)).state.dataflow =
      ⟨1, [sampleSnapshot [startUpEntry, failureEntry]], [], true, true⟩ := by
    rw [state_act, PluginState.act, hdataflow]
    rfl
  obtain rfl : x = .receive := by
    have hsame := hkeeper.symm.trans hx
    cases hsame
    rfl
  obtain rfl : y = .wait := by
    have hsame := hcourier.symm.trans hy
    cases hsame
    rfl
  have hqueued : queued (turnsOf es) =
      [sampleSnapshot [startUpEntry], sampleSnapshot [startUpEntry, failureEntry]] := by
    rw [hes]
    with_unfolding_all rfl
  have hboxes : (j.act (.readLedgers 1)).state.pending = [] ∧
      (j.act (.readLedgers 1)).state.outbox = [] := by
    rw [state_act]
    exact ⟨hpending, houtbox⟩
  have hopen := hall (by rw [hread])
  simp only [hread, hboxes, hqueued, KeeperTask.carried, CourierTask.carried, List.append_nil]
    at hopen hkept
  have hprefix := (htried sampleFiling rfl).1
  rw [hkept] at hprefix
  have hsplit : delivered es ++ [sampleSnapshot [startUpEntry, failureEntry]] =
      [sampleSnapshot [startUpEntry]] ++ [sampleSnapshot [startUpEntry, failureEntry]] := hopen
  exact ⟨es, _, hcourse, List.append_cancel_right hsplit, by rw [hread], hprefix⟩

end Instance

end PluginKernel
