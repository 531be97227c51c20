import Mathlib.Data.List.Basic
import Mathlib.Data.List.Chain
import PluginKernel.Proofs.Instance.Turn

/-!
# Snapshots of the ledger

A start, a report and a stop each take a snapshot of the ledger, and queue it some turns later, when
nothing is locked any more. In between the snapshot is *in hand*. A turn does one of three things:
it takes a snapshot, it queues the one in hand, or it does neither.

Snapshots are taken from the live ledger one after the other, so each of them opens a run or has one
entry more than the one before. They are queued by whoever has them in hand, in whatever order these
tasks get their turns. `Instance.holders` is who has one in hand, the oldest first; as long as only
the first of them queues, snapshots are queued in the order in which they were taken.
-/

namespace PluginKernel

variable {σ : Type}

/-- A ledger has one entry more than another. -/
def Ledger.Extends (l l' : Ledger) : Prop := ∃ s, l'.statistics = l.statistics ++ [s]

theorem Ledger.extends_record (l : Ledger) (name : String) (m : Milestone) (mode : Int64)
    (now : Nat) : l.Extends (l.record name m mode now) := ⟨_, statistics_record l name m mode now⟩

namespace Task

/-- The snapshot that a task has taken and not yet queued. -/
def inHand : Task → Option Ledger
  | start (.settle l) | start (.release l) | start (.emit l) => some l
  | start (.report (.emit l _)) | report (.emit l _) => some l
  | stop (.settle _ l) | stop (.release _ l) | stop (.emit _ l) => l
  | _ => none

/-- Whether a task keeps ledgers. -/
def IsKeeper : Task → Prop
  | keeper _ => True
  | _ => False

instance : DecidablePred IsKeeper := fun task => by
  cases task <;> first | exact .isTrue trivial | exact .isFalse id

/-- What a turn does to ledgers. -/
inductive LedgerEffect (s : PluginState σ) (task : Task) (m : Move σ) : Prop where
  /-- Ledgers stay where they are. -/
  | keep (hledger : m.state.ledger = s.ledger) (houtbox : m.state.outbox = s.outbox)
      (hnext : m.next.inHand = task.inHand)
  /-- A snapshot is taken, of a run that is opened or from the live ledger. -/
  | take (l : Ledger) (hhand : task.inHand = none) (hnext : m.next.inHand = some l)
      (houtbox : m.state.outbox = s.outbox)
      (horigin : l.size = 1 ∨ ∃ l₀, s.ledger = some l₀ ∧ l₀.Extends l)
      (hledger : ∀ l', m.state.ledger = some l' → l' = l)
  /-- The snapshot in hand is queued. -/
  | queue (l : Ledger) (hhand : task.inHand = some l) (hnext : m.next.inHand = none)
      (houtbox : m.state.outbox = s.outbox ++ [l]) (hledger : m.state.ledger = s.ledger)
  /-- A snapshot is taken out of the queue, to be kept. -/
  | collect (l : Ledger) (hkeeper : task.IsKeeper) (hhand : task.inHand = none)
      (hnext : m.next.inHand = none) (houtbox : s.outbox = l :: m.state.outbox)
      (hledger : m.state.ledger = s.ledger)

end Task

/-! ## What each task does to ledgers -/

theorem ReportTask.ledgerEffect {setup : Setup} {t : Nat} {s s' : PluginState σ}
    {r r' : ReportTask} (h : r.step? setup t s = some (s', r')) :
    (Task.report r).LedgerEffect s ⟨s', .report r', none⟩ := by
  cases r with
  | record e =>
    simp only [step?] at h
    split at h
    · cases h
      exact .keep rfl rfl rfl
    next l hl =>
      split at h
      · cases h
        exact .keep rfl rfl rfl
      · cases h
        refine .take _ rfl rfl rfl (Or.inr ⟨l, hl, l.extends_record _ _ _ _⟩) ?_
        intro l' hl'
        exact (Option.some.inj hl').symm
  | emit l e =>
    simp only [step?] at h
    cases h
    exact .queue l rfl rfl rfl rfl
  | _ =>
    simp only [step?] at h
    (repeat' split at h) <;> cases h <;> exact .keep rfl rfl rfl

theorem StartTask.ledgerEffect {setup : Setup} {t : Nat} {s : PluginState σ} {x : StartTask}
    {m : Move σ} (h : x.step? setup t s = some m) : (Task.start x).LedgerEffect s m := by
  cases x with
  | enter plugin =>
    simp only [step?] at h
    split at h <;> cases h <;> exact .keep rfl rfl rfl
  | bind plugin =>
    simp only [step?] at h
    split at h <;> cases h <;> exact .keep rfl rfl rfl
  | record plugin =>
    simp only [step?] at h
    cases h
    refine .take _ rfl rfl rfl (Or.inl rfl) ?_
    intro l' hl'
    exact (Option.some.inj hl').symm
  | emit l =>
    simp only [step?] at h
    cases h
    exact .queue l rfl rfl rfl rfl
  | report r =>
    simp only [step?, Option.map_eq_some_iff, Prod.exists] at h
    obtain ⟨s', r', hr, rfl⟩ := h
    have hhand : ∀ r, (Task.start (.report r)).inHand = (Task.report r).inHand := by
      intro r
      cases r <;> rfl
    cases ReportTask.ledgerEffect hr with
    | keep hledger houtbox hnext => exact .keep hledger houtbox (by rw [hhand, hhand, hnext])
    | take l hbefore hnext houtbox horigin hledger =>
      exact .take l ((hhand r).trans hbefore) ((hhand r').trans hnext) houtbox horigin hledger
    | queue l hbefore hnext houtbox hledger =>
      exact .queue l ((hhand r).trans hbefore) ((hhand r').trans hnext) houtbox hledger
    | collect l hkeeper => cases hkeeper
  | done => simp only [step?] at h; cases h
  | _ =>
    simp only [step?] at h
    cases h
    exact .keep rfl rfl rfl

theorem StopTask.ledgerEffect {setup : Setup} {t : Nat} {s s' : PluginState σ} {x x' : StopTask}
    (h : x.step? setup t s = some (s', x')) :
    (Task.stop x).LedgerEffect s ⟨s', .stop x', none⟩ := by
  cases x with
  | record plugin =>
    simp only [step?] at h
    split at h
    · cases h
      exact .keep rfl rfl rfl
    next l hl =>
      cases h
      refine .take _ rfl rfl rfl (Or.inr ⟨l, hl, l.extends_record _ _ _ _⟩) ?_
      intro l' hl'
      cases hl'
  | emit plugin l =>
    simp only [step?] at h
    split at h
    next l =>
      cases h
      exact .queue l rfl rfl rfl rfl
    · cases h
      exact .keep rfl rfl rfl
  | _ =>
    simp only [step?] at h
    (repeat' split at h) <;> cases h <;> exact .keep rfl rfl rfl

theorem ServeTask.ledgerEffect {t : Nat} {s s' : PluginState σ} {x x' : ServeTask}
    (h : x.step? t s = some (s', x')) : (Task.serve x).LedgerEffect s ⟨s', .serve x', none⟩ := by
  cases x <;> simp only [step?] at h <;> (repeat' split at h) <;> cases h <;>
    exact .keep rfl rfl rfl

theorem ListenTask.ledgerEffect {t fresh : Nat} {s : PluginState σ} {x : ListenTask} {m : Move σ}
    (h : x.step? t fresh s = some m) : (Task.listen x).LedgerEffect s m := by
  cases x <;> simp only [step?] at h <;> (repeat' split at h) <;> cases h <;>
    exact .keep rfl rfl rfl

theorem KeeperTask.ledgerEffect [RecordStore σ] {setup : Setup} {s s' : PluginState σ}
    {x x' : KeeperTask} (h : x.step? setup s = some (s', x')) :
    (Task.keeper x).LedgerEffect s ⟨s', .keeper x', none⟩ := by
  cases x with
  | receive =>
    simp only [step?] at h
    split at h
    · cases h
    next l rest hl =>
      cases h
      exact .collect l trivial rfl rfl hl rfl
  | persist filing l rest summary =>
    cases rest <;> simp only [step?] at h <;> cases h <;> exact .keep rfl rfl rfl
  | forward l =>
    simp only [step?] at h
    cases h
    exact .keep rfl rfl rfl

theorem CourierTask.ledgerEffect {t : Nat} {s s' : PluginState σ} {x x' : CourierTask}
    (h : x.step? t s = some (s', x')) :
    (Task.courier x).LedgerEffect s ⟨s', .courier x', none⟩ := by
  cases x with
  | wait =>
    simp only [step?, Option.map_eq_some_iff] at h
    obtain ⟨_, _, h⟩ := h
    cases h
    exact .keep rfl rfl rfl
  | _ =>
    simp only [step?] at h
    split at h <;> cases h <;> exact .keep rfl rfl rfl

/-- A turn does one of four things to ledgers. -/
theorem Task.ledgerEffect [RecordStore σ] {setup : Setup} {t fresh : Nat} {s : PluginState σ}
    {task : Task} {m : Move σ} (h : task.step? setup t fresh s = some m) :
    task.LedgerEffect s m := by
  cases task with
  | call tr =>
    simp only [step?] at h
    cases h
    exact .keep rfl rfl rfl
  | await tr =>
    simp only [step?] at h
    split at h <;> cases h
    exact .keep rfl rfl (by cases tr <;> rfl)
  | start x => exact StartTask.ledgerEffect h
  | listen x => exact ListenTask.ledgerEffect h
  | stop x =>
    simp only [step?, Option.map_eq_some_iff, Prod.exists] at h
    obtain ⟨s', x', hx, rfl⟩ := h
    exact StopTask.ledgerEffect hx
  | serve x =>
    simp only [step?, Option.map_eq_some_iff, Prod.exists] at h
    obtain ⟨s', x', hx, rfl⟩ := h
    exact ServeTask.ledgerEffect hx
  | report x =>
    simp only [step?, Option.map_eq_some_iff, Prod.exists] at h
    obtain ⟨s', x', hx, rfl⟩ := h
    exact ReportTask.ledgerEffect hx
  | keeper x =>
    simp only [step?, Option.map_eq_some_iff, Prod.exists] at h
    obtain ⟨s', x', hx, rfl⟩ := h
    exact KeeperTask.ledgerEffect hx
  | courier x =>
    simp only [step?, Option.map_eq_some_iff, Prod.exists] at h
    obtain ⟨s', x', hx, rfl⟩ := h
    exact CourierTask.ledgerEffect hx

/-! ## What a turn leaves alone -/

/-- A task that is set off has no snapshot in hand and keeps no ledgers. -/
theorem Task.spawned_quiet [RecordStore σ] {setup : Setup} {t fresh : Nat} {s : PluginState σ}
    {task : Task} {m : Move σ} (h : task.step? setup t fresh s = some m) :
    ∀ x, m.spawned = some x → x.inHand = none ∧ ¬ x.IsKeeper := by
  have hnone : m.spawned = none → ∀ x, m.spawned = some x → x.inHand = none ∧ ¬ x.IsKeeper := by
    intro hm x hx
    rw [hm] at hx
    cases hx
  cases task with
  | start x =>
    cases x with
    | launch plugin n =>
      simp only [step?, StartTask.step?] at h
      cases h
      intro x hx
      cases hx
      exact ⟨rfl, id⟩
    | report r =>
      simp only [step?, StartTask.step?, Option.map_eq_some_iff, Prod.exists] at h
      obtain ⟨s', r', -, rfl⟩ := h
      exact hnone rfl
    | _ =>
      simp only [step?, StartTask.step?] at h
      (repeat' split at h) <;> cases h <;> exact hnone rfl
  | listen x =>
    cases x with
    | await tr =>
      simp only [step?, ListenTask.step?] at h
      split at h <;> cases h
      intro x hx
      cases hx
      cases tr <;> exact ⟨rfl, id⟩
    | _ =>
      simp only [step?, ListenTask.step?] at h
      (repeat' split at h) <;> cases h <;> exact hnone rfl
  | call tr =>
    simp only [step?] at h
    cases h
    exact hnone rfl
  | await tr =>
    simp only [step?] at h
    split at h <;> cases h
    exact hnone rfl
  | _ =>
    simp only [step?, Option.map_eq_some_iff, Prod.exists] at h
    obtain ⟨s', x', -, rfl⟩ := h
    exact hnone rfl

theorem ReportTask.store_step? {setup : Setup} {t : Nat} {s s' : PluginState σ}
    {r r' : ReportTask} (h : r.step? setup t s = some (s', r')) : s'.store = s.store := by
  cases r <;> simp only [step?] at h <;> (repeat' split at h) <;> cases h <;> rfl

/-- Only the task that keeps ledgers writes to the store, and no other takes its place. -/
theorem Task.store_of_not_isKeeper [RecordStore σ] {setup : Setup} {t fresh : Nat}
    {s : PluginState σ} {task : Task} {m : Move σ} (h : task.step? setup t fresh s = some m)
    (hkeeper : ¬ task.IsKeeper) : m.state.store = s.store ∧ ¬ m.next.IsKeeper := by
  cases task with
  | call tr => simp only [step?] at h; cases h; exact ⟨rfl, id⟩
  | await tr =>
    simp only [step?] at h
    split at h <;> cases h
    cases tr <;> exact ⟨rfl, id⟩
  | start x =>
    cases x with
    | report r =>
      simp only [step?, StartTask.step?, Option.map_eq_some_iff, Prod.exists] at h
      obtain ⟨s', r', hr, rfl⟩ := h
      exact ⟨ReportTask.store_step? hr, id⟩
    | _ =>
      simp only [step?, StartTask.step?] at h
      (repeat' split at h) <;> cases h <;> exact ⟨rfl, id⟩
  | listen x =>
    cases x <;> simp only [step?, ListenTask.step?] at h <;> (repeat' split at h) <;> cases h <;>
      exact ⟨rfl, id⟩
  | stop x =>
    simp only [step?, Option.map_eq_some_iff, Prod.exists] at h
    obtain ⟨s', x', hx, rfl⟩ := h
    cases x <;> simp only [StopTask.step?] at hx <;> (repeat' split at hx) <;> cases hx <;>
      exact ⟨rfl, id⟩
  | serve x =>
    simp only [step?, Option.map_eq_some_iff, Prod.exists] at h
    obtain ⟨s', x', hx, rfl⟩ := h
    cases x <;> simp only [ServeTask.step?] at hx <;> (repeat' split at hx) <;> cases hx <;>
      exact ⟨rfl, id⟩
  | report x =>
    simp only [step?, Option.map_eq_some_iff, Prod.exists] at h
    obtain ⟨s', x', hx, rfl⟩ := h
    exact ⟨ReportTask.store_step? hx, id⟩
  | courier x =>
    simp only [step?, Option.map_eq_some_iff, Prod.exists] at h
    obtain ⟨s', x', hx, rfl⟩ := h
    cases x with
    | wait =>
      simp only [CourierTask.step?, Option.map_eq_some_iff] at hx
      obtain ⟨_, _, hx⟩ := hx
      cases hx
      exact ⟨rfl, id⟩
    | _ =>
      simp only [CourierTask.step?] at hx
      split at hx <;> cases hx <;> exact ⟨rfl, id⟩
  | keeper x => exact absurd trivial hkeeper

end PluginKernel
