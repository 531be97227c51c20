import PluginKernel.Proofs.Instance.Renumbering
import PluginKernel.Proofs.Instance.Settling

/-!
# Plugins that behave alike

Two plugins behave alike if, whatever their host does and in whatever order their tasks take turns,
each of them can come to look as the other does, and to rest where the other does. What counts is
the state but for the numbers of those who wait, and what is logged from now on.

`Alike` is an invariant from which this follows: one plugin is the other with its tasks numbered
otherwise, something else logged before, and perhaps further tasks that have nothing left to do.
Every action of the host keeps it, and so does every turn of a task if the task that corresponds to
it takes a turn as well.
-/

namespace PluginKernel

variable {σ : Type}

/-- What can be seen of a state: everything but the numbers of those who wait and the log. -/
def PluginState.seen (s : PluginState σ) : PluginState σ :=
  { s.recast (fun _ => 0) [] with log := [] }

theorem PluginState.seen_recast (ρ : Nat → Nat) (b : List LogEvent) (s : PluginState σ) :
    (s.recast ρ b).seen = s.seen := by
  simp [seen, recast, Lock.renumber, Queue.renumber, Function.comp_def]

namespace Task

/-- A start that has come to its report is a report. -/
def bare : Task → Task
  | .start (.report r) => .report r
  | x => x

/-- Nothing is left to do, or only to notice that an error has been taken. -/
def IsSpent (x : Task) : Prop := x.bare = .report .done ∨ ∃ e, x.bare = .report (.wait e)

/-- Reporting is the same whether it ends a start or not. -/
theorem step?_of_bare_eq [RecordStore σ] (setup : Setup) (t fresh : Nat) (s : PluginState σ)
    {x y : Task} (h : x.bare = y.bare) :
    (x.step? setup t fresh s).map (fun m => (m.state, m.next.bare, m.spawned)) =
      (y.step? setup t fresh s).map fun m => (m.state, m.next.bare, m.spawned) := by
  -- a task that is not bare is a start that has come to its report
  have hbare : ∀ z : Task, (z.step? setup t fresh s).map
        (fun m => (m.state, m.next.bare, m.spawned)) =
      (z.bare.step? setup t fresh s).map fun m => (m.state, m.next.bare, m.spawned) := by
    intro z
    cases z with
    | start x =>
      cases x with
      | report r =>
        simp only [bare, step?, StartTask.step?, Option.map_map]
        rfl
      | _ => rfl
    | _ => rfl
  rw [hbare x, h, ← hbare y]

end Task

namespace Instance

/-- What a plugin can become while its host does some things, with turns of tasks in any order
before, between and after them. -/
inductive Runs [RecordStore σ] (i : Instance σ) : List HostAction → Instance σ → Prop where
  /-- Nothing has happened. -/
  | refl : Runs i [] i
  /-- A task has taken a turn. -/
  | step {as : List HostAction} {j k : Instance σ} (h : Runs i as j) (hs : j.Step k) : Runs i as k
  /-- The host has done something. -/
  | act {as : List HostAction} {j : Instance σ} (h : Runs i as j) (a : HostAction) :
      Runs i (as ++ [a]) (j.act a)

/-- Two plugins look alike: there is nothing to tell them apart by, and the same was logged since
they were two given plugins. -/
structure LooksLike (i₀ j₀ i j : Instance σ) : Prop where
  seen : j.state.seen = i.state.seen
  logged : ∃ events, i.state.log = i₀.state.log ++ events ∧ j.state.log = j₀.state.log ++ events

/-- Whatever the host does, and in whatever order tasks take their turns, each of two plugins can
come to look like the other; and if nothing can go on in the other, nothing can go on in it. -/
def BehavesLike [RecordStore σ] (i j : Instance σ) : Prop :=
  ∀ as : List HostAction,
    (∀ i', i.Runs as i' →
        ∃ j', j.Runs as j' ∧ LooksLike i j i' j' ∧ (i'.Quiescent → j'.Quiescent)) ∧
      ∀ j', j.Runs as j' →
        ∃ i', i.Runs as i' ∧ LooksLike i j i' j' ∧ (j'.Quiescent → i'.Quiescent)

theorem Runs.steps [RecordStore σ] {i j k : Instance σ} {as : List HostAction} (h : i.Runs as j)
    {ts : List Nat} (hs : j.steps? ts = some k) : i.Runs as k := by
  induction ts generalizing j with
  | nil =>
    cases hs
    exact h
  | cons t rest ih =>
    obtain ⟨j', hj', hrest⟩ := Option.bind_eq_some_iff.1 hs
    exact ih (h.step ⟨t, hj'⟩) hrest

/-- One plugin is another one with its tasks numbered otherwise, something else logged before, and
perhaps further tasks that have nothing left to do. -/
structure Alike (ρ : Nat → Nat) (b c : List LogEvent) (i j : Instance σ) : Prop where
  setup : j.setup = i.setup
  /-- No two tasks get the same number. -/
  injective : ρ.Injective
  /-- Tasks that will be set off get the next numbers. -/
  fresh : ∀ d, ρ (i.tasks.length + d) = j.tasks.length + d
  tasks : ∀ t, (j.tasks[ρ t]?).map Task.bare = (i.tasks[t]?).map Task.bare
  /-- Further tasks have nothing left to do. -/
  spent : ∀ u x, j.tasks[u]? = some x → (∀ t, ρ t ≠ u) → x.IsSpent
  state : ∃ s : PluginState σ, i.state = s.recast id b ∧ j.state = s.recast ρ c

namespace Alike

variable {ρ : Nat → Nat} {b c : List LogEvent} {i j : Instance σ}

theorem seen (h : Alike ρ b c i j) : j.state.seen = i.state.seen := by
  obtain ⟨s, hi, hj⟩ := h.state
  rw [hi, hj, PluginState.seen_recast, PluginState.seen_recast]

theorem corresponds (h : Alike ρ b c i j) :
    Corresponds ρ Task.bare Task.bare Task.IsSpent i j :=
  ⟨h.injective, h.fresh, h.tasks, h.spent⟩

theorem of_corresponds (h : Corresponds ρ Task.bare Task.bare Task.IsSpent i j)
    (hsetup : j.setup = i.setup)
    (hstate : ∃ s : PluginState σ, i.state = s.recast id b ∧ j.state = s.recast ρ c) :
    Alike ρ b c i j :=
  ⟨hsetup, h.injective, h.fresh, h.tasks, h.further, hstate⟩

/-- Actions of the host keep plugins alike. -/
theorem act (h : Alike ρ b c i j) (a : HostAction) : Alike ρ b c (i.act a) (j.act a) := by
  obtain ⟨s, hi, hj⟩ := h.state
  refine of_corresponds (h.corresponds.act rfl) (by rw [setup_act, setup_act, h.setup])
    ⟨s.act a, ?_, ?_⟩
  · rw [state_act, hi, PluginState.act_recast]
  · rw [state_act, hj, PluginState.act_recast]

/-- Moves that correspond to each other keep plugins alike. -/
theorem move (h : Alike ρ b c i j) {t : Nat} (ht : t < i.tasks.length) (ht' : ρ t < j.tasks.length)
    {m n : Move σ} (hstate : ∃ s : PluginState σ, m.state = s.recast id b ∧ n.state = s.recast ρ c)
    (hnext : n.next.bare = m.next.bare) (hspawned : n.spawned = m.spawned) :
    Alike ρ b c (i.move t m) (j.move (ρ t) n) := by
  refine of_corresponds (h.corresponds.move ht ht' hnext (by rw [hspawned])) ?_ ?_
  · rw [setup_move, setup_move, h.setup]
  · simpa only [state_move] using hstate

variable [RecordStore σ]

/-- A task and the one that corresponds to it both wait, or both take a turn. -/
theorem step? (h : Alike ρ b c i j) (t : Nat) :
    (i.step? t = none ∧ j.step? (ρ t) = none) ∨
      ∃ i' j', i.step? t = some i' ∧ j.step? (ρ t) = some j' ∧ Alike ρ b c i' j' := by
  obtain ⟨s, hi, hj⟩ := h.state
  cases hx : i.tasks[t]? with
  | none =>
    have hy : j.tasks[ρ t]? = none := by
      have := h.tasks t
      rw [hx] at this
      simpa using this
    exact .inl ⟨by simp [Instance.step?, hx], by simp [Instance.step?, hy]⟩
  | some x =>
    obtain ⟨y, hy, hxy⟩ : ∃ y, j.tasks[ρ t]? = some y ∧ y.bare = x.bare := by
      have := h.tasks t
      rw [hx] at this
      simpa using this
    have ht := (List.getElem?_eq_some_iff.1 hx).1
    have ht' := (List.getElem?_eq_some_iff.1 hy).1
    have hfresh : ρ i.tasks.length = j.tasks.length := h.fresh 0
    have hxs : i.step? t = (x.step? i.setup t i.tasks.length s).map
        fun m => i.move t (m.recast id b) := by
      rw [step?_of_getElem? hx, hi]
      change (x.step? i.setup (id t) (id _) (s.recast id b)).map _ = _
      rw [Task.step?_recast Function.injective_id, Option.map_map]
      rfl
    have hys : j.step? (ρ t) = (y.step? i.setup t i.tasks.length s).map
        fun m => j.move (ρ t) (m.recast ρ c) := by
      rw [step?_of_getElem? hy, hj, h.setup, ← hfresh]
      rw [Task.step?_recast h.injective, Option.map_map]
      rfl
    have hsame := Task.step?_of_bare_eq i.setup t i.tasks.length s hxy
    rw [hxs, hys]
    cases hm : x.step? i.setup t i.tasks.length s with
    | none =>
      rw [hm] at hsame
      exact .inl ⟨rfl, by simp at hsame; simp [hsame]⟩
    | some m =>
      rw [hm] at hsame
      obtain ⟨n, hn, hnm⟩ := Option.map_eq_some_iff.1 hsame
      simp only [Prod.mk.injEq] at hnm
      obtain ⟨hstate, hnext, hspawned⟩ := hnm
      have hstates : (n.recast ρ c).state = m.state.recast ρ c := by rw [← hstate]; rfl
      exact .inr ⟨_, _, rfl, congrArg (Option.map _) hn,
        h.move ht ht' ⟨m.state, rfl, hstates⟩ hnext hspawned⟩

/-- A turn of a task that had nothing left to do changes nothing. -/
theorem step?_spent (h : Alike ρ b c i j) {u : Nat} {j' : Instance σ} (hs : j.step? u = some j')
    (hu : ∀ t, ρ t ≠ u) : Alike ρ b c i j' := by
  obtain ⟨x, m, hx, hm, rfl⟩ := step?_eq_some_iff.1 hs
  have ht := (List.getElem?_eq_some_iff.1 hx).1
  obtain ⟨s, hi, hj⟩ := h.state
  have hidle : j.state.errors.isWaiting u = false := by
    rw [hj, Queue.isWaiting, List.any_eq_false]
    intro p hp
    obtain ⟨p₀, -, rfl⟩ := List.mem_map.1 hp
    simpa using hu p₀.1
  have hdone : m.state = j.state ∧ m.next.bare = .report .done ∧ m.spawned = none := by
    have hsame (r : ReportTask) (hbare : x.bare = (Task.report r).bare) :=
      hm ▸ Task.step?_of_bare_eq j.setup u j.tasks.length j.state hbare
    rcases h.spent u x hx hu with hbare | ⟨e, hbare⟩
    · cases hsame .done hbare
    · have hwait : (Task.report (.wait e)).step? j.setup u j.tasks.length j.state =
          some ⟨j.state, .report .done, none⟩ := by
        simp [Task.step?, ReportTask.step?, Queue.resume?, hidle]
      have := hsame (.wait e) hbare
      rw [hwait] at this
      simpa [Task.bare] using this
  obtain ⟨hstate, hnext, hspawned⟩ := hdone
  refine of_corresponds (h.corresponds.move_further hu ht (.inl hnext) hspawned) ?_ ⟨s, hi, ?_⟩
  · rw [setup_move, h.setup]
  · rw [state_move, hstate, hj]

/-- Where nothing can go on in one plugin, only tasks that had nothing left to do take turns in the
other, and it comes to rest. -/
theorem rests (h : Alike ρ b c i j) (hq : i.Quiescent) :
    ∃ ts k, j.steps? ts = some k ∧ k.Quiescent ∧ Alike ρ b c i k := by
  have hkept : ∀ (ts : List Nat) {j k : Instance σ}, Alike ρ b c i j → j.steps? ts = some k →
      Alike ρ b c i k := by
    intro ts
    induction ts with
    | nil =>
      intro j k h hk
      cases hk
      exact h
    | cons u rest ih =>
      intro j k h hk
      obtain ⟨j', hj', hrest⟩ := Option.bind_eq_some_iff.1 hk
      refine ih (h.step?_spent hj' fun t ht => ?_) hrest
      -- the task would correspond to one that can go on in the first plugin
      rcases h.step? t with ⟨-, hnone⟩ | ⟨i', _, hi', -, -⟩
      · rw [ht, hj'] at hnone
        cases hnone
      · rw [hq t] at hi'
        cases hi'
  obtain ⟨ts, k, hk, hkq, -⟩ := exists_steps_settle j
  exact ⟨ts, k, hk, hkq, hkept ts h hk⟩

theorem quiescent_back (h : Alike ρ b c i j) (hq : j.Quiescent) : i.Quiescent := by
  intro t
  rcases h.step? t with ⟨hnone, -⟩ | ⟨_, j', -, hj', -⟩
  · exact hnone
  · rw [hq (ρ t)] at hj'
    cases hj'

/-- Whatever becomes of one plugin, the other can follow. -/
theorem runs (h : Alike ρ b c i j) {as : List HostAction} {i' : Instance σ} (hr : i.Runs as i') :
    ∃ j', j.Runs as j' ∧ Alike ρ b c i' j' := by
  induction hr with
  | refl => exact ⟨j, .refl, h⟩
  | act _ a ih =>
    obtain ⟨j', hj', h'⟩ := ih
    exact ⟨j'.act a, hj'.act a, h'.act a⟩
  | step _ hs ih =>
    obtain ⟨j', hj', h'⟩ := ih
    obtain ⟨t, ht⟩ := hs
    rcases h'.step? t with ⟨hnone, -⟩ | ⟨k, k', hk, hk', hkk'⟩
    · rw [hnone] at ht
      cases ht
    · rw [ht] at hk
      cases hk
      exact ⟨k', hj'.step ⟨_, hk'⟩, hkk'⟩

/-- Whatever becomes of the other plugin, the one can follow. -/
theorem runs_back (h : Alike ρ b c i j) {as : List HostAction} {j' : Instance σ}
    (hr : j.Runs as j') : ∃ i', i.Runs as i' ∧ Alike ρ b c i' j' := by
  induction hr with
  | refl => exact ⟨i, .refl, h⟩
  | act _ a ih =>
    obtain ⟨i', hi', h'⟩ := ih
    exact ⟨i'.act a, hi'.act a, h'.act a⟩
  | step _ hs ih =>
    obtain ⟨i', hi', h'⟩ := ih
    obtain ⟨u, hu⟩ := hs
    by_cases hrange : ∃ t, ρ t = u
    · obtain ⟨t, rfl⟩ := hrange
      rcases h'.step? t with ⟨-, hnone⟩ | ⟨k, k', hk, hk', hkk'⟩
      · rw [hnone] at hu
        cases hu
      · rw [hu] at hk'
        cases hk'
        exact ⟨k, hi'.step ⟨_, hk⟩, hkk'⟩
    · exact ⟨i', hi', h'.step?_spent hu fun t ht => hrange ⟨t, ht⟩⟩

/-- Plugins that are alike, each with its own log, behave alike. -/
theorem behavesLike (h : Alike ρ i.state.log j.state.log i j) : BehavesLike i j := by
  have hlooks : ∀ {i' j' : Instance σ}, Alike ρ i.state.log j.state.log i' j' →
      LooksLike i j i' j' := by
    intro i' j' h'
    obtain ⟨s, hi, hj⟩ := h'.state
    exact ⟨h'.seen, s.log, by rw [hi]; rfl, by rw [hj]; rfl⟩
  intro as
  constructor
  · intro i' hi'
    obtain ⟨j', hj', h'⟩ := h.runs hi'
    by_cases hq : i'.Quiescent
    · obtain ⟨ts, k, hk, hkq, h''⟩ := h'.rests hq
      exact ⟨k, hj'.steps hk, hlooks h'', fun _ => hkq⟩
    · exact ⟨j', hj', hlooks h', fun hq' => absurd hq' hq⟩
  · intro j' hj'
    obtain ⟨i', hi', h'⟩ := h.runs_back hj'
    exact ⟨i', hi', hlooks h', h'.quiescent_back⟩

end Alike

end Instance

end PluginKernel
