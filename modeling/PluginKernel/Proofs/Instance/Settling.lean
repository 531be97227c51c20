import PluginKernel.Proofs.Instance.Turn

/-!
# Settling is taking turns

To settle is to take turns in one particular order until nothing can go on. What holds after turns
in every order therefore holds after settling: `exists_steps_settle`. The order in which tasks stand
in line is all that settling changes besides.

How many turns settling takes depends on the plugin. Where a number is known to be enough,
`takeTurns` says by recursion on that number what settling comes to.
-/

namespace PluginKernel.Instance

variable {σ : Type}

/-- Two plugins are the same but for the order in which their tasks stand in line. -/
structure SameBesideLine (i j : Instance σ) : Prop where
  setup : j.setup = i.setup
  state : j.state = i.state
  tasks : j.tasks = i.tasks

theorem SameBesideLine.refl (i : Instance σ) : i.SameBesideLine i := ⟨rfl, rfl, rfl⟩

theorem SameBesideLine.symm {i j : Instance σ} (h : i.SameBesideLine j) : j.SameBesideLine i :=
  ⟨h.setup.symm, h.state.symm, h.tasks.symm⟩

theorem SameBesideLine.trans {i j k : Instance σ} (h : i.SameBesideLine j)
    (h' : j.SameBesideLine k) : i.SameBesideLine k :=
  ⟨h'.setup.trans h.setup, h'.state.trans h.state, h'.tasks.trans h.tasks⟩

theorem SameBesideLine.act {i j : Instance σ} (h : i.SameBesideLine j) (a : HostAction) :
    (i.act a).SameBesideLine (j.act a) := by
  obtain ⟨hsetup, hstate, htasks⟩ := h
  refine ⟨?_, ?_, ?_⟩
  · rw [setup_act, setup_act, hsetup]
  · rw [state_act, state_act, hstate]
  · rw [tasks_act, tasks_act, htasks]

variable [RecordStore σ]

/-- What a task does next does not depend on the line. -/
theorem SameBesideLine.step? {i i' j : Instance σ} (h : i.SameBesideLine i') {t : Nat}
    (hs : i.step? t = some j) : ∃ j', i'.step? t = some j' ∧ j.SameBesideLine j' := by
  obtain ⟨task, m, htask, hm, rfl⟩ := step?_eq_some_iff.1 hs
  refine ⟨i'.move t m, ?_, ?_, ?_, ?_⟩
  · rw [step?_eq_some_iff]
    exact ⟨task, m, by rw [h.tasks, htask], by rw [h.setup, h.tasks, h.state, hm], rfl⟩
  · rw [setup_move, setup_move, h.setup]
  · rw [state_move, state_move]
  · rw [tasks_move, tasks_move, h.tasks]

theorem SameBesideLine.steps? {i i' j : Instance σ} (h : i.SameBesideLine i') {ts : List Nat}
    (hs : i.steps? ts = some j) : ∃ j', i'.steps? ts = some j' ∧ j.SameBesideLine j' := by
  induction ts generalizing i i' with
  | nil =>
    cases hs
    exact ⟨i', rfl, h⟩
  | cons t rest ih =>
    obtain ⟨k, hk, hrest⟩ := Option.bind_eq_some_iff.1 hs
    obtain ⟨k', hk', hkk'⟩ := h.step? hk
    obtain ⟨j', hj', hjj'⟩ := ih hkk' hrest
    refine ⟨j', ?_, hjj'⟩
    rw [Instance.steps?, hk', Option.bind_some]
    exact hj'

theorem SameBesideLine.quiescent {i i' : Instance σ} (h : i.SameBesideLine i')
    (hq : i'.Quiescent) : i.Quiescent := by
  intro t
  cases hs : i.step? t with
  | none => rfl
  | some j =>
    obtain ⟨j', hj', -⟩ := h.step? hs
    rw [hq t] at hj'
    cases hj'

theorem sameBesideLine_requeue (i : Instance σ) (t : Nat) : i.SameBesideLine (i.requeue t) := by
  unfold requeue
  split <;> exact ⟨rfl, rfl, rfl⟩

/-- The plugin after up to a number of turns in the order in which tasks stand in line. -/
def takeTurns : Nat → Instance σ → Instance σ
  | 0, i => i
  | n + 1, i =>
    match i.next? with
    | none => i
    | some (t, j) => takeTurns n (j.requeue t)

theorem settle_of_next?_eq_none {i : Instance σ} (h : i.next? = none) : i.settle = i := by
  rw [settle.eq_def]
  split
  · rfl
  next h' => rw [h] at h'; cases h'

theorem settle_of_next? {i j : Instance σ} {t : Nat} (h : i.next? = some (t, j)) :
    i.settle = (j.requeue t).settle := by
  rw [settle.eq_def]
  split
  next h' => rw [h] at h'; cases h'
  next h' => rw [h] at h'; cases h'; rfl

theorem settle_takeTurns (n : Nat) (i : Instance σ) : (takeTurns n i).settle = i.settle := by
  induction n generalizing i with
  | zero => rfl
  | succ n ih =>
    rw [takeTurns]
    split
    · rfl
    next t j h => rw [ih, settle_of_next? h]

/-- Turns that end where nothing can go on are what settling comes to. -/
theorem settle_eq_takeTurns {n : Nat} {i : Instance σ} (h : (takeTurns n i).next? = none) :
    i.settle = takeTurns n i := by
  rw [← settle_takeTurns n i, settle_of_next?_eq_none h]

/-- Settling ends where turns in some order end. -/
theorem exists_steps_settle (i : Instance σ) :
    ∃ ts k, i.steps? ts = some k ∧ k.Quiescent ∧ k.SameBesideLine i.settle := by
  obtain ⟨ts, k, hk, hsame⟩ : ∃ ts k, i.steps? ts = some k ∧ k.SameBesideLine i.settle := by
    fun_induction settle i with
    | case1 i h => exact ⟨[], i, rfl, .refl i⟩
    | case2 i t j h ih =>
      obtain ⟨ts, k, hk, hsame⟩ := ih
      obtain ⟨k', hk', hkk'⟩ := (sameBesideLine_requeue j t).symm.steps? hk
      refine ⟨t :: ts, k', ?_, ?_⟩
      · rw [Instance.steps?, step?_of_next? h, Option.bind_some]
        exact hk'
      · exact hkk'.symm.trans hsame
  exact ⟨ts, k, hk, hsame.quiescent (quiescent_settle i), hsame⟩

end PluginKernel.Instance
