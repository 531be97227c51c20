import PluginKernel.Instance.Work

/-!
# Taking turns until nothing can go on

Between two actions of the host the tasks take turns until all of them wait. A task goes on as long
as it can; then the next in line that can go on has its turn, and the first goes to the end of the
line. Since every step leaves less to do, this comes to an end, and then the plugin is quiescent.
-/

namespace PluginKernel.Instance

variable {σ : Type} [RecordStore σ]

/-- Put a task in front of the line. -/
def putFirst (i : Instance σ) (t : Nat) : Instance σ where
  setup := i.setup
  state := i.state
  tasks := i.tasks
  line := t :: i.line.erase t
  mem_line u hu := by
    by_cases h : u = t
    · simp [h]
    · exact List.mem_cons_of_mem _ ((List.mem_erase_of_ne h).2 (i.mem_line u hu))

/-- Put a task at the end of the line. -/
def putLast (i : Instance σ) (t : Nat) : Instance σ where
  setup := i.setup
  state := i.state
  tasks := i.tasks
  line := i.line.erase t ++ [t]
  mem_line u hu := by
    by_cases h : u = t
    · simp [h]
    · exact List.mem_append_left _ ((List.mem_erase_of_ne h).2 (i.mem_line u hu))

/-- Give a task that has had a turn its new place in line. -/
def requeue (i : Instance σ) (t : Nat) : Instance σ :=
  if i.canStep t then i.putFirst t else i.putLast t

/-- The next turn: who takes it, and the plugin afterwards. -/
def next? (i : Instance σ) : Option (Nat × Instance σ) :=
  i.line.findSome? fun t => (i.step? t).map (t, ·)

theorem step?_of_next? {i j : Instance σ} {t : Nat} (h : i.next? = some (t, j)) :
    i.step? t = some j := by
  obtain ⟨u, -, hu⟩ := List.exists_of_findSome?_eq_some h
  simp only [Option.map_eq_some_iff, Prod.mk.injEq] at hu
  obtain ⟨k, hk, rfl, rfl⟩ := hu
  exact hk

theorem quiescent_of_next?_eq_none {i : Instance σ} (h : i.next? = none) : i.Quiescent := by
  intro t
  by_cases ht : t < i.tasks.length
  · simpa using List.findSome?_eq_none_iff.1 h t (i.mem_line t ht)
  · simp [step?, List.getElem?_eq_none (Nat.le_of_not_lt ht)]

theorem work_requeue (i : Instance σ) (t : Nat) :
    ((i.requeue t).work, (i.requeue t).load) = (i.work, i.load) := by
  unfold requeue
  split <;> rfl

/-- The plugin after turns until nothing can go on. -/
def settle (i : Instance σ) : Instance σ :=
  match _h : i.next? with
  | none => i
  | some (t, j) => (j.requeue t).settle
termination_by (i.work, i.load)
decreasing_by
  rw [work_requeue]
  exact step?_lt (step?_of_next? _h)

/-- Once turns have been taken until nothing can go on, nothing can go on. -/
theorem quiescent_settle (i : Instance σ) : i.settle.Quiescent := by
  fun_induction settle i with
  | case1 i h => exact quiescent_of_next?_eq_none h
  | case2 i t j h ih => exact ih

end PluginKernel.Instance
