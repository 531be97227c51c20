import PluginKernel.Instance.Listen
import PluginKernel.Instance.Serve
import PluginKernel.Instance.Start
import PluginKernel.Instance.Stop
import PluginKernel.Instance.Telemetry

/-!
# Steps of an attached plugin

An attached plugin is a state and the tasks that work on it. A step is one turn of one task. Which
task takes the next turn is left open here: whatever holds after all steps holds for every way of
taking turns.
-/

namespace PluginKernel

variable {σ : Type}

/-- What a task does next; nothing while it waits. A task that it sets off gets the number
`fresh`. -/
def Task.step? [RecordStore σ] (setup : Setup) (t fresh : Nat) (s : PluginState σ) :
    Task → Option (Move σ)
  | call tr => some ⟨{ s with lock := s.lock.ask t }, .await tr, none⟩
  | await tr => if s.lock.holder = some t then some ⟨s, .ofTransition tr, none⟩ else none
  | start x => x.step? setup t s
  | stop x => (x.step? setup t s).map fun (s, x) => ⟨s, .stop x, none⟩
  | serve x => (x.step? t s).map fun (s, x) => ⟨s, .serve x, none⟩
  | report x => (x.step? setup t s).map fun (s, x) => ⟨s, .report x, none⟩
  | listen x => x.step? t fresh s
  | keeper x => (x.step? setup s).map fun (s, x) => ⟨s, .keeper x, none⟩
  | courier x => (x.step? t s).map fun (s, x) => ⟨s, .courier x, none⟩

/-- An attached plugin. -/
structure Instance (σ : Type) where
  /-- What never changes. -/
  setup : Setup
  /-- What the tasks share. -/
  state : PluginState σ
  /-- The tasks, by number. -/
  tasks : List Task
  /-- The numbers of the tasks in the order in which they wait for their turns. -/
  line : List Nat
  /-- Every task is in line. -/
  mem_line : ∀ t, t < tasks.length → t ∈ line

namespace Instance

/-- Set off a task. -/
def spawn (i : Instance σ) (task : Task) : Instance σ where
  setup := i.setup
  state := i.state
  tasks := i.tasks ++ [task]
  line := i.line ++ [i.tasks.length]
  mem_line t ht := by
    rw [List.length_append, List.length_singleton] at ht
    rcases Nat.lt_succ_iff_lt_or_eq.1 ht with h | rfl
    · exact List.mem_append_left _ (i.mem_line t h)
    · simp

/-- Let a task do what a move says. -/
def move (i : Instance σ) (t : Nat) (m : Move σ) : Instance σ :=
  let moved : Instance σ :=
    { i with
      state := m.state
      tasks := i.tasks.set t m.next
      mem_line := fun t ht => i.mem_line t (by simpa using ht) }
  match m.spawned with
  | none => moved
  | some task => moved.spawn task

variable [RecordStore σ]

/-- The plugin after a turn of a task; nothing if the task has to wait. -/
def step? (i : Instance σ) (t : Nat) : Option (Instance σ) :=
  match i.tasks[t]? with
  | none => none
  | some task => (task.step? i.setup t i.tasks.length i.state).map (i.move t)

/-- Whether a task can take a turn. -/
def canStep (i : Instance σ) (t : Nat) : Bool := (i.step? t).isSome

/-- Some task takes a turn. -/
def Step (i j : Instance σ) : Prop := ∃ t, i.step? t = some j

/-- No task can take a turn. -/
def Quiescent (i : Instance σ) : Prop := ∀ t, i.step? t = none

/-- The plugin after turns of some tasks, one after the other; nothing if one of them has to
wait. -/
def steps? (i : Instance σ) : List Nat → Option (Instance σ)
  | [] => some i
  | t :: rest => (i.step? t).bind (steps? · rest)

end Instance

end PluginKernel
