import PluginKernel.Proofs.Instance.Coherence
import PluginKernel.Proofs.Instance.Resemblance
import PluginKernel.Proofs.Instance.Settling
import PluginKernel.Proofs.Instance.StartChecks
import PluginKernel.Proofs.Instance.Waiting

/-!
# A start that fails leaves nothing behind but its error

A start that finds no place to listen on has changed the phase and the lock, and it puts both back
before it reports the error. There is no ledger then that the error could be charged to, so all
that is left of the start is the error among those for the host. `LeavesOnly` says this of the
state, and of everything that can come later: the plugin behaves as if its host had reported the
error itself, and once the host has read all errors, or if it takes none, as if nothing had
happened.

Until it is read the error takes a place in a queue that is bounded, and a later error may have to
wait for it; so the plugin cannot behave as if nothing had happened at once.
-/

namespace PluginKernel

variable {σ : Type}

/-! ## Reporting while there is no ledger -/

namespace Queue

/-- A message that is sent to an empty queue is the next one, and the queue is empty without it. -/
theorem next?_post {α : Type} {q : Queue α} (hsender : q.hasSender = true)
    (hreceiver : q.hasReceiver = true) (hroom : q.hasRoom = true) (hempty : q.contents = [])
    (x : α) : (q.post x).next? = some (x, q) := by
  obtain ⟨hbuffer, hwaiting⟩ : q.buffer = [] ∧ q.waiting = [] := by
    simpa [contents] using hempty
  have hpost : q.post x = { q with buffer := [x] } := by
    simp [post, offer, push, hsender, hreceiver, hroom, hbuffer]
  rw [hpost, next?]
  cases q
  simp_all [take]

variable {q : Queue PluginError} {t : Nat} {e : PluginError}

/-- What becomes of the errors for a host when one more is reported, and what of its report. -/
def handOver (q : Queue PluginError) (t : Nat) (e : PluginError) :
    Queue PluginError × ReportTask :=
  match q.send t e with
  | .sent q' => (q', .done)
  | .waits q' => (q', .wait e)
  | .refused => (q, .done)

theorem handOver_of_closed (h : q.hasReceiver = false) : q.handOver t e = (q, .done) := by
  simp [handOver, send, h]

theorem accepts_handOver (h : q.hasReceiver = true) : q.Accepts t e (q.handOver t e).1 := by
  unfold handOver
  cases hs : q.send t e with
  | sent q' => exact .inl hs
  | waits q' => exact .inr hs
  | refused => simp [send, h] at hs; split at hs <;> cases hs

theorem handOver_spent : (q.handOver t e).2 = .done ∨ (q.handOver t e).2 = .wait e := by
  unfold handOver
  split
  · exact .inl rfl
  · exact .inr rfl
  · exact .inl rfl

end Queue

namespace PluginState

/-- Nothing is up and no transition is under way. -/
structure Idle (s : PluginState σ) : Prop where
  lock : s.lock = .free
  phase : s.phase = .idle
  server : s.server = none
  ledger : s.ledger = none

/-- The state while a task holds the lock and nobody is in line for it. -/
def lockedBy (s : PluginState σ) (t : Nat) : PluginState σ := { s with lock := ⟨some t, []⟩ }

/-- The state after a task has reported an error and something was logged. -/
def reported (s : PluginState σ) (t : Nat) (e : PluginError) (events : List LogEvent) :
    PluginState σ :=
  { s with errors := (s.errors.handOver t e).1, log := s.log ++ events }

namespace Hushed

variable {n : Nat} {s s₁ : PluginState σ}

/-- Phase, lock and log are nothing that others wait for, unless the lock comes to them. -/
theorem aside (h : s.Hushed n s₁) (phase : Phase) {lock : Lock} (log : List LogEvent)
    (hlock : ∀ t, lock.holder = some t → t = n) :
    s.Hushed n { s₁ with phase := phase, lock := lock, log := log } :=
  ⟨h.acks, h.dataflow, h.errors, h.listeners, h.outbox, h.pending, hlock⟩

/-- The lock is nothing that others wait for unless it comes to them, and commands do not count. -/
theorem ofLock (hs : s₁ = { s with lock := s₁.lock, commands := s₁.commands })
    (hlock : ∀ t, s₁.lock.holder = some t → t = n) : s.Hushed n s₁ := by
  rw [hs]
  exact ⟨rfl, rfl, .inl rfl, rfl, rfl, rfl, hlock⟩

theorem lockedBy (s : PluginState σ) (t : Nat) : s.Hushed t (s.lockedBy t) :=
  .ofLock rfl fun _ hu => (Option.some.inj hu).symm

theorem ofIdle (h : s.Idle) (t : Nat) : s.Hushed t s :=
  .ofLock rfl fun _ hu => by rw [h.lock] at hu; cases hu

/-- An error that one task has sent does not help those who wait. -/
theorem reported (h : s.Idle) (t : Nat) (e : PluginError) (events : List LogEvent) :
    s.Hushed t (s.reported t e events) := by
  refine ⟨rfl, rfl, ?_, rfl, rfl, rfl, (ofIdle h t).lock⟩
  cases hr : s.errors.hasReceiver with
  | false => exact .inl (by rw [PluginState.reported, Queue.handOver_of_closed hr])
  | true => exact .inr ⟨e, Queue.accepts_handOver hr⟩

end Hushed

end PluginState

/-- A report that has handed its error over has nothing left to do, or waits in line. -/
theorem ReportTask.step?_reported (setup : Setup) (t : Nat) (s : PluginState σ) (e : PluginError)
    (events : List LogEvent) :
    (s.errors.handOver t e).2.step? setup t (s.reported t e events) = none := by
  unfold PluginState.reported Queue.handOver
  cases hs : s.errors.send t e with
  | sent q' => rfl
  | refused => rfl
  | waits q' =>
    have hq : q'.resume? t = none := by
      obtain ⟨hr, hq'⟩ := Queue.accepts_iff.1 (.inr hs : s.errors.Accepts t e q')
      have hfull : s.errors.hasRoom = false := by
        cases hroom : s.errors.hasRoom with
        | false => rfl
        | true => simp [Queue.send, hr, hroom] at hs
      rw [hq', hfull]
      exact Queue.resume?_eq_none_iff.2 ⟨by simp [Queue.isWaiting], hr⟩
    simp only [step?, hq]

namespace Instance

variable {i j : Instance σ} {s : PluginState σ}

/-- A report while there is no ledger. The task is a report of its own or the end of a start. -/
theorem goesOn_report [RecordStore σ] {w : ReportTask → Task}
    (hw : ∀ (r : ReportTask) (s : PluginState σ),
      (w r).step? i.setup i.tasks.length (i.tasks.length + 1) s =
        (r.step? i.setup i.tasks.length s).map fun p => ⟨p.1, w p.2, none⟩)
    (hushed : i.state.Hushed i.tasks.length s) (hc : s.commands = i.state.commands)
    (hledger : s.ledger = none) (e : PluginError) :
    ∃ events, i.GoesOn s (w (.check e))
      (s.reported i.tasks.length e events) (w (s.errors.handOver i.tasks.length e).2) := by
  cases hr : s.errors.hasReceiver with
  | false =>
    have hcheck : (w (.check e)).step? i.setup i.tasks.length (i.tasks.length + 1) s =
        some ⟨s.logged [.warn "error channel closed, dropping error" [("error", e.message)]],
          w .done, none⟩ := by
      rw [hw]
      simp [ReportTask.step?, hr]
    refine ⟨[.warn "error channel closed, dropping error" [("error", e.message)]], ?_⟩
    rw [PluginState.reported, Queue.handOver_of_closed hr]
    exact .turn hcheck hushed hc .refl
  | true =>
    refine ⟨[], ?_⟩
    have hcheck : (w (.check e)).step? i.setup i.tasks.length (i.tasks.length + 1) s =
        some ⟨s, w (.record e), none⟩ := by
      rw [hw]
      simp [ReportTask.step?, hr]
    have hrecord : (w (.record e)).step? i.setup i.tasks.length (i.tasks.length + 1) s =
        some ⟨s, w (.send e), none⟩ := by
      rw [hw]
      simp [ReportTask.step?, hledger]
    refine .turn hcheck hushed hc (.turn hrecord hushed hc (.turn ?_ hushed hc .refl))
    rw [hw]
    obtain ⟨q', hq'⟩ | ⟨q', hq'⟩ : (∃ q', s.errors.send i.tasks.length e = .sent q') ∨
        ∃ q', s.errors.send i.tasks.length e = .waits q' :=
      (Queue.accepts_handOver hr).imp (⟨_, ·⟩) (⟨_, ·⟩)
    all_goals simp [ReportTask.step?, PluginState.reported, Queue.handOver, hq']

/-- A start that holds the lock and finds no place to listen on puts phase and lock back before it
reports the error. -/
theorem goesOn_failing [RecordStore σ] (hidle : j.state.Idle) {e : PluginError}
    (hfail : j.setup.bind j.state.heldEndpoints = .error e) (plugin : String) :
    ∃ events, j.GoesOn (j.state.lockedBy j.tasks.length) (.start (.enter plugin))
      (j.state.reported j.tasks.length e events)
      (.start (.report (j.state.errors.handOver j.tasks.length e).2)) := by
  let warned : LogEvent := .warn "failed to start server" [("plugin", plugin), ("error", e.message)]
  let s : PluginState σ := j.state.lockedBy j.tasks.length
  let s₁ : PluginState σ := { s with phase := .starting }
  let s₂ : PluginState σ := s₁.logged j.setup.bindEvents
  let s₃ : PluginState σ := { s₂ with phase := .idle }
  let s₄ : PluginState σ := j.state.logged (j.setup.bindEvents ++ [warned])
  have henter : StartTask.step? j.setup j.tasks.length s (.enter plugin) =
      some ⟨s₁, .start (.bind plugin), none⟩ := by
    have : s.server = none := hidle.server
    simp only [StartTask.step?, this, s₁]
  have hbind : StartTask.step? j.setup j.tasks.length s₁ (.bind plugin) =
      some ⟨s₂, .start (.fail plugin e), none⟩ := by
    have : j.setup.bind (s₁.logged j.setup.bindEvents).heldEndpoints = .error e := hfail
    simp only [StartTask.step?, this, s₂]
  have hback : (s₃.logged [warned]).unlock = s₄ := by
    simp only [PluginState.unlock, PluginState.logged, PluginState.lockedBy, s, s₁, s₂, s₃, s₄,
      List.append_assoc]
    rw [← hidle.phase, show (Lock.release ⟨some j.tasks.length, []⟩) = j.state.lock from
      hidle.lock.symm]
  have hgiveUp : StartTask.step? j.setup j.tasks.length s₃ (.giveUp plugin e) =
      some ⟨s₄, .start (.report (.check e)), none⟩ := by
    rw [← hback]
    rfl
  have hushed : j.state.Hushed j.tasks.length s := .lockedBy _ _
  have hushed₁ : j.state.Hushed j.tasks.length s₁ := hushed.aside .starting s.log hushed.lock
  have hushed₂ : j.state.Hushed j.tasks.length s₂ := hushed.aside .starting s₂.log hushed.lock
  have hushed₃ : j.state.Hushed j.tasks.length s₃ := hushed.aside .idle s₂.log hushed.lock
  have hushed₄ : j.state.Hushed j.tasks.length s₄ :=
    (PluginState.Hushed.ofIdle hidle _).aside j.state.phase s₄.log
      (PluginState.Hushed.ofIdle hidle _).lock
  obtain ⟨events, hreport⟩ := goesOn_report (i := j) (w := fun r => .start (.report r))
    (fun _ _ => rfl) hushed₄ rfl hidle.ledger e
  refine ⟨j.setup.bindEvents ++ [warned] ++ events, .turn henter hushed rfl (.turn hbind hushed₁ rfl
    (.turn rfl hushed₂ rfl (.turn hgiveUp hushed₃ rfl ?_)))⟩
  rw [PluginState.reported, ← List.append_assoc]
  exact hreport

/-! ## How a start is asked for -/

/-- A start is asked for: by a direct call, or by a command that the plugin is waiting for. -/
inductive StartsBy (j : Instance σ) (plugin : String) : HostAction → Prop where
  | call : StartsBy j plugin (.call (.start plugin))
  /-- Commands are listened to, none is on its way and one more can be sent. -/
  | command {l : Nat} (hl : j.tasks[l]? = some (.listen .receive))
      (hopen : j.state.commands.hasSender = true ∧ j.state.commands.hasReceiver = true)
      (hroom : j.state.commands.hasRoom = true) (hempty : j.state.commands.contents = []) :
      StartsBy j plugin (.command ⟨plugin, .start⟩)

/-- A start that is called for directly gets the lock if that is free. -/
theorem goesOn_call [RecordStore σ] (hidle : j.state.Idle) (plugin : String) :
    j.GoesOn j.state (.call (.start plugin))
      (j.state.lockedBy j.tasks.length) (.start (.enter plugin)) := by
  have hcall : (Task.call (.start plugin)).step? j.setup j.tasks.length (j.tasks.length + 1)
      j.state = some ⟨j.state.lockedBy j.tasks.length, .await (.start plugin), none⟩ := by
    rw [Task.step?, hidle.lock]
    rfl
  have hawait : (Task.await (.start plugin)).step? j.setup j.tasks.length (j.tasks.length + 1)
      (j.state.lockedBy j.tasks.length) =
        some ⟨j.state.lockedBy j.tasks.length, .start (.enter plugin), none⟩ := by
    simp [Task.step?, Task.ofTransition, PluginState.lockedBy]
  exact .turn hcall (.ofIdle hidle _) rfl (.turn hawait (.lockedBy _ _) rfl .refl)

theorem move_move (j : Instance σ) (t : Nat) (s : PluginState σ) (x : Task) (m : Move σ) :
    (j.move t ⟨s, x, none⟩).move t m = j.move t m := by
  unfold move
  cases m.spawned <;> simp [spawn]

/-- A start that is commanded is handed the lock if that is free: the listener takes the command,
asks for the lock and sets the start off. -/
theorem step?_command [RecordStore σ] {plugin : String} {l : Nat}
    (hl : j.tasks[l]? = some (.listen .receive))
    (hopen : j.state.commands.hasSender = true ∧ j.state.commands.hasReceiver = true)
    (hroom : j.state.commands.hasRoom = true) (hempty : j.state.commands.contents = [])
    (hidle : j.state.Idle) :
    (j.act (.command ⟨plugin, .start⟩)).step? l =
        some (j.move l ⟨j.state, .listen (.ask (.start plugin)), none⟩) ∧
      (j.move l ⟨j.state, .listen (.ask (.start plugin)), none⟩).step? l =
        some (j.move l ⟨j.state.lockedBy l, .listen (.await (.start plugin)), none⟩) ∧
      (j.move l ⟨j.state.lockedBy l, .listen (.await (.start plugin)), none⟩).step? l =
        some (j.join (j.state.lockedBy j.tasks.length) (.start (.enter plugin))) := by
  have ht : l < j.tasks.length := (List.getElem?_eq_some_iff.1 hl).1
  refine ⟨?_, ?_, ?_⟩
  · have hnext := Queue.next?_post hopen.1 hopen.2 hroom hempty ⟨plugin, .start⟩
    have hreceive : (Task.listen .receive).step? j.setup l j.tasks.length
        (j.state.act (.command ⟨plugin, .start⟩)) =
          some ⟨j.state, .listen (.ask (.start plugin)), none⟩ := by
      simp only [Task.step?, ListenTask.step?, PluginState.act, hnext]
    have hstep := step?_of_getElem?
      (i := { j with state := j.state.act (.command ⟨plugin, .start⟩) }) hl
    rw [hreceive] at hstep
    exact hstep
  · let c₁ := j.move l ⟨j.state, .listen (.ask (.start plugin)), none⟩
    have hask : (Task.listen (.ask (.start plugin))).step? j.setup l c₁.tasks.length j.state =
        some ⟨j.state.lockedBy l, .listen (.await (.start plugin)), none⟩ := by
      simp [Task.step?, ListenTask.step?, hidle.lock, Lock.ask, Lock.free, PluginState.lockedBy]
    have hx : c₁.tasks[l]? = some (.listen (.ask (.start plugin))) := by
      rw [getElem?_tasks_move ht, if_pos rfl]
    have hstep := step?_of_getElem? hx
    rw [show c₁.state = j.state from rfl, show c₁.setup = j.setup from rfl, hask] at hstep
    rw [hstep, Option.map_some, move_move]
  · let c₂ := j.move l ⟨j.state.lockedBy l, .listen (.await (.start plugin)), none⟩
    have hlength : c₂.tasks.length = j.tasks.length := by
      simp [c₂, tasks_move]
    have hawait : (Task.listen (.await (.start plugin))).step? j.setup l j.tasks.length
        (j.state.lockedBy l) =
          some ⟨j.state.lockedBy j.tasks.length, .listen .receive,
            some (.start (.enter plugin))⟩ := by
      simp [Task.step?, ListenTask.step?, Lock.handTo, ListenTask.after, Task.ofTransition,
        PluginState.lockedBy]
    have hx : c₂.tasks[l]? = some (.listen (.await (.start plugin))) := by
      rw [getElem?_tasks_move ht, if_pos rfl]
    have hstep := step?_of_getElem? hx
    rw [hlength, show c₂.state = j.state.lockedBy l from rfl, show c₂.setup = j.setup from rfl,
      hawait] at hstep
    rw [hstep, Option.map_some, move_move]
    -- the listener is where it was
    have hset : j.tasks.set l (.listen .receive) = j.tasks := by
      obtain ⟨hlt, hget⟩ := List.getElem?_eq_some_iff.1 hl
      rw [← hget]
      exact List.set_getElem_self hlt
    simp [move, join, spawn, hset]

/-- Whichever way a start is asked for in an idle plugin, it comes to hold the lock. -/
theorem StartsBy.steps [RecordStore σ] {plugin : String} {a : HostAction}
    (ha : j.StartsBy plugin a) (hidle : j.state.Idle) :
    ∃ ts, (j.act a).steps? ts =
      some (j.join (j.state.lockedBy j.tasks.length) (.start (.enter plugin))) := by
  cases ha with
  | call =>
    obtain ⟨m, hm⟩ := (goesOn_call hidle plugin).steps
    exact ⟨_, hm⟩
  | @command l hl hopen hroom hempty =>
    obtain ⟨h₁, h₂, h₃⟩ := step?_command hl hopen hroom hempty hidle
    refine ⟨[l, l, l], ?_⟩
    rw [steps?, h₁, Option.bind_some, steps?, h₂, Option.bind_some, steps?, h₃]
    rfl

/-- Where nothing else can go on, there is one way in which it comes to that. -/
theorem StartsBy.oneWay [RecordStore σ] {plugin : String} {a : HostAction}
    (ha : j.StartsBy plugin a) (hidle : j.state.Idle) (hq : j.Quiescent)
    (hlistener : ∀ t y, j.tasks[t]? = some (.listen y) → t = 2) {k : Instance σ}
    (rest : OneWay (j.join (j.state.lockedBy j.tasks.length) (.start (.enter plugin))) k) :
    OneWay (j.act a) k := by
  cases ha with
  | call => exact (goesOn_call hidle plugin).oneWay hq rest
  | @command l hl hopen hroom hempty =>
    obtain ⟨h₁, h₂, h₃⟩ := step?_command hl hopen hroom hempty hidle
    have ht : l < j.tasks.length := (List.getElem?_eq_some_iff.1 hl).1
    have hl2 : l = 2 := hlistener l _ hl
    -- the command is nothing to those who do not listen
    have hothers : ∀ c : Instance σ, c.setup = j.setup → (∀ u, u ≠ l → c.tasks[u]? = j.tasks[u]?) →
        j.state.Hushed l c.state → ∀ u, u ≠ l → c.step? u = none := by
      intro c hsetup htasks hushed u hu
      refine step?_eq_none_of_hushed hq hsetup (htasks u hu) hushed hu (.inr fun y hy => ?_)
      exact hu ((hlistener u y hy).trans hl2.symm)
    have hmoved : ∀ (s : PluginState σ) (x : Task) (u : Nat), u ≠ l →
        (j.move l ⟨s, x, none⟩).tasks[u]? = j.tasks[u]? := by
      intro s x u hu
      rw [getElem?_tasks_move ht, if_neg hu]
      split
      next hl => rw [hl, List.getElem?_eq_none (Nat.le_refl _)]
      · rfl
    have hsent : j.state.Hushed l (j.state.act (.command ⟨plugin, .start⟩)) :=
      .ofLock rfl (PluginState.Hushed.ofIdle hidle l).lock
    exact .turn h₁ (hothers _ rfl (fun _ _ => rfl) hsent)
      (.turn h₂ (hothers _ rfl (hmoved _ _) (.ofIdle hidle l))
        (.turn h₃ (hothers _ rfl (hmoved _ _) (.lockedBy _ l)) rest))

/-! ## What a start that has failed leaves behind -/

/-- The plugin after its host has read errors, some number of times and up to some number each
time. -/
def readErrors (i : Instance σ) (ns : List Nat) : Instance σ :=
  ns.foldl (fun i n => i.act (.readErrors n)) i

/-- What a plugin in which a start has failed with an error has in common with the plugin before. -/
structure LeavesOnly [RecordStore σ] (j : Instance σ) (e : PluginError) (k : Instance σ) :
    Prop where
  /-- The start has nothing left to do, but perhaps to notice that its error has been taken. -/
  finished : ∃ x, k.tasks = j.tasks ++ [x] ∧ x.IsSpent
  /-- Nothing has changed in the state but the errors for the host and the log. -/
  state : k.state = { j.state with errors := k.state.errors, log := k.state.log }
  /-- If the host takes errors, the error has been sent, and no other. -/
  sent : j.state.errors.hasReceiver = true →
    k.state.errors.contents = j.state.errors.contents ++ [e]
  /-- If the host takes no errors, none has been sent. -/
  unsent : j.state.errors.hasReceiver = false → k.state.errors = j.state.errors
  /-- Whatever comes later, the plugin behaves as if its host had reported the error itself. -/
  asReported : ∃ ts l, (j.act (.report e)).steps? ts = some l ∧ BehavesLike l k
  /-- If the host takes no errors, or has read all that there are, the plugin behaves from then on
  as if nothing had happened. -/
  asUntouched : ∀ ns : List Nat,
    j.state.errors.hasReceiver = false ∨ (k.readErrors ns).state.errors.contents = [] →
      BehavesLike (j.readErrors ns) (k.readErrors ns)

theorem readErrors_eq (i : Instance σ) (ns : List Nat) :
    i.readErrors ns =
      { i with state := { i.state with errors := ns.foldl Queue.read i.state.errors } } := by
  induction ns generalizing i with
  | nil => rfl
  | cons n rest ih => exact ih (i.act (.readErrors n))

/-- It makes no difference whether one more task reports an error for itself or ends a start. -/
theorem alike_join {s' : PluginState σ} {x y : Task} (hs : s' = { s with log := s'.log })
    (hxy : y.bare = x.bare) : Alike id s.log s'.log (i.join s x) (i.join s' y) where
  setup := rfl
  injective := Function.injective_id
  fresh d := by rw [length_join, length_join]; rfl
  tasks t := by
    rw [id, getElem?_tasks_join, getElem?_tasks_join]
    split
    · simp [hxy]
    · rfl
  spent u _ _ hu := absurd rfl (hu u)
  state := by
    refine ⟨{ s with log := [] }, ?_, ?_⟩
    all_goals rw [PluginState.recast_id, List.append_nil]
    · rfl
    · exact hs

/-- The numbers of a plugin with one more task: those of later tasks are higher by one. -/
def shift (n t : Nat) : Nat := if t < n then t else t + 1

theorem shift_injective (n : Nat) : (shift n).Injective := by
  intro t u h
  unfold shift at h
  split at h <;> split at h <;> omega

/-- One more task that has nothing left to do makes no difference. -/
theorem alike_further (h : i.Numbered) (c : List LogEvent) {x : Task} (hx : x.IsSpent) :
    Alike (shift i.tasks.length) i.state.log c i (i.join { i.state with log := c } x) where
  setup := rfl
  injective := shift_injective _
  fresh d := by
    rw [length_join, shift, if_neg (by omega)]
    omega
  tasks t := by
    rw [getElem?_tasks_join]
    by_cases ht : t < i.tasks.length
    · rw [shift, if_pos ht, if_neg (by omega)]
    · rw [shift, if_neg ht, if_neg (by omega), List.getElem?_eq_none (by omega),
        List.getElem?_eq_none (by omega)]
  spent u y hy hu := by
    rw [getElem?_tasks_join] at hy
    split at hy
    · cases hy
      exact hx
    next hne =>
      have hlt := (List.getElem?_eq_some_iff.1 hy).1
      exact absurd (by rw [shift, if_pos hlt]) (hu u)
  state := by
    have hnumbers : i.state.recast (shift i.tasks.length) [] = i.state :=
      h _ (shift_injective _) fun t ht => by rw [shift, if_pos ht]
    refine ⟨{ i.state with log := [] }, ?_, ?_⟩
    · rw [PluginState.recast_id, List.append_nil]
    · show _ = ({ i.state.recast (shift i.tasks.length) [] with log := c ++ [] } : PluginState σ)
      rw [hnumbers, List.append_nil]
      rfl

/-- Errors read from a queue and from the same queue with one more error: if the longer one is empty
then, so is the other. -/
theorem foldl_read_eq {q q' : Queue PluginError} (h : q.Behind q') {ns : List Nat}
    (hempty : (ns.foldl Queue.read q').contents = []) :
    ns.foldl Queue.read q' = ns.foldl Queue.read q := by
  have hbehind : ∀ (ns : List Nat) {q q' : Queue PluginError}, q.Behind q' →
      (ns.foldl Queue.read q).Behind (ns.foldl Queue.read q') := by
    intro ns
    induction ns with
    | nil => exact fun h => h
    | cons n rest ih => exact fun h => ih (h.read n)
  exact ((hbehind ns h).eq_of_contents_eq_nil hempty).symm

theorem Reachable.readErrors [RecordStore σ] (h : i.Reachable j) (ns : List Nat) :
    i.Reachable (j.readErrors ns) := by
  induction ns generalizing j with
  | nil => exact h
  | cons n rest ih => exact ih (h.act (.readErrors n))

/-- What is left of a start once it has given up: one more task, and the error it hands over. -/
theorem leavesOnly_join [RecordStore σ] (hnumbered : ∀ ns, (j.readErrors ns).Numbered)
    (htight : j.state.errors.Tight) (hidle : j.state.Idle) (e : PluginError)
    (events : List LogEvent) :
    LeavesOnly j e (j.join (j.state.reported j.tasks.length e events)
      (.start (.report (j.state.errors.handOver j.tasks.length e).2))) := by
  have hspent : (Task.start (.report (j.state.errors.handOver j.tasks.length e).2)).IsSpent := by
    rcases Queue.handOver_spent (q := j.state.errors) (t := j.tasks.length) (e := e) with hr | hr
    · rw [hr]; exact .inl rfl
    · rw [hr]; exact .inr ⟨e, rfl⟩
  refine ⟨⟨_, rfl, hspent⟩, rfl, fun hopen => ?_, fun hclosed => ?_, ?_, fun ns hns => ?_⟩
  · exact htight.contents_accepts (Queue.accepts_handOver hopen)
  · show (j.state.errors.handOver j.tasks.length e).1 = _
    rw [Queue.handOver_of_closed hclosed]
  · obtain ⟨events', hreport⟩ := goesOn_report (w := .report) (fun _ _ => rfl)
      (PluginState.Hushed.ofIdle hidle _) rfl hidle.ledger e
    obtain ⟨m, hm⟩ := hreport.steps
    have hbare (r : ReportTask) : (Task.start (.report r)).bare = (Task.report r).bare := rfl
    exact ⟨_, _, hm, (alike_join rfl (hbare _)).behavesLike⟩
  · -- what has been read from the longer queue leaves the same as what has been read from the other
    have hread : ns.foldl Queue.read (j.state.errors.handOver j.tasks.length e).1 =
        ns.foldl Queue.read j.state.errors := by
      cases hr : j.state.errors.hasReceiver with
      | false => rw [Queue.handOver_of_closed hr]
      | true =>
        rcases hns with hclosed | hempty
        · rw [hclosed] at hr; cases hr
        · rw [readErrors_eq] at hempty
          exact foldl_read_eq (Queue.behind_accepts (Queue.accepts_handOver hr)) hempty
    have hjoin : (j.join (j.state.reported j.tasks.length e events)
        (.start (.report (j.state.errors.handOver j.tasks.length e).2))).readErrors ns =
      (j.readErrors ns).join { (j.readErrors ns).state with log := j.state.log ++ events }
        (.start (.report (j.state.errors.handOver j.tasks.length e).2)) := by
      rw [readErrors_eq, readErrors_eq]
      show _ = j.join { j.state with
        errors := ns.foldl Queue.read j.state.errors
        log := j.state.log ++ events } _
      rw [← hread]
      rfl
    rw [hjoin]
    exact (alike_further (hnumbered ns) (j.state.log ++ events) hspent).behavesLike

theorem idle_of_reachable [RecordStore σ] (hi : i.Fresh) (hj : i.Reachable j)
    (hidle : j.state.phase = .idle) (hunlocked : j.state.lock.isHeld = false) : j.state.Idle := by
  have hholder : j.state.lock.holder = none := by simpa [Lock.isHeld] using hunlocked
  have hline := (lockOrderly_of_reachable hi hj).line_of_free hholder
  have hlock : (⟨j.state.lock.holder, j.state.lock.line⟩ : Lock) = .free := by
    rw [hholder, hline]
    rfl
  rcases (up_or_down_of_reachable hi hj).1 hunlocked with hup | ⟨-, hserver, -, hledger⟩
  · rw [hup.1] at hidle
    cases hidle
  · exact ⟨hlock, hidle, hserver, hledger⟩

/-- A plugin was attached and is idle, whatever has happened to it, and no transition is under way.
If a start is asked for and finds no place to listen on, the error is that of the first check that
finds a fault, and its class tells whether the check was about what the host has handed over. The
start leaves nothing behind but this error; and if nothing else could go on in the plugin, it ends
so in whatever order tasks take their turns, and that is also what settling comes to. -/
theorem failed_start_leaves_only_its_error [RecordStore σ] {a : Attachment}
    {platform : Platform} {capacity : Nat} {store : σ}
    (hi : attach a platform capacity store = .ok i) (hj : i.Reachable j)
    (hidle : j.state.phase = .idle) (hunlocked : j.state.lock.isHeld = false)
    {plugin : String} {x : HostAction} (hx : j.StartsBy plugin x)
    {e : PluginError} (hfail : j.setup.bind j.state.heldEndpoints = .error e) :
    (∃ passed c rest, StartCheck.all = passed ++ c :: rest ∧
        (∀ d ∈ passed, d.fault? j.setup j.state.heldEndpoints = none) ∧
        c.fault? j.setup j.state.heldEndpoints = some e ∧
        e.blamesConfiguration = c.isConfiguration ∧ e.blamesTransport = !c.isConfiguration) ∧
      ∃ ts k, (j.act x).steps? ts = some k ∧ LeavesOnly j e k ∧
        (j.Quiescent → k.Quiescent ∧
          (∀ us k', (j.act x).steps? us = some k' → k'.Quiescent → k' = k) ∧
          k.SameBesideLine (j.act x).settle) := by
  have hfresh : i.Fresh := fresh_of_attach hi
  have hdown : j.state.Idle := idle_of_reachable hfresh hj hidle hunlocked
  constructor
  · obtain ⟨passed, c, rest, hall, hc, hpassed⟩ :=
      List.findSome?_eq_some_iff.1 (StartCheck.first_fault_iff.2 hfail)
    exact ⟨passed, c, rest, hall, hpassed, hc, StartCheck.class_of_fault hc⟩
  · obtain ⟨events, hgo⟩ := goesOn_failing hdown hfail plugin
    obtain ⟨ts, hts⟩ := hx.steps hdown
    obtain ⟨m, hm⟩ := hgo.steps
    have hleaves := leavesOnly_join
      (fun ns => numbered_of_reachable (numbered_of_attach hi) (hj.readErrors ns))
      (tight_of_reachable (tight_of_attach hi) hj) hdown e events
    refine ⟨_, _, (steps?_append hts _).trans hm, hleaves, fun hq => ?_⟩
    have hend : (Task.start (.report (j.state.errors.handOver j.tasks.length e).2)).step? j.setup
        j.tasks.length (j.tasks.length + 1) (j.state.reported j.tasks.length e events) = none := by
      simp only [Task.step?, StartTask.step?, Option.map_eq_none_iff]
      exact ReportTask.step?_reported _ _ _ _ _
    have hway : OneWay (j.act x) _ := hx.oneWay hdown hq (listener_of_reachable hfresh hj)
      (hgo.oneWay hq (.rest (quiescent_join hq (.reported hdown _ e events) rfl hend)))
    obtain ⟨us, l, hus, hl, hsame⟩ := exists_steps_settle (j.act x)
    rw [hway.eq_of_steps hus hl] at hsame
    exact ⟨hway.quiescent, fun us k' hus hk' => hway.eq_of_steps hus hk', hsame⟩

/-- A plugin that is given a port and no certificate. -/
def withoutCertificate : Attachment where
  plugin := "p1"
  bag := Bag.putConfig [(Bag.channelsEntry, .channels Channels.all)]
    (.members [(SharedConfig.portMember, .int 8443)])

theorem bind_withoutCertificate {i : Instance Store.Tree}
    (hi : attach withoutCertificate .illiterate 1 .empty = .ok i) :
    i.setup.bind i.state.heldEndpoints = .error (.config .missingCert) := by
  have hbind : (attach withoutCertificate .illiterate 1 Store.Tree.empty).map
      (fun i => i.setup.bind i.state.heldEndpoints) = .ok (.error (.config .missingCert)) := by
    with_unfolding_all rfl
  rw [hi] at hbind
  exact Except.ok.inj hbind

/-- A start of a plugin that has just been attached, without a certificate. -/
theorem failed_start_without_certificate : ∃ i : Instance Store.Tree,
    attach withoutCertificate .illiterate 1 .empty = .ok i ∧
      ∃ ts k, (i.act (.call (.start "p1"))).steps? ts = some k ∧
        LeavesOnly i (.config .missingCert) k := by
  obtain ⟨i, hi⟩ : ∃ i : Instance Store.Tree,
      attach withoutCertificate .illiterate 1 .empty = .ok i := ⟨_, rfl⟩
  have hfresh : i.Fresh := fresh_of_attach hi
  have hunlocked : i.state.lock.isHeld = false := by
    rw [hfresh.lock]
    rfl
  obtain ⟨-, ts, k, hk, hleaves, -⟩ := failed_start_leaves_only_its_error hi .refl hfresh.phase
    hunlocked .call (bind_withoutCertificate hi)
  exact ⟨i, hi, ts, k, hk, hleaves⟩

/-- The error of a failed start can get in the way. If the host has not read it and there is room
for one error only, a stop that is commanded cannot be announced; so commands are still listened to,
which they would not be if nothing had failed. -/
theorem failed_start_holds_up_stop : ∃ i : Instance Store.Tree,
    attach withoutCertificate .illiterate 1 .empty = .ok i ∧
      i.setup.bind i.state.heldEndpoints = .error (.config .missingCert) ∧
      (i.settle.play [.command ⟨"p1", .stop⟩]).state.listening = false ∧
      (i.settle.play [.call (.start "p1"), .command ⟨"p1", .stop⟩]).state.listening = true := by
  let start : HostAction := .call (.start "p1")
  let stop : HostAction := .command ⟨"p1", .stop⟩
  let ready (i : Instance Store.Tree) : Instance Store.Tree := takeTurns 1 i
  let stopped (i : Instance Store.Tree) : Instance Store.Tree := takeTurns 11 ((ready i).act stop)
  let failed (i : Instance Store.Tree) : Instance Store.Tree := takeTurns 9 ((ready i).act start)
  let stuck (i : Instance Store.Tree) : Instance Store.Tree := takeTurns 10 ((failed i).act stop)
  have hruns : (attach withoutCertificate .illiterate 1 Store.Tree.empty).toOption.map (fun i =>
      ([ready i, stopped i, failed i, stuck i].map (·.next?.isNone),
        [stopped i, stuck i].map (·.state.listening))) =
      some ([true, true, true, true], [false, true]) := by
    decide +kernel
  obtain ⟨i, hi⟩ : ∃ i : Instance Store.Tree,
      attach withoutCertificate .illiterate 1 .empty = .ok i := ⟨_, rfl⟩
  rw [hi] at hruns
  simp only [Except.toOption, Option.map_some, List.map_cons, List.map_nil, Option.some.injEq,
    Prod.mk.injEq, List.cons.injEq, Option.isNone_iff_eq_none, and_true] at hruns
  obtain ⟨⟨hready, hstopped, hfailed, hstuck⟩, hdeaf, hlistens⟩ := hruns
  refine ⟨i, hi, bind_withoutCertificate hi, ?_, ?_⟩
  · show (i.settle.act stop).settle.state.listening = false
    rw [settle_eq_takeTurns hready, settle_eq_takeTurns hstopped]
    exact hdeaf
  · show ((i.settle.act start).settle.act stop).settle.state.listening = true
    rw [settle_eq_takeTurns hready, settle_eq_takeTurns hfailed, settle_eq_takeTurns hstuck]
    exact hlistens

end Instance

end PluginKernel
