import PluginKernel.Proofs.Instance.ClosedListeners
import PluginKernel.Proofs.Instance.Health
import PluginKernel.Proofs.Instance.Observations

/-!
# A plugin that goes on like another one

A plugin that was used before differs from a new one in what has become of its use: tasks that have
nothing left to do, listeners that are closed, the store, the clock, the log, and services that were
marked as down. `Renews` says that nothing else is different. Each turn that one of the two plugins
can take corresponds to a turn of the other, each action of the host keeps the relation, and the two
look the same all the time: `Renews.course` and `Renews.course_back`. The health of the services is
the same as soon as a start has marked them again.
-/

namespace PluginKernel

variable {σ : Type}

/-! ## Tasks that are done -/

theorem Task.step?_of_isDone [RecordStore σ] {setup : Setup} {t fresh : Nat} {s : PluginState σ}
    {task : Task} (h : task.isDone = true) : task.step? setup t fresh s = none := by
  unfold isDone at h
  split at h
  all_goals first | rfl | cases h

/-! ## The health after a turn -/

/-- The health of the services after a turn of a task. -/
def Task.healthAfter (setup : Setup) (h : Health) : Task → Health
  | start (.announce ..) => h.serve setup.choices.services
  | stop (.silence ..) => h.shutdown
  | _ => h

theorem Task.health_step? [RecordStore σ] {setup : Setup} {t fresh : Nat} {s : PluginState σ}
    {task : Task} {m : Move σ} (h : task.step? setup t fresh s = some m) :
    m.state.health = task.healthAfter setup s.health := by
  have heffect := Task.healthEffect h
  cases task with
  | start x =>
    cases x with
    | announce plugin n =>
      cases h
      rfl
    | _ =>
      cases heffect with
      | keep hhealth => exact hhealth
      | launch _ hhealth => exact hhealth
      | announce htask | take htask | silence htask => cases htask
  | stop x =>
    cases x with
    | silence plugin n =>
      cases h
      rfl
    | _ =>
      cases heffect with
      | keep hhealth => exact hhealth
      | take _ hhealth => exact hhealth
      | announce htask | launch htask | silence htask => cases htask
  | _ =>
    cases heffect with
    | keep hhealth => exact hhealth
    | announce htask | launch htask | take htask | silence htask => cases htask

theorem Task.healthAfter_core (setup : Setup) (h : Health) (task : Task) :
    task.core.healthAfter setup h = task.healthAfter setup h := by
  cases task with
  | start x => cases x <;> rfl
  | stop x => cases x <;> rfl
  | _ => rfl

theorem Task.healthAfter_behind (setup : Setup) (h : Health) (task : Task) (n : Nat) :
    (task.behind n).healthAfter setup h = task.healthAfter setup h := by
  cases task with
  | start x => cases x <;> rfl
  | stop x => cases x <;> rfl
  | _ => rfl

namespace Health

/-- Nothing but a server and some services ever had a status. -/
structure Within (h : Health) (services : List String) : Prop where
  sorted : Assoc.Sorted h
  mem_of_mem_keys : ∀ service ∈ Assoc.keys h, service ∈ "" :: services

variable {h : Health} {services : List String}

theorem within_empty (services : List String) : Within .empty services :=
  ⟨Assoc.sorted_nil, fun _ hs => by cases hs⟩

theorem Within.foldl (hw : h.Within services) {marked : List String}
    (hmarked : ∀ service ∈ marked, service ∈ "" :: services) :
    Within (marked.foldl (fun h service => h.set service .serving) h) services := by
  induction marked generalizing h with
  | nil => exact hw
  | cons service rest ih =>
    refine ih ⟨hw.sorted.insert _ _, fun s hs => ?_⟩
      fun s hs => hmarked s (List.mem_cons_of_mem _ hs)
    rcases (Assoc.mem_keys_insert _ _ _ _).1 hs with hs | heq
    · exact hw.mem_of_mem_keys s hs
    · rw [← heq]
      exact hmarked service List.mem_cons_self

theorem Within.serve (hw : h.Within services) : (h.serve services).Within services :=
  hw.foldl fun _ hs => hs

theorem Within.shutdown (hw : h.Within services) : h.shutdown.Within services := by
  have hkeys : Assoc.keys h.shutdown = Assoc.keys h := Assoc.keys_mapValues _ h
  refine ⟨?_, fun s hs => hw.mem_of_mem_keys s (hkeys ▸ hs)⟩
  rw [Assoc.Sorted, hkeys]
  exact hw.sorted

/-- Once they are marked as up, it does not matter what services were marked as before. -/
theorem Within.serve_eq (hw : h.Within services) : h.serve services = empty.serve services := by
  refine hw.serve.sorted.ext (within_empty services).serve.sorted fun service => ?_
  change (h.serve services).status service = (empty.serve services).status service
  rw [Health.serve, Health.serve, status_foldl, status_foldl]
  split
  · rfl
  next hout => exact Assoc.get?_eq_none_iff.2 fun hk => hout (hw.mem_of_mem_keys service hk)

theorem serve_ne_empty (h : Health) (services : List String) : h.serve services ≠ .empty := by
  intro hempty
  have hstatus : (h.serve services).status "" = some .serving := by
    rw [serve, status_foldl, if_pos List.mem_cons_self]
  rw [hempty] at hstatus
  cases hstatus

theorem shutdown_ne_empty (hne : h ≠ .empty) : h.shutdown ≠ .empty := by
  intro hempty
  exact hne (List.map_eq_nil_iff.1 hempty)

/-- One and the same health, or that of a plugin that was never started and one that goes on like
it. -/
def Renews (services : List String) (used new : Health) : Prop :=
  used = new ∨ new = .empty ∧ used.Within services

theorem Renews.after {setup : Setup} {used new : Health}
    (h : Renews setup.choices.services used new) (task : Task) :
    Renews setup.choices.services (task.healthAfter setup used) (task.healthAfter setup new) := by
  rcases h with rfl | ⟨rfl, hw⟩
  · exact .inl rfl
  · cases task with
    | start x =>
      cases x with
      | announce plugin n => exact .inl hw.serve_eq
      | _ => exact .inr ⟨rfl, hw⟩
    | stop x =>
      cases x with
      | silence plugin n => exact .inr ⟨rfl, hw.shutdown⟩
      | _ => exact .inr ⟨rfl, hw⟩
    | _ => exact .inr ⟨rfl, hw⟩

end Health

/-! ## The relation -/

namespace Instance

/-- A used plugin goes on like a new one: the tasks of the new one are numbered otherwise in it, its
listeners come after others that are closed, and what else there is has nothing left to do. -/
structure Renews (ρ : Nat → Nat) (old : List Listener) (used new : Instance σ) : Prop where
  setup : used.setup = new.setup
  /-- No two tasks get the same number. -/
  injective : ρ.Injective
  /-- Tasks that will be set off get the next numbers. -/
  fresh : ∀ d, ρ (new.tasks.length + d) = used.tasks.length + d
  tasks : ∀ t, (used.tasks[ρ t]?).map Task.core =
    (new.tasks[t]?).map fun x => (x.behind old.length).core
  /-- Further tasks have nothing left to do. -/
  done : ∀ u x, used.tasks[u]? = some x → (∀ t, ρ t ≠ u) → x.isDone = true
  closed : ∀ l ∈ old, l.closed = true
  state : ∃ a, used.state.core a = ((new.state.recast ρ []).behind old).core a
  health : Health.Renews new.setup.choices.services used.state.health new.state.health

namespace Renews

variable {ρ : Nat → Nat} {old : List Listener} {used new : Instance σ}

theorem corresponds (h : Renews ρ old used new) :
    Corresponds ρ Task.core (fun x => (x.behind old.length).core) (·.isDone = true) new used :=
  ⟨h.injective, h.fresh, h.tasks, h.done⟩

/-- An action of the host does the same to both. -/
theorem act (h : Renews ρ old used new) (a : HostAction) :
    Renews ρ old (used.act a) (new.act a) := by
  have hcorresponds := h.corresponds.act (a := a) (by cases a <;> rfl)
  obtain ⟨c, hc⟩ := h.state
  refine ⟨by rw [setup_act, setup_act, h.setup], hcorresponds.injective, hcorresponds.fresh,
    hcorresponds.tasks, hcorresponds.further, h.closed, ⟨c, ?_⟩, ?_⟩
  · rw [state_act, state_act, ← PluginState.core_act, hc, PluginState.core_act,
      PluginState.act_behind, PluginState.act_recast]
  · rw [setup_act, state_act, state_act, (PluginState.health_act _ a).1,
      (PluginState.health_act _ a).1]
    exact h.health

/-- Moves that correspond to each other keep the relation. -/
theorem move (h : Renews ρ old used new) {t : Nat} (ht : t < new.tasks.length)
    (ht' : ρ t < used.tasks.length) {m n : Move σ}
    (hcore : ∃ a, m.core a = ((n.recast ρ []).behind old).core a)
    (hhealth : Health.Renews new.setup.choices.services m.state.health n.state.health) :
    Renews ρ old (used.move (ρ t) m) (new.move t n) := by
  obtain ⟨a, hcore⟩ := hcore
  have hnext : m.next.core = (n.next.behind old.length).core := congrArg Move.next hcore
  have hspawned : m.spawned.map Task.core =
      n.spawned.map fun x => (x.behind old.length).core := by
    have := congrArg Move.spawned hcore
    simpa only [Move.core, Move.behind, Move.recast, Option.map_map, Function.comp_def] using this
  have hcorresponds := h.corresponds.move ht ht' hnext hspawned
  refine ⟨by rw [setup_move, setup_move, h.setup], hcorresponds.injective, hcorresponds.fresh,
    hcorresponds.tasks, hcorresponds.further, h.closed, ⟨a, ?_⟩, ?_⟩
  · rw [state_move, state_move]
    exact congrArg Move.state hcore
  · rw [setup_move, state_move, state_move]
    exact hhealth

/-- Both plugins look the same. -/
theorem view (h : Renews ρ old used new) {served : Bool}
    (hserved : served = true → new.state.health ≠ .empty) :
    used.view served = new.view served := by
  obtain ⟨a, hcore⟩ := h.state
  have hpart {α : Type} (f : PluginState σ → α) : f (used.state.core a) =
      f (((new.state.recast ρ []).behind old).core a) := congrArg f hcore
  have hphase : used.state.phase = new.state.phase := hpart PluginState.phase
  have hserver : used.state.server = new.state.server.map (old.length + ·) :=
    hpart PluginState.server
  have hlisteners : used.state.listeners = old ++ new.state.listeners :=
    hpart PluginState.listeners
  have hheld : used.state.ownEndpoints = new.state.ownEndpoints := by
    rw [PluginState.ownEndpoints, hlisteners]
    exact PluginState.ownEndpoints_behind h.closed new.state
  have hplace : used.state.serverPlace = new.state.serverPlace := by
    rw [PluginState.serverPlace, hserver, hlisteners, PluginState.serverPlace]
    cases new.state.server with
    | none => rfl
    | some n =>
      rw [Option.map_some, Option.bind_some, Option.bind_some,
        List.getElem?_append_right (Nat.le_add_right _ _), Nat.add_sub_cancel_left]
  have hoccupied : used.state.occupied = new.state.occupied :=
    hpart PluginState.occupied
  have hhealth : (if served then some used.state.health else none) =
      if served then some new.state.health else none := by
    split
    next hs => rw [h.health.resolve_right fun hempty => hserved hs hempty.1]
    · rfl
  have hledger : used.state.ledger.map Ledger.untimed = new.state.ledger.map Ledger.untimed :=
    hpart PluginState.ledger
  have hacks : used.state.acks = new.state.acks.renumber ρ := hpart PluginState.acks
  have herrors : used.state.errors = new.state.errors.renumber ρ :=
    hpart PluginState.errors
  have houtbox : used.state.outbox.map Ledger.untimed = new.state.outbox.map Ledger.untimed :=
    hpart PluginState.outbox
  have hpending : used.state.pending.map Ledger.untimed = new.state.pending.map Ledger.untimed :=
    hpart PluginState.pending
  have hdataflow : used.state.dataflow.map Ledger.untimed =
      (new.state.dataflow.renumber ρ).map Ledger.untimed := hpart PluginState.dataflow
  have hlistening : used.state.listening = new.state.listening :=
    hpart PluginState.listening
  have hcommands : used.state.commands = new.state.commands := hpart PluginState.commands
  have hchatIn : used.state.chatIn = new.state.chatIn := hpart PluginState.chatIn
  have hchatOut : used.state.chatOut = new.state.chatOut := hpart PluginState.chatOut
  rw [Instance.view, Instance.view, hphase, hplace, hheld, hoccupied, hhealth, hledger, hacks,
    herrors, houtbox, hpending, Queue.map_unnumbered, hdataflow, ← Queue.map_unnumbered,
    hlistening, hcommands, hchatIn, hchatOut, Queue.unnumbered_renumber,
    Queue.unnumbered_renumber, Queue.unnumbered_renumber]

variable [RecordStore σ]

/-- A task and the one that corresponds to it both wait, or both take a turn. -/
theorem step? (h : Renews ρ old used new) (t : Nat) :
    (used.step? (ρ t) = none ∧ new.step? t = none) ∨
      ∃ used' new', used.step? (ρ t) = some used' ∧ new.step? t = some new' ∧
        Renews ρ old used' new' := by
  have htasks := h.tasks t
  cases hx : new.tasks[t]? with
  | none =>
    rw [hx] at htasks
    have hy : used.tasks[ρ t]? = none := by simpa using htasks
    exact .inl ⟨by simp [Instance.step?, hy], by simp [Instance.step?, hx]⟩
  | some x =>
    rw [hx] at htasks
    obtain ⟨y, hy, hxy⟩ : ∃ y, used.tasks[ρ t]? = some y ∧
        y.core = (x.behind old.length).core := by simpa using htasks
    have ht := (List.getElem?_eq_some_iff.1 hx).1
    have ht' := (List.getElem?_eq_some_iff.1 hy).1
    obtain ⟨a, hstate⟩ := h.state
    have hfresh : ρ new.tasks.length = used.tasks.length := h.fresh 0
    -- the move of the one task is that of the other: numbered otherwise, behind, and at its core
    have hmoves : (y.step? used.setup (ρ t) used.tasks.length used.state).map (Move.core a) =
        (x.step? new.setup t new.tasks.length new.state).map
          fun n => ((n.recast ρ []).behind old).core a := by
      rw [← Task.step?_core, hxy, hstate, Task.step?_core, Task.step?_behind h.closed, h.setup,
        ← hfresh, Task.step?_recast h.injective, Option.map_map, Option.map_map]
      rfl
    rw [step?_of_getElem? hy, step?_of_getElem? hx]
    cases hn : x.step? new.setup t new.tasks.length new.state with
    | none =>
      rw [hn] at hmoves
      exact .inl ⟨by simpa using hmoves, rfl⟩
    | some n =>
      rw [hn] at hmoves
      obtain ⟨m, hm, hcore⟩ := Option.map_eq_some_iff.1 hmoves
      have hsame : y.healthAfter used.setup used.state.health =
          x.healthAfter new.setup used.state.health := by
        rw [← Task.healthAfter_core, hxy, Task.healthAfter_core, Task.healthAfter_behind, h.setup]
      refine .inr ⟨_, _, congrArg (Option.map _) hm, rfl, h.move ht ht' ⟨a, hcore⟩ ?_⟩
      rw [Task.health_step? hm, Task.health_step? hn, hsame]
      exact h.health.after x

/-- A task that nothing corresponds to takes no turns. -/
theorem exists_of_step? (h : Renews ρ old used new) {u : Nat} {used' : Instance σ}
    (hs : used.step? u = some used') : ∃ t, ρ t = u := by
  by_contra hnone
  obtain ⟨y, m, hy, hm, -⟩ := step?_eq_some_iff.1 hs
  rw [Task.step?_of_isDone (h.done u y hy fun t ht => hnone ⟨t, ht⟩)] at hm
  cases hm

theorem quiescent_iff (h : Renews ρ old used new) : used.Quiescent ↔ new.Quiescent := by
  constructor
  · intro hq t
    rcases h.step? t with ⟨-, hnone⟩ | ⟨_, _, hused, -⟩
    · exact hnone
    · rw [hq (ρ t)] at hused
      cases hused
  · intro hq u
    cases hs : used.step? u with
    | none => rfl
    | some used' =>
      obtain ⟨t, rfl⟩ := h.exists_of_step? hs
      rcases h.step? t with ⟨hnone, -⟩ | ⟨_, _, -, hnew, -⟩
      · rw [hnone] at hs
        cases hs
      · rw [hq t] at hnew
        cases hnew

/-! ## Courses -/

omit [RecordStore σ] in
theorem view_false (h : Renews ρ old used new) : used.view false = new.view false :=
  h.view fun hs => by cases hs

omit [RecordStore σ] in
theorem isSome_server (h : Renews ρ old used new) :
    used.state.server.isSome = new.state.server.isSome := by
  obtain ⟨a, hcore⟩ := h.state
  have hserver : used.state.server = new.state.server.map (old.length + ·) :=
    congrArg PluginState.server hcore
  rw [hserver, Option.isSome_map]

/-- Turns that correspond to each other look the same. -/
theorem observation_turn (h : Renews ρ old used new) {t u : Nat} {used' new' : Instance σ}
    (h' : Renews ρ old used' new') {served : Bool}
    (hserved : served = true → new'.state.health ≠ .empty) :
    (Event.turn ⟨u, used, used'⟩).observation served =
      (Event.turn ⟨t, new, new'⟩).observation served := by
  have hbefore := congrArg (List.length ∘ View.outbox) h.view_false
  have hafter : used'.state.outbox.map Ledger.untimed = new'.state.outbox.map Ledger.untimed :=
    congrArg View.outbox h'.view_false
  simp only [Function.comp_apply, Instance.view, List.length_map] at hbefore
  have hqueued : (⟨u, used, used'⟩ : Turn σ).queued.map Ledger.untimed =
      (⟨t, new, new'⟩ : Turn σ).queued.map Ledger.untimed := by
    rw [Turn.queued, Turn.queued, List.map_drop, List.map_drop, hbefore, hafter]
  show (⟨none, [], [], [], _, used'.view served⟩ : Observation) = ⟨none, [], [], [], _, _⟩
  rw [h'.view hserved]
  exact congrArg (fun ls => (⟨none, [], [], [], ls, new'.view served⟩ : Observation)) hqueued

/-- An action of the host looks the same. -/
theorem observation_action (h : Renews ρ old used new) (a : HostAction) {served : Bool}
    (hserved : served = true → new.state.health ≠ .empty) :
    (Event.action used a).observation served = (Event.action new a).observation served := by
  have hserved' : served = true → (new.act a).state.health ≠ .empty := by
    intro hs
    rw [state_act, (PluginState.health_act _ a).1]
    exact hserved hs
  have hacks : used.state.acks.unnumbered = new.state.acks.unnumbered :=
    congrArg View.acks h.view_false
  have herrors : used.state.errors.unnumbered = new.state.errors.unnumbered :=
    congrArg View.errors h.view_false
  have hdataflow : used.state.dataflow.unnumbered.map Ledger.untimed =
      new.state.dataflow.unnumbered.map Ledger.untimed := congrArg View.dataflow h.view_false
  have hreadAcks : Outlet.acks.readIn (.action used a) = Outlet.acks.readIn (.action new a) := by
    cases a with
    | readAcks n =>
      show used.state.acks.readOut n = new.state.acks.readOut n
      rw [← Queue.readOut_unnumbered, hacks, Queue.readOut_unnumbered]
    | _ => rfl
  have hreadErrors : Outlet.errors.readIn (.action used a) =
      Outlet.errors.readIn (.action new a) := by
    cases a with
    | readErrors n =>
      show used.state.errors.readOut n = new.state.errors.readOut n
      rw [← Queue.readOut_unnumbered, herrors, Queue.readOut_unnumbered]
    | _ => rfl
  have hreadLedgers : (Outlet.dataflow.readIn (.action used a)).map Ledger.untimed =
      (Outlet.dataflow.readIn (.action new a)).map Ledger.untimed := by
    cases a with
    | readLedgers n =>
      show (used.state.dataflow.readOut n).map _ = (new.state.dataflow.readOut n).map _
      rw [← Queue.readOut_unnumbered, ← Queue.readOut_map, hdataflow, Queue.readOut_map,
        Queue.readOut_unnumbered]
    | _ => rfl
  have hview : (used.act a).view served = (new.act a).view served := (h.act a).view hserved'
  show (⟨some a, _, _, _, [], _⟩ : Observation) = ⟨some a, _, _, _, [], _⟩
  rw [hreadAcks, hreadErrors, hreadLedgers]
  exact congrArg (Observation.mk _ _ _ _ _) hview

end Renews

/-! ## The health of a plugin that has had a server -/

/-- Where there is a server, the health of its services is known. -/
theorem HealthFits.ne_empty {j : Instance σ} (h : j.HealthFits)
    (hserver : j.state.server.isSome = true) : j.state.health ≠ .empty := by
  have hserves : j.state.health.Serves j.setup.choices.services := by
    by_cases hahead : ∃ t, j.AheadAt t
    · obtain ⟨t, ht⟩ := hahead
      exact h.ahead t ht
    · exact h.up (fun t ht => hahead ⟨t, ht⟩) hserver
  intro hempty
  have hstatus := (hserves "").2 List.mem_cons_self
  rw [hempty] at hstatus
  cases hstatus

variable [RecordStore σ] {i j k : Instance σ} {es fs : List (Event σ)}

/-- Once the health of the services is known, it stays so. -/
theorem ne_empty_step {t : Nat} (hne : j.state.health ≠ .empty) (hs : j.step? t = some k) :
    k.state.health ≠ .empty := by
  obtain ⟨task, m, -, hm, rfl⟩ := step?_eq_some_iff.1 hs
  rw [state_move, Task.health_step? hm]
  unfold Task.healthAfter
  split
  · exact Health.serve_ne_empty _ _
  · exact Health.shutdown_ne_empty hne
  · exact hne

/-- A plugin that has had a server knows the health of its services. -/
theorem ne_empty_of_served (hi : i.Fresh) (hj : i.Course es j) (hc : j.Course fs k)
    (hserved : fs.any Event.isServed = true) : k.state.health ≠ .empty := by
  have hnow {fs : List (Event σ)} {k : Instance σ} (hk : j.Course fs k)
      (hserver : k.state.server.isSome = true) : k.state.health ≠ .empty :=
    (healthFits_of_reachable hi (hj.trans hk).reachable).ne_empty hserver
  induction hc with
  | refl => cases hserved
  | @turn fs k l t hk hs ih =>
    simp only [List.any_append, List.any_cons, List.any_nil, Bool.or_false, Bool.or_eq_true]
      at hserved
    rcases hserved with hbefore | hserver
    · exact ne_empty_step (ih hbefore) hs
    · exact hnow (hk.turn hs) hserver
  | @action fs k hk a ih =>
    simp only [List.any_append, List.any_cons, List.any_nil, Bool.or_false, Bool.or_eq_true]
      at hserved
    rcases hserved with hbefore | hserver
    · rw [state_act, (PluginState.health_act _ a).1]
      exact ih hbefore
    · exact hnow (hk.action a) hserver

/-! ## Abreast -/

/-- What has happened to a used plugin and to a new one looks the same, and the one still goes on
like the other. -/
structure Abreast (ρ : Nat → Nat) (old : List Listener) (used new : Instance σ)
    (es fs : List (Event σ)) (used' new' : Instance σ) : Prop where
  used : used.Course es used'
  new : new.Course fs new'
  renews : Renews ρ old used' new'
  /-- There has been a server in both or in neither. -/
  served : es.any Event.isServed = fs.any Event.isServed
  same : observations false es = observations false fs

variable {ρ : Nat → Nat} {old : List Listener} {used used' used'' new new' new'' : Instance σ}
  {gs : List (Event σ)}

/-- One more event keeps two plugins abreast if it looks the same in both. -/
theorem Abreast.concat (h : Abreast ρ old used new es fs used' new') (hi : i.Fresh)
    (hnew : i.Course gs new) {e f : Event σ} (he : used.Course (es ++ [e]) used'')
    (hf : new.Course (fs ++ [f]) new'') (hr : Renews ρ old used'' new'')
    (hserved : e.isServed = f.isServed)
    (hsame : ∀ served : Bool, (served = true → new''.state.health ≠ .empty) →
      e.observation served = f.observation served) :
    Abreast ρ old used new (es ++ [e]) (fs ++ [f]) used'' new'' := by
  have hany : (es ++ [e]).any Event.isServed = (fs ++ [f]).any Event.isServed := by
    simp only [List.any_append, List.any_cons, List.any_nil, h.served, hserved]
  refine ⟨he, hf, hr, hany, ?_⟩
  rw [observations_concat, observations_concat, h.same, hany,
    hsame _ fun hs => ne_empty_of_served hi hnew hf (by simpa using hs)]

theorem Abreast.turn (h : Abreast ρ old used new es fs used' new') (hi : i.Fresh)
    (hnew : i.Course gs new) {t : Nat} (hs : used'.step? (ρ t) = some used'')
    (hs' : new'.step? t = some new'') (hr : Renews ρ old used'' new'') :
    Abreast ρ old used new (es ++ [.turn ⟨ρ t, used', used''⟩]) (fs ++ [.turn ⟨t, new', new''⟩])
      used'' new'' :=
  h.concat hi hnew (h.used.turn hs) (h.new.turn hs') hr hr.isSome_server
    fun _ => h.renews.observation_turn hr

theorem Abreast.action (h : Abreast ρ old used new es fs used' new') (hi : i.Fresh)
    (hnew : i.Course gs new) (a : HostAction) :
    Abreast ρ old used new (es ++ [.action used' a]) (fs ++ [.action new' a]) (used'.act a)
      (new'.act a) := by
  refine h.concat hi hnew (h.used.action a) (h.new.action a) (h.renews.act a)
    (h.renews.act a).isSome_server fun served hserved => h.renews.observation_action a fun hs => ?_
  rw [← (PluginState.health_act _ a).1, ← state_act]
  exact hserved hs

/-- Whatever becomes of the new plugin, the used one can follow. -/
theorem Renews.course (h : Renews ρ old used new) (hi : i.Fresh) (hnew : i.Course gs new)
    (hc : new.Course fs new') : ∃ es used', Abreast ρ old used new es fs used' new' := by
  induction hc with
  | refl => exact ⟨[], used, .refl, .refl, h, rfl, rfl⟩
  | @turn fs k l t _ hs ih =>
    obtain ⟨es, used', habreast⟩ := ih
    rcases habreast.renews.step? t with ⟨-, hnone⟩ | ⟨used'', _, hused, hl, hr⟩
    · rw [hnone] at hs
      cases hs
    · rw [hs] at hl
      cases hl
      exact ⟨_, _, habreast.turn hi hnew hused hs hr⟩
  | action _ a ih =>
    obtain ⟨es, used', habreast⟩ := ih
    exact ⟨_, _, habreast.action hi hnew a⟩

/-- Whatever becomes of the used plugin, the new one can follow. -/
theorem Renews.course_back (h : Renews ρ old used new) (hi : i.Fresh) (hnew : i.Course gs new)
    (hc : used.Course es used') : ∃ fs new', Abreast ρ old used new es fs used' new' := by
  induction hc with
  | refl => exact ⟨[], new, .refl, .refl, h, rfl, rfl⟩
  | @turn es k l u _ hs ih =>
    obtain ⟨fs, new', habreast⟩ := ih
    obtain ⟨t, rfl⟩ := habreast.renews.exists_of_step? hs
    rcases habreast.renews.step? t with ⟨hnone, -⟩ | ⟨_, new'', hl, hnew', hr⟩
    · rw [hnone] at hs
      cases hs
    · rw [hs] at hl
      cases hl
      exact ⟨_, _, habreast.turn hi hnew hs hnew' hr⟩
  | action _ a ih =>
    obtain ⟨fs, new', habreast⟩ := ih
    exact ⟨_, _, habreast.action hi hnew a⟩

end Instance

end PluginKernel
