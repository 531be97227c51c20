import PluginKernel.Proofs.Instance.FailedStart
import PluginKernel.Proofs.Instance.Renewal

/-!
# A stopped plugin starts like a new one

A host may start and stop a plugin and report errors to it as often as it likes, in whatever order
its tasks take turns and whatever goes wrong. Once the plugin is idle again, nothing goes on in it
and the host has read everything, nothing of this is left that could be seen: from then on the
plugin goes on like one that has just been attached. This is `stopped_like_new`.

What is left of the use is collected in `Worn`, an invariant of such a history: the queues have the
ends that they had, nobody has sent a command, and no service has a status that a start does not
give it.
-/

namespace PluginKernel

variable {σ : Type}

/-! ## What a host does routinely -/

/-- What happens around a plugin: others take and free places, and time passes. -/
inductive HostAction.IsAmbient : HostAction → Prop where
  | occupy (e : Endpoint) : IsAmbient (.occupy e)
  | vacate (e : Endpoint) : IsAmbient (.vacate e)
  | wait (nanos : Nat) : IsAmbient (.wait nanos)

/-- Calling for a start or a stop, reporting an error, reading what arrives, and what happens
around. -/
inductive HostAction.IsRoutine : HostAction → Prop where
  | call (tr : Transition) : IsRoutine (.call tr)
  | report (e : PluginError) : IsRoutine (.report e)
  | readAcks (n : Nat) : IsRoutine (.readAcks n)
  | readErrors (n : Nat) : IsRoutine (.readErrors n)
  | readLedgers (n : Nat) : IsRoutine (.readLedgers n)
  | ambient {a : HostAction} (h : a.IsAmbient) : IsRoutine a

namespace Queue

variable {α : Type} {q q' : Queue α} {t : Nat}

/-- A queue without its messages. -/
def emptied (q : Queue α) : Queue α := { q with buffer := [], waiting := [] }

theorem emptied_of_contents (h : q.contents = []) : q.emptied = q := by
  obtain ⟨hbuffer, hwaiting⟩ := List.append_eq_nil_iff.1 h
  rw [List.map_eq_nil_iff] at hwaiting
  rw [emptied, ← hbuffer, ← hwaiting]

theorem IsNew.renumber_eq (h : q.IsNew) (ρ : Nat → Nat) : q.renumber ρ = q := by
  rw [renumber, h.idle, List.map_nil, ← h.idle]

theorem emptied_takes {sent : Option α} (h : Takes t q q' sent) : q'.emptied = q.emptied := by
  cases h with
  | keep he | refuse _ he => rw [he]
  | accept ha =>
    obtain ⟨-, rfl⟩ := accepts_iff.1 ha
    split <;> rfl
  | resume taken hr =>
    unfold resume? at hr
    split at hr
    · cases hr
      rfl
    · split at hr <;> cases hr
      rfl

theorem emptied_read (q : Queue α) (n : Nat) : (q.read n).emptied = q.emptied := by
  rw [read]
  split <;> rfl

end Queue

/-- Nobody but the host sends chat messages. -/
theorem Task.chat_step? [RecordStore σ] {setup : Setup} {t fresh : Nat} {s : PluginState σ}
    {task : Task} {m : Move σ} (h : task.step? setup t fresh s = some m) :
    m.state.chatIn = s.chatIn ∧ m.state.chatOut = s.chatOut := by
  cases Task.makes h with
  | call | await => exact ⟨rfl, rfl⟩
  | start hx => exact ⟨by rw [StartTask.writes hx], by rw [StartTask.writes hx]⟩
  | stop hx => exact ⟨by rw [StopTask.writes hx], by rw [StopTask.writes hx]⟩
  | serve hx => exact ⟨by rw [ServeTask.writes hx], by rw [ServeTask.writes hx]⟩
  | report hx => exact ⟨by rw [ReportTask.writes hx], by rw [ReportTask.writes hx]⟩
  | listen hx => exact ⟨by rw [ListenTask.writes hx], by rw [ListenTask.writes hx]⟩
  | keeper hx => exact ⟨by rw [KeeperTask.writes hx], by rw [KeeperTask.writes hx]⟩
  | courier hx => exact ⟨by rw [CourierTask.writes hx], by rw [CourierTask.writes hx]⟩

/-! ## What is left of a history -/

namespace Instance

/-- The host does nothing but a routine. -/
def OnlyRoutine (es : List (Event σ)) : Prop := ∀ l a, .action l a ∈ es → a.IsRoutine

/-- Nothing happens but around a plugin. -/
def OnlyAmbient (es : List (Event σ)) : Prop := ∀ l a, .action l a ∈ es → a.IsAmbient

theorem OnlyRoutine.append {es fs : List (Event σ)} (h : OnlyRoutine es) (h' : OnlyRoutine fs) :
    OnlyRoutine (es ++ fs) :=
  fun l a ha => (List.mem_append.1 ha).elim (h l a) (h' l a)

theorem OnlyRoutine.call (i : Instance σ) (tr : Transition) :
    OnlyRoutine [.action i (.call tr)] := by
  intro l a h
  cases List.mem_singleton.1 h
  exact .call tr

theorem OnlyReads.onlyRoutine {es : List (Event σ)} (h : OnlyReads es) : OnlyRoutine es := by
  intro l a ha
  cases h l a ha <;> constructor

/-- What is the same in a plugin that was used as a routine as it was at first. -/
structure Worn (i j : Instance σ) : Prop where
  commands : j.state.commands = i.state.commands
  listening : j.state.listening = i.state.listening
  chatIn : j.state.chatIn = i.state.chatIn
  chatOut : j.state.chatOut = i.state.chatOut
  acks : j.state.acks.emptied = i.state.acks.emptied
  errors : j.state.errors.emptied = i.state.errors.emptied
  dataflow : j.state.dataflow.emptied = i.state.dataflow.emptied
  /-- No command is ever taken. -/
  listener : j.tasks[2]? = some (.listen .open) ∨ j.tasks[2]? = some (.listen .receive)
  sole : j.Sole .listener 2
  health : j.state.health.Within j.setup.choices.services

variable {i j k : Instance σ} {es : List (Event σ)}

theorem IsNew.worn (h : i.IsNew) : Worn i i := by
  refine ⟨rfl, rfl, rfl, rfl, rfl, rfl, rfl, .inl ?_, h.fresh.sole.2.2, ?_⟩
  · rw [h.fresh.tasks]
    rfl
  · rw [h.fresh.health]
    exact Health.within_empty _

theorem Worn.act (h : Worn i j) {a : HostAction} (ha : a.IsRoutine) : Worn i (j.act a) := by
  have hlt : 2 < j.tasks.length := by
    rcases h.listener with hl | hl <;> exact (List.getElem?_eq_some_iff.1 hl).1
  have hlistener : (j.act a).tasks[2]? = j.tasks[2]? := by
    rw [getElem?_tasks_act, if_neg (by omega)]
  have hhealth : (j.act a).state.health = j.state.health := by
    rw [state_act, (PluginState.health_act _ a).1]
  have hsole := h.sole.act a (by simp) (by simp)
  obtain ⟨h1, h2, h3, h4, h5, h6, h7, h8, -, h10⟩ := h
  rw [← hlistener] at h8
  rw [← hhealth, ← setup_act j a] at h10
  cases ha with
  | call tr | report e => exact ⟨h1, h2, h3, h4, h5, h6, h7, h8, hsole, h10⟩
  | readAcks n => exact ⟨h1, h2, h3, h4, (Queue.emptied_read _ n).trans h5, h6, h7, h8, hsole, h10⟩
  | readErrors n =>
    exact ⟨h1, h2, h3, h4, h5, (Queue.emptied_read _ n).trans h6, h7, h8, hsole, h10⟩
  | readLedgers n =>
    exact ⟨h1, h2, h3, h4, h5, h6, (Queue.emptied_read _ n).trans h7, h8, hsole, h10⟩
  | ambient ha => cases ha <;> exact ⟨h1, h2, h3, h4, h5, h6, h7, h8, hsole, h10⟩

variable [RecordStore σ]

/-- A listener that nobody has sent a command does no more than to begin. -/
theorem Worn.step_listener (h : Worn i j) (hi : i.IsNew) (hs : j.step? 2 = some k) :
    j.tasks[2]? = some (.listen .open) ∧
      k = j.move 2
        ⟨j.state.logged [.info "command receiver initialized"], .listen .receive, none⟩ := by
  rcases h.listener with hl | hl
  · refine ⟨hl, ?_⟩
    rw [step?_of_getElem? hl] at hs
    exact (Option.some.inj hs).symm
  · rw [step?_of_getElem? hl] at hs
    have hwaits : (Task.listen .receive).step? j.setup 2 j.tasks.length j.state = none := by
      have hbuffer := (List.append_eq_nil_iff.1 hi.commands.contents).1
      rw [Task.step?, ListenTask.step?, h.commands, Queue.next?, hbuffer]
      simp [hi.commands.hasSender]
    rw [hwaits] at hs
    cases hs

theorem Worn.step (h : Worn i j) (hi : i.IsNew) {t : Nat} (hs : j.step? t = some k) :
    Worn i k := by
  have hsole := h.sole.step hs (by simp) (by simp)
  obtain ⟨task, m, htask, hm, hk⟩ := step?_eq_some_iff.1 hs
  have ht := (List.getElem?_eq_some_iff.1 htask).1
  have hstate : k.state = m.state := by rw [← hk, state_move]
  have hchat := Task.chat_step? hm
  have hhealth : k.state.health.Within k.setup.choices.services := by
    rw [hstate, ← hk, setup_move, Task.health_step? hm]
    unfold Task.healthAfter
    split
    · exact h.health.serve
    · exact h.health.shutdown
    · exact h.health
  have hacks := Queue.emptied_takes (Task.acks_takes hm)
  have herrors := Queue.emptied_takes (Task.errors_takes hm)
  have hdataflow := Queue.emptied_takes (Task.dataflow_takes hm)
  have hears : k.state.commands = j.state.commands ∧ k.state.listening = j.state.listening ∧
      (k.tasks[2]? = some (.listen .open) ∨ k.tasks[2]? = some (.listen .receive)) := by
    by_cases h2 : t = 2
    · subst h2
      obtain ⟨-, rfl⟩ := h.step_listener hi hs
      refine ⟨by rw [state_move]; rfl, by rw [state_move]; rfl, .inr ?_⟩
      rw [getElem?_tasks_move ht, if_pos rfl]
    · have hkind : task.kind ≠ .listener := fun hkind =>
        h2 ((h.sole t).1 (by rw [kindOf, htask, Option.map_some, hkind]))
      obtain ⟨hcommands, hlistening⟩ := Task.leaves_commands hm hkind
      rw [hstate]
      refine ⟨hcommands, hlistening, ?_⟩
      have hlt : 2 < j.tasks.length := by
        rcases h.listener with hl | hl <;> exact (List.getElem?_eq_some_iff.1 hl).1
      rw [← hk, getElem?_tasks_move ht, if_neg (Ne.symm h2), if_neg (by omega)]
      exact h.listener
  obtain ⟨hcommands, hlistening, hlistener⟩ := hears
  rw [← hstate] at hchat hacks herrors hdataflow
  exact ⟨hcommands.trans h.commands, hlistening.trans h.listening, hchat.1.trans h.chatIn,
    hchat.2.trans h.chatOut, hacks.trans h.acks, herrors.trans h.errors,
    hdataflow.trans h.dataflow, hlistener, hsole, hhealth⟩

theorem worn_of_course (hi : i.IsNew) (hc : i.Course es j) (hes : OnlyRoutine es) : Worn i j := by
  induction hc with
  | refl => exact hi.worn
  | turn _ hs ih => exact (ih fun l a h => hes l a (List.mem_append_left _ h)).step hi hs
  | action _ a ih =>
    exact (ih fun l a h => hes l a (List.mem_append_left _ h)).act (hes _ a List.mem_concat_self)

/-! ## What is left at the end -/

/-- A plugin in which nothing is left of its use but closed listeners and tasks that are done. -/
structure Recovered (i k : Instance σ) : Prop where
  keeper : k.tasks[0]? = some (.keeper .receive)
  courier : k.tasks[1]? = some (.courier .receive)
  listener : k.tasks[2]? = some (.listen .receive)
  done : ∀ u x, 3 ≤ u → k.tasks[u]? = some x → x.isDone = true
  closed : ∀ l ∈ k.state.listeners, l.closed = true
  core : ∀ c, k.state.core c = { i.state.core c with
    occupied := k.state.occupied
    listeners := k.state.listeners }

variable {k : Instance σ}

theorem Concluded.unlocked (h : k.Concluded) (hi : i.Fresh) (hr : i.Reachable k) :
    k.state.lock.isHeld = false := by
  cases hheld : k.state.lock.holder with
  | none =>
    rw [Lock.isHeld, hheld]
    rfl
  | some t =>
    have hstage := (lockOrderly_of_reachable hi hr).stage_holder t hheld
    cases ht : k.tasks[t]? with
    | none =>
      rw [Instance.lockStage, ht] at hstage
      exact absurd rfl hstage
    | some x =>
      rw [lockStage_of_getElem? ht] at hstage
      exact absurd (h.lockStage hi hr ht) hstage

/-- Nothing listens in a plugin that is idle while nobody starts or stops it. -/
theorem silent_of_idle (hi : i.Fresh) (hr : i.Reachable k) (hidle : k.state.phase = .idle)
    (hunlocked : k.state.lock.isHeld = false) : k.state.Silent := by
  have hc := coherent_of_reachable hi hr
  have hrest : k.state.AtRest := hc.rest fun t hin => by
    rw [Lock.isHeld, hc.lock.holder_of_inside t hin] at hunlocked
    cases hunlocked
  rcases hrest with ⟨hrunning, -⟩ | ⟨-, -, hsilent, -⟩
  · rw [hidle] at hrunning
    cases hrunning
  · exact hsilent

/-- Whatever is left of a task in a plugin that is idle and at rest, it is done. -/
theorem Concluded.isDone (h : k.Concluded) (hi : i.Fresh) (hr : i.Reachable k)
    (hsilent : k.state.Silent) {u : Nat} {z : Task} (hz : k.tasks[u]? = some z)
    (hlistener : z.kind ≠ .listener) (hkeeper : z.kind ≠ .keeper) (hcourier : z.kind ≠ .courier) :
    z.isDone = true := by
  cases h.isBystander hi hr hz hlistener with
  | keeper | courier => contradiction
  | started | failed | stopped | reported => rfl
  | serve x =>
    -- a server that is not done attends a listener that is open
    have hnobody : x.listener? = none := by
      refine Option.eq_none_iff_forall_ne_some.2 fun n hn => ?_
      obtain ⟨l, hl, hopen⟩ := (attended_of_reachable hi hr).isOpen u n
        ((listenerOf_of_getElem? hz).trans hn)
      rw [hsilent n l hl] at hopen
      cases hopen
    cases x with
    | done => rfl
    | _ => cases hnobody

theorem Worn.recovered (h : Worn i k) (hi : i.IsNew) (hr : i.Reachable k) (hk : k.Concluded)
    (hstaffed : ∃ x y, k.Staffed x y) (hidle : k.state.phase = .idle) : Recovered i k := by
  have hunlocked := hk.unlocked hi.fresh hr
  obtain ⟨hlock, -, hserver, hledger⟩ := idle_of_reachable hi.fresh hr hidle hunlocked
  have hsilent := silent_of_idle hi.fresh hr hidle hunlocked
  have hreturned {α : Type} {q q₀ : Queue α} (hq : q.Drained) (hq₀ : q₀.IsNew)
      (hsame : q.emptied = q₀.emptied) : q = q₀ := by
    have hopen : q.hasReceiver = true := (congrArg Queue.hasReceiver hsame).trans hq₀.hasReceiver
    rw [← Queue.emptied_of_contents (hq hopen), hsame, Queue.emptied_of_contents hq₀.contents]
  have hacks := hreturned hk.acks hi.acks h.acks
  have herrors := hreturned hk.errors hi.errors h.errors
  have hdataflow := hreturned hk.dataflow hi.dataflow h.dataflow
  obtain ⟨x, y, hstaffed⟩ := hstaffed
  obtain ⟨rfl, houtbox⟩ := hstaffed.eq_receive (hk.quiescent 0)
  obtain ⟨rfl, hpending⟩ : y = .receive ∧ k.state.pending = [] := by
    refine (hstaffed.courier_waits (hk.quiescent 1)).resolve_right fun hwaits => ?_
    have hnobody := hk.dataflow.isWaiting_eq_false (hdataflow ▸ hi.dataflow.hasReceiver) 1
    rw [hnobody] at hwaits
    cases hwaits.2
  have hlistener : k.tasks[2]? = some (.listen .receive) := by
    rcases h.listener with hl | hl
    · cases hk.stuck hl
    · exact hl
  refine ⟨hstaffed.keeper, hstaffed.courier, hlistener, fun u z hu hz => ?_, fun l hl => ?_,
    fun c => ?_⟩
  · have hkind {kind : TaskKind} {t : Nat} (hsole : k.Sole kind t) (ht : t < 3) :
        z.kind ≠ kind := by
      intro heq
      have := (hsole u).1 (by rw [kindOf, hz, Option.map_some, heq])
      omega
    exact hk.isDone hi.fresh hr hsilent hz (hkind h.sole (by decide))
      (hkind hstaffed.soleKeeper (by decide)) (hkind hstaffed.soleCourier (by decide))
  · obtain ⟨n, hn⟩ := List.getElem?_of_mem hl
    exact hsilent n l hn
  · rw [PluginState.core, PluginState.core, hlock, hidle, hserver, hledger, h.listening,
      h.commands, h.chatIn, h.chatOut, hacks, herrors, hdataflow, houtbox, hpending,
      hi.fresh.lock, hi.fresh.phase, hi.fresh.server, hi.fresh.ledger, hi.fresh.outbox,
      hi.fresh.pending]

/-! ## A plugin that was never used -/

/-- A plugin that was attached and that nobody has asked for anything. -/
structure Dormant (i j : Instance σ) : Prop where
  tasks : ∃ x : ListenTask, (x = .open ∨ x = .receive) ∧
    j.tasks = [.keeper .receive, .courier .receive, .listen x]
  state : ∃ occupied clock log, j.state = { i.state with
    occupied := occupied, clock := clock, log := log }

theorem Dormant.step {j k : Instance σ} (h : Dormant i j) (hi : i.IsNew) (hworn : Worn i j)
    {t : Nat} (hs : j.step? t = some k) : Dormant i k := by
  obtain ⟨x, hx, htasks⟩ := h.tasks
  obtain ⟨occupied, clock, log, hstate⟩ := h.state
  match t with
  | 0 =>
    have houtbox : j.state.outbox = [] := by rw [hstate]; exact hi.fresh.outbox
    rw [Instance.step?, htasks] at hs
    simp [Task.step?, KeeperTask.step?, houtbox] at hs
  | 1 =>
    have hpending : j.state.pending = [] := by rw [hstate]; exact hi.fresh.pending
    rw [Instance.step?, htasks] at hs
    simp [Task.step?, CourierTask.step?, hpending] at hs
  | 2 =>
    obtain ⟨-, rfl⟩ := hworn.step_listener hi hs
    refine ⟨⟨.receive, .inr rfl, ?_⟩, occupied, clock,
      log ++ [.info "command receiver initialized"], ?_⟩
    · rw [tasks_move, htasks]
      rfl
    · rw [state_move, hstate]
      rfl
  | n + 3 =>
    rw [Instance.step?, htasks] at hs
    cases hs

theorem dormant_of_course {j : Instance σ} (hi : i.IsNew) (hc : i.Course es j)
    (hes : OnlyAmbient es) : Dormant i j := by
  have hworn {es : List (Event σ)} {j : Instance σ} (hc : i.Course es j) (hes : OnlyAmbient es) :
      Worn i j := worn_of_course hi hc fun l a h => .ambient (hes l a h)
  induction hc with
  | refl => exact ⟨⟨.open, .inl rfl, hi.fresh.tasks⟩, _, _, _, rfl⟩
  | turn hc hs ih =>
    have hbefore : OnlyAmbient _ := fun l a h => hes l a (List.mem_append_left _ h)
    exact (ih hbefore).step hi (hworn hc hbefore) hs
  | action hc a ih =>
    obtain ⟨htasks, occupied, clock, log, hstate⟩ :=
      ih fun l a h => hes l a (List.mem_append_left _ h)
    cases hes _ a List.mem_concat_self <;>
      exact ⟨htasks, _, _, _, by rw [state_act, hstate]; rfl⟩

/-! ## The used plugin and the new one -/

omit [RecordStore σ] in
/-- Plugins that are attached in the same way differ in their stores at most. -/
theorem attached_alike {a : Attachment} {platform : Platform} {capacity : Nat}
    {store store' : σ} {i j : Instance σ} (hi : attach a platform capacity store = .ok i)
    (hj : attach a platform capacity store' = .ok j) :
    i.setup = j.setup ∧ ∀ c, i.state.core c = j.state.core c := by
  obtain ⟨equipment, he, rfl⟩ := eq_of_attach hi
  obtain ⟨equipment', he', rfl⟩ := eq_of_attach hj
  cases he.symm.trans he'
  exact ⟨rfl, fun _ => rfl⟩

/-- The number that a task of a new plugin has in one with so many further tasks. -/
def beyond (n t : Nat) : Nat := if t < 3 then t else t + n

theorem beyond_injective (n : Nat) : (beyond n).Injective := by
  intro t u h
  unfold beyond at h
  split at h <;> split at h <;> omega

/-- A plugin that has recovered goes on like one that was never used. -/
theorem Recovered.renews {i₀ i j₀ j : Instance σ} (h : Recovered i₀ i) (hnew : Dormant j₀ j)
    (hj₀ : j₀.IsNew) (hrest : j.Quiescent) (hsetup : i.setup = j.setup)
    (hcore : ∀ c, i₀.state.core c = j₀.state.core c)
    (hhealth : i.state.health.Within i.setup.choices.services)
    (hports : i.state.occupied = j.state.occupied) :
    Renews (beyond (i.tasks.length - 3)) i.state.listeners i j := by
  obtain ⟨x, hx, htasks⟩ := hnew.tasks
  obtain ⟨occupied, clock, log, hstate⟩ := hnew.state
  have hlt : 2 < i.tasks.length := (List.getElem?_eq_some_iff.1 h.listener).1
  have hreceives : x = .receive := by
    rcases hx with rfl | rfl
    · have hopen := hrest 2
      rw [Instance.step?, htasks] at hopen
      cases hopen
    · rfl
  subst hreceives
  have hstate' (c : σ) : i.state.core c =
      ((j.state.recast (beyond (i.tasks.length - 3)) []).behind i.state.listeners).core c := by
    have hlock : j₀.state.lock.renumber (beyond (i.tasks.length - 3)) = j₀.state.lock := by
      rw [hj₀.fresh.lock]
      rfl
    have hserver : j₀.state.server.map (i.state.listeners.length + ·) = j₀.state.server := by
      rw [hj₀.fresh.server]
      rfl
    have hlisteners : i.state.listeners ++ j₀.state.listeners = i.state.listeners := by
      rw [hj₀.fresh.listeners, List.append_nil]
    rw [h.core, hcore, hports, hstate]
    simp only [PluginState.core, PluginState.behind, PluginState.recast, hlock, hserver,
      hlisteners, hj₀.acks.renumber_eq, hj₀.errors.renumber_eq, hj₀.dataflow.renumber_eq]
  have hempty : j.state.health = .empty := by rw [hstate]; exact hj₀.fresh.health
  refine ⟨hsetup, beyond_injective _, fun d => ?_, fun t => ?_, fun u z hz hu => ?_, h.closed,
    ⟨j.state.store, hstate' _⟩, .inr ⟨hempty, hsetup ▸ hhealth⟩⟩
  · rw [htasks, beyond, if_neg (by simp)]
    simp only [List.length_cons, List.length_nil]
    omega
  · rw [htasks]
    rcases t with - | - | - | t
    · exact congrArg (Option.map Task.core) h.keeper
    · exact congrArg (Option.map Task.core) h.courier
    · exact congrArg (Option.map Task.core) h.listener
    · rw [beyond, if_neg (by omega), List.getElem?_eq_none (by omega)]
      rfl
  · refine h.done u z ?_ hz
    by_contra hlt
    exact hu u (if_pos (by omega))

/-- Two plugins go on alike: whatever the host of one does from now on, and in whatever order its
tasks take turns, the same can be seen in a course of the other, and the one is at rest whenever the
other is. -/
structure GoesOnLike (i j : Instance σ) : Prop where
  view : i.view false = j.view false
  follow : ∀ es i', i.Course es i' → ∃ fs j', j.Course fs j' ∧
    observations false fs = observations false es ∧ (j'.Quiescent ↔ i'.Quiescent)
  follow_back : ∀ fs j', j.Course fs j' → ∃ es i', i.Course es i' ∧
    observations false es = observations false fs ∧ (i'.Quiescent ↔ j'.Quiescent)

theorem Renews.goesOnLike {ρ : Nat → Nat} {old : List Listener} {j : Instance σ}
    (h : Renews ρ old k j) (hi : i.Fresh) (hj : i.Course es j) : GoesOnLike k j := by
  refine ⟨h.view_false, fun gs k' hgs => ?_, fun fs j' hfs => ?_⟩
  · obtain ⟨fs, j', habreast⟩ := h.course_back hi hj hgs
    exact ⟨fs, j', habreast.new, habreast.same.symm, habreast.renews.quiescent_iff.symm⟩
  · obtain ⟨gs, k', habreast⟩ := h.course hi hj hfs
    exact ⟨gs, k', habreast.used, habreast.same, habreast.renews.quiescent_iff⟩

/-- A plugin was attached, and it was started and stopped and errors were reported to it, in
whatever way. If it is idle, nothing goes on in it and the host has read everything, it goes on like
a plugin that was attached in the same way and not used, as long as others hold the same places:
acknowledgments, errors, snapshots, phases and places are the same, and the health of the services
is from the moment on at which a start succeeds. And all the while, whenever the plugin was idle and
nobody started or stopped it, it held no place. -/
theorem stopped_like_new {a : Attachment} {platform : Platform} {capacity : Nat}
    {store store' : σ} {i₀ i j₀ j : Instance σ} {es fs : List (Event σ)}
    (hi₀ : attach a platform capacity store = .ok i₀) (hi : i₀.Course es i) (hes : OnlyRoutine es)
    (hidle : i.state.phase = .idle) (hdrained : i.Concluded)
    (hj₀ : attach a platform capacity store' = .ok j₀) (hj : j₀.Course fs j) (hfs : OnlyAmbient fs)
    (hrest : j.Quiescent) (hports : i.state.occupied = j.state.occupied) :
    GoesOnLike i j ∧
      ∀ e ∈ es, e.after.state.phase = .idle → e.after.state.lock.isHeld = false →
        e.after.state.heldEndpoints = e.after.state.occupied := by
  have hnew := isNew_of_attach hi₀
  have hnew' := isNew_of_attach hj₀
  obtain ⟨hsetup, hcore⟩ := attached_alike hi₀ hj₀
  have hworn := worn_of_course hnew hi hes
  obtain ⟨x, y, hstaffed, -⟩ :=
    conveyed_of_course (hnew.fresh.pipelineEmpty hnew.dataflow.contents) hi
  have hrecovered := hworn.recovered hnew hi.reachable hdrained ⟨x, y, hstaffed⟩ hidle
  have hsame : i.setup = j.setup := by
    rw [setup_of_reachable hi.reachable, hsetup, setup_of_reachable hj.reachable]
  have hrenews := hrecovered.renews (dormant_of_course hnew' hj hfs) hnew' hrest hsame hcore
    hworn.health hports
  refine ⟨hrenews.goesOnLike hnew'.fresh hj, fun e he hphase hunlocked => ?_⟩
  obtain ⟨past, rest, rfl⟩ := List.append_of_mem he
  have hreach := hi.of_append.2.1.reachable
  rw [PluginState.heldEndpoints,
    PluginState.ownEndpoints_of_silent (silent_of_idle hnew.fresh hreach hphase hunlocked),
    List.append_nil]

/-- A plugin that was started and stopped goes on like one that was not. -/
theorem stopped_like_new_furnished : ∃ (i₀ running i j : Instance Store.Tree)
    (es fs : List (Event Store.Tree)), attach furnished sampleSetup.platform 1 .empty = .ok i₀ ∧
      i₀.Course es running ∧ running.state.phase = .running ∧
      i₀.Course (es ++ [.action running (.call (.stop "p1"))] ++ fs) i ∧
      i.state.phase = .idle ∧ i.Concluded ∧ GoesOnLike i j := by
  let start : HostAction := .call (.start "p1")
  let stop : HostAction := .call (.stop "p1")
  obtain ⟨i₀, hi₀, hrunning, hidle, hports⟩ : ∃ i₀ : Instance Store.Tree,
      attach furnished sampleSetup.platform 1 .empty = .ok i₀ ∧
        (Account.play (i₀.account []) start).affairs.phase = .running ∧
        (Account.play (Account.play (i₀.account []) start) stop).affairs.phase = .idle ∧
        (Account.play (Account.play (i₀.account []) start) stop).surroundings.occupied =
          i₀.surroundings.occupied :=
    ⟨_, rfl, by with_unfolding_all rfl, by with_unfolding_all rfl, by with_unfolding_all rfl⟩
  have hnew := isNew_of_attach hi₀
  have hrest (es : List (Event Store.Tree)) (j : Instance Store.Tree) (h : i₀.Course es j) :=
    exists_concluded j (roomy_of_course (roomy_of_attach (by decide) hi₀) h)
  have hupkeep {es : List (Event Store.Tree)} (h : OnlyReads es) : OnlyUpkeep es :=
    fun l a ha => (h l a ha).isUpkeep
  -- the host reads all that arrives, each time until the plugin has come to rest
  obtain ⟨es₁, k₁, hc₁, hr₁, hk₁, -⟩ := hrest [] i₀ .refl
  have hplays₁ : i₀.Plays [] es₁ k₁ := .begin hc₁ (hupkeep hr₁) hk₁
  obtain ⟨es₂, k₂, hc₂, hr₂, hk₂, -⟩ := hrest _ _ (hplays₁.course.action start)
  have hplays₂ := hplays₁.operation start hc₂ (hupkeep hr₂) hk₂
  obtain ⟨es₃, k₃, hc₃, hr₃, hk₃, -⟩ := hrest _ _ (hplays₂.course.action stop)
  have hplays₃ := hplays₂.operation stop hc₃ (hupkeep hr₃) hk₃
  have haccount₂ := (account_of_plays hnew hplays₂).2
  have haccount₃ := (account_of_plays hnew hplays₃).2
  have hroutine : OnlyRoutine (es₁ ++ [.action k₁ start] ++ es₂ ++ [.action k₂ stop] ++ es₃) :=
    (((hr₁.onlyRoutine.append (.call k₁ _)).append hr₂.onlyRoutine).append (.call k₂ _)).append
      hr₃.onlyRoutine
  obtain ⟨ts, j, hj, hquiescent, -⟩ := exists_steps_settle i₀
  have hambient {ws : List (Turn Store.Tree)} {a : HostAction} {l : Instance Store.Tree}
      (h : Event.action l a ∈ [] ++ ws.map Event.turn) : False := by
    obtain ⟨w, -, hw⟩ := List.mem_map.1 (List.mem_append.1 h |>.resolve_left List.not_mem_nil)
    cases hw
  have hsurroundings : j.surroundings = i₀.surroundings :=
    surroundings_course (Course.refl.turns hj) fun l a h => (hambient h).elim
  have hoccupied : k₃.state.occupied = j.state.occupied := by
    have hj : j.state.occupied = i₀.surroundings.occupied :=
      congrArg Surroundings.occupied hsurroundings
    rw [hj, ← hports]
    exact congrArg (fun x => x.surroundings.occupied) haccount₃
  have hphase₂ : k₂.state.phase = .running :=
    (congrArg (fun x => x.affairs.phase) haccount₂).trans hrunning
  have hphase₃ : k₃.state.phase = .idle :=
    (congrArg (fun x => x.affairs.phase) haccount₃).trans hidle
  exact ⟨i₀, k₂, k₃, j, _, _, hi₀, hplays₂.course, hphase₂, hplays₃.course, hphase₃, hk₃,
    (stopped_like_new hi₀ hplays₃.course hroutine hphase₃ hk₃ hi₀ (Course.refl.turns hj)
      (fun l a h => (hambient h).elim) hquiescent hoccupied).1⟩

end Instance

end PluginKernel
