import PluginKernel.Proofs.Instance.Rounds

/-!
# What a host finds out

A host plays a script if it asks for one thing after the other and lets the plugin come to rest in
between. What it finds out then is an `Account`, and the account depends on the script alone:
`account_of_plays` computes it by a fold over the script, whatever turns were taken, whenever the
host has read and whichever of the ends for acknowledgments and ledgers it has let go of. The store
follows from the snapshots that were queued, which are in the account as well.
-/

namespace PluginKernel

variable {σ α : Type}

/-- What a host knows of a plugin that is at ease. -/
structure Account where
  affairs : Affairs
  surroundings : Surroundings
  /-- The errors that the host has read, oldest first. -/
  read : List PluginError

/-- The account after the next action of the host. If the host takes errors, it has read them all by
then. -/
def Account.play (x : Account) (op : HostAction) : Account :=
  let w := x.surroundings.act op
  let a := x.affairs.after w op
  ⟨a, w, if w.hears then a.told else x.read⟩

/-- From a queue that is closed afterwards nothing is read. -/
theorem Queue.Yields.eq_nil_of_closed {q q' : Queue α} {out : List α} (h : q.Yields q' out)
    (hclosed : q'.hasReceiver = false) : out = [] := by
  cases h with
  | keep | drop => rfl
  | read n he =>
    rw [he, Queue.read] at hclosed
    rw [readOut]
    split
    next hopen =>
      rw [if_pos hopen, take] at hclosed
      rw [hopen] at hclosed
      cases hclosed
    · rfl

/-! ## Stores -/

theorem Ledger.attemptedStore_eq [RecordStore σ] (filing : Filing) (store : σ) (s : Statistic) :
    attemptedStore filing store s =
      match RecordStore.write store (pathOf filing s) s.record with
      | .ok store' => store'
      | .error _ => store := by
  rw [attemptedStore, persistEntry, Statistic.record]
  cases RecordStore.write store (pathOf filing s) (StoredStatistic.ofStatistic s).toMembers <;> rfl

namespace IsTimeBlind

variable [RecordStore σ] {R : σ → σ → Prop} {store store' : σ} (filing : Filing)

theorem attempted (hR : IsTimeBlind R) (h : R store store') {s s' : Statistic}
    (hs : s.untimed = s'.untimed) :
    R (Ledger.attemptedStore filing store s) (Ledger.attemptedStore filing store' s') := by
  -- the path of a record does not depend on its time
  have hpath : Ledger.pathOf filing s.untimed = Ledger.pathOf filing s'.untimed := by rw [hs]
  change Ledger.pathOf filing s = Ledger.pathOf filing s' at hpath
  rw [Ledger.attemptedStore_eq, Ledger.attemptedStore_eq, ← hpath]
  rcases hR.write h (Ledger.pathOf filing s) hs with ⟨a, a', ha, ha', hrelated⟩ | ⟨e, e', he, he'⟩
  · rw [ha, ha']
    exact hrelated
  · rw [he, he']
    exact h

/-- Trying to write the same at other times leads to related stores. -/
theorem attempts (hR : IsTimeBlind R) (h : R store store') {ss ss' : List Statistic}
    (hss : ss.map Statistic.untimed = ss'.map Statistic.untimed) :
    R (ss.foldl (Ledger.attemptedStore filing) store)
      (ss'.foldl (Ledger.attemptedStore filing) store') := by
  induction ss generalizing ss' store store' with
  | nil =>
    obtain rfl : ss' = [] := List.map_eq_nil_iff.1 hss.symm
    exact h
  | cons s rest ih =>
    cases ss' with
    | nil => cases hss
    | cons s' rest' =>
      obtain ⟨hs, hrest⟩ := List.cons.inj hss
      exact ih (hR.attempted filing h hs) hrest

end IsTimeBlind

/-- The entries of some ledgers, but for their times. -/
theorem Ledger.flatMap_statistics_untimed (ls : List Ledger) :
    (ls.flatMap statistics).map Statistic.untimed = (ls.map untimed).flatMap statistics := by
  rw [List.map_flatMap, List.flatMap_map]
  rfl

/-- A keeper that is not about to write anything. -/
def KeeperTask.OnlyPasses : KeeperTask → Prop
  | persist _ _ _ _ => False
  | _ => True

/-- Where statistics are not kept, a keeper passes ledgers on and writes nothing. -/
theorem KeeperTask.onlyPasses_step [RecordStore σ] {setup : Setup} {s s' : PluginState σ}
    {x x' : KeeperTask} (h : x.step? setup s = some (s', x')) (hfiling : setup.filing? = none)
    (hx : x.OnlyPasses) : x'.OnlyPasses ∧ s'.store = s.store := by
  cases x with
  | receive =>
    simp only [step?, hfiling] at h
    split at h <;> cases h
    exact ⟨trivial, rfl⟩
  | persist filing l rest summary => cases hx
  | forward l =>
    cases h
    exact ⟨trivial, rfl⟩

namespace Instance

variable [RecordStore σ] {i j k : Instance σ} {es fs : List (Event σ)} {ops : List HostAction}

/-- From a queue that the host has let go of nothing is read any more. -/
theorem read_of_closed (o : Outlet σ α) (hc : j.Course fs k)
    (hclosed : (o.queue j.state).hasReceiver = false) :
    o.read fs = [] ∧ (o.queue k.state).hasReceiver = false := by
  induction hc with
  | refl => exact ⟨rfl, hclosed⟩
  | turn _ hs ih =>
    obtain ⟨task, m, -, hm, rfl⟩ := step?_eq_some_iff.1 hs
    rw [Outlet.read_turn, state_move, Queue.hasReceiver_takes (o.takes hm)]
    exact ih
  | @action fs l _ a ih =>
    have hyields := o.yields l.state a
    have hstays : (o.queue (l.state.act a)).hasReceiver = false := by
      by_contra hopen
      rw [Queue.hasReceiver_of_yields hyields (by simpa using hopen)] at ih
      cases ih.2
    rw [Outlet.read_action, state_act, ih.1, hyields.eq_nil_of_closed hstays]
    exact ⟨rfl, hstays⟩

/-! ## A host that plays a script -/

/-- A plugin that has just been attached, before its host has done anything. -/
structure IsNew (i : Instance σ) : Prop where
  fresh : i.Fresh
  commands : i.state.commands.IsNew
  acks : i.state.acks.IsNew
  errors : i.state.errors.IsNew
  dataflow : i.state.dataflow.IsNew

omit [RecordStore σ] in
theorem isNew_of_attach {a : Attachment} {platform : Platform} {capacity : Nat} {store : σ}
    (h : attach a platform capacity store = .ok i) : i.IsNew := by
  refine ⟨fresh_of_attach h, ?_, ?_, ?_, ?_⟩ <;> rw [state_of_attach h] <;>
    exact Queue.isNew_empty capacity

/-- A host asks for some things, one after the other. In between it does nothing but to get on,
until the plugin has come to rest and all was read that was sent to the ends that the host has
kept. -/
inductive Plays (i : Instance σ) : List HostAction → List (Event σ) → Instance σ → Prop where
  | begin {es : List (Event σ)} {k : Instance σ} (h : i.Course es k) (hup : OnlyUpkeep es)
      (hk : k.Concluded) : Plays i [] es k
  | operation {ops : List HostAction} {es fs : List (Event σ)} {j k : Instance σ}
      (h : Plays i ops es j) (a : HostAction) (hc : (j.act a).Course fs k) (hup : OnlyUpkeep fs)
      (hk : k.Concluded) : Plays i (ops ++ [a]) (es ++ [.action j a] ++ fs) k

theorem Plays.course (h : i.Plays ops es k) : i.Course es k := by
  induction h with
  | begin h => exact h
  | operation _ a hc _ _ ih => exact (ih.action a).trans hc

theorem Plays.concluded (h : i.Plays ops es k) : k.Concluded := by
  cases h <;> assumption

/-- What the host of a plugin knows. -/
def account (j : Instance σ) (es : List (Event σ)) : Account :=
  ⟨j.affairs es, j.surroundings, Outlet.errors.read es⟩

namespace IsNew

/-- At first only the listener has anything to do. -/
theorem underway (h : i.IsNew) : Underway i 0 (.keeper .receive) .open ∧
    i.prospect [] (.keeper .receive) .open = i.affairs [] := by
  have htasks := h.fresh.tasks
  refine ⟨⟨by rw [htasks]; rfl, by rw [htasks]; rfl, by simp [Task.kind], fun u z hz hu hu0 => ?_,
    ⟨h.commands.idle, by simp [h.commands.contents], fun hne => absurd h.commands.contents hne,
      iff_of_true h.fresh.listening (by simp), iff_of_true h.commands.hasReceiver (by simp)⟩,
    fun _ => .keeper _, fun _ _ => .inl (.keeper _)⟩, ?_⟩
  · rw [htasks] at hz
    rcases u with - | - | - | u
    · exact absurd rfl hu0
    · cases hz
      exact .courier _
    · exact absurd rfl hu
    · cases hz
  · have hspeaks : i.surroundings.speaks = true := h.commands.hasSender
    simp [prospect, ListenTask.ahead, ListenTask.pending?, ListenTask.closing, Task.ahead,
      h.commands.contents, hspeaks]

/-- A host that takes errors has read all that were sent, once the plugin has come to rest. -/
theorem read_eq_sent (h : i.IsNew) (hc : i.Course es k) (hk : k.Concluded)
    (hopen : k.surroundings.hears = true) : Outlet.errors.read es = (k.affairs es).told := by
  have hidle := h.errors.idle
  have hconveyed := Outlet.errors.conveyed hc (fun _ _ => hidle) hopen
  have hread : (Outlet.errors.queue k.state).contents = [] := hk.errors hopen
  have hempty : (Outlet.errors.queue i.state).contents = [] := h.errors.contents
  rw [hread, hempty, List.append_nil, List.nil_append] at hconveyed
  exact hconveyed

end IsNew

/-- What a host finds out depends on nothing but what it has asked for. -/
theorem account_of_plays (hi : i.IsNew) (h : i.Plays ops es k) :
    k.AtEase ∧ k.account es = ops.foldl Account.play (i.account []) := by
  induction h with
  | @begin es k hc hup hk =>
    obtain ⟨hunderway, hprospect⟩ := hi.underway
    obtain ⟨t, x, y, hend, hsame⟩ := hunderway.course hi.fresh .refl hc hup
    obtain ⟨hease, haffairs⟩ := hk.atEase hi.fresh hc.reachable hend es
    rw [List.nil_append, haffairs, hprospect] at hsame
    have hsurroundings := surroundings_course hc hup
    have hears : k.surroundings.hears = true := by
      rw [hsurroundings]
      exact hi.errors.hasReceiver
    refine ⟨hease, ?_⟩
    rw [account, hi.read_eq_sent hc hk hears, hsame, hsurroundings]
    rfl
  | @operation ops es fs j k h a hc hup hk ih =>
    obtain ⟨hatEase, haccount⟩ := ih
    have hcourse := (h.course.action a).trans hc
    obtain ⟨hease, hsurroundings, haffairs⟩ := hatEase.operation hi.fresh h.course a hc hup hk
    have hread : Outlet.errors.read (es ++ [.action j a] ++ fs) =
        if k.surroundings.hears then (k.affairs (es ++ [.action j a] ++ fs)).told
        else Outlet.errors.read es := by
      split
      next hears => exact hi.read_eq_sent hcourse hk hears
      next hdeaf =>
        -- the queue of errors was closed when the action was done, so nothing was read since
        have hclosed : (Outlet.errors.queue (j.state.act a)).hasReceiver = false := by
          rw [hsurroundings, ← surroundings_act, surroundings, state_act] at hdeaf
          exact Bool.eq_false_iff.2 hdeaf
        have hnothing := (Outlet.errors.yields j.state a).eq_nil_of_closed hclosed
        rw [← state_act] at hclosed
        rw [Outlet.read, List.flatMap_append, ← Outlet.read, ← Outlet.read,
          (read_of_closed _ hc hclosed).1, Outlet.read_action, hnothing]
        simp
    refine ⟨hease, ?_⟩
    rw [List.foldl_concat, ← haccount, account, hread, haffairs, hsurroundings]
    rfl

/-! ## The store of a plugin that has come to rest -/

/-- Where statistics are not kept, nothing is written. -/
theorem store_of_unfiled (hi : i.PipelineEmpty) (h : i.Course es j)
    (hfiling : i.setup.filing? = none) : ∃ x y, j.Staffed x y ∧ x.OnlyPasses ∧
      j.state.store = i.state.store := by
  induction h with
  | refl => exact ⟨_, _, hi.staffed, trivial, rfl⟩
  | @turn es j k t h hs ih =>
    obtain ⟨x, y, hstaffed, hx, hstore⟩ := ih
    obtain ⟨x', y', hstaffed', hwork⟩ := hstaffed.step hs
    have hsetup : j.setup.filing? = none := by rw [setup_of_reachable h.reachable, hfiling]
    refine ⟨x', y', hstaffed', ?_⟩
    cases hwork with
    | keep htask hstep =>
      obtain ⟨hx', hsame⟩ := KeeperTask.onlyPasses_step hstep hsetup hx
      exact ⟨hx', hsame.trans hstore⟩
    | deliver htask ht hstep => exact ⟨hx, (CourierTask.leaves hstep).2.1.trans hstore⟩
    | other htask hkeeper houtbox hpending hdataflow hsame => exact ⟨hx, hsame.trans hstore⟩
  | @action es j h a ih =>
    obtain ⟨x, y, hstaffed, hx, hstore⟩ := ih
    refine ⟨x, y, hstaffed.act a, hx, ?_⟩
    rw [state_act, (PluginState.internals_act j.state a).2.2.2, hstore]

/-- When the keeper has nothing left to do, the store is what trying to write all snapshots that
were queued has made of it. -/
theorem store_of_kept {filing : Filing} {x : KeeperTask} {y : CourierTask} {tried : List Statistic}
    (hx : x = .receive) (houtbox : k.state.outbox = []) (hflow : Flow es k x y)
    (htried : Tried filing i.state.store (turnsOf es) k x tried) :
    k.state.store = ((queued (turnsOf es)).flatMap Ledger.statistics).foldl
      (Ledger.attemptedStore filing) i.state.store := by
  subst hx
  have hkept := hflow.kept
  rw [houtbox, KeeperTask.carried, List.append_nil, List.append_nil] at hkept
  obtain rfl : tried = [] := (List.append_eq_nil_iff.1 (Eq.symm htried.carried)).1
  rw [htried.store, htried.entries, hkept, List.append_nil]

/-- When nothing can go on, the store is what trying to write all snapshots that were queued has
made of it, if statistics are kept. -/
theorem store_of_quiescent (hi : i.PipelineEmpty) (h : i.Course es k) (hq : k.Quiescent) :
    k.state.store = match i.setup.filing? with
      | none => i.state.store
      | some filing => ((queued (turnsOf es)).flatMap Ledger.statistics).foldl
          (Ledger.attemptedStore filing) i.state.store := by
  cases hfiling : i.setup.filing? with
  | none =>
    obtain ⟨-, -, -, -, hstore⟩ := store_of_unfiled hi h hfiling
    exact hstore
  | some filing =>
    obtain ⟨x, y, hstaffed, hflow, htried⟩ := conveyed_of_course hi h
    obtain ⟨hx, houtbox⟩ := hstaffed.eq_receive (hq 0)
    obtain ⟨tried, htried⟩ := htried filing hfiling
    exact store_of_kept hx houtbox hflow htried

/-- Two courses in which the same snapshots were queued at other times end with stores that answer
alike. -/
theorem alike_of_queued [TimeBlindStore σ] (hi : i.PipelineEmpty) {es' : List (Event σ)}
    {k' : Instance σ} (h : i.Course es k) (h' : i.Course es' k') (hq : k.Quiescent)
    (hq' : k'.Quiescent) (hqueued : (queued (turnsOf es)).map Ledger.untimed =
      (queued (turnsOf es')).map Ledger.untimed) :
    AlikeButTimes k.state.store k'.state.store := by
  obtain ⟨R, hR⟩ := TimeBlindStore.exists_timeBlind (σ := σ)
  rw [store_of_quiescent hi h hq, store_of_quiescent hi h' hq']
  refine hR.alike ?_
  cases i.setup.filing? with
  | none => exact hR.refl _
  | some filing =>
    refine hR.attempts filing (hR.refl _) ?_
    rw [Ledger.flatMap_statistics_untimed, Ledger.flatMap_statistics_untimed, hqueued]

end Instance

end PluginKernel
