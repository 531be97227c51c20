import PluginKernel.Proofs.Instance.QueueOrder
import PluginKernel.Proofs.Instance.Coherence
import PluginKernel.Proofs.Ledger.Retrieval
import PluginKernel.Proofs.Store.Overwriting

/-!
# What is stored of a run

One task keeps ledgers: it takes snapshots out of the queue and writes their entries to the store,
one in a turn. Its invariant is that what it has written, what it is about to write and what waits
in the queue are, in this order, the entries of all snapshots that were ever queued. So once the
queue is drained the store holds the last of these entries for each flow and code.

A snapshot repeats all entries of the one that it goes on from. If nobody is overtaken, the last
entry with a flow and a code that was queued is therefore the last one that was recorded.
-/

namespace PluginKernel

variable {σ : Type}

/-! ## The last entry of several snapshots -/

namespace Ledger

variable {g f c : String} {s : Statistic}

theorem lastAmong_append (ss ss' : List Statistic) :
    lastAmong (ss ++ ss') g f c = (lastAmong ss' g f c).or (lastAmong ss g f c) := by
  rw [lastAmong, List.filter_append, List.filter_append, List.getLast?_append]
  rfl

theorem lastAmong_singleton_of_ne
    (h : ¬(s.flowGroup = g ∧ s.flowName = f ∧ s.stateCode = c)) : lastAmong [s] g f c = none := by
  rw [lastAmong, List.filter_filter, List.getLast?_eq_none_iff, List.filter_eq_nil_iff]
  intro e he hsame
  rw [List.mem_singleton.1 he, Bool.and_eq_true, decide_eq_true_eq, decide_eq_true_eq] at hsame
  exact h ⟨hsame.2.1, hsame.2.2, hsame.1⟩

theorem of_lastAmong_eq_some {ss : List Statistic} (h : lastAmong ss g f c = some s) :
    s ∈ ss ∧ s.flowGroup = g ∧ s.flowName = f ∧ s.stateCode = c := by
  have hmem := List.mem_of_getLast? h
  rw [List.mem_filter, List.mem_filter, decide_eq_true_eq, decide_eq_true_eq] at hmem
  exact ⟨hmem.1.1, hmem.1.2.1, hmem.1.2.2, hmem.2⟩

end Ledger

namespace Instance

open Ledger in
/-- What a snapshot says last of a flow and a code is the last of all entries with them, as long as
no later snapshot brings another one. -/
theorem Timelines.lastAmong_eq {past later : List Ledger} {l : Ledger} {s : Statistic}
    {g f c : String} (h : Timelines (past ++ l :: later)) (hs : l.lastEntry? g f c = some s)
    (hlater : ∀ l' ∈ later, ∀ e ∈ l'.statistics.getLast?,
      ¬(e.flowGroup = g ∧ e.flowName = f ∧ e.stateCode = c)) :
    lastAmong ((past ++ l :: later).flatMap Ledger.statistics) g f c = some s := by
  -- the last snapshot repeats the entry, unless it belongs to a run without one
  suffices hall : lastAmong ((past ++ l :: later).flatMap Ledger.statistics) g f c = some s ∧
      ∀ last ∈ (past ++ l :: later).getLast?,
        lastAmong last.statistics g f c = some s ∨ lastAmong last.statistics g f c = none from
    hall.1
  rw [lastEntry?_eq_lastAmong] at hs
  induction later using List.reverseRecOn with
  | nil =>
    constructor
    · rw [List.flatMap_append, lastAmong_append, List.flatMap_singleton, hs, Option.some_or]
    · intro last hlast
      rw [List.getLast?_append, List.getLast?_singleton, Option.some_or, Option.mem_some_iff]
        at hlast
      exact Or.inl (hlast ▸ hs)
  | append_singleton later l' ih =>
    rw [← List.cons_append, ← List.append_assoc] at h ⊢
    obtain ⟨hfront, horigin⟩ := h.of_concat
    obtain ⟨hflat, hrepeats⟩ := ih hfront fun l' hl' =>
      hlater l' (List.mem_append_left _ hl')
    have hnew := hlater l' (List.mem_append_right _ (List.mem_singleton_self _))
    have hl' : lastAmong l'.statistics g f c = some s ∨ lastAmong l'.statistics g f c = none := by
      rcases horigin with hsize | ⟨last, hget, e, he⟩
      · obtain ⟨e, he⟩ := List.length_eq_one_iff.1 hsize
        rw [he] at hnew ⊢
        exact Or.inr (lastAmong_singleton_of_ne (hnew e rfl))
      · rw [he] at hnew ⊢
        rw [lastAmong_append, lastAmong_singleton_of_ne (hnew e (by simp)), Option.none_or]
        exact hrepeats last hget
    constructor
    · rw [List.flatMap_append, lastAmong_append, List.flatMap_singleton, hflat]
      rcases hl' with hl' | hl' <;> rw [hl'] <;> rfl
    · intro last hget
      rw [List.getLast?_append, List.getLast?_singleton, Option.some_or, Option.mem_some_iff]
        at hget
      exact hget ▸ hl'

end Instance

/-! ## Keeping -/

namespace KeeperTask

/-- The entries that a keeper is about to write. -/
def unwritten : KeeperTask → List Statistic
  | persist _ _ rest _ => rest
  | _ => []

/-- Whatever a keeper is about to write is filed in one place. -/
def FilesUnder (filing : Filing) : KeeperTask → Prop
  | persist filing' _ _ _ => filing' = filing
  | _ => True

/-- A keeper is about to write an entry, and the store does not refuse it. -/
def WriteSucceeds [RecordStore σ] (store : σ) (x : KeeperTask) : Prop :=
  ∀ (filing : Filing) (l : Ledger) (s : Statistic) (rest : List Statistic) (summary : WriteCount),
    x = persist filing l (s :: rest) summary →
      ∃ next, RecordStore.write store (Ledger.pathOf filing s)
        (StoredStatistic.ofStatistic s).toMembers = .ok next

/-- A turn of a keeper writes at most the next entry, and what is left to write is the rest of the
entries that were left before. -/
theorem keeps [RecordStore σ] [Store.LawfulStore σ] {setup : Setup} {filing : Filing}
    {s s' : PluginState σ} {x x' : KeeperTask} {s₀ : σ} {ss : List Statistic}
    (h : x.step? setup s = some (s', x')) (hfiling : setup.filing? = some filing)
    (hx : x.FilesUnder filing) (hwrite : x.WriteSucceeds s.store)
    (hstore : Store.ReadsAfter s₀ (ss.map (Ledger.writeOf filing)) s.store) :
    ∃ new, x'.FilesUnder filing ∧
      Store.ReadsAfter s₀ ((ss ++ new).map (Ledger.writeOf filing)) s'.store ∧
      new ++ x'.unwritten ++ s'.outbox.flatMap Ledger.statistics =
        x.unwritten ++ s.outbox.flatMap Ledger.statistics ∧
      s'.outbox.length ≤ s.outbox.length := by
  cases x with
  | receive =>
    simp only [step?] at h
    split at h
    · cases h
    next l rest houtbox =>
      rw [hfiling] at h
      cases h
      refine ⟨[], rfl, ?_, ?_, ?_⟩
      · rw [List.append_nil]
        exact hstore
      · rw [houtbox, List.flatMap_cons]
        rfl
      · rw [houtbox]
        exact Nat.le_succ _
  | persist filing' l rest summary =>
    obtain rfl : filing' = filing := hx
    cases rest with
    | nil =>
      simp only [step?] at h
      cases h
      refine ⟨[], trivial, ?_, rfl, Nat.le_refl _⟩
      rw [List.append_nil]
      exact hstore
    | cons e rest =>
      obtain ⟨next, hnext⟩ := hwrite _ l e rest summary rfl
      simp only [step?, Ledger.persistEntry, hnext] at h
      cases h
      refine ⟨[e], rfl, ?_, rfl, Nat.le_refl _⟩
      rw [List.map_append]
      exact hstore.write (StoredStatistic.parse?_print_toMembers _) hnext
  | forward l =>
    simp only [step?] at h
    cases h
    refine ⟨[], trivial, ?_, rfl, Nat.le_refl _⟩
    rw [List.append_nil]
    exact hstore

end KeeperTask

namespace Instance

/-- No write of a turn is refused. -/
def Turn.WriteSucceeds [RecordStore σ] (x : Turn σ) : Prop :=
  ∀ k, x.before.tasks[x.task]? = some (.keeper k) → k.WriteSucceeds x.before.state.store

/-- How far the keeper of a plugin has come: some entries are stored, over what the store held at
first, and with those that are left to write they are the entries of all queued snapshots. -/
structure Kept [RecordStore σ] (filing : Filing) (s₀ : σ) (ts : List (Turn σ)) (j : Instance σ)
    (x : KeeperTask) (stored : List Statistic) : Prop where
  /-- The keeper is the first task. -/
  keeper : j.tasks[0]? = some (.keeper x)
  /-- There is no other. -/
  alone : ∀ (t : Nat) (task : Task), j.tasks[t]? = some task → task.IsKeeper → t = 0
  /-- It files in one place. -/
  files : x.FilesUnder filing
  /-- What was written is what is read. -/
  store : Store.ReadsAfter s₀ (stored.map (Ledger.writeOf filing)) j.state.store
  /-- Nothing is left out, and nothing is reordered. -/
  entries : stored ++ x.unwritten ++ j.state.outbox.flatMap Ledger.statistics =
    (queued ts).flatMap Ledger.statistics

variable [RecordStore σ]

theorem Fresh.kept {i : Instance σ} (h : i.Fresh) (filing : Filing) :
    Kept filing i.state.store [] i .receive [] := by
  refine ⟨?_, fun t task htask hkeeper => ?_, trivial, Store.ReadsAfter.refl _, ?_⟩
  · rw [h.tasks]
    rfl
  · rw [h.tasks] at htask
    match t with
    | 0 => rfl
    | 1 | 2 => cases htask; cases hkeeper
    | _ + 3 => cases htask
  · rw [h.outbox]
    rfl

theorem Kept.act {filing : Filing} {s₀ : σ} {ts : List (Turn σ)} {j : Instance σ} {x : KeeperTask}
    {stored : List Statistic} (h : Kept filing s₀ ts j x stored) (a : HostAction) :
    Kept filing s₀ ts (j.act a) x stored := by
  have hstate : (j.act a).state.store = j.state.store ∧
      (j.act a).state.outbox = j.state.outbox := by
    rw [state_act]
    cases a with
    | drop e => cases e <;> exact ⟨rfl, rfl⟩
    | _ => exact ⟨rfl, rfl⟩
  have hpos : 0 < j.tasks.length := (List.getElem?_eq_some_iff.1 h.keeper).1
  refine ⟨?_, fun t task htask hkeeper => ?_, h.files, ?_, ?_⟩
  · rw [getElem?_tasks_act, if_neg (by omega)]
    exact h.keeper
  · rw [getElem?_tasks_act] at htask
    split at htask
    · cases a <;> cases htask <;> cases hkeeper
    · exact h.alone t task htask hkeeper
  · rw [hstate.1]
    exact h.store
  · rw [hstate.2]
    exact h.entries

/-- Whoever is not the keeper only appends to the queue. -/
theorem Turn.outbox_eq {i j : Instance σ} {t : Nat} {task : Task} (hs : i.step? t = some j)
    (htask : i.tasks[t]? = some task) (hkeeper : ¬ task.IsKeeper) :
    j.state.outbox = i.state.outbox ++ (⟨t, i, j⟩ : Turn σ).queued := by
  obtain ⟨task', m, htask', hm, rfl⟩ := step?_eq_some_iff.1 hs
  rw [htask] at htask'
  cases htask'
  rw [Turn.queued, state_move]
  cases Task.ledgerEffect hm with
  | keep _ houtbox | take _ _ _ houtbox => rw [houtbox, List.drop_length, List.append_nil]
  | queue l _ _ houtbox => rw [houtbox, List.drop_left]
  | collect l hcollects => exact absurd hcollects hkeeper

theorem Kept.step [Store.LawfulStore σ] {filing : Filing} {s₀ : σ} {ts : List (Turn σ)}
    {j k : Instance σ} {t : Nat} {x : KeeperTask} {stored : List Statistic}
    (h : Kept filing s₀ ts j x stored) (hs : j.step? t = some k)
    (hfiling : j.setup.filing? = some filing) (hwrite : (⟨t, j, k⟩ : Turn σ).WriteSucceeds) :
    ∃ x' stored', Kept filing s₀ (ts ++ [⟨t, j, k⟩]) k x' stored' := by
  obtain ⟨task, m, htask, hm, hmove⟩ := step?_eq_some_iff.1 hs
  have ht : t < j.tasks.length := (List.getElem?_eq_some_iff.1 htask).1
  have htasks : ∀ u, k.tasks[u]? =
      if u = t then some m.next else if u = j.tasks.length then m.spawned else j.tasks[u]? := by
    rw [← hmove]
    exact getElem?_tasks_move ht m
  have hstate : k.state = m.state := by rw [← hmove, state_move]
  have hspawned := Task.spawned_quiet hm
  by_cases hkeeper : task.IsKeeper
  · -- the keeper has its turn
    obtain rfl : t = 0 := h.alone t task htask hkeeper
    obtain rfl : task = .keeper x := Option.some.inj (htask.symm.trans h.keeper)
    simp only [Task.step?, Option.map_eq_some_iff, Prod.exists] at hm
    obtain ⟨s', x', hx, rfl⟩ := hm
    obtain ⟨new, hfiles, hstore, hentries, hshrinks⟩ :=
      KeeperTask.keeps hx hfiling h.files (hwrite x htask) h.store
    have hqueued : (⟨0, j, k⟩ : Turn σ).queued = [] := by
      rw [Turn.queued, hstate]
      exact List.drop_eq_nil_of_le hshrinks
    refine ⟨x', stored ++ new, ?_, fun u task hu htask' => ?_, hfiles, ?_, ?_⟩
    · rw [htasks, if_pos rfl]
    · rw [htasks] at hu
      split at hu
      next hu0 => exact hu0
      · split at hu
        · cases hu
        · exact h.alone u task hu htask'
    · rw [hstate]
      exact hstore
    · rw [hstate, queued_concat, hqueued, List.append_nil, ← h.entries, List.append_assoc stored,
        List.append_assoc stored, hentries, List.append_assoc]
  · -- somebody else has, and may queue
    obtain ⟨hstore, hnext⟩ := Task.store_of_not_isKeeper hm hkeeper
    have ht0 : 0 ≠ t := by
      rintro rfl
      rw [h.keeper] at htask
      cases htask
      exact hkeeper trivial
    refine ⟨x, stored, ?_, fun u task' hu hkeeper' => ?_, h.files, ?_, ?_⟩
    · rw [htasks, if_neg ht0, if_neg (by omega)]
      exact h.keeper
    · rw [htasks] at hu
      split at hu
      · cases hu
        exact absurd hkeeper' hnext
      · split at hu
        · exact absurd hkeeper' (hspawned task' hu).2
        · exact h.alone u task' hu hkeeper'
    · rw [hstate, hstore]
      exact h.store
    · rw [Turn.outbox_eq hs htask hkeeper, queued_concat, List.flatMap_append, List.flatMap_append,
        ← h.entries, List.append_assoc, List.append_assoc, List.append_assoc]

/-- In every history in which no write is refused, the keeper stores what is queued. -/
theorem kept_of_history [Store.LawfulStore σ] {i j : Instance σ} {ts : List (Turn σ)}
    {filing : Filing} (hi : i.Fresh) (h : i.History ts j) (hfiling : i.setup.filing? = some filing)
    (hwrites : ∀ x ∈ ts, x.WriteSucceeds) :
    ∃ x stored, Kept filing i.state.store ts j x stored := by
  induction h with
  | refl => exact ⟨_, _, hi.kept filing⟩
  | @step ts j k t h hs ih =>
    obtain ⟨x, stored, hkept⟩ := ih fun y hy => hwrites y (List.mem_append_left _ hy)
    have hsetup : j.setup = i.setup := setup_of_reachable (reachable_iff_history.2 ⟨ts, h⟩)
    exact hkept.step hs (hsetup ▸ hfiling)
      (hwrites _ (List.mem_append_right _ (List.mem_singleton_self _)))
  | act _ a ih =>
    obtain ⟨x, stored, hkept⟩ := ih hwrites
    exact ⟨x, stored, hkept.act a⟩

end Instance

end PluginKernel
