import PluginKernel.Proofs.Instance.Snapshots

/-!
# The order in which snapshots are queued

A history is the list of turns that tasks have taken, whatever the host did in between. Two lists
can be read off it: the snapshots that were taken and the snapshots that were queued. They hold the
same ledgers, but for those in hand. The order is the same if nobody has overtaken: whoever queues a
snapshot has had one in hand for longer than everybody else.
-/

namespace PluginKernel

variable {σ : Type}

namespace Instance

/-! ## Histories -/

/-- A turn that was taken. -/
structure Turn (σ : Type) where
  /-- The number of the task whose turn it was. -/
  task : Nat
  /-- The plugin before the turn. -/
  before : Instance σ
  /-- The plugin after the turn. -/
  after : Instance σ

/-- The turns, oldest first, by which one plugin has become another. -/
inductive History [RecordStore σ] (i : Instance σ) : List (Turn σ) → Instance σ → Prop where
  /-- Nothing has happened. -/
  | refl : History i [] i
  /-- A task has taken a turn. -/
  | step {ts : List (Turn σ)} {j k : Instance σ} {t : Nat} (h : History i ts j)
      (hs : j.step? t = some k) : History i (ts ++ [⟨t, j, k⟩]) k
  /-- The host has done something. -/
  | act {ts : List (Turn σ)} {j : Instance σ} (h : History i ts j) (a : HostAction) :
      History i ts (j.act a)

/-- Whatever can become of a plugin has a history. -/
theorem reachable_iff_history [RecordStore σ] {i j : Instance σ} :
    i.Reachable j ↔ ∃ ts, i.History ts j := by
  constructor
  · intro h
    induction h with
    | refl => exact ⟨_, .refl⟩
    | step _ hs ih =>
      obtain ⟨t, ht⟩ := hs
      obtain ⟨ts, hts⟩ := ih
      exact ⟨_, hts.step ht⟩
    | act _ a ih =>
      obtain ⟨ts, hts⟩ := ih
      exact ⟨ts, hts.act a⟩
  · rintro ⟨ts, h⟩
    induction h with
    | refl => exact .refl
    | step _ hs ih => exact ih.step ⟨_, hs⟩
    | act _ a ih => exact ih.act a

/-- The turns of some tasks, one after the other, up to the first that has to wait. -/
def turns [RecordStore σ] (i : Instance σ) : List Nat → List (Turn σ)
  | [] => []
  | t :: rest =>
    match i.step? t with
    | none => []
    | some j => ⟨t, i, j⟩ :: j.turns rest

theorem History.turns [RecordStore σ] {i j k : Instance σ} {ts : List (Turn σ)}
    (h : i.History ts j) {us : List Nat} (hs : j.steps? us = some k) :
    i.History (ts ++ j.turns us) k := by
  induction us generalizing ts j with
  | nil =>
    cases hs
    rw [Instance.turns, List.append_nil]
    exact h
  | cons t rest ih =>
    obtain ⟨j', hj', hrest⟩ := Option.bind_eq_some_iff.1 hs
    have hturns : j.turns (t :: rest) = [⟨t, j, j'⟩] ++ j'.turns rest := by
      rw [Instance.turns, hj', List.singleton_append]
    rw [hturns, ← List.append_assoc]
    exact ih (h.step hj') hrest

/-! ## What is in hand, taken and queued -/

/-- The snapshot that the task of a number has in hand. -/
def inHand (i : Instance σ) (t : Nat) : Option Ledger := i.tasks[t]?.bind Task.inHand

namespace Turn

/-- The snapshot that was taken in a turn. -/
def taken? (x : Turn σ) : Option Ledger :=
  match x.before.inHand x.task with
  | some _ => none
  | none => x.after.inHand x.task

/-- The snapshots that were queued in a turn. -/
def queued (x : Turn σ) : List Ledger :=
  x.after.state.outbox.drop x.before.state.outbox.length

/-- Who has a snapshot in hand after a turn, given who had one before it, the oldest first. -/
def pass (x : Turn σ) (hs : List Nat) : List Nat :=
  match x.taken?, x.queued with
  | some _, _ => hs ++ [x.task]
  | none, _ :: _ => hs.erase x.task
  | none, [] => hs

/-- Whether nobody queues in a turn who has had a snapshot in hand for less time than another. -/
def inTurn (x : Turn σ) (hs : List Nat) : Bool := x.queued.isEmpty || hs.head? == some x.task

end Turn

/-- The snapshots that were taken, oldest first. -/
def taken (ts : List (Turn σ)) : List Ledger := ts.filterMap Turn.taken?

/-- The snapshots that were queued, in the order of the queue. -/
def queued (ts : List (Turn σ)) : List Ledger := ts.flatMap Turn.queued

/-- Who has a snapshot in hand, the one with the oldest snapshot first. -/
def holders (ts : List (Turn σ)) : List Nat := ts.foldl (fun hs x => x.pass hs) []

/-- Whether nobody was overtaken between taking a snapshot and queueing it, given who had one in
hand at the beginning. -/
def inTurnFrom (hs : List Nat) : List (Turn σ) → Bool
  | [] => true
  | x :: rest => x.inTurn hs && inTurnFrom (x.pass hs) rest

/-- Nobody was overtaken between taking a snapshot and queueing it. -/
def InTurn (ts : List (Turn σ)) : Prop := inTurnFrom [] ts = true

@[simp] theorem taken_concat (ts : List (Turn σ)) (x : Turn σ) :
    taken (ts ++ [x]) = taken ts ++ x.taken?.toList := by
  rw [taken, List.filterMap_append, taken]
  cases h : x.taken? <;> simp [h]

@[simp] theorem queued_concat (ts : List (Turn σ)) (x : Turn σ) :
    queued (ts ++ [x]) = queued ts ++ x.queued := by
  simp [queued]

@[simp] theorem holders_concat (ts : List (Turn σ)) (x : Turn σ) :
    holders (ts ++ [x]) = x.pass (holders ts) := by
  simp [holders]

theorem inTurnFrom_concat (hs : List Nat) (ts : List (Turn σ)) (x : Turn σ) :
    inTurnFrom hs (ts ++ [x]) =
      (inTurnFrom hs ts && x.inTurn (ts.foldl (fun hs x => x.pass hs) hs)) := by
  induction ts generalizing hs with
  | nil => simp [inTurnFrom]
  | cons y ts ih =>
    rw [List.cons_append, inTurnFrom, ih, inTurnFrom, List.foldl_cons, Bool.and_assoc]

theorem inTurn_concat {ts : List (Turn σ)} {x : Turn σ} :
    InTurn (ts ++ [x]) ↔ InTurn ts ∧ x.inTurn (holders ts) = true := by
  rw [InTurn, inTurnFrom_concat, Bool.and_eq_true]
  rfl

theorem Turn.pass_of_taken {x : Turn σ} {l : Ledger} (h : x.taken? = some l) (hs : List Nat) :
    x.pass hs = hs ++ [x.task] := by
  rw [pass, h]

theorem Turn.pass_of_queued {x : Turn σ} {l : Ledger} (htaken : x.taken? = none)
    (hqueued : x.queued = [l]) (hs : List Nat) : x.pass hs = hs.erase x.task := by
  rw [pass, htaken, hqueued]

theorem Turn.pass_of_kept {x : Turn σ} (htaken : x.taken? = none) (hqueued : x.queued = [])
    (hs : List Nat) : x.pass hs = hs := by
  rw [pass, htaken, hqueued]

/-- What a turn does to snapshots. -/
inductive Turn.Effect (x : Turn σ) : Prop where
  | keep (htaken : x.taken? = none) (hqueued : x.queued = [])
      (hhands : ∀ u, x.after.inHand u = x.before.inHand u)
      (hledger : x.after.state.ledger = x.before.state.ledger)
  | take (l : Ledger) (htaken : x.taken? = some l) (hqueued : x.queued = [])
      (hhand : x.before.inHand x.task = none)
      (hhands : ∀ u, x.after.inHand u = if u = x.task then some l else x.before.inHand u)
      (horigin : l.size = 1 ∨ ∃ l₀, x.before.state.ledger = some l₀ ∧ l₀.Extends l)
      (hledger : ∀ l', x.after.state.ledger = some l' → l' = l)
  | queue (l : Ledger) (htaken : x.taken? = none) (hqueued : x.queued = [l])
      (hhand : x.before.inHand x.task = some l)
      (hhands : ∀ u, x.after.inHand u = if u = x.task then none else x.before.inHand u)
      (hledger : x.after.state.ledger = x.before.state.ledger)

theorem inHand_of_getElem? {i : Instance σ} {t : Nat} {task : Task} (h : i.tasks[t]? = some task) :
    i.inHand t = task.inHand := by
  rw [inHand, h, Option.bind_some]

theorem inHand_act (i : Instance σ) (a : HostAction) (t : Nat) :
    (i.act a).inHand t = i.inHand t := by
  rw [inHand, getElem?_tasks_act]
  split
  next ht =>
    rw [ht, inHand, List.getElem?_eq_none (Nat.le_refl _)]
    cases a <;> rfl
  · rfl

/-! ## Snapshots are accounted for -/

/-- Who has a snapshot in hand, after one was taken. -/
theorem filterMap_inHand_concat {i j : Instance σ} {t : Nat} {l : Ledger} {hs : List Nat}
    (ht : t ∉ hs) (h : ∀ u, j.inHand u = if u = t then some l else i.inHand u) :
    (hs ++ [t]).filterMap j.inHand = hs.filterMap i.inHand ++ [l] := by
  have hold : hs.filterMap j.inHand = hs.filterMap i.inHand := by
    refine List.filterMap_congr fun u hu => ?_
    have hut : u ≠ t := fun hut => ht (hut ▸ hu)
    rw [h, if_neg hut]
  have hnew : j.inHand t = some l := by rw [h, if_pos rfl]
  rw [List.filterMap_append, hold, List.filterMap_cons_some hnew, List.filterMap_nil]

/-- Who has a snapshot in hand, after one was queued. -/
theorem filterMap_inHand_erase {i j : Instance σ} {t : Nat} {hs : List Nat} (hnodup : hs.Nodup)
    (h : ∀ u, j.inHand u = if u = t then none else i.inHand u) :
    (hs.erase t).filterMap j.inHand = (hs.erase t).filterMap i.inHand := by
  refine List.filterMap_congr fun u hu => ?_
  have hut : u ≠ t := (hnodup.mem_erase_iff.1 hu).1
  rw [h, if_neg hut]

/-- Snapshots of runs, one run after the other: each of them opens a run or has one entry more than
the one before. -/
structure Timelines (ls : List Ledger) : Prop where
  /-- The first one opens a run. -/
  opens : ∀ l ∈ ls.head?, l.size = 1
  /-- The others open a run or go on. -/
  goesOn : ls.IsChain fun l l' => l'.size = 1 ∨ l.Extends l'

theorem Timelines.concat {ls : List Ledger} {l : Ledger} (h : Timelines ls)
    (hl : l.size = 1 ∨ ∃ l₀, ls.getLast? = some l₀ ∧ l₀.Extends l) : Timelines (ls ++ [l]) := by
  constructor
  · intro l' hl'
    cases ls with
    | nil =>
      cases hl'
      rcases hl with hsize | ⟨l₀, hlast, -⟩
      · exact hsize
      · cases hlast
    | cons first rest => exact h.opens l' hl'
  · refine h.goesOn.append (List.isChain_singleton l) ?_
    intro last hlast l' hl'
    cases hl'
    rcases hl with hsize | ⟨l₀, hlast', hextends⟩
    · exact Or.inl hsize
    · rw [Option.mem_def, hlast'] at hlast
      cases hlast
      exact Or.inr hextends

/-- What comes before the last snapshot, and what the last one does. -/
theorem Timelines.of_concat {ls : List Ledger} {l : Ledger} (h : Timelines (ls ++ [l])) :
    Timelines ls ∧ (l.size = 1 ∨ ∃ l₀, ls.getLast? = some l₀ ∧ l₀.Extends l) := by
  obtain ⟨hchain, -, hlast⟩ := List.isChain_append.1 h.goesOn
  refine ⟨⟨fun first hfirst => h.opens first ?_, hchain⟩, ?_⟩
  · rw [List.head?_append, hfirst]
    rfl
  · cases hget : ls.getLast? with
    | none =>
      rw [List.getLast?_eq_none_iff.1 hget] at h
      exact Or.inl (h.opens l rfl)
    | some l₀ => exact (hlast l₀ hget l rfl).imp_right fun hextends => ⟨l₀, rfl, hextends⟩

/-- Every snapshot that was taken is queued or in hand, and they were taken one from the other. -/
structure Accounted (ts : List (Turn σ)) (j : Instance σ) : Prop where
  /-- Nobody has two snapshots in hand. -/
  nodup : (holders ts).Nodup
  /-- The holders are those who have a snapshot in hand. -/
  mem_holders : ∀ t, t ∈ holders ts ↔ (j.inHand t).isSome
  /-- No snapshot is lost or queued twice. -/
  perm : (taken ts).Perm (queued ts ++ (holders ts).filterMap j.inHand)
  /-- Each snapshot goes on from the one before or opens a run. -/
  timelines : Timelines (taken ts)
  /-- The live ledger is the last snapshot. -/
  live : ∀ l, j.state.ledger = some l → (taken ts).getLast? = some l
  /-- If nobody was overtaken, those in hand come after those that are queued. -/
  order : InTurn ts → taken ts = queued ts ++ (holders ts).filterMap j.inHand

theorem Accounted.act {ts : List (Turn σ)} {j : Instance σ} (h : Accounted ts j) (a : HostAction) :
    Accounted ts (j.act a) := by
  have hhands : (j.act a).inHand = j.inHand := funext fun t => inHand_act j a t
  have hledger : (j.act a).state.ledger = j.state.ledger := by
    rw [state_act]
    cases a with
    | drop e => cases e <;> rfl
    | _ => rfl
  obtain ⟨hnodup, hmem, hperm, htimelines, hlive, horder⟩ := h
  refine ⟨hnodup, ?_, ?_, htimelines, ?_, ?_⟩
  · rw [hhands]
    exact hmem
  · rw [hhands]
    exact hperm
  · rw [hledger]
    exact hlive
  · rw [hhands]
    exact horder

theorem Accounted.keep {ts : List (Turn σ)} {x : Turn σ} (h : Accounted ts x.before)
    (htaken : x.taken? = none) (hqueued : x.queued = [])
    (hhands : ∀ u, x.after.inHand u = x.before.inHand u)
    (hledger : x.after.state.ledger = x.before.state.ledger) : Accounted (ts ++ [x]) x.after := by
  obtain ⟨hnodup, hmem, hperm, htimelines, hlive, horder⟩ := h
  have hholders : holders (ts ++ [x]) = holders ts := by
    rw [holders_concat, Turn.pass_of_kept htaken hqueued]
  have htakens : taken (ts ++ [x]) = taken ts := by
    rw [taken_concat, htaken, Option.toList_none, List.append_nil]
  have hqueueds : queued (ts ++ [x]) = queued ts := by
    rw [queued_concat, hqueued, List.append_nil]
  have hsame : x.after.inHand = x.before.inHand := funext hhands
  refine ⟨?_, ?_, ?_, ?_, ?_, fun hturns => ?_⟩
  · rw [hholders]
    exact hnodup
  · rw [hholders, hsame]
    exact hmem
  · rw [htakens, hqueueds, hholders, hsame]
    exact hperm
  · rw [htakens]
    exact htimelines
  · rw [htakens, hledger]
    exact hlive
  · rw [htakens, hqueueds, hholders, hsame]
    exact horder (inTurn_concat.1 hturns).1

theorem Accounted.take {ts : List (Turn σ)} {x : Turn σ} {l : Ledger} (h : Accounted ts x.before)
    (htaken : x.taken? = some l) (hqueued : x.queued = [])
    (hhand : x.before.inHand x.task = none)
    (hhands : ∀ u, x.after.inHand u = if u = x.task then some l else x.before.inHand u)
    (horigin : l.size = 1 ∨ ∃ l₀, x.before.state.ledger = some l₀ ∧ l₀.Extends l)
    (hledger : ∀ l', x.after.state.ledger = some l' → l' = l) : Accounted (ts ++ [x]) x.after := by
  obtain ⟨hnodup, hmem, hperm, htimelines, hlive, horder⟩ := h
  have htask : x.task ∉ holders ts := by
    rw [hmem, hhand]
    simp
  have hholders : holders (ts ++ [x]) = holders ts ++ [x.task] := by
    rw [holders_concat, Turn.pass_of_taken htaken]
  have htakens : taken (ts ++ [x]) = taken ts ++ [l] := by
    rw [taken_concat, htaken]
    rfl
  have hqueueds : queued (ts ++ [x]) = queued ts := by
    rw [queued_concat, hqueued, List.append_nil]
  refine ⟨?_, fun u => ?_, ?_, ?_, ?_, fun hturns => ?_⟩
  · rw [hholders]
    refine List.nodup_append.2 ⟨hnodup, by simp, fun u hu v hv => ?_⟩
    rw [List.mem_singleton.1 hv]
    rintro rfl
    exact htask hu
  · rw [hholders, List.mem_append, List.mem_singleton, hmem, hhands]
    by_cases hut : u = x.task <;> simp [hut]
  · rw [htakens, hqueueds, hholders, filterMap_inHand_concat htask hhands, ← List.append_assoc]
    exact hperm.append_right [l]
  · rw [htakens]
    refine htimelines.concat ?_
    rcases horigin with hsize | ⟨l₀, hl₀, hextends⟩
    · exact Or.inl hsize
    · exact Or.inr ⟨l₀, hlive l₀ hl₀, hextends⟩
  · intro l' hl'
    rw [hledger l' hl', htakens, List.getLast?_append, List.getLast?_singleton, Option.some_or]
  · rw [htakens, hqueueds, hholders, filterMap_inHand_concat htask hhands, ← List.append_assoc,
      horder (inTurn_concat.1 hturns).1]

theorem Accounted.queue {ts : List (Turn σ)} {x : Turn σ} {l : Ledger} (h : Accounted ts x.before)
    (htaken : x.taken? = none) (hqueued : x.queued = [l])
    (hhand : x.before.inHand x.task = some l)
    (hhands : ∀ u, x.after.inHand u = if u = x.task then none else x.before.inHand u)
    (hledger : x.after.state.ledger = x.before.state.ledger) : Accounted (ts ++ [x]) x.after := by
  obtain ⟨hnodup, hmem, hperm, htimelines, hlive, horder⟩ := h
  have htask : x.task ∈ holders ts := by
    rw [hmem, hhand]
    rfl
  have hholders : holders (ts ++ [x]) = (holders ts).erase x.task := by
    rw [holders_concat, Turn.pass_of_queued htaken hqueued]
  have htakens : taken (ts ++ [x]) = taken ts := by
    rw [taken_concat, htaken, Option.toList_none, List.append_nil]
  have hqueueds : queued (ts ++ [x]) = queued ts ++ [l] := by
    rw [queued_concat, hqueued]
  have herase := filterMap_inHand_erase hnodup hhands
  refine ⟨?_, fun u => ?_, ?_, ?_, ?_, fun hturns => ?_⟩
  · rw [hholders]
    exact hnodup.erase x.task
  · rw [hholders, hnodup.mem_erase_iff, hmem, hhands]
    by_cases hut : u = x.task <;> simp [hut]
  · have hfirst := (List.perm_cons_erase htask).filterMap x.before.inHand
    rw [List.filterMap_cons_some hhand] at hfirst
    rw [htakens, hqueueds, hholders, herase, List.append_assoc, List.singleton_append]
    exact hperm.trans (hfirst.append_left _)
  · rw [htakens]
    exact htimelines
  · rw [htakens, hledger]
    exact hlive
  · -- whoever queues is the first of the holders
    obtain ⟨hturns, hturn⟩ := inTurn_concat.1 hturns
    obtain ⟨rest, hrest⟩ : ∃ rest, holders ts = x.task :: rest := by
      rw [Turn.inTurn, hqueued, List.isEmpty_cons, Bool.false_or, beq_iff_eq] at hturn
      exact ⟨_, List.eq_cons_of_mem_head? hturn⟩
    rw [htakens, hqueueds, hholders, herase, horder hturns, hrest, List.erase_cons_head,
      List.filterMap_cons_some hhand, List.append_assoc, List.singleton_append]

theorem Fresh.accounted {i : Instance σ} (h : i.Fresh) : Accounted [] i := by
  refine ⟨List.nodup_nil, fun t => ?_, .refl _, ⟨by simp [taken], by simp [taken]⟩, fun l hl => ?_,
    fun _ => rfl⟩
  · rw [inHand, h.tasks]
    match t with
    | 0 | 1 | 2 => simp [holders, Task.inHand]
    | _ + 3 => simp [holders]
  · rw [h.ledger] at hl
    cases hl

/-! ## One turn -/

variable [RecordStore σ]

theorem inHand_move {i : Instance σ} {t : Nat} {task : Task} {m : Move σ}
    (htask : i.tasks[t]? = some task)
    (h : task.step? i.setup t i.tasks.length i.state = some m) (u : Nat) :
    (i.move t m).inHand u = if u = t then m.next.inHand else i.inHand u := by
  have ht : t < i.tasks.length := (List.getElem?_eq_some_iff.1 htask).1
  rw [inHand, getElem?_tasks_move ht]
  by_cases hut : u = t
  · rw [if_pos hut, if_pos hut, Option.bind_some]
  · rw [if_neg hut, if_neg hut]
    split
    next hul =>
      rw [hul, inHand, List.getElem?_eq_none (Nat.le_refl _), Option.bind_none]
      cases hx : m.spawned with
      | none => rfl
      | some x => exact (Task.spawned_quiet h x hx).1
    · rfl

/-- A turn takes a snapshot, queues the one in hand, or does neither. -/
theorem Turn.effect {i j : Instance σ} {t : Nat} (hs : i.step? t = some j) :
    Turn.Effect ⟨t, i, j⟩ := by
  obtain ⟨task, m, htask, hm, rfl⟩ := step?_eq_some_iff.1 hs
  have hbefore := inHand_of_getElem? htask
  have hhands := inHand_move htask hm
  have hafter : (i.move t m).inHand t = m.next.inHand := by rw [hhands, if_pos rfl]
  have hsame : m.next.inHand = task.inHand → ∀ u, (i.move t m).inHand u = i.inHand u := by
    intro hnext u
    rw [hhands]
    split
    next hu => rw [hnext, hu, hbefore]
    · rfl
  have htaken : (⟨t, i, i.move t m⟩ : Turn σ).taken? =
      match task.inHand with | some _ => none | none => m.next.inHand := by
    rw [Turn.taken?, hbefore, hafter]
  have hqueued : (⟨t, i, i.move t m⟩ : Turn σ).queued =
      m.state.outbox.drop i.state.outbox.length := by
    rw [Turn.queued, state_move]
  have hstate : (i.move t m).state = m.state := state_move i t m
  cases Task.ledgerEffect hm with
  | keep hledger houtbox hnext =>
    refine .keep ?_ ?_ (hsame hnext) ?_
    · rw [htaken, hnext]
      cases task.inHand <;> rfl
    · rw [hqueued, houtbox, List.drop_length]
    · rw [hstate, hledger]
  | take l hhand hnext houtbox horigin hledger =>
    refine .take l ?_ ?_ (hbefore.trans hhand) ?_ horigin ?_
    · rw [htaken, hhand, hnext]
    · rw [hqueued, houtbox, List.drop_length]
    · intro u
      rw [hhands, hnext]
    · intro l' hl'
      rw [hstate] at hl'
      exact hledger l' hl'
  | queue l hhand hnext houtbox hledger =>
    refine .queue l ?_ ?_ (hbefore.trans hhand) ?_ ?_
    · rw [htaken, hhand]
    · rw [hqueued, houtbox, List.drop_left]
    · intro u
      rw [hhands, hnext]
    · rw [hstate, hledger]
  | collect l hkeeper hhand hnext houtbox hledger =>
    refine .keep ?_ ?_ (hsame (hnext.trans hhand.symm)) ?_
    · rw [htaken, hhand, hnext]
    · rw [hqueued, houtbox, List.length_cons, List.drop_eq_nil_of_le (Nat.le_succ _)]
    · rw [hstate, hledger]

/-! ## Every history -/

theorem Accounted.step {ts : List (Turn σ)} {j k : Instance σ} {t : Nat} (h : Accounted ts j)
    (hs : j.step? t = some k) : Accounted (ts ++ [⟨t, j, k⟩]) k := by
  cases Turn.effect hs with
  | keep htaken hqueued hhands hledger => exact h.keep htaken hqueued hhands hledger
  | take l htaken hqueued hhand hhands horigin hledger =>
    exact h.take htaken hqueued hhand hhands horigin hledger
  | queue l htaken hqueued hhand hhands hledger =>
    exact h.queue htaken hqueued hhand hhands hledger

/-- In every history, snapshots are accounted for. -/
theorem accounted_of_history {i j : Instance σ} {ts : List (Turn σ)} (hi : i.Fresh)
    (h : i.History ts j) : Accounted ts j := by
  induction h with
  | refl => exact hi.accounted
  | step _ hs ih => exact ih.step hs
  | act _ a ih => exact ih.act a

end Instance

end PluginKernel
