import PluginKernel.Proofs.Instance.Footprint

/-!
# Errors on their way to the host

Errors wait in line only while their queue is full, so an error that is sent goes to the end of all
that are on their way, whether there is room for it or not. `Tight` says so of a queue, and
`tight_of_reachable` of the errors of a plugin, whatever has become of it.

The second half compares two queues one of which has fallen behind the other: if the host reads as
many errors from both and the longer one is empty then, so is the other.
-/

namespace PluginKernel

variable {σ : Type}

namespace Queue

variable {α : Type} {q q' : Queue α} {t : Nat} {x : α}

/-- Nobody waits in line while there is room. -/
def Tight (q : Queue α) : Prop := q.hasReceiver = true → q.hasRoom = true → q.waiting = []

/-- A message has been sent: it is in the queue, or its sender in line. -/
def Accepts (q : Queue α) (t : Nat) (x : α) (q' : Queue α) : Prop :=
  q.send t x = .sent q' ∨ q.send t x = .waits q'

theorem tight_empty (n : Nat) : (empty n : Queue α).Tight := fun _ _ => rfl

/-- What is sent is put into the queue if there is room, else in line. -/
theorem accepts_iff : q.Accepts t x q' ↔ q.hasReceiver = true ∧
    q' = if q.hasRoom then q.push x else { q with waiting := q.waiting ++ [(t, x)] } := by
  unfold Accepts send
  cases hr : q.hasReceiver with
  | false => simp
  | true => by_cases hroom : q.hasRoom = true <;> simp [hroom, eq_comm]

theorem Tight.accepts (h : q.Tight) (ha : q.Accepts t x q') : q'.Tight := by
  obtain ⟨hr, rfl⟩ := accepts_iff.1 ha
  split
  next hroom => exact fun _ _ => h hr hroom
  next hfull => exact fun _ hroom => absurd hroom hfull

/-- What is sent goes to the end. -/
theorem Tight.contents_accepts (h : q.Tight) (ha : q.Accepts t x q') :
    q'.contents = q.contents ++ [x] := by
  rcases ha with hs | hw
  · have hroom : q.hasReceiver = true ∧ q.hasRoom = true := by
      unfold send at hs
      split at hs
      · cases hs
      next hr =>
        split at hs
        next hroom => exact ⟨by simpa using hr, hroom⟩
        · cases hs
    exact contents_send_sent (h hroom.1 hroom.2) hs
  · exact contents_send_waits hw

theorem Tight.resume (h : q.Tight) {taken : Bool} (hs : q.resume? t = some (taken, q')) :
    q'.Tight := by
  unfold resume? at hs
  split at hs
  · cases hs
    exact h
  · split at hs
    · cases hs
    next hr =>
      cases hs
      exact fun hr' => absurd hr' hr

theorem tight_take (q : Queue α) (n : Nat) : (q.take n).2.Tight := by
  intro _ hroom
  simp only [take, hasRoom, List.length_append, List.length_map, List.length_take,
    decide_eq_true_eq] at hroom ⊢
  exact List.drop_eq_nil_of_le (by omega)

theorem Tight.read (h : q.Tight) (n : Nat) : (q.read n).Tight := by
  unfold Queue.read
  split
  · exact tight_take q n
  · exact h

theorem tight_dropReceiver (q : Queue α) : q.dropReceiver.Tight := fun hr => by cases hr

theorem hasReceiver_of_refused (h : q.send t x = .refused) : q.hasReceiver = false := by
  unfold send at h
  split at h
  next hr => simpa using hr
  · split at h <;> cases h

/-- What a turn of a task can do with a queue that it sends to, and which message it sends. -/
inductive Takes (t : Nat) (q q' : Queue α) : Option α → Prop where
  | keep (h : q' = q) : Takes t q q' none
  | accept {x : α} (h : q.Accepts t x q') : Takes t q q' (some x)
  /-- There is no receiver. -/
  | refuse {x : α} (hclosed : q.hasReceiver = false) (h : q' = q) : Takes t q q' (some x)
  /-- It finds that its message is no longer in line. -/
  | resume (taken : Bool) (h : q.resume? t = some (taken, q')) : Takes t q q' none

theorem Tight.takes {sent : Option α} (h : q.Tight) (ht : Takes t q q' sent) : q'.Tight := by
  cases ht with
  | keep he | refuse _ he => rw [he]; exact h
  | accept ha => exact h.accepts ha
  | resume taken hr => exact h.resume hr

/-! ## One queue behind another -/

/-- One queue is another one, but perhaps with less in it and fewer in line. -/
structure Behind (q q' : Queue α) : Prop where
  capacity : q.capacity = q'.capacity
  hasReceiver : q.hasReceiver = q'.hasReceiver
  hasSender : q.hasSender = q'.hasSender
  buffer : q.buffer.length ≤ q'.buffer.length
  waiting : q.waiting.length ≤ q'.waiting.length

theorem Behind.read (h : q.Behind q') (n : Nat) : (q.read n).Behind (q'.read n) := by
  unfold Queue.read
  rw [h.hasReceiver]
  split
  · refine ⟨h.capacity, h.hasReceiver, h.hasSender, ?_, ?_⟩
    all_goals
      have := h.capacity
      have := h.buffer
      have := h.waiting
      simp only [take, List.length_append, List.length_map, List.length_take, List.length_drop]
      omega
  · exact h

/-- A queue that is behind an empty one is empty as well. -/
theorem Behind.eq_of_contents_eq_nil (h : q.Behind q') (he : q'.contents = []) : q = q' := by
  obtain ⟨hbuffer, hwaiting⟩ : q'.buffer = [] ∧ q'.waiting = [] := by simpa [contents] using he
  have hb := h.buffer
  have hw := h.waiting
  rw [hbuffer, List.length_nil, Nat.le_zero, List.length_eq_zero_iff] at hb
  rw [hwaiting, List.length_nil, Nat.le_zero, List.length_eq_zero_iff] at hw
  obtain ⟨hcapacity, hreceiver, hsender, -, -⟩ := h
  cases q
  cases q'
  simp_all

/-- What is sent leaves the queue before behind. -/
theorem behind_accepts (ha : q.Accepts t x q') : q.Behind q' := by
  obtain ⟨hr, rfl⟩ := accepts_iff.1 ha
  split
  · exact ⟨rfl, rfl, rfl, by simp [push], Nat.le_refl _⟩
  · exact ⟨rfl, rfl, rfl, Nat.le_refl _, by simp⟩

end Queue

/-! ## The errors of a plugin -/

/-- The error that a report sends in its next turn. -/
def ReportTask.sentError? : ReportTask → Option PluginError
  | send e => some e
  | _ => none

/-- The error that a task sends in its next turn. -/
def Task.sentError? : Task → Option PluginError
  | start (.report r) | report r => r.sentError?
  | listen (.announce plugin) => some (.shuttingDown plugin)
  | _ => none

theorem ReportTask.errors_takes {setup : Setup} {t : Nat} {s s' : PluginState σ}
    {r r' : ReportTask} (h : r.step? setup t s = some (s', r')) :
    Queue.Takes t s.errors s'.errors r.sentError? := by
  cases r with
  | send e =>
    simp only [step?] at h
    split at h <;> cases h
    next hq => exact .accept (.inl hq)
    next hq => exact .accept (.inr hq)
    next hq => exact .refuse (Queue.hasReceiver_of_refused hq) rfl
  | wait e =>
    simp only [step?] at h
    split at h <;> cases h
    next hq => exact .resume _ hq
    next hq => exact .resume _ hq
  | _ =>
    simp only [step?] at h
    (repeat' split at h) <;> cases h <;> exact .keep rfl

theorem ListenTask.errors_takes {t fresh : Nat} {s : PluginState σ} {x : ListenTask} {m : Move σ}
    (h : x.step? t fresh s = some m) :
    Queue.Takes t s.errors m.state.errors (Task.listen x).sentError? := by
  cases x with
  | announce plugin =>
    simp only [step?] at h
    split at h <;> cases h
    next hq => exact .accept (.inl hq)
    next hq => exact .accept (.inr hq)
    next hq => exact .refuse (Queue.hasReceiver_of_refused hq) rfl
  | wait =>
    simp only [step?] at h
    split at h <;> cases h
    next hq => exact .resume _ hq
    next hq => exact .resume _ hq
  | _ =>
    simp only [step?] at h
    (repeat' split at h) <;> cases h <;> exact .keep rfl

/-- Reports and the announcement of a shutdown are all that touches the errors. -/
theorem Task.errors_takes [RecordStore σ] {setup : Setup} {t fresh : Nat} {s : PluginState σ}
    {task : Task} {m : Move σ} (h : task.step? setup t fresh s = some m) :
    Queue.Takes t s.errors m.state.errors task.sentError? := by
  cases task with
  | call tr =>
    simp only [step?] at h
    cases h
    exact .keep rfl
  | await tr =>
    simp only [step?] at h
    split at h <;> cases h
    exact .keep rfl
  | start x =>
    cases x with
    | report r =>
      simp only [step?, StartTask.step?, Option.map_eq_some_iff, Prod.exists] at h
      obtain ⟨s', r', hr, rfl⟩ := h
      exact ReportTask.errors_takes hr
    | _ =>
      simp only [step?, StartTask.step?] at h
      (repeat' split at h) <;> cases h <;> exact .keep rfl
  | listen x => exact ListenTask.errors_takes h
  | report x =>
    simp only [step?, Option.map_eq_some_iff, Prod.exists] at h
    obtain ⟨s', r', hr, rfl⟩ := h
    exact ReportTask.errors_takes hr
  | stop x =>
    simp only [step?, Option.map_eq_some_iff, Prod.exists] at h
    obtain ⟨s', x', hx, rfl⟩ := h
    exact .keep (by rw [StopTask.writes hx])
  | serve x =>
    simp only [step?, Option.map_eq_some_iff, Prod.exists] at h
    obtain ⟨s', x', hx, rfl⟩ := h
    exact .keep (by rw [ServeTask.writes hx])
  | keeper x =>
    simp only [step?, Option.map_eq_some_iff, Prod.exists] at h
    obtain ⟨s', x', hx, rfl⟩ := h
    exact .keep (by rw [KeeperTask.writes hx])
  | courier x =>
    simp only [step?, Option.map_eq_some_iff, Prod.exists] at h
    obtain ⟨s', x', hx, rfl⟩ := h
    exact .keep (by rw [CourierTask.writes hx])

theorem PluginState.tight_errors_act {s : PluginState σ} (h : s.errors.Tight) (a : HostAction) :
    (s.act a).errors.Tight := by
  cases a with
  | readErrors n => exact h.read n
  | drop e =>
    cases e with
    | errors => exact Queue.tight_dropReceiver _
    | _ => exact h
  | _ => exact h

namespace Instance

theorem tight_of_attach {a : Attachment} {platform : Platform} {capacity : Nat} {store : σ}
    {i : Instance σ} (h : attach a platform capacity store = .ok i) : i.state.errors.Tight := by
  rw [state_of_attach h]
  exact Queue.tight_empty capacity

/-- Whatever becomes of a plugin: nobody waits in line with an error while there is room for it. -/
theorem tight_of_reachable [RecordStore σ] {i j : Instance σ} (hi : i.state.errors.Tight)
    (h : i.Reachable j) : j.state.errors.Tight := by
  induction h with
  | refl => exact hi
  | step _ hs ih =>
    obtain ⟨t, ht⟩ := hs
    obtain ⟨task, m, -, hm, rfl⟩ := step?_eq_some_iff.1 ht
    rw [state_move]
    exact ih.takes (Task.errors_takes hm)
  | act _ a ih =>
    rw [state_act]
    exact PluginState.tight_errors_act ih a

end Instance

end PluginKernel
