import PluginKernel.Proofs.CommandLine.Scenes

/-!
# How a run ends

Whoever plays a part in the last scene goes on as long as its part is not over: the stop waits for
the server alone, and the server for nothing once it was told to stop. So if nothing can go on after
a stop was sent, the stop has been acknowledged and all parts are over; and when all parts are over,
the start and the stop have each queued their ledger.
-/

namespace PluginKernel

open Instance (Event Turn queued turnsOf)

variable {σ : Type}

namespace CommandLine

variable {id n : String} {j : Instance σ} {q : List Ledger}

/-- When all parts are over, two ledgers were queued, in one order or the other: the one that was
opened by the start, and what the stop has made of it. -/
theorem InScene.queued_of_over (h : InScene id n .gone q j)
    (hover : ∀ task ∈ j.tasks, task.holdsPlugin = false) :
    ∃ l l', IsOpened id n l ∧ IsClosed id n l l' ∧ q.Perm [l, l'] := by
  obtain ⟨x, y, actors, htasks, hscene⟩ := h
  have hactors : ∀ task ∈ actors, task.holdsPlugin = false := by
    intro task htask
    apply hover
    rw [htasks]
    exact List.mem_cons_of_mem _ (List.mem_cons_of_mem _ htask)
  generalize j.state.setting = w at hscene
  cases hscene with
  | opening hst => cases hst
  | running hst => cases hst
  | closing hl hz hx hv hp hanswers hq =>
    have hstart := hactors (.start _) (List.mem_cons_of_mem _ List.mem_cons_self)
    cases hx with
    | emit => cases hstart
    | done =>
      cases hanswers with
      | heard =>
        cases hp with
        | done hl' => exact ⟨_, _, hl, hl', hq⟩

variable [RecordStore σ]

theorem step?_eq_none_of_quiescent {x : KeeperTask} {y : CourierTask} {actors : List Task}
    {u : Nat} {task : Task} (hq : j.Quiescent)
    (htasks : j.tasks = .keeper x :: .courier y :: actors)
    (htask : actors[u]? = some task) :
    task.step? j.setup (u + 2) (actors.length + 2) j.state = none := by
  have hget : j.tasks[u + 2]? = some task := by rw [htasks]; exact htask
  have hwaits := hq (u + 2)
  rw [Instance.step?_of_getElem? hget, Option.map_eq_none_iff, htasks] at hwaits
  exact hwaits

/-- If nothing can go on after the stop was sent, it has been acknowledged. -/
theorem InScene.acknowledged (h : InScene id n .stopping q j) (hq : j.Quiescent) :
    j.state.acks.buffer ≠ [] := by
  obtain ⟨x, y, actors, htasks, hscene⟩ := h
  have hwaits {u : Nat} {task : Task} (htask : actors[u]? = some task) :=
    step?_eq_none_of_quiescent hq htasks htask
  generalize hw : j.state.setting = w at hscene
  cases hscene with
  | opening hst => cases hst
  | running hst hz hx hv =>
    -- the start is through with the lock, so nothing keeps the listener from taking up the stop
    cases hst
    have hstart := hwaits (u := 1) rfl
    rw [Task.step?] at hstart
    obtain rfl := hx.holds_eq_nil hstart
    exact absurd (hwaits (u := 0) rfl)
      (hz.step?_ne_none rfl (congrArg Setting.lock hw) (congrArg Setting.commands hw))
  | closing hl hz hx hv hp hanswers hq =>
    have hacks : j.state.acks = _ := congrArg Setting.acks hw
    cases hanswers with
    | pending hpending =>
      have hstop := hwaits (u := 3) rfl
      rw [Task.step?, Option.map_eq_none_iff] at hstop
      have hserve := hwaits (u := 2) rfl
      rw [Task.step?, Option.map_eq_none_iff] at hserve
      refine absurd (hp.eq_done (congrArg Setting.ledger hw) (congrArg Setting.listeners hw) ?_
        hacks hstop) hpending
      rintro rfl
      exact (hv.eq_done (congrArg Setting.listeners hw) hserve).2
    | answered =>
      rw [hacks]
      simp [Queue.holding]
    | heard hst => cases hst

/-- If nothing can go on after the stop was acknowledged, all parts are over. -/
theorem InScene.over (h : InScene id n .leaving q j) (hq : j.Quiescent) :
    (∀ task ∈ j.tasks, task.holdsPlugin = false) ∧ j.state.listening = false ∧
      (∃ es, j.state.errors = .holding es ∧ es.length ≤ 1) ∧ q.length = 2 := by
  obtain ⟨x, y, actors, htasks, hscene⟩ := h
  have hwaits {u : Nat} {task : Task} (htask : actors[u]? = some task) :=
    step?_eq_none_of_quiescent hq htasks htask
  generalize hw : j.state.setting = w at hscene
  cases hscene with
  | opening hst => cases hst
  | running hst => cases hst
  | closing hl hz hx hv hp hanswers hperm =>
    have herrors : j.state.errors = _ := congrArg Setting.errors hw
    have hlistening : j.state.listening = _ := congrArg Setting.listening hw
    have hlisten := hwaits (u := 0) rfl
    have hstart := hwaits (u := 1) rfl
    have hserve := hwaits (u := 2) rfl
    rw [Task.step?] at hlisten
    rw [Task.step?] at hstart
    rw [Task.step?, Option.map_eq_none_iff] at hserve
    cases hanswers with
    | heard =>
      obtain ⟨rfl, rfl, hfew⟩ := hz.eq_done herrors hlisten
      obtain rfl := hx.eq_done hstart
      cases hx with
      | done =>
        cases hp with
        | done =>
          obtain ⟨rfl, -⟩ := hv.eq_done (congrArg Setting.listeners hw) hserve
          refine ⟨?_, hlistening, ⟨_, herrors, hfew⟩, hperm.length_eq⟩
          rw [htasks]
          simp [Task.holdsPlugin, Task.isDone]

end CommandLine

end PluginKernel
