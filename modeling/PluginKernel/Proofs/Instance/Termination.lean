import PluginKernel.Proofs.Instance.Dispatching
import PluginKernel.Proofs.Instance.Health

/-!
# What a plugin is left as when its listening ends

The listening of a plugin ends by a stop or when the host lets go of the commands. A stop takes the
server down. A host that lets go does not: what was started before goes on, and only a stop that is
called for directly can end it. So a plugin that no longer listens, and whose starts and stops are
through, is down if a stop was taken, and otherwise as its starts have left it:
`terminated_of_course`.
-/

namespace PluginKernel

variable {σ : Type}

/-- A stop that is not inside the lifecycle lock has looked whether there is a server. -/
theorem StopTask.hasLooked_of_outside {x : StopTask} (h : x.lockStage ≠ .inside) : x.HasLooked := by
  cases x with
  | enter plugin => exact absurd rfl h
  | _ => trivial

/-- A start that is not inside the lifecycle lock and has opened a listener has set a server off. -/
theorem StartTask.Did.launched {x : StartTask} {plugin : String} {n : Nat} {ds : List Deed}
    (h : x.Did plugin ds) (hout : x.lockStage ≠ .inside) (hbound : .bound n ∈ ds) :
    ∃ k u, ds = [.bound k, .launched u plugin k] := by
  cases x with
  | emit l => exact h
  | report r =>
    obtain ⟨e, rfl⟩ := h
    simp at hbound
  | done =>
    rcases h with rfl | h
    · simp at hbound
    · exact h
  | _ => exact absurd rfl hout

namespace Instance

variable {i j : Instance σ} {es : List (Event σ)} {t n : Nat}

/-- Some start has opened a listener. -/
def Opened (es : List (Event σ)) : Prop := ∃ t n, Deed.bound n ∈ deeds (turnsOf es) t

/-- A stop is among the commands that were taken. -/
def StopTaken (es : List (Event σ)) : Prop := ∃ c ∈ received (turnsOf es), c.request = .stop

/-- What a plugin is left as that no longer listens and whose starts and stops are through. -/
structure Terminated (es : List (Event σ)) (j : Instance σ) : Prop where
  stopped : StopTaken es → j.state.IsDown ∧ j.state.health.Quiet
  /-- Without a stop the host has let go, and what was started goes on. -/
  dropped : ¬ StopTaken es → j.state.commands.hasSender = false ∧
    (Opened es → j.state.IsUp ∧ j.state.health.Serves j.setup.choices.services) ∧
      (¬ Opened es → j.state.IsDown ∧ j.state.health.Quiet)

variable [RecordStore σ]

/-- Opening a listener is the deed of a start. -/
theorem begun_of_bound (hi : i.Fresh) (h : i.Course es j)
    (hd : Deed.bound n ∈ deeds (turnsOf es) t) : ∃ plugin, Begun es t (.start plugin) := by
  obtain ⟨w, hw, rfl, hdeed⟩ := mem_deeds.1 hd
  obtain ⟨task, next, htask, -, hdeed⟩ := Turn.of_deed? hdeed
  obtain ⟨plugin, plugin', rfl, -⟩ := Task.of_bound hdeed
  obtain ⟨past, rest, rfl⟩ := List.append_of_mem (mem_turnsOf.1 hw)
  have hpast := h.of_append.1
  exact ⟨plugin, ((requested_of_course hi hpast).asked w.task _ _ htask rfl).begun.mono _⟩

omit [RecordStore σ] in
/-- A start or a stop that was set off was asked for by a command that was taken. -/
theorem exists_command_of_begun {x : ListenTask} (hx : Hearing es j x) (hc : Commanded es)
    {tr : Transition} (hb : Begun es t tr) :
    ∃ c ∈ received (turnsOf es), c.transition? = some tr := by
  obtain ⟨e, he, hsets⟩ := hb
  cases hsets with
  | call => exact absurd he (hc _ tr)
  | @command w _ hlisten =>
    have hentered : tr ∈ entered (turnsOf es) := by
      refine List.mem_filterMap.2 ⟨w, mem_turnsOf.2 he, ?_⟩
      rw [Turn.ofTask, hlisten]
      rfl
    exact List.mem_filterMap.1 (hx.heard.inside_prefix.subset hentered)

/-- A stop was set off by a command that was taken. -/
theorem stopTaken_of_stop (hi : i.Fresh) (h : i.Course es j) (hc : Commanded es)
    {x : ListenTask} (hx : Hearing es j x) {y : StopTask} (ht : j.tasks[t]? = some (.stop y)) :
    StopTaken es := by
  obtain ⟨plugin, hb, -⟩ := (allDid_of_course hi h).stop ht
  obtain ⟨c, hmem, htransition⟩ := exists_command_of_begun hx hc hb
  exact ⟨c, hmem, by rw [Command.eq_ack_of_transition? htransition]; rfl⟩

/-- When the listening has ended, a stop that was taken has been set off. -/
theorem exists_stop_of_stopTaken (hi : i.Fresh) (h : i.Course es j) (hc : Commanded es)
    (hx : Hearing es j .done) (hstop : StopTaken es) :
    ∃ (t : Nat) (y : StopTask), j.tasks[t]? = some (.stop y) := by
  obtain ⟨c, hmem, hrequest⟩ := hstop
  have hentered : .stop c.plugin ∈ entered (turnsOf es) := by
    rw [hx.heard.1]
    exact List.mem_filterMap.2 ⟨c, hmem, by rw [Command.transition?, hrequest]⟩
  obtain ⟨w, hw, htr⟩ := List.mem_filterMap.1 hentered
  have hsets := (serial_of_course hi h hc hw htr).2
  obtain ⟨task, ht, hdid⟩ := (allDid_of_course hi h).did _ _ ⟨_, mem_turnsOf.1 hw, hsets⟩
  have hcall := uncalled_of_course hi h hc _ task ht
  cases task with
  | call | await => exact absurd trivial hcall
  | stop y => exact ⟨_, y, ht⟩
  | start y =>
    obtain ⟨plugin, hplugin, -⟩ := hdid
    cases hplugin
  | _ => cases hdid

/-- Without a stop there is a server in the end exactly if a start has opened a listener. -/
theorem server_isSome_iff_opened (hi : i.Fresh) (h : i.Course es j) (hc : Commanded es)
    {x : ListenTask} (hx : Hearing es j x) (hout : ∀ t, j.lockStage t ≠ .inside)
    (hstop : ¬ StopTaken es) : j.state.server.isSome ↔ Opened es := by
  constructor
  · intro hsome
    obtain ⟨n, hn⟩ := Option.isSome_iff_exists.1 hsome
    obtain ⟨t, u, plugin, hd⟩ := (holdings_of_course hi h).server n hn
    refine ⟨t, n, ?_⟩
    rw [deeds_of_launched hi h hd]
    exact List.mem_cons_self
  · rintro ⟨t, n, hd⟩
    obtain ⟨plugin, hb⟩ := begun_of_bound hi h hd
    obtain ⟨task, ht, hdid⟩ := (allDid_of_course hi h).did t _ hb
    have hcall := uncalled_of_course hi h hc t task ht
    cases task with
    | call | await => exact absurd trivial hcall
    | start y =>
      obtain ⟨p, -, hy⟩ := hdid
      have hstage := hout t
      rw [lockStage_of_getElem? ht] at hstage
      obtain ⟨k, u, hlaunched⟩ := hy.launched hstage hd
      have hd' : Deed.launched u p k ∈ deeds (turnsOf es) t := by
        rw [hlaunched]
        exact List.mem_cons_of_mem _ List.mem_cons_self
      obtain ⟨z, hz, -⟩ := (served_of_course hi h).did t u p k hd'
      -- only a stop could have taken that server down
      rcases (oneServer_of_course hi h hc).server u z hz with hsome | ⟨v, y', hy', -⟩
      · exact hsome
      · exact absurd (stopTaken_of_stop hi h hc hx hy') hstop
    | stop y =>
      obtain ⟨p, hp, -⟩ := hdid
      cases hp
    | _ => cases hdid

/-- Whatever order tasks take their turns in: if the host calls for no start and no stop directly,
then a plugin that no longer listens and whose starts and stops are through is down if a stop was
taken. If none was, the host has let go, and the plugin is up if one of its starts has opened a
listener, and down if none has. -/
theorem terminated_of_course (hi : i.Fresh) (hnew : i.state.commands.IsNew) (h : i.Course es j)
    (hc : Commanded es) (hlistening : j.state.listening = false)
    (hout : ∀ t, j.lockStage t ≠ .inside) : Terminated es j := by
  obtain ⟨x, hx⟩ := hearing_of_course hi hnew h hc
  obtain rfl : x = .done := by
    by_contra hne
    rw [hx.queues.listening.2 hne] at hlistening
    cases hlistening
  have hcoherent := coherent_of_reachable hi h.reachable
  have hhealth := (healthFits_of_reachable hi h.reachable).up_or_down hcoherent hout
  constructor
  case stopped =>
    -- the stop is through, so it has looked, and after that no start brings a server up
    intro hstop
    obtain ⟨t, y, ht⟩ := exists_stop_of_stopTaken hi h hc hx hstop
    have hlooked : y.HasLooked := by
      have hstage := hout t
      rw [lockStage_of_getElem? ht] at hstage
      exact StopTask.hasLooked_of_outside hstage
    have hgone := (oneServer_of_course hi h hc).looked t y ht hlooked
    rcases hhealth with ⟨hsome, -⟩ | ⟨-, hdown⟩
    · rw [hgone] at hsome
      cases hsome
    · exact hdown
  case dropped =>
    intro hstop
    have hserver := server_isSome_iff_opened hi h hc hx hout hstop
    have hgone : j.state.commands.hasSender = false := by
      rcases hx.heard.2 with ⟨plugin, ⟨before, -, hreceived⟩, -⟩ | ⟨-, -, -, hgone⟩
      · refine absurd ⟨⟨plugin, .stop⟩, ?_, rfl⟩ hstop
        rw [hreceived]
        exact List.mem_concat_self
      · exact hgone
    refine ⟨hgone, fun hopened => ?_, fun hopened => ?_⟩
    · rcases hhealth with ⟨-, hup⟩ | ⟨hnone, -⟩
      · exact hup
      · have hsome := hserver.2 hopened
        rw [hnone] at hsome
        cases hsome
    · rcases hhealth with ⟨hsome, -⟩ | ⟨-, hdown⟩
      · exact absurd (hserver.1 hsome) hopened
      · exact hdown

/-- After a start and a stop a plugin is down. -/
theorem terminated_of_fourCommands :
    ∃ (es : List (Event Store.Tree)) (j : Instance Store.Tree),
      (initial sampleSetup 16 Store.Tree.empty).Course es j ∧ j.Quiescent ∧
        j.state.listening = false ∧ StopTaken es ∧ j.state.IsDown ∧ j.state.health.Quiet := by
  obtain ⟨es, hsent, hc⟩ : ∃ es : List (Event Store.Tree),
      (initial sampleSetup 16 Store.Tree.empty).Course es fourCommands ∧ Commanded es :=
    ⟨_, (((Course.refl.action _).action _).action _).action _, by simp [Commanded]⟩
  obtain ⟨ts, j, hcourse, hq, hstate⟩ := hsent.exists_settle (n := 60) (by with_unfolding_all rfl)
  have hseen : j.state.listening = false ∧ j.state.commands.hasSender = true ∧
      j.state.lock.holder = none := by
    rw [hstate]
    with_unfolding_all exact ⟨rfl, rfl, rfl⟩
  obtain ⟨hlistening, hsender, hfree⟩ := hseen
  have hout : ∀ t, j.lockStage t ≠ .inside := by
    intro t
    rw [lockStage_of_free (fresh_initial _ _ _) hcourse.reachable hfree t]
    intro h
    cases h
  have hall := terminated_of_course (fresh_initial _ _ _) (Queue.isNew_empty _) hcourse
    (hc.turns ts) hlistening hout
  have hstop : StopTaken (es ++ ts.map .turn) := by
    by_contra hnone
    rw [(hall.dropped hnone).1] at hsender
    cases hsender
  exact ⟨_, j, hcourse, hq, hlistening, hstop, hall.stopped hstop⟩

/-! ## A host that lets go of the commands -/

/-- A host sends a start and lets go of the commands. -/
def startedAndDropped : Instance Store.Tree :=
  ((initial sampleSetup 16 .empty).act (.command ⟨"p1", .start⟩)).act (.drop .commands)

/-- A plugin whose host lets go after a start no longer listens, but it is up. -/
theorem not_isDown_of_startedAndDropped :
    ∃ (es : List (Event Store.Tree)) (j : Instance Store.Tree),
      (initial sampleSetup 16 Store.Tree.empty).Course es j ∧ Commanded es ∧
        posted es = [⟨"p1", .start⟩] ∧ j.Quiescent ∧ j.state.listening = false ∧
        (∀ t, j.lockStage t = .outside) ∧ ¬ j.state.IsDown ∧
        j.state.health.status "" = some .serving := by
  obtain ⟨es, hsent, hposted, hc⟩ : ∃ es : List (Event Store.Tree),
      (initial sampleSetup 16 Store.Tree.empty).Course es startedAndDropped ∧
        posted es = [⟨"p1", .start⟩] ∧ Commanded es :=
    ⟨_, (Course.refl.action _).action _, rfl, by simp [Commanded]⟩
  obtain ⟨ts, j, hcourse, hq, hstate⟩ := hsent.exists_settle (n := 60) (by with_unfolding_all rfl)
  have hseen : j.state.listening = false ∧ j.state.phase = .running ∧
      j.state.health.status "" = some .serving ∧ j.state.lock.holder = none := by
    rw [hstate]
    with_unfolding_all exact ⟨rfl, rfl, rfl, rfl⟩
  obtain ⟨hlistening, hphase, hserving, hfree⟩ := hseen
  refine ⟨_, j, hcourse, hc.turns ts, ?_, hq, hlistening,
    lockStage_of_free (fresh_initial _ _ _) hcourse.reachable hfree, fun hdown => ?_, hserving⟩
  · rw [posted_turns, hposted]
  · rw [hdown.1] at hphase
    cases hphase

end Instance

end PluginKernel
