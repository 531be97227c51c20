import PluginKernel.Proofs.CommandLine.Endings
import PluginKernel.Proofs.Instance.Settling

/-!
# A run that succeeds returns

Running a plugin settles it after every step of the host, so what it comes to is one of the sessions
in which the tasks take their turns in any order. If the start is acknowledged, this session goes on
to its end: `returns_of_execute`.
-/

namespace PluginKernel

open Instance (Event Turn queued turnsOf)

variable {σ : Type}

namespace CommandLine

variable {f : Filing} {store : σ} {i j k : Instance σ} {n : String} {st st' : Stage}
  {es : List (Event σ)}

/-! ## What is attached -/

theorem Prepared.occupy (h : Prepared f store i) (e : Endpoint) :
    Prepared f store (i.act (.occupy e)) := by
  obtain ⟨hfresh, hid, hfiling, hstore, hcommands, hacks, herrors, hdataflow⟩ := h
  refine ⟨?_, hid, hfiling, hstore, hcommands, hacks, herrors, hdataflow⟩
  obtain ⟨h1, h2, h3, h4, h5, h6, h7, h8, h9, h10⟩ := hfresh
  exact ⟨h1, h2, h3, h4, h5, h6, h7, h8, h9, h10⟩

namespace RunArguments

/-- Where the statistics of a run are filed. -/
def filing (a : RunArguments) : Filing :=
  ⟨FilingPlace.usualBasePath, FilingPlace.usualIdName, a.recordedId⟩

/-- Whatever the plugin is called, the identifier in its bag is the one that was asked for. -/
theorem get?_idEntry_bag (a : RunArguments) (credentials : Credentials) (source : ConfigSource) :
    Assoc.get? Bag.idEntry (a.bag credentials source) = some (.text a.recordedId) := by
  have hconfig : SharedConfig.path ≠ Bag.idEntry := by decide
  have hchannels : Bag.channelsEntry ≠ Bag.idEntry := by decide
  simp only [bag, Bag.putConfig, Assoc.ofList, List.foldl_cons, List.foldl_nil,
    Assoc.get?_insert, if_neg hconfig, if_neg hchannels, if_true]

theorem argosId_of_ofBag {plugin : String} {bag : Bag} {names : CredentialNames} {e : Equipment}
    (h : Equipment.ofBag plugin bag names = .ok e) :
    e.argosId = Equipment.argosIdOf plugin bag := by
  obtain ⟨source, -, h⟩ := bind_eq_ok_iff.1 h
  obtain ⟨ends, -, h⟩ := bind_eq_ok_iff.1 h
  cases h
  rfl

theorem prepared_of_attach {a : RunArguments} {m : Machine} {credentials : Credentials}
    {source : ConfigSource}
    (h : Instance.attach ⟨a.plugin, a.bag credentials source, a.choices, a.content m, true⟩
      m.platform queueCapacity store = .ok i) : Prepared a.filing store i := by
  obtain ⟨hequipment, hstore⟩ := Instance.equipment_of_attach h
  have hstate := Instance.state_of_attach h
  have hid : i.setup.equipment.argosId = a.recordedId := by
    rw [Attachment.equipment_eq rfl] at hequipment
    obtain ⟨-, -, hbag⟩ := bind_eq_ok_iff.1 hequipment
    rw [argosId_of_ofBag hbag, Equipment.argosIdOf, get?_idEntry_bag]
  have hfiling : i.setup.filing? = some a.filing := by
    rw [Setup.filing?, Instance.choices_of_attach h, hid]
    rfl
  refine ⟨Instance.fresh_of_attach h, hid, hfiling, hstore, ?_, ?_, ?_, ?_⟩ <;> rw [hstate] <;> rfl

theorem Attaches.prepared {a : RunArguments} {m : Machine} (h : a.Attaches m store i) :
    Prepared a.filing store i := by
  cases h with
  | @intro credentials printed source attached _ _ hattach =>
    have hprepared := prepared_of_attach hattach
    clear hattach
    induction m.occupied generalizing attached with
    | nil => exact hprepared
    | cons e rest ih => exact ih (hprepared.occupy e)

end RunArguments

/-! ## Settling as part of a session -/

variable [RecordStore σ]

/-- Some session stands where a plugin stands, but for the order in which tasks stand in line. -/
def Reaches (n : String) (i : Instance σ) (st : Stage) (j : Instance σ) : Prop :=
  ∃ es k, Session n i st es k ∧ k.SameBesideLine j

namespace Reaches

theorem refl (n : String) (i : Instance σ) : Reaches n i .attached i := ⟨[], i, .refl, .refl i⟩

theorem settle (h : Reaches n i st j) : Reaches n i st j.settle := by
  obtain ⟨es, k, hk, hsame⟩ := h
  obtain ⟨us, j', hj', -, hsettled⟩ := j.exists_steps_settle
  obtain ⟨k', hk', hsame'⟩ := hsame.symm.steps? hj'
  obtain ⟨es', hes'⟩ := hk.turns hk'
  exact ⟨es', k', hes', hsame'.symm.trans hsettled⟩

theorem incident {a : HostAction} (h : Reaches n i st j) (ha : a.IsIncidental) :
    Reaches n i st (j.act a) := by
  obtain ⟨es, k, hk, hsame⟩ := h
  exact ⟨_, _, hk.incident ha, hsame.act a⟩

theorem next {a : HostAction} (h : Reaches n i st j) (ha : st.Next n j.state a st') :
    Reaches n i st' (j.act a) := by
  obtain ⟨es, k, hk, hsame⟩ := h
  exact ⟨_, _, hk.next (hsame.state ▸ ha), hsame.act a⟩

end Reaches

omit [RecordStore σ] in
/-- Before the start and before the stop are sent, there is room for them. -/
theorem InScene.commands_eq {id : String} {q : List Ledger} (h : InScene id n st q j)
    (hst : st = .attached ∨ st = .running) : j.state.commands = .holding [] := by
  obtain ⟨x, y, actors, htasks, hscene⟩ := h
  have hcommands : j.state.commands = j.state.setting.commands := rfl
  rw [hcommands]
  generalize j.state.setting = w at hscene
  rcases hst with rfl | rfl
  · cases hscene with
    | opening hbefore hz =>
      cases hbefore
      cases hz
      rfl
    | running hbefore => cases hbefore
    | closing _ _ _ _ _ hanswers => cases hanswers with | heard hafter => cases hafter
  · cases hscene with
    | opening hbefore => cases hbefore
    | running hbefore hz =>
      cases hbefore
      cases hz
      rfl
    | closing _ _ _ _ _ hanswers => cases hanswers with | heard hafter => cases hafter

theorem Reaches.commands_eq (hi : Prepared f store i) (h : Reaches n i st j)
    (hst : st = .attached ∨ st = .running) : j.state.commands = .holding [] := by
  obtain ⟨es, k, hk, hsame⟩ := h
  rw [hsame.state]
  exact (inScene_of_session hi hk).commands_eq hst

/-- A run whose start is acknowledged gets its stop acknowledged, and then nothing can go on. -/
theorem reaches_of_session {a : RunArguments} (hi : Prepared f store i)
    (h : a.session i = (j, none)) : Reaches a.plugin i .leaving j ∧ j.Quiescent := by
  simp only [RunArguments.session, Instance.play, List.foldl_cons, List.foldl_nil] at h
  obtain ⟨hacks, h⟩ := (ite_eq_iff.1 h).resolve_left fun hfailed => by cases hfailed.2
  cases h
  refine ⟨?_, Instance.quiescent_settle _⟩
  have hattached := (Reaches.refl a.plugin i).settle
  have hcommands := hattached.commands_eq hi (.inl rfl)
  have hstarting :=
    (hattached.next (.start (by rw [hcommands]; rfl) (by rw [hcommands]; rfl))).settle
  have hrunning := (hstarting.next (.started fun hnil => hacks (by rw [hnil]; rfl))).settle
  have hheld := (hrunning.incident (.ambient (.wait (a.holdSeconds * nanosPerSecond)))).settle
  have hcommands := hheld.commands_eq hi (.inr rfl)
  have hstopping := (hheld.next (.stop (by rw [hcommands]; rfl) (by rw [hcommands]; rfl))).settle
  refine (hstopping.next (.stopped ?_)).settle
  obtain ⟨es, k, hk, hsame⟩ := hstopping
  rw [hsame.state]
  exact (inScene_of_session hi hk).acknowledged (hsame.quiescent (Instance.quiescent_settle _))

/-! ## Coming to an end -/

/-- As long as a run lasts its host takes ledgers. -/
theorem Session.takesLedgers (hi : Prepared f store i) (h : Session n i st es j) :
    j.state.dataflow.hasReceiver = true := by
  induction h with
  | refl =>
    rw [hi.dataflow]
    rfl
  | turn _ hs ih =>
    obtain ⟨task, m, -, hm, rfl⟩ := Instance.step?_eq_some_iff.1 hs
    rw [Instance.state_move, Queue.hasReceiver_takes (Task.dataflow_takes hm)]
    exact ih
  | @incident _ _ l a _ ha ih =>
    rw [Instance.state_act]
    cases ha with
    | readErrors => exact ih
    | readLedgers => exact (Queue.hasReceiver_read l.state.dataflow _).trans ih
    | ambient ha => cases ha <;> exact ih
  | next _ ha ih =>
    rw [Instance.state_act]
    cases ha <;> exact ih

/-- If nothing can go on after the stop was acknowledged, the keeper and the courier have nothing
left to do, and nobody waits to send one of the ledgers. -/
theorem Session.atRest (hi : Prepared f store i) (h : Session n i .leaving es k)
    (hq : k.Quiescent) :
    k.CourierEnds ∧ k.state.dataflow.waiting = [] ∧ k.state.dataflow.buffer.length ≤ 2 := by
  obtain ⟨hover, -, -, htwo⟩ := (inScene_of_session hi h).over hq
  have hempty : i.state.dataflow.contents = [] := by rw [hi.dataflow]; rfl
  obtain ⟨x, y, hstaffed, hflow, -⟩ :=
    Instance.conveyed_of_course (hi.fresh.pipelineEmpty hempty) h.course
  obtain ⟨rfl, houtbox⟩ := hstaffed.eq_receive (hq 0)
  have hfew : k.state.dataflow.contents.length ≤ 2 := by
    have hkept := congrArg List.length hflow.kept
    have hsent := congrArg List.length (hflow.sent (h.takesLedgers hi))
    simp only [List.length_append] at hkept hsent
    omega
  have hcapacity : k.state.dataflow.capacity = RunArguments.queueCapacity :=
    (Outlet.dataflow.capacity_of_course h.course).trans (congrArg Queue.capacity hi.dataflow)
  rw [Queue.contents, List.length_append] at hfew
  -- two ledgers do not fill the queue
  have hidle : k.state.dataflow.waiting = [] := by
    have htight := Outlet.dataflow.tight_of_course h.course (by
      intro _ _
      exact congrArg Queue.waiting hi.dataflow)
    refine htight (h.takesLedgers hi) (decide_eq_true ?_)
    show k.state.dataflow.buffer.length < k.state.dataflow.capacity
    rw [hcapacity, RunArguments.queueCapacity]
    omega
  obtain ⟨rfl, hpending⟩ := (hstaffed.courier_waits (hq 1)).resolve_right fun hwaits => by
    rw [Queue.isWaiting, hidle] at hwaits
    cases hwaits.2
  exact ⟨⟨⟨hover, houtbox, fun _ => hstaffed.eq_keeper⟩, hpending, fun _ => hstaffed.eq_courier⟩,
    hidle, by omega⟩

/-- If nothing can go on after the stop was acknowledged, the host lets go of the plugin, and all
that is left to be printed can be printed. -/
theorem Reaches.ending (hi : Prepared f store i) (h : Reaches n i .leaving j) (hq : j.Quiescent) :
    ∃ es k, Session n i .gone es k ∧ k.PrintingEnds ∧ k.state.store = j.state.store := by
  obtain ⟨es, k, hk, hsame⟩ := h
  have hquiescent := hsame.quiescent hq
  obtain ⟨-, hlistening, ⟨errors, herrors, hfew⟩, -⟩ := (inScene_of_session hi hk).over hquiescent
  obtain ⟨⟨⟨hforsaken, houtbox, hkeeper⟩, hpending, hcourier⟩, hidle, htwo⟩ :=
    hk.atRest hi hquiescent
  have hend := ((hk.incident (.readErrors 1)).incident (.readLedgers 2)).next (.leave hlistening)
  refine ⟨_, _, hend, ⟨⟨⟨hforsaken, houtbox, hkeeper⟩, hpending, hcourier⟩, ?_, ?_⟩,
    hsame.state.symm ▸ rfl⟩
  · show (k.state.errors.read 1).contents = []
    rw [herrors, Queue.read_holding, List.drop_eq_nil_of_le hfew]
    rfl
  · show (k.state.dataflow.read 2).contents = []
    rw [Queue.read, hk.takesLedgers hi, if_pos rfl, Queue.take, Queue.contents, hidle,
      List.drop_eq_nil_of_le htwo]
    simp

namespace RunArguments

/-- A run with a store that succeeds plays its session to the end. -/
theorem exists_session {a : RunArguments} {m : Machine} {credentials : Credentials}
    {printed : List String} {source : ConfigSource}
    (hcredentials : a.findCredentials m = .ok (credentials, printed))
    (hsource : a.findConfig m = .ok source)
    (h : (a.runWith m credentials source store).2.failure = none) :
    ∃ i es j, a.Attaches m store i ∧ Session a.plugin i .gone es j ∧ j.PrintingEnds ∧
      j.state.store = (a.runWith m credentials source store).1 := by
  unfold runWith at h ⊢
  cases hattach : Instance.attach
      ⟨a.plugin, a.bag credentials source, a.choices, a.content m, true⟩ m.platform queueCapacity
      store with
  | error e =>
    simp only [hattach] at h
    cases h
  | ok attached =>
    have hattaches := Attaches.intro hcredentials hsource hattach
    simp only [hattach] at h ⊢
    generalize m.occupied.foldl (fun i e => i.act (.occupy e)) attached = i at *
    have hprepared := hattaches.prepared
    obtain ⟨hreaches, hquiescent⟩ := reaches_of_session hprepared (Prod.ext rfl h)
    obtain ⟨es, j, hsession, hends, hstore⟩ := hreaches.ending hprepared hquiescent
    exact ⟨i, es, j, hattaches, hsession, hends, hstore⟩

/-- A run that succeeds has returned, with the machine as it leaves it. -/
theorem returns_of_execute {a : RunArguments} {m : Machine} {path : String}
    (hdatabase : a.database = some path) (h : (a.execute m).2.failure = none) :
    ∃ es, a.Returns m es (a.execute m).1 := by
  unfold execute at h ⊢
  cases hcredentials : a.findCredentials m with
  | error f =>
    rw [hcredentials] at h
    cases h
  | ok found =>
    obtain ⟨credentials, printed⟩ := found
    cases hsource : a.findConfig m with
    | error f =>
      rw [hcredentials, hsource] at h
      cases h
    | ok source =>
      simp only [hcredentials, hsource, runOn, hdatabase] at h ⊢
      cases hopen : m.openDatabase path with
      | error f =>
        rw [hopen] at h
        cases h
      | ok d =>
        simp only [hopen] at h ⊢
        obtain ⟨i, es, j, hattaches, hsession, hends, hstore⟩ :=
          exists_session hcredentials hsource h
        exact ⟨es, hstore ▸ .intro hdatabase hopen hattaches hsession hends⟩

end RunArguments

end CommandLine

end PluginKernel
