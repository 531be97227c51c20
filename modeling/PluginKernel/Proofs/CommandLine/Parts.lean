import PluginKernel.Proofs.CommandLine.Session

/-!
# The parts that tasks play in a run

In a run with one start and one stop every task plays a part: it goes through its stages in one
order, and at each of them what the tasks share is as its part says. A part is given by a relation
between the stage of a task and what it looks after, and by a step lemma, which says what a turn of
the task comes to for the `Setting` that all of them share.

The parts leave open what the other tasks do in between: whatever a part does not look after is
the same after a turn as before it.
-/

namespace PluginKernel

variable {σ α : Type}

/-! ## Queues and the lock -/

namespace Queue

/-- A queue of a run that holds some messages, and that nobody waits for or has let go. -/
def holding (xs : List α) : Queue α where
  capacity := CommandLine.RunArguments.queueCapacity
  buffer := xs

theorem send_holding {xs : List α} (h : xs.length < CommandLine.RunArguments.queueCapacity)
    (t : Nat) (x : α) : (holding xs).send t x = .sent (holding (xs ++ [x])) := by
  have hroom : (holding xs).hasRoom = true := decide_eq_true h
  rw [send, hroom]
  rfl

theorem post_holding {xs : List α} (h : xs.length < CommandLine.RunArguments.queueCapacity)
    (x : α) : (holding xs).post x = holding (xs ++ [x]) := by
  have hroom : (holding xs).hasRoom = true := decide_eq_true h
  rw [post, offer, hroom]
  rfl

theorem read_holding (xs : List α) (n : Nat) : (holding xs).read n = holding (xs.drop n) := by
  simp only [read, holding, if_true, take, List.take_nil, List.map_nil, List.append_nil,
    List.drop_nil]

theorem next?_holding_cons (x : α) (xs : List α) :
    (holding (x :: xs)).next? = some (x, holding xs) := by
  rw [next?]
  simp only [holding, take, List.drop_succ_cons, List.drop_zero, List.take_nil, List.map_nil,
    List.append_nil, List.drop_nil]

end Queue

namespace Lock

/-- The lock with the first of a line as its holder. -/
def ofLine (line : List Nat) : Lock := ⟨line.head?, line.tail⟩

theorem ask_ofLine (line : List Nat) (t : Nat) : (ofLine line).ask t = ofLine (line ++ [t]) := by
  cases line <;> rfl

theorem release_ofLine_cons (t : Nat) (line : List Nat) :
    (ofLine (t :: line)).release = ofLine line := rfl

end Lock

namespace CommandLine

/-! ## What the parts share -/

/-- What the tasks of a plugin act upon, but for what is on its way to the store and to the host's
ledgers. -/
structure Setting where
  lock : Lock
  server : Option Nat
  ledger : Option Ledger
  listeners : List Listener
  listening : Bool
  commands : Queue Command
  acks : Queue Command
  errors : Queue PluginError

end CommandLine

open CommandLine

def PluginState.setting (s : PluginState σ) : Setting :=
  ⟨s.lock, s.server, s.ledger, s.listeners, s.listening, s.commands, s.acks, s.errors⟩

/-- What a turn comes to: the setting afterwards, the ledgers that were queued, the next stage of
the task and the task that was set off. -/
structure Move.LeadsTo (m : Move σ) (s : PluginState σ) (w : Setting) (out : List Ledger)
    (next : Task) (spawned : Option Task) : Prop where
  setting : m.state.setting = w
  outbox : m.state.outbox = s.outbox ++ out
  next : m.next = next
  spawned : m.spawned = spawned

/-- A turn that queues nothing and sets nothing off. -/
theorem Move.leadsTo_quiet {s s' : PluginState σ} {w : Setting} (x : Task)
    (hsetting : s'.setting = w) (houtbox : s'.outbox = s.outbox) :
    (⟨s', x, none⟩ : Move σ).LeadsTo s w [] x none :=
  ⟨hsetting, houtbox.trans (List.append_nil _).symm, rfl, rfl⟩

namespace CommandLine

/-! ## The listener until it takes up a command -/

/-- How the listener comes to take up the one command that is sent to it: what is in its queue, and
who waits in line for the lock. -/
inductive Hears (c : Command) (tr : Transition) :
    Bool → ListenTask → List Command → List Nat → Prop where
  | idle {z : ListenTask} (hz : z = .open ∨ z = .receive) : Hears c tr false z [] []
  | sent {z : ListenTask} (hz : z = .open ∨ z = .receive) : Hears c tr true z [c] []
  | asks : Hears c tr true (.ask tr) [] []
  | awaits : Hears c tr true (.await tr) [] [2]

variable {s : PluginState σ} {setup : Setup} {m : Move σ} {id n : String}

/-- As long as nothing is sent, the listener waits. -/
theorem step?_receive_eq_none {t fresh : Nat} (hcommands : s.commands = .holding []) :
    ListenTask.receive.step? t fresh s = none := by
  rw [ListenTask.step?, hcommands]
  rfl

/-- The listener goes on to take up the command; or nobody else holds the lock, and it hands the
lock over to the task that it sets off. -/
theorem Hears.step {c : Command} {tr : Transition} {sent : Bool} {z : ListenTask}
    {cs : List Command} {waits holds : List Nat} (h : Hears c tr sent z cs waits)
    (hc : c.transition? = some tr) {fresh : Nat} (hholds : 2 ∉ holds)
    (hlock : s.lock = .ofLine (holds ++ waits)) (hcommands : s.commands = .holding cs)
    (hm : z.step? 2 fresh s = some m) :
    (∃ z' cs' waits', Hears c tr sent z' cs' waits' ∧
      m.LeadsTo s { s.setting with lock := .ofLine (holds ++ waits'), commands := .holding cs' } []
        (.listen z') none) ∨
    (sent = true ∧ cs = [] ∧ holds = [] ∧ m.LeadsTo s { s.setting with lock := .ofLine [fresh] } []
      (.listen (ListenTask.after tr)) (some (.ofTransition tr))) := by
  cases h with
  | idle hz =>
    rcases hz with rfl | rfl
    · cases hm
      refine .inl ⟨_, _, _, .idle (.inr rfl), Move.leadsTo_quiet _ ?_ rfl⟩
      rw [← hlock, ← hcommands]
      rfl
    · rw [step?_receive_eq_none hcommands] at hm
      cases hm
  | sent hz =>
    rcases hz with rfl | rfl
    · cases hm
      refine .inl ⟨_, _, _, .sent (.inr rfl), Move.leadsTo_quiet _ ?_ rfl⟩
      rw [← hlock, ← hcommands]
      rfl
    · rw [ListenTask.step?, hcommands, Queue.next?_holding_cons] at hm
      obtain ⟨plugin, request⟩ := c
      cases request <;> cases hc <;> cases hm <;>
        refine .inl ⟨_, _, _, .asks, Move.leadsTo_quiet _ ?_ rfl⟩ <;> rw [← hlock] <;> rfl
  | asks =>
    cases hm
    refine .inl ⟨_, _, _, .awaits, Move.leadsTo_quiet _ ?_ rfl⟩
    rw [hlock, Lock.ask_ofLine, List.append_nil, ← hcommands]
    rfl
  | awaits =>
    rw [ListenTask.step?] at hm
    split at hm
    next hholder =>
      cases hm
      rw [hlock] at hholder ⊢
      cases holds with
      | nil => exact .inr ⟨rfl, rfl, rfl, rfl, (List.append_nil _).symm, rfl, rfl⟩
      | cons u rest =>
        cases hholder
        exact absurd List.mem_cons_self hholds
    · cases hm

/-- A listener that was sent the command goes on, unless the lock is held by another. -/
theorem Hears.step?_ne_none {c : Command} {tr : Transition} {z : ListenTask} {cs : List Command}
    {waits : List Nat} {fresh : Nat} (h : Hears c tr true z cs waits) (hc : c.transition? = some tr)
    (hlock : s.lock = .ofLine waits) (hcommands : s.commands = .holding cs) :
    z.step? 2 fresh s ≠ none := by
  intro hnone
  cases h with
  | sent hz =>
    rcases hz with rfl | rfl
    · cases hnone
    · rw [ListenTask.step?, hcommands, Queue.next?_holding_cons] at hnone
      obtain ⟨plugin, request⟩ := c
      cases request <;> cases hc <;> cases hnone
  | asks => cases hnone
  | awaits =>
    rw [ListenTask.step?, hlock] at hnone
    cases hnone

/-! ## The start -/

/-- How the start brings the server up: which places it listens on. -/
inductive Raises (n : String) : StartTask → List Listener → Prop where
  | enter : Raises n (.enter n) []
  | bind : Raises n (.bind n) []
  | announce (e : Endpoint) : Raises n (.announce n 0) [{ endpoint := e }]
  | launch (e : Endpoint) : Raises n (.launch n 0) [{ endpoint := e }]

/-- A start that has failed, and has no ledger to charge that to. -/
inductive HasFailed : StartTask → Prop where
  | fail (n : String) (e : PluginError) : HasFailed (.fail n e)
  | giveUp (n : String) (e : PluginError) : HasFailed (.giveUp n e)
  | check (e : PluginError) : HasFailed (.report (.check e))
  | record (e : PluginError) : HasFailed (.report (.record e))
  | send (e : PluginError) : HasFailed (.report (.send e))
  | wait (e : PluginError) : HasFailed (.report (.wait e))
  | done : HasFailed (.report .done)

/-- The start goes on to bring the server up, or fails, or lets the server run. -/
theorem Raises.step {x : StartTask} {ls : List Listener} (h : Raises n x ls)
    (hserver : s.server = none) (hlisteners : s.listeners = ls)
    (hm : x.step? setup 3 s = some m) :
    (∃ x' ls', (Raises n x' ls' ∨ HasFailed x') ∧
      m.LeadsTo s { s.setting with listeners := ls' } [] (.start x') none) ∨
    (∃ e, ls = [{ endpoint := e }] ∧ m.LeadsTo s { s.setting with server := some 0 } []
      (.start (.record n)) (some (.serve (.greet n 0)))) := by
  cases h with
  | enter =>
    simp only [StartTask.step?] at hm
    split at hm
    next k hk =>
      rw [hserver] at hk
      cases hk
    · cases hm
      exact .inl ⟨_, _, .inl .bind, Move.leadsTo_quiet _ (by rw [← hlisteners]; rfl) rfl⟩
  | bind =>
    simp only [StartTask.step?] at hm
    split at hm <;> cases hm
    next e he =>
      exact .inl ⟨_, s.listeners, .inr (.fail n e), Move.leadsTo_quiet _ rfl rfl⟩
    next place hplace =>
      refine .inl ⟨_, _, .inl ?_, Move.leadsTo_quiet _ rfl rfl⟩
      simp only [PluginState.logged, hlisteners]
      exact .announce place
  | announce e =>
    cases hm
    exact .inl ⟨_, _, .inl (.launch e), Move.leadsTo_quiet _ (by rw [← hlisteners]; rfl) rfl⟩
  | launch e =>
    cases hm
    exact .inr ⟨e, rfl, rfl, (List.append_nil _).symm, rfl, rfl⟩

/-- A start that has failed queues no ledger and lets no server run. -/
theorem HasFailed.step {x : StartTask} (h : HasFailed x) (hledger : s.ledger = none)
    (hm : x.step? setup 3 s = some m) :
    ∃ x' lock errors, HasFailed x' ∧
      m.LeadsTo s { s.setting with lock, errors } [] (.start x') none := by
  cases h with
  | fail n e =>
    cases hm
    exact ⟨_, s.lock, s.errors, .giveUp n e, Move.leadsTo_quiet _ rfl rfl⟩
  | giveUp n e =>
    cases hm
    exact ⟨_, _, s.errors, .check e, Move.leadsTo_quiet _ rfl rfl⟩
  | check e =>
    simp only [StartTask.step?, ReportTask.step?] at hm
    split at hm <;> cases hm
    · exact ⟨_, s.lock, s.errors, .record e, Move.leadsTo_quiet _ rfl rfl⟩
    · exact ⟨_, s.lock, s.errors, .done, Move.leadsTo_quiet _ rfl rfl⟩
  | record e =>
    simp only [StartTask.step?, ReportTask.step?, hledger] at hm
    cases hm
    exact ⟨_, s.lock, s.errors, .send e, Move.leadsTo_quiet _ rfl rfl⟩
  | send e =>
    simp only [StartTask.step?, ReportTask.step?] at hm
    split at hm <;> cases hm
    · exact ⟨_, s.lock, _, .done, Move.leadsTo_quiet _ rfl rfl⟩
    · exact ⟨_, s.lock, _, .wait e, Move.leadsTo_quiet _ rfl rfl⟩
    · exact ⟨_, s.lock, s.errors, .done, Move.leadsTo_quiet _ rfl rfl⟩
  | wait e =>
    simp only [StartTask.step?, ReportTask.step?] at hm
    split at hm <;> cases hm <;> exact ⟨_, s.lock, _, .done, Move.leadsTo_quiet _ rfl rfl⟩
  | done => cases hm

/-- A ledger that was opened by a start. -/
def IsOpened (id n : String) (l : Ledger) : Prop := ∃ now, l = .start id n now

/-- How the start opens the ledger of the run and sends it out, once the server is let run: the live
ledger, the start as the holder of the lock, and what was queued. -/
inductive Opens (id n : String) : StartTask → Option Ledger → List Nat → List Ledger → Prop where
  | record : Opens id n (.record n) none [3] []
  | settle {l : Ledger} (hl : IsOpened id n l) : Opens id n (.settle l) (some l) [3] []
  | release {l : Ledger} (hl : IsOpened id n l) : Opens id n (.release l) (some l) [3] []
  | emit {l : Ledger} (hl : IsOpened id n l) : Opens id n (.emit l) (some l) [] []
  | done {l : Ledger} (hl : IsOpened id n l) : Opens id n .done (some l) [] [l]

theorem Opens.step {x : StartTask} {ledger : Option Ledger} {holds waits : List Nat}
    {q : List Ledger} (h : Opens setup.equipment.argosId n x ledger holds q)
    (hledger : s.ledger = ledger) (hlock : s.lock = .ofLine (holds ++ waits))
    (hm : x.step? setup 3 s = some m) :
    ∃ x' ledger' holds' out, Opens setup.equipment.argosId n x' ledger' holds' (q ++ out) ∧
      m.LeadsTo s { s.setting with lock := .ofLine (holds' ++ waits), ledger := ledger' } out
        (.start x') none := by
  cases h with
  | record =>
    cases hm
    refine ⟨_, _, _, _, .settle ⟨s.clock, rfl⟩, Move.leadsTo_quiet _ ?_ rfl⟩
    rw [← hlock]
    rfl
  | settle hl =>
    cases hm
    refine ⟨_, _, _, _, .release hl, Move.leadsTo_quiet _ ?_ rfl⟩
    rw [← hlock, ← hledger]
    rfl
  | release hl =>
    cases hm
    refine ⟨_, _, _, _, .emit hl, Move.leadsTo_quiet _ ?_ rfl⟩
    rw [PluginState.unlock, hlock, List.singleton_append, Lock.release_ofLine_cons, ← hledger]
    rfl
  | emit hl =>
    cases hm
    refine ⟨_, _, _, _, .done hl, ?_, rfl, rfl, rfl⟩
    rw [← hlock, ← hledger]
    rfl
  | done => cases hm

/-- How the start sends its ledger out while the run is stopped already. -/
inductive Emits (l : Ledger) : StartTask → List Ledger → Prop where
  | emit : Emits l (.emit l) []
  | done : Emits l .done [l]

theorem Emits.step {l : Ledger} {x : StartTask} {q : List Ledger} (h : Emits l x q)
    (hm : x.step? setup 3 s = some m) :
    ∃ x' out, Emits l x' (q ++ out) ∧ m.LeadsTo s s.setting out (.start x') none := by
  cases h with
  | emit =>
    cases hm
    exact ⟨_, _, .done, rfl, rfl, rfl, rfl⟩
  | done => cases hm

/-- As long as the start holds the lock, it goes on. -/
theorem Opens.holds_eq_nil {x : StartTask} {ledger : Option Ledger} {holds : List Nat}
    {q : List Ledger} (h : Opens id n x ledger holds q) (hwaits : x.step? setup 3 s = none) :
    holds = [] := by
  cases h with
  | record | settle | release => cases hwaits
  | emit | done => rfl

theorem Opens.two_notMem {x : StartTask} {ledger : Option Ledger} {holds : List Nat}
    {q : List Ledger} (h : Opens id n x ledger holds q) : 2 ∉ holds := by
  cases h <;> decide

theorem Emits.eq_done {l : Ledger} {x : StartTask} {q : List Ledger} (h : Emits l x q)
    (hwaits : x.step? setup 3 s = none) : x = .done := by
  cases h with
  | emit => cases hwaits
  | done => rfl

/-- As long as the start does not hold the lock, it has opened the ledger. -/
theorem Opens.emits {x : StartTask} {ledger : Option Ledger} {q : List Ledger}
    (h : Opens id n x ledger [] q) : ∃ l, IsOpened id n l ∧ ledger = some l ∧ Emits l x q := by
  generalize hholds : ([] : List Nat) = holds at h
  cases h with
  | record | settle | release => cases hholds
  | emit hl => exact ⟨_, hl, rfl, .emit⟩
  | done hl => exact ⟨_, hl, rfl, .done⟩

/-! ## The server -/

/-- How the server acknowledges the start and serves: whether the host has heard of it, and the
acknowledgments on their way. -/
inductive Serves (n : String) : Bool → ServeTask → List Command → Prop where
  | greet : Serves n false (.greet n 0) []
  | acknowledged {v : ServeTask} (hv : v = .open 0 ∨ v = .serve 0) :
    Serves n false v [⟨n, .start⟩]
  | heard {v : ServeTask} (hv : v = .open 0 ∨ v = .serve 0) : Serves n true v []

theorem Serves.step {heard : Bool} {v v' : ServeTask} {acks : List Command} {e : Endpoint}
    {s' : PluginState σ} (h : Serves n heard v acks)
    (hlisteners : s.listeners = [{ endpoint := e }]) (hacks : s.acks = .holding acks)
    (hm : v.step? 4 s = some (s', v')) :
    ∃ acks', Serves n heard v' acks' ∧ (⟨s', .serve v', none⟩ : Move σ).LeadsTo s
      { s.setting with acks := .holding acks' } [] (.serve v') none := by
  -- a server that was not told to stop goes on serving
  have hserves : (ServeTask.serve 0).step? 4 s = none := by
    rw [ServeTask.step?, hlisteners]
    rfl
  cases h with
  | greet =>
    rw [ServeTask.step?, hacks, Queue.send_holding (by decide)] at hm
    cases hm
    exact ⟨_, .acknowledged (.inl rfl), Move.leadsTo_quiet _ rfl rfl⟩
  | acknowledged hv =>
    rcases hv with rfl | rfl
    · cases hm
      exact ⟨_, .acknowledged (.inr rfl), Move.leadsTo_quiet _ (by rw [← hacks]; rfl) rfl⟩
    · rw [hserves] at hm
      cases hm
  | heard hv =>
    rcases hv with rfl | rfl
    · cases hm
      exact ⟨_, .heard (.inr rfl), Move.leadsTo_quiet _ (by rw [← hacks]; rfl) rfl⟩
    · rw [hserves] at hm
      cases hm

/-- How the server comes to its end: whether it was told to stop, and whether it has. -/
inductive Quits : ServeTask → Bool → Bool → Prop where
  | serving {v : ServeTask} (hv : v = .open 0 ∨ v = .serve 0) (cancelled : Bool) :
    Quits v cancelled false
  | done : Quits .done true true

theorem Quits.step {v v' : ServeTask} {e : Endpoint} {cancelled closed : Bool}
    {s' : PluginState σ} (h : Quits v cancelled closed)
    (hlisteners : s.listeners = [⟨e, cancelled, closed⟩])
    (hm : v.step? 4 s = some (s', v')) :
    ∃ closed', Quits v' cancelled closed' ∧ (⟨s', .serve v', none⟩ : Move σ).LeadsTo s
      { s.setting with listeners := [⟨e, cancelled, closed'⟩] } [] (.serve v') none := by
  cases h with
  | serving hv =>
    rcases hv with rfl | rfl
    · cases hm
      refine ⟨_, .serving (.inr rfl) _, Move.leadsTo_quiet _ ?_ rfl⟩
      rw [← hlisteners]
      rfl
    · simp only [ServeTask.step?, hlisteners, List.getElem?_cons_zero] at hm
      cases cancelled <;> cases hm
      refine ⟨_, .done, Move.leadsTo_quiet _ ?_ rfl⟩
      simp only [PluginState.setting, PluginState.logged, PluginState.setListener, hlisteners,
        List.modify_zero_cons]
  | done => cases hm

/-- A server that was told to stop goes on until it has stopped. -/
theorem Quits.eq_done {v : ServeTask} {e : Endpoint} {closed : Bool} (h : Quits v true closed)
    (hlisteners : s.listeners = [⟨e, true, closed⟩]) (hwaits : v.step? 4 s = none) :
    v = .done ∧ closed = true := by
  cases h with
  | serving hv =>
    rcases hv with rfl | rfl
    · cases hwaits
    · rw [ServeTask.step?, hlisteners] at hwaits
      cases hwaits
  | done => exact ⟨rfl, rfl⟩

/-- A server may be told to stop at any time. -/
theorem Quits.cancel {v : ServeTask} {cancelled cancelled' closed : Bool}
    (h : Quits v cancelled closed) (hc : cancelled = true → cancelled' = true) :
    Quits v cancelled' closed := by
  cases h with
  | serving hv => exact .serving hv _
  | done =>
    rw [hc rfl]
    exact .done

/-! ## The stop -/

/-- A ledger that was opened by a start and closed by a stop. -/
def IsClosed (id n : String) (l l' : Ledger) : Prop :=
  ∃ now, l' = l.record id (.shutdown n) Outcome.successMode now

/-- How the stop brings the server down, closes the ledger of the run and sends it out: the running
server, the live ledger, who holds the lock, whether the server was told to stop, and what was
queued. -/
inductive Stops (id n : String) (l : Ledger) :
    StopTask → Option Nat → Option Ledger → List Nat → Bool → List Ledger → Prop where
  | enter : Stops id n l (.enter n) (some 0) (some l) [5] false []
  | silence : Stops id n l (.silence n 0) none (some l) [5] false []
  | cancel : Stops id n l (.cancel n 0) none (some l) [5] false []
  | join : Stops id n l (.join n 0) none (some l) [5] true []
  | record : Stops id n l (.record n) none (some l) [5] true []
  | settle {l' : Ledger} (hl : IsClosed id n l l') :
    Stops id n l (.settle n (some l')) none none [5] true []
  | release {l' : Ledger} (hl : IsClosed id n l l') :
    Stops id n l (.release n (some l')) none none [5] true []
  | emit {l' : Ledger} (hl : IsClosed id n l l') :
    Stops id n l (.emit n (some l')) none none [] true []
  | acknowledge {l' : Ledger} (hl : IsClosed id n l l') :
    Stops id n l (.acknowledge n) none none [] true [l']
  | done {l' : Ledger} (hl : IsClosed id n l l') : Stops id n l .done none none [] true [l']

/-- The stages of the host once it has heard of the stop. -/
inductive AfterStop : Stage → Prop where
  | leaving : AfterStop .leaving
  | gone : AfterStop .gone

/-- How the stop is acknowledged: which acknowledgments are on their way. -/
inductive Answers (n : String) : Stage → StopTask → List Command → Prop where
  | pending {p : StopTask} (hp : p ≠ .done) : Answers n .stopping p []
  | answered : Answers n .stopping .done [⟨n, .stop⟩]
  | heard {st : Stage} (hst : AfterStop st) : Answers n st .done []

/-- Until the stop is done it has not been acknowledged. -/
theorem Answers.eq_of_ne {st : Stage} {p : StopTask} {acks : List Command} (h : Answers n st p acks)
    (hp : p ≠ .done) : st = .stopping ∧ acks = [] := by
  cases h with
  | pending => exact ⟨rfl, rfl⟩
  | answered | heard => exact absurd rfl hp

theorem Stops.step {st : Stage} {l : Ledger} {p p' : StopTask} {server : Option Nat}
    {ledger : Option Ledger} {line : List Nat} {cancelled closed : Bool} {q : List Ledger}
    {acks : List Command} {e : Endpoint} {s' : PluginState σ}
    (h : Stops setup.equipment.argosId n l p server ledger line cancelled q)
    (hanswers : Answers n st p acks) (hset : s.setting = { s.setting with
      server, ledger, lock := .ofLine line, listeners := [⟨e, cancelled, closed⟩],
      acks := .holding acks })
    (hm : p.step? setup 5 s = some (s', p')) :
    ∃ server' ledger' line' cancelled' out acks',
      Stops setup.equipment.argosId n l p' server' ledger' line' cancelled' (q ++ out) ∧
      Answers n st p' acks' ∧ (cancelled = true → cancelled' = true) ∧
      (⟨s', .stop p', none⟩ : Move σ).LeadsTo s { s.setting with
        server := server', ledger := ledger', lock := .ofLine line',
        listeners := [⟨e, cancelled', closed⟩], acks := .holding acks' } out (.stop p') none := by
  have hserver : s.server = server := congrArg Setting.server hset
  have hledger : s.ledger = ledger := congrArg Setting.ledger hset
  have hlock : s.lock = .ofLine line := congrArg Setting.lock hset
  have hlisteners : s.listeners = [⟨e, cancelled, closed⟩] := congrArg Setting.listeners hset
  have hacks : s.acks = .holding acks := congrArg Setting.acks hset
  by_cases hdone : p = .done
  · rw [hdone] at hm
    cases hm
  obtain ⟨rfl, rfl⟩ := hanswers.eq_of_ne hdone
  cases h with
  | enter =>
    simp only [StopTask.step?] at hm
    split at hm
    next k hk =>
      cases hm
      obtain rfl : k = 0 := Option.some.inj (hk.symm.trans hserver)
      refine ⟨_, _, _, _, _, _, .silence, .pending (by simp), id, Move.leadsTo_quiet _ ?_ rfl⟩
      rw [← hledger, ← hlock, ← hlisteners, ← hacks]
      rfl
    next hk =>
      have hnone : s.server = none := hk
      rw [hserver] at hnone
      cases hnone
  | silence =>
    cases hm
    refine ⟨_, _, _, _, _, _, .cancel, .pending (by simp), id, Move.leadsTo_quiet _ ?_ rfl⟩
    rw [← hserver, ← hledger, ← hlock, ← hlisteners, ← hacks]
    rfl
  | cancel =>
    cases hm
    refine ⟨_, _, _, _, _, _, .join, .pending (by simp), fun _ => rfl, Move.leadsTo_quiet _ ?_ rfl⟩
    simp only [PluginState.setting, PluginState.setListener, hlisteners, hserver, hledger, hlock,
      hacks, List.modify_zero_cons]
  | join =>
    simp only [StopTask.step?, hlisteners, List.getElem?_cons_zero] at hm
    split at hm <;> cases hm
    refine ⟨_, _, _, _, _, _, .record, .pending (by simp), id, Move.leadsTo_quiet _ ?_ rfl⟩
    rw [← hserver, ← hledger, ← hlock, ← hlisteners, ← hacks]
    rfl
  | record =>
    simp only [StopTask.step?] at hm
    split at hm
    next hk =>
      rw [hledger] at hk
      cases hk
    next l₀ hl₀ =>
      obtain rfl : l₀ = l := Option.some.inj (hl₀.symm.trans hledger)
      cases hm
      refine ⟨_, _, _, _, _, _, .settle ⟨s.clock, rfl⟩, .pending (by simp), id,
        Move.leadsTo_quiet _ ?_ rfl⟩
      rw [← hserver, ← hlock, ← hlisteners, ← hacks]
      rfl
  | settle hl =>
    cases hm
    refine ⟨_, _, _, _, _, _, .release hl, .pending (by simp), id, Move.leadsTo_quiet _ ?_ rfl⟩
    rw [← hserver, ← hledger, ← hlock, ← hlisteners, ← hacks]
    rfl
  | release hl =>
    cases hm
    refine ⟨_, _, _, _, _, _, .emit hl, .pending (by simp), id, Move.leadsTo_quiet _ ?_ rfl⟩
    rw [PluginState.unlock, hlock, Lock.release_ofLine_cons, ← hserver, ← hledger, ← hlisteners,
      ← hacks]
    rfl
  | emit hl =>
    cases hm
    refine ⟨_, _, _, _, _, _, .acknowledge hl, .pending (by simp), id, ?_, rfl, rfl, rfl⟩
    rw [← hserver, ← hledger, ← hlock, ← hlisteners, ← hacks]
    rfl
  | acknowledge hl =>
    rw [StopTask.step?, hacks, Queue.send_holding (by decide)] at hm
    cases hm
    refine ⟨_, _, _, _, _, _, .done hl, .answered, id, Move.leadsTo_quiet _ ?_ rfl⟩
    rw [← hserver, ← hledger, ← hlock, ← hlisteners]
    rfl
  | done hl => exact absurd rfl hdone

/-- The stop waits for nothing but a server that has not stopped. -/
theorem Stops.eq_done {l : Ledger} {p : StopTask} {server : Option Nat} {ledger : Option Ledger}
    {line : List Nat} {cancelled closed : Bool} {q : List Ledger} {e : Endpoint}
    (h : Stops id n l p server ledger line cancelled q) (hledger : s.ledger = ledger)
    (hlisteners : s.listeners = [⟨e, cancelled, closed⟩])
    (hclosed : cancelled = true → closed = true) (hacks : s.acks = .holding [])
    (hwaits : p.step? setup 5 s = none) : p = .done := by
  cases h with
  | join =>
    obtain rfl := hclosed rfl
    rw [StopTask.step?, hlisteners] at hwaits
    cases hwaits
  | enter =>
    simp only [StopTask.step?] at hwaits
    split at hwaits <;> cases hwaits
  | record =>
    simp only [StopTask.step?, hledger] at hwaits
    cases hwaits
  | acknowledge hl =>
    rw [StopTask.step?, hacks, Queue.send_holding (by decide)] at hwaits
    cases hwaits
  | done => rfl
  | _ => cases hwaits

/-! ## The listener once it has taken up the stop -/

/-- How the listener comes to its end: whether commands are listened to, and the errors on their
way. -/
inductive Closes (n : String) : ListenTask → Bool → List PluginError → Prop where
  | announce : Closes n (.announce n) true []
  | close {es : List PluginError} (hes : es.length ≤ 1) : Closes n .close true es
  | done {es : List PluginError} (hes : es.length ≤ 1) : Closes n .done false es

theorem Closes.eq_done {z : ListenTask} {listening : Bool} {es : List PluginError} {fresh : Nat}
    (h : Closes n z listening es) (herrors : s.errors = .holding es)
    (hwaits : z.step? 2 fresh s = none) : z = .done ∧ listening = false ∧ es.length ≤ 1 := by
  cases h with
  | announce =>
    rw [ListenTask.step?, herrors, Queue.send_holding (by decide)] at hwaits
    cases hwaits
  | close => cases hwaits
  | done hes => exact ⟨rfl, rfl, hes⟩

/-- Reading takes errors away. -/
theorem Closes.read {z : ListenTask} {listening : Bool} {es : List PluginError}
    (h : Closes n z listening es) (k : Nat) : Closes n z listening (es.drop k) := by
  cases h with
  | announce =>
    rw [List.drop_nil]
    exact .announce
  | close hes => exact .close (by rw [List.length_drop]; omega)
  | done hes => exact .done (by rw [List.length_drop]; omega)

theorem Closes.step {z : ListenTask} {listening : Bool} {es : List PluginError} {fresh : Nat}
    (h : Closes n z listening es) (hlistening : s.listening = listening)
    (herrors : s.errors = .holding es) (hm : z.step? 2 fresh s = some m) :
    ∃ z' listening' commands es', Closes n z' listening' es' ∧ m.LeadsTo s { s.setting with
      listening := listening', commands, errors := .holding es' } [] (.listen z') none := by
  cases h with
  | announce =>
    rw [ListenTask.step?, herrors, Queue.send_holding (by decide)] at hm
    cases hm
    refine ⟨_, _, s.commands, [.shuttingDown n], .close (Nat.le_refl 1),
      Move.leadsTo_quiet _ ?_ rfl⟩
    rw [← hlistening]
    rfl
  | close hes =>
    cases hm
    refine ⟨_, _, s.commands.dropReceiver, _, .done hes, Move.leadsTo_quiet _ ?_ rfl⟩
    rw [← herrors]
    rfl
  | done => cases hm

end CommandLine

end PluginKernel
