import PluginKernel.CommandLine.Run
import PluginKernel.Proofs.Instance.Reuse

/-!
# Runs of a plugin

A host that runs a plugin sends a start and waits for its acknowledgment, keeps the plugin running,
sends a stop and waits for its acknowledgment, waits until commands are listened to no longer, and
lets go of the plugin. Meanwhile it prints what the plugin sends. It returns when nothing more can
be sent: when nobody holds an end of the two queues that are printed, and both are empty.

The tasks of the plugin take their turns in between, in any order. A `Session` is all that can
happen this way; settling after every step of the host is one of many.
-/

namespace PluginKernel

variable {σ : Type}

/-! ## Who can still send -/

/-- Whether a task holds the plugin, and with it an end of every queue to the host. The keeper and
the courier hold ends of their own. -/
def Task.holdsPlugin : Task → Bool
  | keeper _ | courier _ => false
  | task => !task.isDone

namespace Instance

/-- The keeper comes to its end: nobody is left who could queue a ledger, and none is left to be
kept. -/
structure KeeperEnds (j : Instance σ) : Prop where
  forsaken : ∀ task ∈ j.tasks, task.holdsPlugin = false
  outbox : j.state.outbox = []
  waits : ∀ x, .keeper x ∈ j.tasks → x = .receive

/-- The courier comes to its end: the keeper does, and nothing is left to be delivered. -/
structure CourierEnds (j : Instance σ) : Prop where
  keeper : j.KeeperEnds
  pending : j.state.pending = []
  waits : ∀ y, .courier y ∈ j.tasks → y = .receive

/-- Printing comes to its end: nobody holds an end to send errors or ledgers by, and all of them
were taken. -/
structure PrintingEnds (j : Instance σ) : Prop where
  courier : j.CourierEnds
  errors : j.state.errors.contents = []
  dataflow : j.state.dataflow.contents = []

end Instance

/-- What happens in a run beside what the host does in turn: what the plugin sends is printed, other
programs take and free places, and time passes. -/
inductive HostAction.IsIncidental : HostAction → Prop where
  | readErrors (n : Nat) : IsIncidental (.readErrors n)
  | readLedgers (n : Nat) : IsIncidental (.readLedgers n)
  | ambient {a : HostAction} (h : a.IsAmbient) : IsIncidental a

namespace CommandLine

/-- How far a host has come that runs a plugin. -/
inductive Stage where
  /-- The plugin is attached. -/
  | attached
  /-- The start was sent. -/
  | starting
  /-- The start was acknowledged. -/
  | running
  /-- The stop was sent. -/
  | stopping
  /-- The stop was acknowledged. -/
  | leaving
  /-- The plugin was let go. -/
  | gone
deriving DecidableEq

/-- What a host that runs a plugin does at a stage, when it can do it, and the stage after it. -/
inductive Stage.Next (plugin : String) (s : PluginState σ) : Stage → HostAction → Stage → Prop where
  | start (hopen : s.commands.hasReceiver = true) (hroom : s.commands.hasRoom = true) :
    Next plugin s .attached (.command ⟨plugin, .start⟩) .starting
  | started (h : s.acks.buffer ≠ []) : Next plugin s .starting (.readAcks 1) .running
  | stop (hopen : s.commands.hasReceiver = true) (hroom : s.commands.hasRoom = true) :
    Next plugin s .running (.command ⟨plugin, .stop⟩) .stopping
  | stopped (h : s.acks.buffer ≠ []) : Next plugin s .stopping (.readAcks 1) .leaving
  | leave (h : s.listening = false) : Next plugin s .leaving (.drop .commands) .gone

/-- What can happen while a host runs a plugin: the stage that the host has reached, all that has
happened, oldest first, and what the plugin has become. -/
inductive Session [RecordStore σ] (plugin : String) (i : Instance σ) :
    Stage → List (Instance.Event σ) → Instance σ → Prop where
  | refl : Session plugin i .attached [] i
  | turn {st : Stage} {es : List (Instance.Event σ)} {j k : Instance σ} {t : Nat}
      (h : Session plugin i st es j) (hs : j.step? t = some k) :
      Session plugin i st (es ++ [.turn ⟨t, j, k⟩]) k
  | incident {st : Stage} {es : List (Instance.Event σ)} {j : Instance σ} {a : HostAction}
      (h : Session plugin i st es j) (ha : a.IsIncidental) :
      Session plugin i st (es ++ [.action j a]) (j.act a)
  | next {st st' : Stage} {es : List (Instance.Event σ)} {j : Instance σ} {a : HostAction}
      (h : Session plugin i st es j) (ha : st.Next plugin j.state a st') :
      Session plugin i st' (es ++ [.action j a]) (j.act a)

namespace RunArguments

/-- A plugin that was attached for a run, with a store, before the start is sent. -/
inductive Attaches (a : RunArguments) (m : Machine) (store : σ) : Instance σ → Prop where
  | intro {credentials : Credentials} {printed : List String} {source : ConfigSource}
      {attached : Instance σ}
      (hcredentials : a.findCredentials m = .ok (credentials, printed))
      (hsource : a.findConfig m = .ok source)
      (hattach : Instance.attach ⟨a.plugin, a.bag credentials source, a.choices, a.content m, true⟩
        m.platform queueCapacity store = .ok attached) :
      Attaches a m store (m.occupied.foldl (fun i e => i.act (.occupy e)) attached)

/-- A run with a database that has returned, and was not given up: what has happened, oldest first,
and the machine afterwards. -/
inductive Returns (a : RunArguments) (m : Machine) :
    List (Instance.Event Store.Rows) → Machine → Prop where
  | intro {path : String} {d : OpenDatabase} {i j : Instance Store.Rows}
      {es : List (Instance.Event Store.Rows)} (hdatabase : a.database = some path)
      (hopen : m.openDatabase path = .ok d) (hattaches : a.Attaches m d.rows i)
      (hsession : Session a.plugin i .gone es j) (hends : j.PrintingEnds) :
      Returns a m es (m.close { d with rows := j.state.store })

end RunArguments

variable [RecordStore σ] {plugin : String} {i j k : Instance σ} {st : Stage}
  {es : List (Instance.Event σ)}

/-- A session is a course. -/
theorem Session.course (h : Session plugin i st es j) : i.Course es j := by
  induction h with
  | refl => exact .refl
  | turn _ hs ih => exact ih.turn hs
  | incident _ _ ih | next _ _ ih => exact ih.action _

/-- The turns of some tasks, one after the other, as a part of a session. -/
theorem Session.turns (h : Session plugin i st es j) {us : List Nat} (hs : j.steps? us = some k) :
    ∃ es', Session plugin i st es' k := by
  induction us generalizing es j with
  | nil =>
    cases hs
    exact ⟨es, h⟩
  | cons t rest ih =>
    obtain ⟨j', hj', hrest⟩ := Option.bind_eq_some_iff.1 hs
    exact ih (h.turn hj') hrest

end CommandLine

end PluginKernel
