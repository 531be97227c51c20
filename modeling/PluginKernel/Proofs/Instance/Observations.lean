import PluginKernel.Proofs.Instance.ClosedEnds
import PluginKernel.Proofs.Instance.Timeless

/-!
# What can be observed of a plugin

A host sees what arrives at its ends of the queues, whether and where the plugin listens, and what
its server answers about the services; whoever looks over the plugin's shoulder sees its phase and
the snapshots on their way out as well. What nobody sees are the numbers of tasks and of listeners,
and no two runs agree on measured times. A `View` is what is left of a state then, and the
`observations` of a course are what can be seen in each of its events and after it. The health of
the services counts from the first moment at which there is a server: before, nobody answers for it.
-/

namespace PluginKernel

variable {σ : Type}

/-- The same queue when it cannot be told who waits in line. -/
def Queue.unnumbered {α : Type} (q : Queue α) : Queue α := q.renumber fun _ => 0

theorem Queue.unnumbered_renumber {α : Type} (ρ : Nat → Nat) (q : Queue α) :
    (q.renumber ρ).unnumbered = q.unnumbered := by
  simp [unnumbered, renumber, Function.comp_def]

theorem Queue.map_unnumbered {α β : Type} (f : α → β) (q : Queue α) :
    q.unnumbered.map f = (q.map f).unnumbered := (renumber_map f q _).symm

theorem Queue.readOut_unnumbered {α : Type} (q : Queue α) (n : Nat) :
    q.unnumbered.readOut n = q.readOut n := by
  rw [readOut, unnumbered, take_renumber]
  rfl

theorem Queue.readOut_map {α β : Type} (f : α → β) (q : Queue α) (n : Nat) :
    (q.map f).readOut n = (q.readOut n).map f := by
  have hreceiver : (q.map f).hasReceiver = q.hasReceiver := rfl
  rw [readOut, readOut, take_map, hreceiver]
  cases q.hasReceiver <;> rfl

/-- The place at which the server listens. -/
def PluginState.serverPlace (s : PluginState σ) : Option Endpoint :=
  s.server.bind fun n => s.listeners[n]?.map Listener.endpoint

/-- What can be seen of a plugin at some moment, but for times. -/
structure View where
  phase : Phase
  /-- Whether there is a server, and where it listens. -/
  server : Option Endpoint
  /-- The places that the plugin holds. -/
  held : List Endpoint
  /-- The places that others hold. -/
  occupied : List Endpoint
  /-- The health of the services, once there has been a server. -/
  health : Option Health
  /-- The ledger of the run. -/
  ledger : Option Ledger
  /-- Acknowledgments on their way. -/
  acks : Queue Command
  /-- Errors on their way. -/
  errors : Queue PluginError
  /-- Snapshots to be kept. -/
  outbox : List Ledger
  /-- Snapshots to be delivered. -/
  pending : List Ledger
  /-- Ledgers on their way. -/
  dataflow : Queue Ledger
  /-- Whether commands are listened to. -/
  listening : Bool
  commands : Queue Command
  chatIn : Queue ChatMessage
  chatOut : Queue ChatMessage

/-- What can be seen in an event and after it, but for times. -/
structure Observation where
  /-- What the host does; nothing if a task takes a turn. -/
  action : Option HostAction
  /-- The acknowledgments that the host gets. -/
  acks : List Command
  /-- The errors that the host gets. -/
  errors : List PluginError
  /-- The ledgers that the host gets. -/
  ledgers : List Ledger
  /-- The snapshots that are queued. -/
  queued : List Ledger
  view : View

namespace Instance

/-- What can be seen of a plugin that has or has not had a server by now. -/
def view (i : Instance σ) (served : Bool) : View where
  phase := i.state.phase
  server := i.state.serverPlace
  held := i.state.ownEndpoints
  occupied := i.state.occupied
  health := if served then some i.state.health else none
  ledger := i.state.ledger.map Ledger.untimed
  acks := i.state.acks.unnumbered
  errors := i.state.errors.unnumbered
  outbox := i.state.outbox.map Ledger.untimed
  pending := i.state.pending.map Ledger.untimed
  dataflow := i.state.dataflow.unnumbered.map Ledger.untimed
  listening := i.state.listening
  commands := i.state.commands
  chatIn := i.state.chatIn
  chatOut := i.state.chatOut

namespace Event

/-- What the host does in an event. -/
def action? : Event σ → Option HostAction
  | turn _ => none
  | action _ a => some a

/-- The snapshots that are queued in an event. -/
def queued : Event σ → List Ledger
  | turn w => w.queued
  | action _ _ => []

/-- There is a server after an event. -/
def isServed (e : Event σ) : Bool := e.after.state.server.isSome

end Event

variable [RecordStore σ]

/-- What can be seen in an event and after it, if there has or has not been a server by then. -/
def Event.observation (e : Event σ) (served : Bool) : Observation where
  action := e.action?
  acks := Outlet.acks.readIn e
  errors := Outlet.errors.readIn e
  ledgers := (Outlet.dataflow.readIn e).map Ledger.untimed
  queued := e.queued.map Ledger.untimed
  view := e.after.view served

/-- What can be seen in the course of a plugin. -/
def observations (served : Bool) : List (Event σ) → List Observation
  | [] => []
  | e :: es =>
    e.observation (served || e.isServed) :: observations (served || e.isServed) es

theorem observations_concat (served : Bool) (es : List (Event σ)) (e : Event σ) :
    observations served (es ++ [e]) = observations served es ++
      [e.observation (served || (es ++ [e]).any Event.isServed)] := by
  induction es generalizing served with
  | nil => simp [observations]
  | cons f es ih => simp [observations, ih, Bool.or_assoc]

end Instance

end PluginKernel
