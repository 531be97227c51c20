import PluginKernel.Instance.Lock
import PluginKernel.Instance.Setup
import PluginKernel.Instance.Timeline
import PluginKernel.Message.Chat
import PluginKernel.Message.Command
import PluginKernel.Plugin.Health
import PluginKernel.Queue

/-!
# The state of an attached plugin

Everything that the tasks of a plugin and its host share: the lifecycle lock and what it guards, the
live ledger, the health of the services, the six queues to and from the host, the two queues of
ledgers on their way out, the store, the places that are listened on, the clock and the log.
-/

namespace PluginKernel

/-- Where a plugin stands between starting and stopping. -/
inductive Phase where
  /-- There is no server. -/
  | idle
  /-- A server is brought up. -/
  | starting
  /-- The server is up. -/
  | running
  /-- The server is brought down. -/
  | stopping
deriving DecidableEq, Repr

/-- The name of a phase. -/
def Phase.name : Phase → String
  | idle => "Idle"
  | starting => "Starting"
  | running => "Running"
  | stopping => "Stopping"

/-- A place that the plugin has listened on. -/
structure Listener where
  /-- The place. -/
  endpoint : Endpoint
  /-- Whether its server has been told to stop. -/
  cancelled : Bool := false
  /-- Whether its server has stopped. -/
  closed : Bool := false
deriving DecidableEq, Repr

/-- What the tasks of a plugin and its host share. `σ` is the kind of store that statistics are kept
in. -/
structure PluginState (σ : Type) where
  /-- Excludes starting and stopping at the same time. -/
  lock : Lock := .free
  /-- Where the plugin stands. -/
  phase : Phase := .idle
  /-- The running server, as the number of its listener. -/
  server : Option Nat := none
  /-- The ledger of the run. -/
  ledger : Option Ledger := none
  /-- The health of the services. -/
  health : Health := .empty
  /-- Whether commands are listened to. -/
  listening : Bool := true
  /-- All places that were ever listened on, oldest first. -/
  listeners : List Listener := []
  /-- The places that others hold. -/
  occupied : List Endpoint := []
  /-- Commands from the host. -/
  commands : Queue Command
  /-- Chat messages from the host. -/
  chatIn : Queue ChatMessage
  /-- Acknowledgments to the host. -/
  acks : Queue Command
  /-- Chat messages to the host. -/
  chatOut : Queue ChatMessage
  /-- Ledgers to the host. -/
  dataflow : Queue Ledger
  /-- Errors to the host. -/
  errors : Queue PluginError
  /-- Ledgers to be kept, oldest first. -/
  outbox : List Ledger := []
  /-- Ledgers to be delivered, oldest first. -/
  pending : List Ledger := []
  /-- Where statistics are kept. -/
  store : σ
  /-- The reading of the clock, in nanoseconds. -/
  clock : Nat := 0
  /-- What was logged, oldest first. -/
  log : List LogEvent := []

namespace PluginState

variable {σ : Type}

/-- A state with queues of a capacity. -/
def initial (capacity : Nat) (store : σ) : PluginState σ where
  commands := .empty capacity
  chatIn := .empty capacity
  acks := .empty capacity
  chatOut := .empty capacity
  dataflow := .empty capacity
  errors := .empty capacity
  store := store

/-- The state after something was logged. -/
def logged (s : PluginState σ) (events : List LogEvent) : PluginState σ :=
  { s with log := s.log ++ events }

/-- The places that the plugin listens on. -/
def ownEndpoints (s : PluginState σ) : List Endpoint :=
  (s.listeners.filter (!·.closed)).map Listener.endpoint

/-- All places that are listened on. -/
def heldEndpoints (s : PluginState σ) : List Endpoint := s.occupied ++ s.ownEndpoints

/-- Change a listener. -/
def setListener (s : PluginState σ) (n : Nat) (f : Listener → Listener) : PluginState σ :=
  { s with listeners := s.listeners.modify n f }

/-- The place of a listener, as a text. -/
def endpointText (s : PluginState σ) (n : Nat) : String :=
  match s.listeners[n]? with
  | some l => l.endpoint.text
  | none => ""

/-- Queue a ledger to be kept and delivered. -/
def emit (s : PluginState σ) (l : Ledger) : PluginState σ := { s with outbox := s.outbox ++ [l] }

/-- Let go of the lifecycle lock. -/
def unlock (s : PluginState σ) : PluginState σ := { s with lock := s.lock.release }

end PluginState

end PluginKernel
