import PluginKernel.Instance.Settle

/-!
# What a host does

Between the turns of the tasks a host sends commands, calls for starts and stops directly, reports
errors, reads what the plugin has sent, exchanges chat messages and lets go of its ends of the
queues. Other programs on the machine take places to listen on and free them, and time passes. An
action changes the state or sets off a task; it never waits.
-/

namespace PluginKernel

/-- An end of a queue that the host holds. -/
inductive HostEnd where
  /-- Where commands are sent. -/
  | commands
  /-- Where acknowledgments arrive. -/
  | acks
  /-- Where errors arrive. -/
  | errors
  /-- Where ledgers arrive. -/
  | dataflow
  /-- Where chat messages are sent. -/
  | chatTo
  /-- Where chat messages arrive. -/
  | chatFrom
deriving DecidableEq, Repr

/-- Something that happens outside of a plugin's tasks. -/
inductive HostAction where
  /-- Send a command. -/
  | command (c : Command)
  /-- Call for a start or a stop directly. -/
  | call (t : Transition)
  | report (e : PluginError)
  /-- Read up to a number of acknowledgments. -/
  | readAcks (n : Nat)
  /-- Read up to a number of errors. -/
  | readErrors (n : Nat)
  /-- Read up to a number of ledgers. -/
  | readLedgers (n : Nat)
  /-- Read up to a number of chat messages. -/
  | readChat (n : Nat)
  /-- Let go of an end of a queue. -/
  | drop (e : HostEnd)
  /-- Send a chat message to the plugin. -/
  | chat (m : ChatMessage)
  /-- Let the plugin send a chat message. -/
  | reply (m : ChatMessage)
  /-- Let the plugin take its chat messages and let go of their queue. -/
  | takeChat
  /-- Another program takes a place to listen on. -/
  | occupy (e : Endpoint)
  /-- Other programs free a place. -/
  | vacate (e : Endpoint)
  /-- Time passes, in nanoseconds. -/
  | wait (nanos : Nat)

namespace Queue

variable {α : Type}

/-- Send a message without waiting, unless the sender has let go. -/
def post (q : Queue α) (x : α) : Queue α := if q.hasSender then (q.offer x).2 else q

/-- The queue after up to a number of messages have been read, unless the receiver has let go. -/
def read (q : Queue α) (n : Nat) : Queue α := if q.hasReceiver then (q.take n).2 else q

end Queue

namespace PluginState

variable {σ : Type}

/-- Let go of an end of a queue. -/
def drop (s : PluginState σ) : HostEnd → PluginState σ
  | .commands => { s with commands := s.commands.dropSender }
  | .acks => { s with acks := s.acks.dropReceiver }
  | .errors => { s with errors := s.errors.dropReceiver }
  | .dataflow => { s with dataflow := s.dataflow.dropReceiver }
  | .chatTo => { s with chatIn := s.chatIn.dropSender }
  | .chatFrom => { s with chatOut := s.chatOut.dropReceiver }

/-- The change of the state that an action makes. -/
def act (s : PluginState σ) : HostAction → PluginState σ
  | .command c => { s with commands := s.commands.post c }
  | .call _ | .report _ => s
  | .readAcks n => { s with acks := s.acks.read n }
  | .readErrors n => { s with errors := s.errors.read n }
  | .readLedgers n => { s with dataflow := s.dataflow.read n }
  | .readChat n => { s with chatOut := s.chatOut.read n }
  | .drop e => s.drop e
  | .chat m => { s with chatIn := s.chatIn.post m }
  | .reply m => { s with chatOut := s.chatOut.post m }
  | .takeChat => { s with chatIn := s.chatIn.dropReceiver }
  | .occupy e => { s with occupied := s.occupied ++ [e] }
  | .vacate e => { s with occupied := s.occupied.filter (· != e) }
  | .wait nanos => { s with clock := s.clock + nanos }

end PluginState

/-- The task that an action sets off. -/
def HostAction.task? : HostAction → Option Task
  | .call t => some (.call t)
  | .report e => some (.report (.check e))
  | _ => none

namespace Instance

variable {σ : Type}

/-- The plugin after an action, before any task has taken a turn. -/
def act (i : Instance σ) (a : HostAction) : Instance σ :=
  let j : Instance σ := { i with state := i.state.act a }
  match a.task? with
  | none => j
  | some task => j.spawn task

variable [RecordStore σ]

/-- What can become of a plugin, whatever its host does and in whatever order its tasks take their
turns. -/
inductive Reachable (i : Instance σ) : Instance σ → Prop where
  /-- Nothing has happened. -/
  | refl : Reachable i i
  /-- A task has taken a turn. -/
  | step {j k : Instance σ} (h : Reachable i j) (hs : j.Step k) : Reachable i k
  /-- The host has done something. -/
  | act {j : Instance σ} (h : Reachable i j) (a : HostAction) : Reachable i (j.act a)

/-- The plugin after actions, with turns taken until nothing can go on after each of them. -/
def play (i : Instance σ) (actions : List HostAction) : Instance σ :=
  actions.foldl (fun i a => (i.act a).settle) i

end Instance

end PluginKernel
