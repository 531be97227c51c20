import PluginKernel.Instance.State
import PluginKernel.Ledger.Storage

/-!
# Tasks

What goes on inside an attached plugin is done by tasks, each of which goes through its stages by
itself. Between two stages a task touches at most one thing that others can see, so every order in
which tasks may take their turns is an order in which the real effects may happen.

A task that waits in line for room in a queue or for the lifecycle lock has a stage of its own for
that.
-/

namespace PluginKernel

/-- Handing an error to the host. -/
inductive ReportTask where
  /-- Is there anybody to hand it to? -/
  | check (e : PluginError)
  /-- Charge the error to the run. -/
  | record (e : PluginError)
  /-- Send the ledger of the run out. -/
  | emit (l : Ledger) (e : PluginError)
  | send (e : PluginError)
  /-- Wait for room. -/
  | wait (e : PluginError)
  /-- Nothing is left to do. -/
  | done

/-- Serving on a listener. -/
inductive ServeTask where
  /-- Acknowledge the start. -/
  | greet (plugin : String) (listener : Nat)
  /-- Wait for room. -/
  | wait (listener : Nat)
  /-- Begin to serve. -/
  | open (listener : Nat)
  /-- Serve until told to stop. -/
  | serve (listener : Nat)
  /-- Nothing is left to do. -/
  | done

/-- Starting the plugin, with the lifecycle lock held until it is released. -/
inductive StartTask where
  /-- Is there a server already? -/
  | enter (plugin : String)
  /-- Find a place to listen on. -/
  | bind (plugin : String)
  /-- Mark the services as up. -/
  | announce (plugin : String) (listener : Nat)
  /-- Let the server run. -/
  | launch (plugin : String) (listener : Nat)
  /-- Open the ledger of the run. -/
  | record (plugin : String)
  /-- Enter the running phase. -/
  | settle (l : Ledger)
  /-- Release the lock. -/
  | release (l : Ledger)
  /-- Send the ledger out. -/
  | emit (l : Ledger)
  /-- Go back to the idle phase. -/
  | fail (plugin : String) (e : PluginError)
  /-- Release the lock without a server. -/
  | giveUp (plugin : String) (e : PluginError)
  /-- Report what went wrong. -/
  | report (r : ReportTask)
  /-- Nothing is left to do. -/
  | done

/-- Stopping the plugin, with the lifecycle lock held until it is released. -/
inductive StopTask where
  /-- Is there a server? -/
  | enter (plugin : String)
  /-- Mark the services as down. -/
  | silence (plugin : String) (listener : Nat)
  /-- Tell the server to stop. -/
  | cancel (plugin : String) (listener : Nat)
  /-- Wait for the server to stop. -/
  | join (plugin : String) (listener : Nat)
  /-- Close the ledger of the run. -/
  | record (plugin : String)
  /-- Enter the idle phase. -/
  | settle (plugin : String) (l : Option Ledger)
  /-- Release the lock. -/
  | release (plugin : String) (l : Option Ledger)
  /-- Send the ledger out. -/
  | emit (plugin : String) (l : Option Ledger)
  /-- Acknowledge the stop. -/
  | acknowledge (plugin : String)
  /-- Wait for room. -/
  | wait
  /-- Nothing is left to do. -/
  | done

/-- A change between idle and running. -/
inductive Transition where
  /-- Start the plugin in a name. -/
  | start (plugin : String)
  /-- Stop the plugin in a name. -/
  | stop (plugin : String)
deriving DecidableEq, Repr

/-- Listening to commands. -/
inductive ListenTask where
  /-- Begin to listen. -/
  | open
  /-- Wait for a command. -/
  | receive
  /-- Ask for the lifecycle lock. -/
  | ask (t : Transition)
  /-- Wait for the lifecycle lock. -/
  | await (t : Transition)
  /-- Tell the host that the plugin is about to shut down. -/
  | announce (plugin : String)
  /-- Wait for room. -/
  | wait
  /-- Listen no longer. -/
  | close
  /-- Nothing is left to do. -/
  | done

/-- Keeping ledgers and passing them on. -/
inductive KeeperTask where
  /-- Wait for a ledger. -/
  | receive
  /-- Write the rest of its entries. -/
  | persist (filing : Filing) (l : Ledger) (rest : List Statistic) (summary : WriteCount)
  /-- Pass the ledger on. -/
  | forward (l : Ledger)

/-- Delivering ledgers to the host. -/
inductive CourierTask where
  /-- Wait for a ledger. -/
  | receive
  | send (l : Ledger)
  /-- Wait for room. -/
  | wait

/-- What goes on inside a plugin. -/
inductive Task where
  /-- A start or a stop that was called for directly, before it has asked for the lock. -/
  | call (t : Transition)
  /-- The same, while it waits for the lock. -/
  | await (t : Transition)
  /-- Starting the plugin. -/
  | start (s : StartTask)
  /-- Stopping the plugin. -/
  | stop (s : StopTask)
  /-- Serving on a listener. -/
  | serve (s : ServeTask)
  /-- Handing an error to the host. -/
  | report (s : ReportTask)
  /-- Listening to commands. -/
  | listen (s : ListenTask)
  /-- Keeping ledgers. -/
  | keeper (s : KeeperTask)
  /-- Delivering ledgers. -/
  | courier (s : CourierTask)

namespace Task

/-- The task of a transition whose lock is held. -/
def ofTransition : Transition → Task
  | .start plugin => .start (.enter plugin)
  | .stop plugin => .stop (.enter plugin)

/-- Whether nothing is left to do. -/
def isDone : Task → Bool
  | .start .done | .start (.report .done) | .stop .done | .serve .done | .report .done
  | .listen .done => true
  | _ => false

end Task

/-- What a task does in one turn. -/
structure Move (σ : Type) where
  /-- The state afterwards. -/
  state : PluginState σ
  /-- The task afterwards. -/
  next : Task
  /-- The task that was set off, if there is one. -/
  spawned : Option Task := none

end PluginKernel
