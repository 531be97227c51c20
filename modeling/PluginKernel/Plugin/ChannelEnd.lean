import PluginKernel.Assoc

/-!
# Channels

A host and a plugin talk through six queues. The host makes them and hands the plugin one end of
each, sorted by direction and purpose. An end says of what kind it is and which queue it belongs
to.
-/

namespace PluginKernel

/-- The kinds of end that a plugin can hold. -/
inductive EndKind where
  /-- Receives commands. -/
  | commandIn
  /-- Sends acknowledgments. -/
  | commandOut
  /-- Receives chat messages. -/
  | chatIn
  /-- Sends chat messages. -/
  | chatOut
  /-- Sends errors. -/
  | errorOut
  /-- Sends ledgers. -/
  | dataflowOut
deriving DecidableEq, Repr

/-- What a message calls an end. -/
def EndKind.describe : EndKind → String
  | .commandIn => "command receiver"
  | .commandOut => "command sender"
  | .chatIn => "chat receiver"
  | .chatOut => "chat sender"
  | .errorOut => "error sender"
  | .dataflowOut => "dataflow statistic sender"

/-- A plugin's end of a queue. -/
structure ChannelEnd where
  /-- What kind of end it is. -/
  kind : EndKind
  /-- The queue it belongs to. -/
  queue : Nat
deriving DecidableEq, Repr

/-- Ends by direction and purpose. -/
abbrev Channels : Type := Assoc (Assoc ChannelEnd)

/-- A place where an end belongs. -/
structure ChannelPlace where
  /-- The direction, seen from the plugin. -/
  direction : String
  purpose : String
  /-- The kind of end that belongs there. -/
  kind : EndKind
deriving DecidableEq, Repr

namespace ChannelPlace

/-- Where commands arrive. -/
def commandIn : ChannelPlace := ⟨"in", "command", .commandIn⟩

/-- Where chat messages arrive. -/
def chatIn : ChannelPlace := ⟨"in", "chat", .chatIn⟩

/-- Where acknowledgments leave. -/
def commandOut : ChannelPlace := ⟨"out", "command", .commandOut⟩

/-- Where chat messages leave. -/
def chatOut : ChannelPlace := ⟨"out", "chat", .chatOut⟩

/-- Where ledgers leave. -/
def dataflowOut : ChannelPlace := ⟨"out", "dataflow-stat", .dataflowOut⟩

/-- Where errors leave. -/
def errorOut : ChannelPlace := ⟨"out", "error", .errorOut⟩

/-- All places, in the order in which they are checked. -/
def all : List ChannelPlace := [commandIn, chatIn, commandOut, chatOut, dataflowOut, errorOut]

/-- What a message calls a place. -/
def describe (place : ChannelPlace) : String := place.direction ++ "/" ++ place.purpose

end ChannelPlace

namespace Channels

/-- Put an end into a place. -/
def put (channels : Channels) (direction purpose : String) (e : ChannelEnd) : Channels :=
  let group := (Assoc.get? direction channels).getD []
  Assoc.insert direction (Assoc.insert purpose e group) channels

/-- Take the end out of a place, if there is one. -/
def take (channels : Channels) (direction purpose : String) : Option ChannelEnd × Channels :=
  match Assoc.get? direction channels with
  | none => (none, channels)
  | some group =>
    (Assoc.get? purpose group, Assoc.insert direction (Assoc.erase purpose group) channels)

/-- The ends of six queues, numbered in the order in which their places are checked. -/
def all : Channels :=
  ChannelPlace.all.zipIdx.foldl
    (fun channels (place, n) => channels.put place.direction place.purpose ⟨place.kind, n⟩) []

end Channels

end PluginKernel
