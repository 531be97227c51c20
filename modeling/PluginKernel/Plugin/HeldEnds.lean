import PluginKernel.Plugin.Error

/-!
# The ends a plugin holds

A plugin takes one end from each of six places and lets go of all others. Either all six are taken
or none: at the first place that is empty or holds an end of another kind, everything is let go.
-/

namespace PluginKernel

/-- The queues whose plugin ends are held, by purpose. -/
structure HeldEnds where
  /-- Commands to the plugin. -/
  commandIn : Nat
  /-- Chat messages to the plugin. -/
  chatIn : Nat
  /-- Acknowledgments from the plugin. -/
  commandOut : Nat
  /-- Chat messages from the plugin. -/
  chatOut : Nat
  /-- Ledgers from the plugin. -/
  dataflowOut : Nat
  /-- Errors from the plugin. -/
  errorOut : Nat
deriving DecidableEq, Repr

namespace HeldEnds

/-- The queue of the end in a place, if that is of the right kind. -/
def take (channels : Channels) (place : ChannelPlace) : Except ChannelFault Nat :=
  match Assoc.get? place.direction channels with
  | none => .error (.noDirection place.direction)
  | some group =>
    match Assoc.get? place.purpose group with
    | none => .error (.noEnd place)
    | some e => if e.kind = place.kind then .ok e.queue else .error (.wrongKind place e.kind)

/-- Take the ends from their places, one after the other. -/
def ofChannels (channels : Channels) : Except ChannelFault HeldEnds := do
  let commandIn ← take channels .commandIn
  let chatIn ← take channels .chatIn
  let commandOut ← take channels .commandOut
  let chatOut ← take channels .chatOut
  let dataflowOut ← take channels .dataflowOut
  let errorOut ← take channels .errorOut
  pure ⟨commandIn, chatIn, commandOut, chatOut, dataflowOut, errorOut⟩

/-- The queues whose plugin ends are held. -/
def queues (held : HeldEnds) : List Nat :=
  [held.commandIn, held.chatIn, held.commandOut, held.chatOut, held.dataflowOut, held.errorOut]

end HeldEnds

end PluginKernel
