import PluginKernel.Instance.Attach

/-!
# What becomes of the ends in a bag

Attaching a plugin moves the ends that it needs out of the bag, one after the other, and may give up
at every point on the way. An end that is not kept is let go, and its queue is then closed for the
host. Here attaching is followed end by end: whatever has been moved out when it gives up, and
whatever is still in the bag, is let go there and then.
-/

namespace PluginKernel

/-- What comes of handing ends over. -/
structure Handover (ε : Type) where
  /-- The ends that are kept, or what went wrong. -/
  outcome : Except ε (List ChannelEnd)
  /-- The ends that have been let go. -/
  released : List ChannelEnd

/-- The ends that are kept: none if something went wrong. -/
def Handover.kept {ε : Type} (h : Handover ε) : List ChannelEnd := h.outcome.toOption.getD []

namespace Channels

/-- The ends in some channels. -/
def ends (channels : Channels) : List ChannelEnd :=
  channels.flatMap fun group => group.2.map (·.2)

/-- Take the ends out of some places, one after the other. Others have been taken before. -/
def takeEach (taken : List ChannelEnd) (channels : Channels) :
    List ChannelPlace → Handover ChannelFault
  | [] => ⟨.ok taken, channels.ends⟩
  | place :: places =>
    match Assoc.get? place.direction channels with
    | none => ⟨.error (.noDirection place.direction), taken ++ channels.ends⟩
    | some _ =>
      match channels.take place.direction place.purpose with
      | (none, rest) => ⟨.error (.noEnd place), taken ++ rest.ends⟩
      | (some e, rest) =>
        if e.kind = place.kind then takeEach (taken ++ [e]) rest places
        else ⟨.error (.wrongKind place e.kind), taken ++ e :: rest.ends⟩

end Channels

/-- The ends in a value. -/
def BagItem.ends : BagItem → List ChannelEnd
  | .channels c => c.ends
  | _ => []

namespace Bag

/-- The ends in a bag. -/
def ends (bag : Bag) : List ChannelEnd := bag.flatMap fun entry => entry.2.ends

/-- Take a value out of a bag. -/
def take (bag : Bag) (key : String) : Option BagItem × Bag :=
  (Assoc.get? key bag, Assoc.erase key bag)

/-- Take the configuration and then the ends that a plugin needs out of a bag. -/
def wire (bag : Bag) : Handover PluginError :=
  match Equipment.sourceOf bag with
  | .error e => ⟨.error e, bag.ends⟩
  | .ok _ =>
    let (_, bag) := bag.take SharedConfig.path
    match bag.take channelsEntry with
    | (none, bag) => ⟨.error (.channels .absent), bag.ends⟩
    | (some (.channels channels), bag) =>
      let wired := channels.takeEach [] ChannelPlace.all
      ⟨wired.outcome.mapError .channels, wired.released ++ bag.ends⟩
    | (some other, bag) => ⟨.error (.channels (.notChannels other.kind)), other.ends ++ bag.ends⟩

/-- Hand a bag over to a plugin that looks for certificates and keys under some names. The values
that serve as identifier and logger are taken out first, and ends in them are let go. -/
def handOver (bag : Bag) (names : CredentialNames) : Handover PluginError :=
  let (id, bag) := bag.take idEntry
  let (logger, bag) := bag.take loggerEntry
  let (_, bag) := bag.extractBlobs names.includes
  let wired := bag.wire
  ⟨wired.outcome, (id.toList ++ logger.toList).flatMap BagItem.ends ++ wired.released⟩

end Bag

/-- Attach a plugin, as far as the ends in its bag are concerned. -/
def Attachment.handOver (a : Attachment) : Handover PluginError :=
  if !a.hasExecutor then ⟨.error noExecutor, a.bag.ends⟩
  else
    match a.checkFile with
    | .error e => ⟨.error e, a.bag.ends⟩
    | .ok _ => a.bag.handOver a.names

end PluginKernel
