import PluginKernel.Config.Source
import PluginKernel.Plugin.ChannelEnd

/-!
# What a host hands over

A host attaches a plugin with a bag of named values: the common configuration, blobs with
certificates and keys, the channels, an identifier, and possibly a logger.
-/

namespace PluginKernel

/-- A value in the bag. -/
inductive BagItem where
  /-- A blob. -/
  | bytes (bytes : Text.Bytes)
  /-- A structured value. -/
  | members (members : Assoc Json)
  | text (s : String)
  | logger
  /-- Ends of queues. -/
  | channels (channels : Channels)

/-- What a message calls a value. -/
def BagItem.kind : BagItem → String
  | .bytes _ => "bytes"
  | .members _ => "map"
  | .text _ => "text"
  | .logger => "logger"
  | .channels _ => "channels"

/-- The named values that a host hands over. -/
abbrev Bag : Type := Assoc BagItem

namespace Bag

/-- The name of the logger. -/
def loggerEntry : String := "log"

/-- The name of the channels. -/
def channelsEntry : String := "pluginEventChannelsMap"

/-- The name of the identifier under which statistics are filed. -/
def idEntry : String := "argosId"

/-- Put a value into a bag, and give the one it replaces. -/
def put (bag : Bag) (key : String) (value : BagItem) : Option BagItem × Bag :=
  (Assoc.get? key bag, Assoc.insert key value bag)

/-- Put the common configuration into a bag. -/
def putConfig (bag : Bag) (source : ConfigSource) : Bag :=
  Assoc.insert SharedConfig.path
    (match source with
      | .members ms => .members ms
      | .document bytes => .bytes bytes)
    bag

/-- The blob that an entry is, if its name is asked for. -/
def blob? (keep : String → Bool) (entry : String × BagItem) : Option (String × Text.Bytes) :=
  match entry with
  | (key, .bytes bytes) => if keep key then some (key, bytes) else none
  | _ => none

/-- Take the blobs whose names are asked for out of a bag. -/
def extractBlobs (bag : Bag) (keep : String → Bool) : Assoc Text.Bytes × Bag :=
  (bag.filterMap (blob? keep), bag.filter fun entry => (blob? keep entry).isNone)

end Bag

end PluginKernel
