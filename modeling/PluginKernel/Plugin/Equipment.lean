import PluginKernel.Config.Credentials
import PluginKernel.Log
import PluginKernel.Plugin.Bag
import PluginKernel.Plugin.HeldEnds

/-!
# What a plugin is equipped with

From the bag that a host hands over a plugin keeps what it needs: its identifier, the common
configuration as it is, the blobs under the names it looks for, and its ends of the six channels.
Everything else is let go.
-/

namespace PluginKernel

/-- What a plugin knows of its host. -/
structure Equipment where
  /-- The name of the plugin. -/
  plugin : String
  /-- The identifier under which statistics are filed. -/
  argosId : String
  /-- The common configuration. -/
  source : ConfigSource
  /-- The names of certificates and keys. -/
  names : CredentialNames
  /-- The blobs under those names. -/
  blobs : Assoc Text.Bytes
  /-- The ends of its channels. -/
  ends : HeldEnds

/-- The span that log events of a plugin belong to. -/
structure LogSpan where
  /-- The name of the plugin, fit for a log line. -/
  plugin : String
  /-- The identifier, fit for a log line. -/
  argosId : String
deriving DecidableEq, Repr

namespace Equipment

/-- The identifier that a bag gives a plugin. If there is none, or it is no text, the plugin's name
serves. -/
def argosIdOf (plugin : String) (bag : Bag) : String :=
  match Assoc.get? Bag.idEntry bag with
  | some (.text id) => id
  | _ => plugin

/-- What is logged about the identifier. -/
def idEvents (bag : Bag) : List LogEvent :=
  match Assoc.get? Bag.idEntry bag with
  | some (.text _) | none => []
  | some other => [.warn "ignoring non-text argos id" [("kind", other.kind)]]

/-- The span that is opened for a plugin, unless the bag holds a logger. -/
def spanOf (plugin : String) (bag : Bag) : Option LogSpan :=
  match Assoc.get? Bag.loggerEntry bag with
  | some .logger => none
  | _ => some ⟨Text.sanitize plugin, Text.sanitize (argosIdOf plugin bag)⟩

/-- What is left of a bag once the identifier, the logger and the blobs have been taken. -/
def remainder (bag : Bag) (names : CredentialNames) : Assoc Text.Bytes × Bag :=
  Bag.extractBlobs (Assoc.erase Bag.loggerEntry (Assoc.erase Bag.idEntry bag))
    names.includes

/-- The common configuration in a bag. -/
def sourceOf (bag : Bag) : Except PluginError ConfigSource :=
  match Assoc.get? SharedConfig.path bag with
  | some (.members ms) => .ok (.members ms)
  | some (.bytes bytes) => .ok (.document bytes)
  | some other =>
    .error (.missingItem
      (SharedConfig.path ++ " must be a map or bytes, found " ++ other.kind))
  | none => .error (.missingItem "common config components")

/-- The channels in a bag. -/
def endsOf (bag : Bag) : Except PluginError HeldEnds :=
  match Assoc.get? Bag.channelsEntry bag with
  | some (.channels channels) => (HeldEnds.ofChannels channels).mapError .channels
  | some other => .error (.channels (.notChannels other.kind))
  | none => .error (.channels .absent)

/-- What a bag equips a plugin with. The configuration is looked for first. -/
def ofBag (plugin : String) (bag : Bag) (names : CredentialNames) :
    Except PluginError Equipment := do
  let (blobs, rest) := remainder bag names
  let source ← sourceOf rest
  let ends ← endsOf (Assoc.erase SharedConfig.path rest)
  pure ⟨plugin, argosIdOf plugin bag, source, names, blobs, ends⟩

end Equipment

end PluginKernel
