import PluginKernel.Config.Error
import PluginKernel.Plugin.ChannelEnd
import PluginKernel.Tls.Error

/-!
# What can go wrong with a plugin

The failures that a host sees: when it attaches a plugin, and on the error channel afterwards. A
host tells them apart by class. Configuration failures need a change on the side of the host;
transport failures leave the plugin startable; and one is no failure but tells that the plugin is
about to shut down.
-/

namespace PluginKernel

/-- What is wrong with the channels that a host hands over. -/
inductive ChannelFault where
  /-- Something else was handed over in their place. -/
  | notChannels (kind : String)
  /-- Nothing was handed over. -/
  | absent
  /-- There are none in a direction. -/
  | noDirection (direction : String)
  /-- There is none for a place. -/
  | noEnd (place : ChannelPlace)
  /-- The one for a place is of another kind. -/
  | wrongKind (place : ChannelPlace) (found : EndKind)
  /-- Something else is wrong. -/
  | other (reason : String)
deriving DecidableEq, Repr

/-- The wording of each fault. -/
def ChannelFault.reason : ChannelFault → String
  | .notChannels kind => "channel map has the wrong type: " ++ kind
  | .absent => "no channels passed"
  | .noDirection direction => "no " ++ Text.quote direction ++ " channel group"
  | .noEnd place => "no " ++ place.describe ++ " channel"
  | .wrongKind place found =>
    "unsupported " ++ place.describe ++ " channel: expected " ++ place.kind.describe ++
      ", found " ++ found.describe
  | .other reason => reason

/-- What can go wrong with a plugin. -/
inductive PluginError where
  /-- The configuration, a certificate, a key or a port is missing or malformed. -/
  | config (cause : ConfigError)
  /-- The channels do not fit. -/
  | channels (fault : ChannelFault)
  /-- Something that a plugin needs was not handed over. -/
  | missingItem (what : String)
  /-- A certificate or a key is refused. -/
  | tls (cause : TlsError)
  /-- The address cannot be listened on. -/
  | bind (address cause : String)
  /-- The server failed. -/
  | serve (message : String)
  /-- The plugin is about to shut down. -/
  | shuttingDown (plugin : String)
  /-- The plugin's file is not the expected one. -/
  | wrongDigest (artifact expected actual : String)
  /-- A file cannot be read. -/
  | io (message : String)
  /-- Something else went wrong. -/
  | other (message : String)

namespace PluginError

/-- The wording of each failure. -/
def message : PluginError → String
  | config cause => cause.message
  | channels fault => "channel wiring failed: " ++ fault.reason
  | missingItem what => "missing initialization component: " ++ what
  | tls cause => cause.message
  | bind address cause => "failed to listen on " ++ address ++ ": " ++ cause
  | serve message => "rpc server failed: " ++ message
  | shuttingDown plugin => plugin ++ " shutting down"
  | wrongDigest artifact expected actual =>
    "integrity check failed for " ++ artifact ++ ": expected " ++ expected ++ ", found " ++ actual
  | io message => message
  | other message => message

/-- Whether the host has to change what it hands over. -/
def blamesConfiguration : PluginError → Bool
  | config _ | channels _ | missingItem _ => true
  | _ => false

/-- Whether listening failed, so that the plugin can be started again. -/
def blamesTransport : PluginError → Bool
  | tls _ | bind .. | serve _ => true
  | _ => false

/-- Whether a failure only tells that the plugin is about to shut down. -/
def announcesShutdown : PluginError → Bool
  | shuttingDown _ => true
  | _ => false

end PluginError

end PluginKernel
