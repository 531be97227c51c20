import PluginKernel.Network
import PluginKernel.Tls.Config

/-!
# What plugins run on

A plugin depends on code that is not its own: on the network of its machine, on whoever decodes
certificates and reckons with keys, and on the reader of documents. A `Platform` stands for all of
it. Nothing is assumed of a platform; what is known of a particular one is a hypothesis where it
matters.
-/

namespace PluginKernel

/-- What a plugin runs on. -/
structure Platform where
  /-- The meaning of certificates and keys. -/
  keys : Tls.KeyDirectory
  /-- The place that is listened on when a host and a port are asked for while others are held, or
  what is said if there is none. -/
  bind (held : List Endpoint) (host : String) (port : UInt16) : Except String Endpoint
  /-- What is said of a document that holds no configuration. -/
  describe (document : Text.Bytes) : String

/-- A platform with the network of a machine that is not connected to others, and with a reader of
documents that does not go into detail. -/
def Platform.unconnected (keys : Tls.KeyDirectory) : Platform where
  keys := keys
  bind held host port := (Endpoint.bind held host port).mapError BindError.message
  describe _ := "not a configuration"

/-- A platform on which nobody can read any certificate or key. -/
def Platform.illiterate : Platform :=
  .unconnected { certified := fun _ => none, owned := fun _ _ => none }

end PluginKernel
