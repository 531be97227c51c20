import PluginKernel.Platform
import PluginKernel.Plugin.Equipment
import PluginKernel.Plugin.Choices
import PluginKernel.Ledger.Path

/-!
# What an attached plugin starts from

The parts of an attached plugin that never change. Before a server is brought up they are checked in
a fixed order, and the first fault counts: the configuration must be readable, a certificate and a
key must be there, the port must be one, and the certificate must be usable with the key.
-/

namespace PluginKernel

/-- What does not change while a plugin is attached. -/
structure Setup where
  /-- What the plugin knows of its host. -/
  equipment : Equipment
  /-- What the host chose for it. -/
  choices : PluginChoices
  platform : Platform

namespace Setup

/-- Where the plugin's statistics are filed, if they are kept. -/
def filing? (setup : Setup) : Option Filing :=
  setup.choices.filingPlace.map fun p => ⟨p.basePath, p.idName, setup.equipment.argosId⟩

/-- The configuration of the plugin. -/
def config (setup : Setup) : Except PluginError SharedConfig :=
  (setup.equipment.source.resolve setup.platform.describe).mapError .config

/-- The host and the port to listen on, once everything else that a server needs is known to be
there. -/
def prepare (setup : Setup) : Except PluginError (String × UInt16) := do
  let config ← setup.config
  let credentials ←
    (Credentials.find setup.equipment.blobs setup.equipment.names).mapError .config
  let port ← config.listenPort.mapError .config
  let _ ← (Tls.serverConfig setup.platform.keys credentials.cert credentials.key).mapError .tls
  pure (config.host, port)

/-- The place that a server of the plugin would listen on while others are held. -/
def bind (setup : Setup) (held : List Endpoint) : Except PluginError Endpoint := do
  let (host, port) ← setup.prepare
  (setup.platform.bind held host port).mapError (.bind (host ++ ":" ++ Text.showInt port.toNat))

/-- What is logged while a server is brought up. -/
def bindEvents (setup : Setup) : List LogEvent :=
  match setup.config with
  | .error e => [.warn "missing common configs" [("error", e.message)]]
  | .ok _ => []

end Setup

end PluginKernel
