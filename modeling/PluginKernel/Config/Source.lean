import PluginKernel.Config.Document

/-!
# Where a configuration comes from

A host hands the common configuration over as a value or as the bytes of a document. It is decoded
when a plugin starts, not when it is attached.
-/

namespace PluginKernel

/-- The common configuration as handed over. -/
inductive ConfigSource where
  /-- The members of a value. -/
  | members (members : Assoc Json)
  | document (bytes : Text.Bytes)

namespace ConfigSource

/-- The configuration that was handed over. -/
def resolve (describe : Text.Bytes → String) : ConfigSource → Except ConfigError SharedConfig
  | .members ms => (SharedConfig.ofMembers ms).mapError .undecodable
  | .document bytes => SharedConfig.ofYaml describe bytes

/-- A configuration to be handed over. -/
def ofConfig (config : SharedConfig) : ConfigSource := .members config.toMembers

end ConfigSource

end PluginKernel
