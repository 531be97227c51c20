import PluginKernel.Json.Decode

/-!
# What can go wrong with a configuration

A document that is refused is described by whoever reads documents. The description may hold parts
of the document as they are: a key in front of a value that cannot be read, for example.
-/

namespace PluginKernel

/-- What can go wrong with a configuration. -/
inductive ConfigError where
  | missingPort
  /-- The port is not one to listen on. -/
  | invalidPort (value reason : String)
  | missingCert
  /-- There is no private key. -/
  | missingKey
  /-- The text of the configuration is not YAML, or not a configuration. -/
  | yaml (wording : String)
  /-- The value of the configuration is not one. -/
  | undecodable (cause : DecodeError)
  /-- Something else went wrong. -/
  | other (message : String)

/-- The wording of each failure. -/
def ConfigError.message : ConfigError → String
  | .missingPort => "missing config: grpc_server_port"
  | .invalidPort value reason => "invalid grpc_server_port " ++ Text.quote value ++ ": " ++ reason
  | .missingCert => "missing config cert"
  | .missingKey => "missing config key"
  | .yaml wording => wording
  | .undecodable cause => cause.message
  | .other message => message

end PluginKernel
