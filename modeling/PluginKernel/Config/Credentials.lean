import PluginKernel.Config.Shared
import PluginKernel.Text.Hex

/-!
# Certificates and keys

A host hands certificates and private keys over as named blobs. A plugin looks for a certificate and
a key under names made from its own, and for each of the two on its own under a name that plugins
share.
-/

namespace PluginKernel

/-- The names under which a plugin looks for its certificate and its key. -/
structure CredentialNames where
  /-- The plugin's own certificate. -/
  cert : String
  /-- The plugin's own key. -/
  key : String
  sharedCert : String
  sharedKey : String
deriving DecidableEq, Repr

namespace CredentialNames

/-- The name of the shared certificate, unless the host has another. -/
def defaultCert : String := "./hive.crt"

/-- The name of the shared key, unless the host has another. -/
def defaultKey : String := "./hivekey.key"

/-- The names for a plugin. -/
def ofPlugin (plugin : String) : CredentialNames where
  cert := "./" ++ plugin ++ ".crt"
  key := "./" ++ plugin ++ "key.key"
  sharedCert := defaultCert
  sharedKey := defaultKey

/-- The same names, with other shared ones if there are any. -/
def withShared (names : CredentialNames) : Option (String × String) → CredentialNames
  | some (cert, key) => { names with sharedCert := cert, sharedKey := key }
  | none => names

/-- Whether a blob of this name is one that the plugin looks for. -/
def includes (names : CredentialNames) (name : String) : Bool :=
  name = names.cert || name = names.key || name = names.sharedCert || name = names.sharedKey

end CredentialNames

/-- A certificate chain and its private key, as handed over. -/
structure Credentials where
  cert : Text.Bytes
  /-- The private key. -/
  key : Text.Bytes
deriving DecidableEq

namespace Credentials

/-- The certificate and the key among some blobs. The certificate is looked for first. -/
def find (blobs : Assoc Text.Bytes) (names : CredentialNames) : Except ConfigError Credentials :=
  match (Assoc.get? names.cert blobs).or (Assoc.get? names.sharedCert blobs) with
  | none => .error .missingCert
  | some cert =>
    match (Assoc.get? names.key blobs).or (Assoc.get? names.sharedKey blobs) with
    | none => .error .missingKey
    | some key => .ok ⟨cert, key⟩

/-- What a summary shows of credentials: how long the certificate is, and nothing of the key. -/
def summary (c : Credentials) : String :=
  "CertPair \x7b cert_len: " ++ Text.showInt c.cert.length ++ ", key: " ++
    Text.quote "[REDACTED]" ++ " \x7d"

end Credentials

/-- What a host must hand over for a plugin, in the order in which it should be looked up. -/
def requiredNames (plugin : String) : List String :=
  let names := CredentialNames.ofPlugin plugin
  [SharedConfig.path, names.cert, names.key]

end PluginKernel
