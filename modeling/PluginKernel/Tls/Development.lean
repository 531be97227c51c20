import PluginKernel.Text.Quoted
import PluginKernel.Tls.Config

/-!
# Certificates for development

For local hosts a certificate authority and a server certificate can be made on the spot. The name
of the host goes into the certificate, which takes ASCII characters only. A summary shows the
certificates but not the key.
-/

namespace PluginKernel.Tls

/-- A certificate authority and a server certificate that it has signed, as text. -/
structure DevelopmentCertificates where
  /-- The certificate of the authority. -/
  authority : String
  /-- The certificate of the server. -/
  server : String
  /-- The private key of the server. -/
  key : String
deriving DecidableEq, Repr

namespace DevelopmentCertificates

/-- Whether a certificate can be made out to a host. -/
def acceptsHost (host : String) : Bool := host.toList.all (·.toNat < 128)

/-- Make certificates for a host; `make` is the arithmetic of keys. -/
def generate (words : Wordings) (make : String → DevelopmentCertificates) (host : String) :
    Except TlsError DevelopmentCertificates :=
  if acceptsHost host then .ok (make host) else .error (.notGenerated (words.notGenerated host))

/-- The mark that a summary shows in place of the key. -/
def redacted : String := "[REDACTED]"

/-- What a summary shows of certificates. -/
def summary (c : DevelopmentCertificates) : String :=
  "DevCerts \x7b ca_cert: " ++ Text.quote c.authority ++ ", server_cert: " ++
    Text.quote c.server ++ ", server_key: " ++ Text.quote redacted ++ " \x7d"

end DevelopmentCertificates

end PluginKernel.Tls
