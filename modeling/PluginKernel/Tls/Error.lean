/-!
# What can go wrong with certificates and keys

Where a text, a certificate or a key is refused by whoever decodes it, the failure has the words in
which it was refused.
-/

namespace PluginKernel

/-- What a text of sections lacks. -/
inductive MissingSection where
  | certificate
  | privateKey
deriving DecidableEq, Repr

/-- What can go wrong with certificates and keys. -/
inductive TlsError where
  /-- The sections of a text are broken. -/
  | brokenText (wording : String)
  /-- A certificate cannot be made. -/
  | notGenerated (wording : String)
  /-- A certificate or a key is refused. -/
  | refused (wording : String)
  /-- A text has no section of the kind that is asked for. -/
  | empty (missing : MissingSection)
  /-- Something else went wrong. -/
  | other (message : String)
deriving DecidableEq, Repr

/-- What a message calls a section. -/
def MissingSection.describe : MissingSection → String
  | .certificate => "certificate"
  | .privateKey => "private key"

/-- The wording of each failure. -/
def TlsError.message : TlsError → String
  | .brokenText wording | .notGenerated wording | .refused wording => wording
  | .empty missing => "no " ++ missing.describe ++ " found in PEM input"
  | .other message => message

end PluginKernel
