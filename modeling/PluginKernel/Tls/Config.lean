import PluginKernel.Tls.Error
import PluginKernel.Tls.Pem

/-!
# Server and client configurations

A server needs a chain of certificates and the private key that belongs to the first of them; a
client needs certificates to trust. What a certificate or a key says is not looked at here but asked
of a `KeyDirectory`, which stands for the decoding of certificates and the arithmetic of keys. The
words in which something is refused are asked of it as well.
-/

namespace PluginKernel.Tls

open Text

/-- The words in which texts, certificates and keys are refused. -/
structure Wordings where
  /-- What is said of a text whose sections are broken. -/
  brokenText : Bytes → String
  /-- What is said of a host that no certificate can be made out to. -/
  notGenerated : String → String
  /-- What is said of certificates that are refused, by themselves or with a private key. -/
  refused : List Bytes → Option Section → String

/-- Words that say no more than what is wrong. -/
def Wordings.curt : Wordings where
  brokenText _ := "malformed section"
  notGenerated _ := "certificate not generated"
  refused _ _ := "certificate refused"

/-- The meaning of certificates and keys: a public key, as a number, for each that can be read. -/
structure KeyDirectory where
  /-- The public key that a certificate carries. -/
  certified : Bytes → Option Nat
  /-- The public key that belongs to a private key of a form. -/
  owned : SectionKind → Bytes → Option Nat
  wordings : Wordings := .curt

/-- What a server presents to its clients. -/
structure ServerConfig where
  /-- The certificates, the server's own first. -/
  chain : List Bytes
  /-- The public key that the server can prove to own. -/
  key : Nat
  /-- The protocols that are offered to clients. -/
  protocols : List String
deriving DecidableEq, Repr

/-- What a client accepts. -/
structure ClientConfig where
  /-- The certificates it trusts. -/
  roots : List Bytes
  /-- The protocols that are offered to servers. -/
  protocols : List String
deriving DecidableEq, Repr

/-- The certificates in a text. There must be one, and no fault anywhere. -/
def certificates (words : Wordings) (text : Bytes) : Except TlsError (List Bytes) :=
  let (sections, broken) := sectionsOf text
  let found := (sections.filter (·.kind == .certificate)).map Section.content
  if broken then .error (.brokenText (words.brokenText text))
  else if found.isEmpty then .error (.empty .certificate)
  else .ok found

/-- The first private key in a text. Faults behind it do not count. -/
def privateKey (words : Wordings) (text : Bytes) : Except TlsError Section :=
  let (sections, broken) := sectionsOf text
  match sections.find? (·.kind.isPrivateKey) with
  | some key => .ok key
  | none => .error (if broken then .brokenText (words.brokenText text) else .empty .privateKey)

/-- The protocols that a server offers, the preferred one first. -/
def serverProtocols : List String := ["h2", "http/1.1"]

/-- The configuration of a server with these certificates and this key. The texts are read before
the key is compared with the first certificate. -/
def serverConfig (keys : KeyDirectory) (certText keyText : Bytes) :
    Except TlsError ServerConfig := do
  let chain ← certificates keys.wordings certText
  let key ← privateKey keys.wordings keyText
  let refused := TlsError.refused (keys.wordings.refused chain key)
  match keys.owned key.kind key.content, chain.head?.bind keys.certified with
  | some owned, some certified =>
    if owned = certified then .ok ⟨chain, owned, serverProtocols⟩ else .error refused
  | _, _ => .error refused

/-- The configuration of a client that trusts these certificates. -/
def clientConfig (keys : KeyDirectory) (rootText : Bytes) : Except TlsError ClientConfig := do
  let roots ← certificates keys.wordings rootText
  if roots.all fun c => (keys.certified c).isSome then .ok ⟨roots, []⟩
  else .error (.refused (keys.wordings.refused roots none))

end PluginKernel.Tls
