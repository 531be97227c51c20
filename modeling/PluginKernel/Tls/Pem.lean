import PluginKernel.Text.Base64
import PluginKernel.Text.Search
import PluginKernel.Text.Utf8

/-!
# Sections of armoured text

Certificates and keys travel as sections of text: a line that begins a section and names its kind,
lines of Base64, and a line that ends it. Text outside sections is passed over, and so are sections
of unknown kinds, whose content is not looked at. Reading stops at the first fault, but the sections
before it stand.
-/

namespace PluginKernel.Tls

open Text

/-- The kinds of section. -/
inductive SectionKind where
  | certificate
  | publicKey
  /-- A private key in the form of its own algorithm, RSA. -/
  | rsaPrivateKey
  /-- A private key in the common form. -/
  | privateKey
  /-- A private key in the form of its own algorithm, on an elliptic curve. -/
  | ecPrivateKey
  /-- A list of revoked certificates. -/
  | revocationList
  | certificateRequest
deriving DecidableEq, Repr

namespace SectionKind

/-- The kind of section that a label names. -/
def ofLabel? (label : Bytes) : Option SectionKind :=
  if label = utf8 "CERTIFICATE" then some certificate
  else if label = utf8 "PUBLIC KEY" then some publicKey
  else if label = utf8 "RSA PRIVATE KEY" then some rsaPrivateKey
  else if label = utf8 "PRIVATE KEY" then some privateKey
  else if label = utf8 "EC PRIVATE KEY" then some ecPrivateKey
  else if label = utf8 "X509 CRL" then some revocationList
  else if label = utf8 "CERTIFICATE REQUEST" then some certificateRequest
  else none

/-- Whether a section of this kind holds a private key. -/
def isPrivateKey : SectionKind → Bool
  | rsaPrivateKey | privateKey | ecPrivateKey => true
  | _ => false

end SectionKind

/-- A section. -/
structure Section where
  kind : SectionKind
  /-- Its content, decoded. -/
  content : Bytes
deriving DecidableEq, Repr

/-- How far a text has been read. -/
structure SectionReader where
  /-- The label of the section that is open. -/
  label : Option Bytes
  /-- The Base64 text gathered for the next section. -/
  body : Bytes
  /-- The sections so far, the last one first. -/
  sections : List Section
  /-- Whether a fault has been met. -/
  broken : Bool

namespace SectionReader

/-- The beginning. -/
def start : SectionReader := ⟨none, [], [], false⟩

/-- What may stand behind the dashes at the end of a line. -/
def isLineEnd (b : UInt8) : Bool := b == 0x0A || b == 0x0D || b == 0x20

/-- A dash. -/
def dash : UInt8 := 0x2D

/-- The label of a line that begins a section, given what follows its first word; nothing unless
five dashes close the line. -/
def labelOf? (rest : Bytes) : Option Bytes :=
  let tail := rest.reverse.takeWhile fun b => b == dash || isLineEnd b
  if tail.count dash == 5 then
    let dashes := (tail.reverse.dropWhile (· != dash)).length
    some (rest.take (rest.length - dashes))
  else none

/-- Read one line. -/
def line (r : SectionReader) (line : Bytes) : SectionReader :=
  if r.broken then r
  else
    match stripFront? (utf8 "-----BEGIN ") line with
    | some rest =>
      match labelOf? rest with
      | some label => { r with label := some label }
      | none => { r with broken := true }
    | none =>
      match r.label with
      | none => r
      | some label =>
        if (utf8 "-----END " ++ label ++ utf8 "-----").isPrefixOf line then
          match SectionKind.ofLabel? label with
          | none => { r with label := none, body := [] }
          | some kind =>
            match base64? r.body with
            | none => { r with broken := true }
            | some content =>
              { r with label := none, body := [], sections := ⟨kind, content⟩ :: r.sections }
        else { r with body := r.body ++ (line.reverse.dropWhile isLineEnd).reverse }

end SectionReader

/-- The lines of a text, each with the line feed or carriage return that ends it. -/
def linesOf (bytes : Bytes) : List Bytes :=
  bytes.foldr (fun b lines =>
    if b == 0x0A || b == 0x0D then [b] :: lines
    else
      match lines with
      | [] => [[b]]
      | l :: ls => (b :: l) :: ls) []

/-- The sections of a text, and whether reading them stopped at a fault. A section that is not ended
is one. -/
def sectionsOf (bytes : Bytes) : List Section × Bool :=
  let r := (linesOf bytes).foldl SectionReader.line SectionReader.start
  (r.sections.reverse, r.broken || r.label.isSome)

end PluginKernel.Tls
