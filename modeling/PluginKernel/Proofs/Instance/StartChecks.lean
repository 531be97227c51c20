import PluginKernel.Instance.Setup
import PluginKernel.Proofs.FirstError

/-!
# What is checked before a server is brought up

A server can be brought up if six checks find no fault. What each of them objects to is said here
without regard to the others, and `first_fault_iff` says how they work together: bringing up a
server fails with the fault of the first check, in the order of `StartCheck.all`, that finds one.

The first four are about what the host has handed over, the last two about listening, and the class
of an error tells which of the two it was.
-/

namespace PluginKernel

/-- A check that comes before a server. -/
inductive StartCheck where
  /-- The common configuration can be decoded. -/
  | config
  /-- There is a certificate. -/
  | certificate
  /-- There is a private key. -/
  | key
  /-- The configured port is one to listen on. -/
  | port
  /-- The certificate and the key are of use to a server. -/
  | tls
  /-- The place can be listened on. -/
  | place
deriving DecidableEq, Repr

namespace Setup

/-- The certificate that was handed over for the plugin. -/
def certificate? (setup : Setup) : Option Text.Bytes :=
  (Assoc.get? setup.equipment.names.cert setup.equipment.blobs).or
    (Assoc.get? setup.equipment.names.sharedCert setup.equipment.blobs)

/-- The private key that was handed over for the plugin. -/
def key? (setup : Setup) : Option Text.Bytes :=
  (Assoc.get? setup.equipment.names.key setup.equipment.blobs).or
    (Assoc.get? setup.equipment.names.sharedKey setup.equipment.blobs)

/-- The certificate is looked for before the key. -/
theorem find_credentials (setup : Setup) :
    Credentials.find setup.equipment.blobs setup.equipment.names =
      match setup.certificate?, setup.key? with
      | none, _ => .error .missingCert
      | some _, none => .error .missingKey
      | some cert, some key => .ok ⟨cert, key⟩ := by
  unfold Credentials.find
  rw [← certificate?, ← key?]
  cases setup.certificate? with
  | none => rfl
  | some cert => cases setup.key? <;> rfl

end Setup

namespace StartCheck

/-- All checks, in the order in which they count. -/
def all : List StartCheck := [config, certificate, key, port, tls, place]

/-- Whether a check is about what the host has handed over. -/
def isConfiguration : StartCheck → Bool
  | config | certificate | key | port => true
  | tls | place => false

/-- What a check objects to while some places are held. A check whose subject is not there has
nothing to object to; it is another one that asks for the subject. -/
def fault? (setup : Setup) (held : List Endpoint) : StartCheck → Option PluginError
  | config => objection? setup.config
  | certificate => if setup.certificate?.isNone then some (.config .missingCert) else none
  | key => if setup.key?.isNone then some (.config .missingKey) else none
  | port => setup.config.toOption.bind fun c => objection? (c.listenPort.mapError .config)
  | tls =>
    setup.certificate?.bind fun cert => setup.key?.bind fun key =>
      objection? ((Tls.serverConfig setup.platform.keys cert key).mapError .tls)
  | place =>
    setup.config.toOption.bind fun c => c.listenPort.toOption.bind fun port =>
      objection? ((setup.platform.bind held c.host port).mapError
        (.bind (c.host ++ ":" ++ Text.showInt port.toNat)))

variable {setup : Setup} {held : List Endpoint} {e : PluginError}

/-- The class of an error tells whether the check was about what the host has handed over. -/
theorem class_of_fault {c : StartCheck} (h : c.fault? setup held = some e) :
    e.blamesConfiguration = c.isConfiguration ∧ e.blamesTransport = !c.isConfiguration := by
  cases c with
  | config =>
    obtain ⟨d, -, rfl⟩ := objection?_mapError_eq_some_iff.1 h
    exact ⟨rfl, rfl⟩
  | certificate =>
    rw [fault?] at h
    split at h <;> cases h
    exact ⟨rfl, rfl⟩
  | key =>
    rw [fault?] at h
    split at h <;> cases h
    exact ⟨rfl, rfl⟩
  | port =>
    obtain ⟨c, -, h⟩ := Option.bind_eq_some_iff.1 h
    obtain ⟨d, -, rfl⟩ := objection?_mapError_eq_some_iff.1 h
    exact ⟨rfl, rfl⟩
  | tls =>
    obtain ⟨cert, -, h⟩ := Option.bind_eq_some_iff.1 h
    obtain ⟨key, -, h⟩ := Option.bind_eq_some_iff.1 h
    obtain ⟨d, -, rfl⟩ := objection?_mapError_eq_some_iff.1 h
    exact ⟨rfl, rfl⟩
  | place =>
    obtain ⟨c, -, h⟩ := Option.bind_eq_some_iff.1 h
    obtain ⟨port, -, h⟩ := Option.bind_eq_some_iff.1 h
    obtain ⟨d, -, rfl⟩ := objection?_mapError_eq_some_iff.1 h
    exact ⟨rfl, rfl⟩

/-! ## The checks together -/

/-- Bringing up a server fails with the fault of the first check that finds one. -/
theorem first_fault_iff :
    all.findSome? (fault? setup held) = some e ↔ setup.bind held = .error e := by
  rw [Setup.bind, Setup.prepare, Setup.find_credentials]
  simp only [all, List.findSome?_cons, List.findSome?_nil, fault?]
  cases hconfig : setup.config with
  | error d => simp [objection?, bind, Except.bind]
  | ok c =>
    cases hcert : setup.certificate? with
    | none => simp [objection?, bind, Except.bind]
    | some cert =>
      cases hkey : setup.key? with
      | none => simp [objection?, bind, Except.bind]
      | some key =>
        cases hport : c.listenPort with
        | error d =>
          simp [objection?, bind, Except.bind, Except.toOption, hport]
        | ok port =>
          cases htls : Tls.serverConfig setup.platform.keys cert key with
          | error d =>
            simp [objection?, bind, Except.bind, Except.toOption, hport,
              htls]
          | ok tls =>
            cases hplace : setup.platform.bind held c.host port <;>
            simp [objection?, bind, Except.bind, Except.toOption, hport,
              htls, hplace, pure, Except.pure]

end StartCheck

end PluginKernel
