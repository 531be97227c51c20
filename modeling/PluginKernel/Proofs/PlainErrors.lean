import PluginKernel.Instance.Attach
import PluginKernel.Ledger.Storage
import PluginKernel.Proofs.FirstError
import PluginKernel.Proofs.Text.Plain

/-!
# Failures with plain wordings

Most of what goes wrong is worded with values that came from outside. Values of a configuration, of
a record and of a bag are quoted on the way, or only their kinds are named, so the wording is plain
whatever they are. Not so with the host to listen on, the path of a record and what a manifest
expects: these stand in a wording as they are, and it is as plain as they are. So do the words in
which others refuse a document, a certificate, a key or a place to listen on.
-/

namespace PluginKernel

open Text

/-- If something goes wrong its wording is plain. -/
def FailsPlainly {ε α : Type} (wording : ε → String) (x : Except ε α) : Prop :=
  ∀ e, x = .error e → IsPlain (wording e)

namespace FailsPlainly

variable {ε δ α β : Type} {wording : ε → String}

theorem ok (a : α) : FailsPlainly wording (.ok a) := fun _ h => nomatch h

theorem error {e : ε} (h : IsPlain (wording e)) : FailsPlainly wording (.error e : Except ε α) := by
  intro _ heq
  cases heq
  exact h

theorem bind {x : Except ε α} {f : α → Except ε β} (hx : FailsPlainly wording x)
    (hf : ∀ a, x = .ok a → FailsPlainly wording (f a)) : FailsPlainly wording (x >>= f) := by
  cases x with
  | error e => exact error (hx e rfl)
  | ok a => exact hf a rfl

theorem map {x : Except ε α} (hx : FailsPlainly wording x) (f : α → β) :
    FailsPlainly wording (x.map f) := by
  cases x with
  | error e => exact error (hx e rfl)
  | ok a => exact ok _

theorem mapError {wording' : δ → String} {x : Except ε α} {f : ε → δ}
    (hx : FailsPlainly (fun e => wording' (f e)) x) : FailsPlainly wording' (x.mapError f) := by
  cases x with
  | error e => exact error (hx e rfl)
  | ok a => exact ok _

end FailsPlainly

/-! ## Values -/

namespace Json

theorem failsPlainly_asText (v : Json) : FailsPlainly DecodeError.message v.asText := by
  cases v with
  | str s => exact .ok s
  | _ =>
    exact .error (.append (.append (.append (by decide) (isPlain_describe _)) (by decide))
      (by decide))

theorem failsPlainly_checkMembers {check : String → Json → Except DecodeError Unit}
    (h : ∀ name v, FailsPlainly DecodeError.message (check name v)) (members : Assoc Json) :
    FailsPlainly DecodeError.message (checkMembers check members) := by
  rw [checkMembers]
  induction members with
  | nil => exact .ok _
  | cons p rest ih =>
    exact .bind (h p.1 p.2) fun _ _ => ih

theorem failsPlainly_requiredText {name : String} (h : IsPlain name) (members : Assoc Json) :
    FailsPlainly DecodeError.message (requiredText name members) := by
  rw [requiredText]
  split
  · exact failsPlainly_asText _
  · exact .error (.append (.append (by decide) h) (by decide))

theorem failsPlainly_optional {α : Type} {decode : Json → Except DecodeError α}
    (h : ∀ v, FailsPlainly DecodeError.message (decode v)) (default : α) (name : String)
    (members : Assoc Json) :
    FailsPlainly DecodeError.message (optional decode default name members) := by
  rw [optional]
  split
  · exact h _
  · exact .ok _

end Json

/-- Whatever a record holds, what is said of it is plain if its path is. -/
theorem StoredStatistic.failsPlainly_read {path : String} (h : IsPlain path)
    (members : Assoc Json) : FailsPlainly StatisticError.message (read path members) := by
  have hcheck : ∀ name v, FailsPlainly DecodeError.message (checkMember name v) := by
    intro name v
    rw [checkMember]
    split
    · exact (Json.failsPlainly_asText v).map _
    · exact .ok _
  have hmembers : FailsPlainly DecodeError.message (ofMembers? members) := by
    refine .bind (Json.failsPlainly_checkMembers hcheck members) fun _ _ => ?_
    refine .bind (Json.failsPlainly_requiredText (by decide) _) fun _ _ => ?_
    refine .bind (Json.failsPlainly_requiredText (by decide) _) fun _ _ => ?_
    refine .bind (Json.failsPlainly_requiredText (by decide) _) fun _ _ => ?_
    refine .bind (Json.failsPlainly_requiredText (by decide) _) fun _ _ => ?_
    exact .bind (Json.failsPlainly_requiredText (by decide) _) fun _ _ => .ok _
  refine .mapError fun e he => ?_
  exact .append (.append (.append (by decide) h) (by decide)) (hmembers e he)

/-! ## Configurations -/

theorem PortSetting.failsPlainly_decode (v : Json) :
    FailsPlainly DecodeError.message (decode v) := by
  unfold decode
  (repeat' split) <;> first | exact .ok _ | exact .error (by decide)

theorem PortSetting.failsPlainly_resolve (p : PortSetting) :
    FailsPlainly ConfigError.message p.resolve := by
  have hreason : ∀ value {reason}, IsPlain reason →
      IsPlain (ConfigError.invalidPort value reason).message := fun value _ h =>
    .append (.append (.append (by decide) (isPlain_quote value)) (by decide)) h
  cases p with
  | number n =>
    rw [resolve]
    split
    · exact .ok _
    · exact .error (hreason _ (by decide))
  | text s =>
    rw [resolve]
    split
    · next e _ => exact .error (hreason s (by cases e <;> decide))
    · split
      · exact .ok _
      · exact .error (hreason s (by decide))

/-- Whatever a configuration holds, what is said of it is plain, unless it is a document and the
reader of documents says something else. -/
theorem ConfigSource.failsPlainly_resolve {describe : Bytes → String} {source : ConfigSource}
    (h : ∀ wording, source.resolve describe = .error (.yaml wording) → IsPlain wording) :
    FailsPlainly ConfigError.message (source.resolve describe) := by
  have hport : ∀ v, FailsPlainly DecodeError.message (SharedConfig.decodePort v) := by
    intro v
    unfold SharedConfig.decodePort
    split
    · exact .ok _
    · exact (PortSetting.failsPlainly_decode _).map _
  have hcheck : ∀ name v, FailsPlainly DecodeError.message (SharedConfig.checkMember name v) := by
    intro name v
    rw [SharedConfig.checkMember]
    split
    · exact (Json.failsPlainly_asText v).map _
    split
    · exact (hport v).map _
    · exact .ok _
  cases source with
  | members ms =>
    refine .mapError ?_
    refine .bind (Json.failsPlainly_checkMembers hcheck ms) fun _ _ => ?_
    refine .bind (Json.failsPlainly_optional hport _ _ _) fun _ _ => ?_
    exact .bind (Json.failsPlainly_optional Json.failsPlainly_asText _ _ _) fun _ _ => .ok _
  | document bytes =>
    rw [resolve, SharedConfig.ofYaml] at h ⊢
    split at h
    · exact .ok _
    · exact .error (h _ rfl)

/-! ## Bringing a server up -/

/-- Texts, certificates and keys are refused in plain words, whatever they hold. -/
structure Tls.Wordings.IsPlain (words : Wordings) : Prop where
  brokenText : ∀ text, Text.IsPlain (words.brokenText text)
  refused : ∀ chain key, Text.IsPlain (words.refused chain key)

theorem Tls.failsPlainly_serverConfig {keys : KeyDirectory} (h : keys.wordings.IsPlain)
    (cert key : Bytes) : FailsPlainly TlsError.message (serverConfig keys cert key) := by
  have hempty : ∀ missing, IsPlain (TlsError.empty missing).message := fun missing => by
    cases missing <;> decide
  refine .bind ?_ fun chain _ => .bind ?_ fun key _ => ?_
  · simp only [certificates]
    split
    · exact .error (h.brokenText cert)
    split
    · exact .error (hempty _)
    · exact .ok _
  · simp only [privateKey]
    split
    · exact .ok _
    · split
      · exact .error (h.brokenText _)
      · exact .error (hempty _)
  · split
    · split
      · exact .ok _
      · exact .error (h.refused _ _)
    · exact .error (h.refused _ _)

theorem Credentials.failsPlainly_find (blobs : Assoc Bytes) (names : CredentialNames) :
    FailsPlainly ConfigError.message (find blobs names) := by
  rw [find]
  split
  · exact .error (by decide)
  split
  · exact .error (by decide)
  · exact .ok _

theorem SharedConfig.failsPlainly_listenPort (config : SharedConfig) :
    FailsPlainly ConfigError.message config.listenPort := by
  rw [listenPort]
  split
  · exact .error (by decide)
  · exact PortSetting.failsPlainly_resolve _

/-- A platform speaks plainly of certificates and keys, and of places that cannot be listened on. -/
structure Platform.IsPlain (platform : Platform) : Prop where
  wordings : platform.keys.wordings.IsPlain
  bind : ∀ held host port cause,
    platform.bind held host port = .error cause → Text.IsPlain cause

/-- On a machine that is not connected to others it is said plainly why a place cannot be listened
on. -/
theorem Platform.isPlain_unconnected {keys : Tls.KeyDirectory} (h : keys.wordings.IsPlain) :
    (unconnected keys).IsPlain where
  wordings := h
  bind held host port cause hcause := by
    simp only [unconnected] at hcause
    cases hbind : Endpoint.bind held host port with
    | ok place =>
      rw [hbind] at hcause
      cases hcause
    | error e =>
      rw [hbind] at hcause
      cases hcause
      cases e <;> decide

namespace Setup

variable {setup : Setup}

/-- What comes from outside is plain where it stands in a wording as it is. -/
structure IsPlain (setup : Setup) : Prop where
  argosId : Text.IsPlain setup.equipment.argosId
  host : ∀ config, setup.config = .ok config → Text.IsPlain config.host
  filingPlace : ∀ place, setup.choices.filingPlace = some place →
    Text.IsPlain place.basePath ∧ Text.IsPlain place.idName
  /-- If the configuration is a document that is refused, it is refused in plain words. -/
  document : ∀ wording, setup.config = .error (.config (.yaml wording)) → Text.IsPlain wording
  platform : setup.platform.IsPlain

theorem failsPlainly_config (h : setup.IsPlain) :
    FailsPlainly PluginError.message setup.config := by
  refine .mapError (ConfigSource.failsPlainly_resolve fun wording hwording => ?_)
  exact h.document wording (by rw [config, hwording]; rfl)

theorem failsPlainly_prepare (h : setup.IsPlain) :
    FailsPlainly PluginError.message setup.prepare := by
  refine .bind (failsPlainly_config h) fun config _ => ?_
  refine .bind (.mapError (Credentials.failsPlainly_find _ _)) fun credentials _ => ?_
  refine .bind (.mapError config.failsPlainly_listenPort) fun port _ => ?_
  exact .bind (.mapError (Tls.failsPlainly_serverConfig h.platform.wordings _ _)) fun _ _ => .ok _

/-- The host that is listened on is the one that is configured. -/
theorem exists_config_of_prepare {host : String} {port : UInt16}
    (h : setup.prepare = .ok (host, port)) : ∃ config, setup.config = .ok config ∧
      config.host = host := by
  obtain ⟨config, hconfig, h⟩ := bind_eq_ok_iff.1 h
  obtain ⟨credentials, -, h⟩ := bind_eq_ok_iff.1 h
  obtain ⟨port', -, h⟩ := bind_eq_ok_iff.1 h
  obtain ⟨_, -, h⟩ := bind_eq_ok_iff.1 h
  cases h
  exact ⟨config, hconfig, rfl⟩

/-- Why no server can be brought up is said in plain words. -/
theorem failsPlainly_bind (h : setup.IsPlain) (held : List Endpoint) :
    FailsPlainly PluginError.message (setup.bind held) := by
  refine .bind (failsPlainly_prepare h) fun ⟨host, port⟩ hprepare => ?_
  refine .mapError fun cause hcause => ?_
  obtain ⟨config, hconfig, rfl⟩ := exists_config_of_prepare hprepare
  exact .append (.append (.append (by decide)
    (.append (.append (h.host config hconfig) (by decide)) (isPlain_showInt _))) (by decide))
    (h.platform.bind _ _ _ _ hcause)

end Setup

/-! ## Attaching a plugin -/

namespace FileCheck

/-- What a check names is plain: the file, and the digest that is expected of it. -/
def IsPlain (check : FileCheck) : Prop :=
  Text.IsPlain check.artifact ∧ ∀ expected, check.rule = .manifest expected → Text.IsPlain expected

variable {check : FileCheck}

theorem failsPlainly_digestOf (content : Except FileError Bytes) :
    FailsPlainly PluginError.message (digestOf content) := by
  cases content with
  | ok bytes => exact .ok _
  | error e => exact .error (by cases e <;> decide)

theorem failsPlainly_run (h : check.IsPlain) (content : Except FileError Bytes) :
    FailsPlainly PluginError.message (check.run content) := by
  rw [run]
  split
  · exact .ok _
  · next expected hrule =>
    refine .bind (failsPlainly_digestOf content) fun actual hactual => ?_
    have hdigest : Text.IsPlain actual := by
      cases content with
      | error e => cases hactual
      | ok bytes =>
        cases hactual
        exact isPlain_hex _
    split
    · exact .ok _
    · exact .error (.append (.append (.append (.append (.append (by decide) h.1) (by decide))
        (h.2 expected hrule)) (by decide)) hdigest)

end FileCheck

theorem HeldEnds.failsPlainly_take (channels : Channels) {place : ChannelPlace}
    (h : IsPlain place.describe) : FailsPlainly ChannelFault.reason (take channels place) := by
  rw [take]
  split
  · exact .error (.append (.append (by decide) (isPlain_quote _)) (by decide))
  split
  · exact .error (.append (.append (by decide) h) (by decide))
  split
  · exact .ok _
  · next e _ _ =>
    have hkind : ∀ kind : EndKind, IsPlain kind.describe := fun kind => by cases kind <;> decide
    exact .error (.append (.append (.append (.append (.append (by decide) h) (by decide))
      (hkind _)) (by decide)) (hkind _))

theorem HeldEnds.failsPlainly_ofChannels (channels : Channels) :
    FailsPlainly ChannelFault.reason (ofChannels channels) := by
  refine .bind (failsPlainly_take channels (by decide)) fun _ _ => ?_
  refine .bind (failsPlainly_take channels (by decide)) fun _ _ => ?_
  refine .bind (failsPlainly_take channels (by decide)) fun _ _ => ?_
  refine .bind (failsPlainly_take channels (by decide)) fun _ _ => ?_
  refine .bind (failsPlainly_take channels (by decide)) fun _ _ => ?_
  exact .bind (failsPlainly_take channels (by decide)) fun _ _ => .ok _

theorem BagItem.isPlain_kind (item : BagItem) : IsPlain item.kind := by
  cases item <;> simp only [kind] <;> decide

/-- Whatever a bag holds, what is said of it is plain. -/
theorem Equipment.failsPlainly_ofBag (plugin : String) (bag : Bag) (names : CredentialNames) :
    FailsPlainly PluginError.message (ofBag plugin bag names) := by
  refine .bind ?_ fun source _ => .bind ?_ fun ends _ => .ok _
  · rw [sourceOf]
    split
    · exact .ok _
    · exact .ok _
    · exact .error (.append (by decide)
        (.append (.append (by decide) (by decide)) (BagItem.isPlain_kind _)))
    · exact .error (by decide)
  · rw [endsOf]
    split
    · exact .mapError fun e he => .append (by decide) (HeldEnds.failsPlainly_ofChannels _ e he)
    · exact .error (.append (by decide) (.append (by decide) (BagItem.isPlain_kind _)))
    · exact .error (by decide)

end PluginKernel
