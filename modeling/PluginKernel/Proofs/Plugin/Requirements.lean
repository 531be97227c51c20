import PluginKernel.Proofs.Plugin.Custody

/-!
# What a plugin needs of its host

A plugin can be attached if its file passes the check, if there is a configuration, if there are
channels, and if each of the six places holds an end of its kind. Each of these requirements is
stated here on what the host has handed over, without regard to the others and to whatever else is
in the bag, and `first_fault` says how they work together: attaching fails with the fault of the
first requirement, in the order of `Requirement.all`, that is not met.

Blobs are taken out of the bag before the configuration and the channels are looked for. That does
no harm as long as neither is asked for as a certificate or a key. Names that are made from the name
of a plugin never ask for them; a host that gives other names to the shared ones has to avoid those
in `Bag.reserved`.
-/

namespace PluginKernel

/-! ## Names of certificates and keys -/

/-- The names under which a bag holds something else than certificates and keys. -/
def Bag.reserved : List String := [SharedConfig.path, loggerEntry, channelsEntry, idEntry]

namespace CredentialNames

/-- The names of a plugin's own certificate and key are not reserved, whatever its name. -/
theorem own_notMem_reserved (plugin : String) :
    (ofPlugin plugin).cert ∉ Bag.reserved ∧ (ofPlugin plugin).key ∉ Bag.reserved := by
  have hlast : ∀ key ∈ Bag.reserved,
      key.toList.getLast? ≠ some 't' ∧ key.toList.getLast? ≠ some 'y' := by decide
  have hcert : (ofPlugin plugin).cert.toList.getLast? = some 't' := by
    rw [ofPlugin, String.toList_append, List.getLast?_append]
    rfl
  have hkey : (ofPlugin plugin).key.toList.getLast? = some 'y' := by
    rw [ofPlugin, String.toList_append, List.getLast?_append]
    rfl
  exact ⟨fun h => (hlast _ h).1 hcert, fun h => (hlast _ h).2 hkey⟩

/-- Nor are those of the shared ones, if the host leaves them or avoids reserved names. -/
theorem includes_reserved {plugin : String} {shared : Option (String × String)}
    (hshared : ∀ names, shared = some names → names.1 ∉ Bag.reserved ∧ names.2 ∉ Bag.reserved)
    {key : String} (hkey : key ∈ Bag.reserved) :
    ((ofPlugin plugin).withShared shared).includes key = false := by
  obtain ⟨hcert, hownKey⟩ := own_notMem_reserved plugin
  have hne : ∀ name, name ∉ Bag.reserved → key ≠ name := fun name hname heq => hname (heq ▸ hkey)
  obtain ⟨hsharedCert, hsharedKey⟩ :
      ((ofPlugin plugin).withShared shared).sharedCert ∉ Bag.reserved ∧
        ((ofPlugin plugin).withShared shared).sharedKey ∉ Bag.reserved := by
    cases shared with
    | none => exact (by decide : defaultCert ∉ Bag.reserved ∧ defaultKey ∉ Bag.reserved)
    | some names => exact hshared names rfl
  have hown : ((ofPlugin plugin).withShared shared).cert = (ofPlugin plugin).cert ∧
      ((ofPlugin plugin).withShared shared).key = (ofPlugin plugin).key := by
    cases shared <;> exact ⟨rfl, rfl⟩
  simp [includes, hown.1, hown.2, hne _ hcert, hne _ hownKey, hne _ hsharedCert, hne _ hsharedKey]

end CredentialNames

/-! ## What is found in a bag -/

namespace Bag

/-- The channels in a bag. -/
def findChannels (bag : Bag) : Except PluginError Channels :=
  match Assoc.get? channelsEntry bag with
  | some (.channels channels) => .ok channels
  | some other => .error (.channels (.notChannels other.kind))
  | none => .error (.channels .absent)

/-- The ends in the six places, if there is a configuration too. -/
def findEnds (bag : Bag) : Except PluginError (List ChannelEnd) := do
  let _ ← Equipment.sourceOf bag
  let channels ← bag.findChannels
  (ChannelPlace.all.mapM channels.find).mapError .channels

variable {bag : Bag} {names : CredentialNames} {key : String}

/-- What has no name of a certificate or a key, and is neither identifier nor logger, is still there
when these have been taken out. -/
theorem get?_remainder (hnames : names.includes key = false) (hid : idEntry ≠ key)
    (hlogger : loggerEntry ≠ key) :
    Assoc.get? key (Equipment.remainder bag names).2 = Assoc.get? key bag := by
  have hkeep : ∀ item : BagItem, (blob? names.includes (key, item)).isNone = true := by
    intro item
    cases item with
    | bytes bytes => simp [blob?, hnames]
    | _ => rfl
  calc Assoc.get? key (Equipment.remainder bag names).2
    _ = Assoc.get? key (Assoc.erase loggerEntry (Assoc.erase idEntry bag)) :=
        Assoc.get?_filter hkeep
    _ = Assoc.get? key (Assoc.erase idEntry bag) := by rw [Assoc.get?_erase, if_neg hlogger]
    _ = Assoc.get? key bag := by rw [Assoc.get?_erase, if_neg hid]

theorem findEnds_remainder (hnames : ∀ key ∈ reserved, names.includes key = false) :
    (Equipment.remainder bag names).2.findEnds = bag.findEnds := by
  have hconfig : Assoc.get? SharedConfig.path (Equipment.remainder bag names).2 =
      Assoc.get? SharedConfig.path bag :=
    get?_remainder (hnames _ (by decide)) (by decide) (by decide)
  have hchannels : Assoc.get? channelsEntry (Equipment.remainder bag names).2 =
      Assoc.get? channelsEntry bag :=
    get?_remainder (hnames _ (by decide)) (by decide) (by decide)
  rw [findEnds, findEnds, Equipment.sourceOf, Equipment.sourceOf, findChannels, findChannels,
    hconfig, hchannels]

/-- The configuration is not among the channels. -/
theorem findChannels_erase_config (bag : Bag) :
    findChannels (Assoc.erase SharedConfig.path bag) = bag.findChannels := by
  rw [findChannels, Assoc.get?_erase, if_neg (by decide), findChannels]

/-- Moving the ends out comes to what is found by looking. -/
theorem outcome_wire (bag : Bag) : bag.wire.outcome = bag.findEnds := by
  rw [wire, findEnds]
  cases Equipment.sourceOf bag with
  | error e => rfl
  | ok source =>
    show _ = bag.findChannels >>= _
    rw [← findChannels_erase_config, findChannels]
    simp only [take]
    cases Assoc.get? channelsEntry (Assoc.erase SharedConfig.path bag) with
    | none => rfl
    | some item =>
      cases item with
      | channels channels =>
        have hwired : (channels.takeEach [] ChannelPlace.all).outcome =
            ChannelPlace.all.mapM channels.find := by
          rw [Channels.outcome_takeEach (fun _ _ => rfl) ChannelPlace.pairwise_apart_all]
          cases ChannelPlace.all.mapM channels.find <;> rfl
        show (channels.takeEach [] ChannelPlace.all).outcome.mapError _ = _
        rw [hwired]
        rfl
      | _ => rfl

theorem outcome_handOver (hnames : ∀ key ∈ reserved, names.includes key = false) :
    (bag.handOver names).outcome = bag.findEnds := by
  rw [← findEnds_remainder hnames, ← outcome_wire]
  rfl

end Bag

namespace Equipment

theorem queues_endsOf (bag : Bag) : (endsOf bag).map HeldEnds.queues =
    (bag.findChannels >>= fun channels =>
      (ChannelPlace.all.mapM channels.find).mapError .channels).map
        (·.map ChannelEnd.queue) := by
  rw [endsOf, Bag.findChannels]
  cases Assoc.get? Bag.channelsEntry bag with
  | none => rfl
  | some item =>
    cases item with
    | channels channels =>
      show ((HeldEnds.ofChannels channels).mapError _).map _ =
        ((ChannelPlace.all.mapM channels.find).mapError _).map _
      rw [map_mapError, map_mapError, channels.queues_ofChannels]
    | _ => rfl

/-- The queues that a plugin remembers are those of the ends that are found by looking. -/
theorem queues_ofBag (plugin : String) {bag : Bag} {names : CredentialNames}
    (hnames : ∀ key ∈ Bag.reserved, names.includes key = false) :
    (ofBag plugin bag names).map (·.ends.queues) = bag.findEnds.map (·.map ChannelEnd.queue) := by
  rw [← Bag.findEnds_remainder hnames, ofBag, Bag.findEnds]
  generalize hrest : (remainder bag names).2 = rest
  simp only [hrest]
  cases sourceOf rest with
  | error e => rfl
  | ok source =>
    have hqueues := queues_endsOf (Assoc.erase SharedConfig.path rest)
    rw [Bag.findChannels_erase_config] at hqueues
    show Except.map _ (endsOf (Assoc.erase SharedConfig.path rest) >>= _) = _
    refine Eq.trans ?_ hqueues
    cases endsOf (Assoc.erase SharedConfig.path rest) <;> rfl

end Equipment

/-! ## Requirements -/

/-- Something that has to be right for a plugin to be attached. -/
inductive Requirement where
  /-- The plugin's file passes the check, if one is asked for. -/
  | file
  /-- There is a configuration. -/
  | configuration
  /-- There are channels. -/
  | channels
  /-- A place holds an end of its kind. -/
  | place (place : ChannelPlace)
deriving DecidableEq, Repr

namespace Requirement

/-- All requirements, in the order in which they count. -/
def all : List Requirement := [file, configuration, channels] ++ ChannelPlace.all.map place

/-- What is wrong with an attachment as far as one requirement is concerned. Places are not looked
into if there are no channels; it is another requirement that asks for these. -/
def fault? (a : Attachment) : Requirement → Option PluginError
  | file => objection? a.checkFile
  | configuration => objection? (Equipment.sourceOf a.bag)
  | channels => objection? a.bag.findChannels
  | place p => a.bag.findChannels.toOption.bind fun c => (objection? (c.find p)).map .channels

variable {a : Attachment}

theorem findSome?_place (a : Attachment) (places : List ChannelPlace) :
    (places.map place).findSome? (fault? a) =
      a.bag.findChannels.toOption.bind fun c =>
        objection? ((places.mapM c.find).mapError PluginError.channels) := by
  cases hchannels : a.bag.findChannels with
  | error e =>
    rw [List.findSome?_map]
    simp [Function.comp_def, fault?, hchannels, Except.toOption]
  | ok c =>
    show _ = objection? _
    rw [objection?_mapError, objection?_mapM, List.findSome?_map, List.map_findSome?]
    simp [Function.comp_def, fault?, hchannels, Except.toOption]

/-- What goes wrong is what is wrong with the first requirement that is not met. -/
theorem first_fault (a : Attachment) :
    all.findSome? (fault? a) = objection? (a.checkFile >>= fun _ => a.bag.findEnds) := by
  rw [all, List.findSome?_append, findSome?_place, Bag.findEnds]
  simp only [objection?_bind, List.findSome?_cons, List.findSome?_nil, fault?]
  cases a.checkFile with
  | error e => rfl
  | ok _ =>
    cases Equipment.sourceOf a.bag with
    | error e => rfl
    | ok source => cases a.bag.findChannels <;> rfl

end Requirement

/-! ## All requirements together -/

namespace Bag

variable {bag : Bag}

theorem exists_sourceOf_iff : (∃ source, Equipment.sourceOf bag = .ok source) ↔
    (∃ ms, Assoc.get? SharedConfig.path bag = some (.members ms)) ∨
      ∃ bytes, Assoc.get? SharedConfig.path bag = some (.bytes bytes) := by
  rw [Equipment.sourceOf]
  cases Assoc.get? SharedConfig.path bag with
  | none => simp
  | some item => cases item <;> simp

theorem findChannels_eq_ok_iff {channels : Channels} : bag.findChannels = .ok channels ↔
    Assoc.get? channelsEntry bag = some (.channels channels) := by
  rw [findChannels]
  cases Assoc.get? channelsEntry bag with
  | none => simp
  | some item => cases item <;> simp

theorem findEnds_eq_ok_iff {kept : List ChannelEnd} : bag.findEnds = .ok kept ↔
    (∃ source, Equipment.sourceOf bag = .ok source) ∧
      ∃ channels, Assoc.get? channelsEntry bag = some (.channels channels) ∧
        ChannelPlace.all.mapM channels.find = .ok kept := by
  simp only [findEnds, bind_eq_ok_iff, mapError_eq_ok_iff, findChannels_eq_ok_iff]
  exact ⟨fun ⟨source, hsource, h⟩ => ⟨⟨source, hsource⟩, h⟩,
    fun ⟨⟨source, hsource⟩, h⟩ => ⟨source, hsource, h⟩⟩

end Bag

/-- The ends that are kept are those in the places. -/
theorem Channels.endAt?_of_mapM_find {channels : Channels} {places : List ChannelPlace}
    {kept : List ChannelEnd} (h : places.mapM channels.find = .ok kept) :
    places.map channels.endAt? = kept.map some := by
  rw [mapM_eq_ok_iff] at h
  induction places generalizing kept with
  | nil =>
    cases kept with
    | nil => rfl
    | cons e es => cases h
  | cons place rest ih =>
    cases kept with
    | nil => cases h
    | cons e es =>
      obtain ⟨hfind, hrest⟩ := List.cons.inj h
      rw [List.map_cons, List.map_cons, (find_eq_ok_iff.1 hfind).1, ih hrest]

/-- A plugin can be attached: its file is the right one, and the bag holds a configuration and
channels with an end of its kind in each of the six places. -/
structure Attachment.Fits (a : Attachment) : Prop where
  file : a.checkFile = .ok ()
  configuration : (∃ ms, Assoc.get? SharedConfig.path a.bag = some (.members ms)) ∨
    ∃ bytes, Assoc.get? SharedConfig.path a.bag = some (.bytes bytes)
  channels : ∃ channels, Assoc.get? Bag.channelsEntry a.bag = some (.channels channels) ∧
    ∀ place ∈ ChannelPlace.all, ∃ e, channels.endAt? place = some e ∧ e.kind = place.kind

/-- That is so if the file passes and the ends are found. -/
theorem Attachment.fits_iff {a : Attachment} :
    a.Fits ↔ ∃ kept, a.checkFile >>= (fun _ => a.bag.findEnds) = .ok kept := by
  have hplaces : ∀ channels : Channels,
      (∀ place ∈ ChannelPlace.all, ∃ e, channels.endAt? place = some e ∧ e.kind = place.kind) ↔
        ∃ kept, ChannelPlace.all.mapM channels.find = .ok kept := by
    intro channels
    rw [← objection?_eq_none_iff, objection?_mapM, List.findSome?_eq_none_iff]
    simp only [objection?_eq_none_iff, Channels.find_eq_ok_iff]
  simp only [bind_eq_ok_iff, Bag.findEnds_eq_ok_iff, Bag.exists_sourceOf_iff]
  constructor
  · rintro ⟨hfile, hconfig, channels, hchannels, hends⟩
    obtain ⟨kept, hkept⟩ := (hplaces channels).1 hends
    exact ⟨kept, (), hfile, hconfig, channels, hchannels, hkept⟩
  · rintro ⟨kept, ⟨⟩, hfile, hconfig, channels, hchannels, hkept⟩
    exact ⟨hfile, hconfig, channels, hchannels, (hplaces channels).2 ⟨kept, hkept⟩⟩

end PluginKernel
