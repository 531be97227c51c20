import PluginKernel.Proofs.Instance.Attaching
import PluginKernel.Proofs.Instance.Resemblance

/-!
# Key material stays with its plugin

A bag may hold the certificates and keys of many plugins. A plugin takes those under its own two
names and under the two shared ones, and no others: `get?_blobs` says which. So it makes no
difference what else is in the bag. Names are put together from the name of a plugin, but in such a
way that different plugins have different names, and that only the plugin `hive` has the shared ones
for its own; hence a plugin never comes by what belongs to another.
-/

namespace PluginKernel

/-! ## Names of different plugins -/

namespace CredentialNames

theorem toList_cert (plugin : String) :
    (ofPlugin plugin).cert.toList = ['.', '/'] ++ plugin.toList ++ ['.', 'c', 'r', 't'] := by
  rw [ofPlugin, String.toList_append, String.toList_append]
  rfl

theorem toList_key (plugin : String) : (ofPlugin plugin).key.toList =
    ['.', '/'] ++ plugin.toList ++ ['k', 'e', 'y', '.', 'k', 'e', 'y'] := by
  rw [ofPlugin, String.toList_append, String.toList_append]
  rfl

/-- A plugin is known by the name of its certificate. -/
theorem cert_inj {p q : String} (h : (ofPlugin p).cert = (ofPlugin q).cert) : p = q := by
  have hchars := congrArg String.toList h
  rw [toList_cert, toList_cert] at hchars
  exact String.toList_inj.1 (List.append_cancel_left (List.append_cancel_right hchars))

/-- A plugin is known by the name of its key. -/
theorem key_inj {p q : String} (h : (ofPlugin p).key = (ofPlugin q).key) : p = q := by
  have hchars := congrArg String.toList h
  rw [toList_key, toList_key] at hchars
  exact String.toList_inj.1 (List.append_cancel_left (List.append_cancel_right hchars))

/-- No certificate has the name of a key. -/
theorem cert_ne_key (p q : String) : (ofPlugin p).cert ≠ (ofPlugin q).key := by
  intro h
  have hcert : (ofPlugin p).cert.toList.getLast? = some 't' := by
    rw [toList_cert, List.getLast?_append]
    rfl
  have hkey : (ofPlugin q).key.toList.getLast? = some 'y' := by
    rw [toList_key, List.getLast?_append]
    rfl
  rw [h, hkey] at hcert
  cases hcert

/-- A plugin that does not look for its credentials under other shared names looks for none of
another plugin, unless that is the one whose credentials are shared. -/
theorem includes_other {p q : String} (hne : q ≠ p) (hshared : q ≠ "hive") :
    (ofPlugin p).includes (ofPlugin q).cert = false ∧
      (ofPlugin p).includes (ofPlugin q).key = false := by
  have hcert : (ofPlugin p).sharedCert = (ofPlugin "hive").cert := rfl
  have hkey : (ofPlugin p).sharedKey = (ofPlugin "hive").key := rfl
  have hneCert : ∀ r, q ≠ r → (ofPlugin q).cert ≠ (ofPlugin r).cert := fun r hr h => hr (cert_inj h)
  have hneKey : ∀ r, q ≠ r → (ofPlugin q).key ≠ (ofPlugin r).key := fun r hr h => hr (key_inj h)
  constructor
  · simp [includes, hcert, hkey, hneCert p hne, hneCert _ hshared, cert_ne_key]
  · simp [includes, hcert, hkey, hneKey p hne, hneKey _ hshared, Ne.symm (cert_ne_key _ _)]

end CredentialNames

/-! ## What is taken out of a bag -/

namespace Bag

/-- The blob under a name. -/
def blobAt? (bag : Bag) (key : String) : Option Text.Bytes :=
  match Assoc.get? key bag with
  | some (.bytes bytes) => some bytes
  | _ => none

/-- Two bags hold the same as far as a plugin looks: under the reserved names, and as a certificate
or a key under the names that it looks for. -/
structure AgreeFor (names : CredentialNames) (bag other : Bag) : Prop where
  reserved : ∀ key ∈ reserved, Assoc.get? key bag = Assoc.get? key other
  blobs : ∀ key, names.includes key = true → bag.blobAt? key = other.blobAt? key

variable {bag other : Bag} {names : CredentialNames} {keep : String → Bool} {key : String}

theorem keys_filterMap_blob? (bag : Bag) (keep : String → Bool) :
    (Assoc.keys (bag.filterMap (blob? keep))).Sublist (Assoc.keys bag) := by
  induction bag with
  | nil => exact .slnil
  | cons entry rest ih =>
    obtain ⟨k, item⟩ := entry
    cases hblob : blob? keep (k, item) with
    | none =>
      rw [List.filterMap_cons_none hblob]
      exact ih.cons k
    | some p =>
      rw [List.filterMap_cons_some hblob]
      have hk : p.1 = k := by
        cases item with
        | bytes bytes =>
          simp only [blob?, Option.ite_none_right_eq_some] at hblob
          rw [← Option.some.inj hblob.2]
        | _ => cases hblob
      exact hk ▸ ih.cons_cons k

theorem sorted_extractBlobs (h : Assoc.Sorted bag) (keep : String → Bool) :
    Assoc.Sorted (bag.extractBlobs keep).1 :=
  List.Pairwise.sublist (keys_filterMap_blob? bag keep) h

/-- What is found among the blobs that are taken out. -/
theorem get?_extractBlobs (h : Assoc.Sorted bag) (keep : String → Bool) (key : String) :
    Assoc.get? key (bag.extractBlobs keep).1 = if keep key then bag.blobAt? key else none := by
  show Assoc.get? key (bag.filterMap (blob? keep)) = _
  induction bag with
  | nil => simp [blobAt?]
  | cons entry rest ih =>
    obtain ⟨k, item⟩ := entry
    have hrest := ih (Assoc.sorted_cons_iff.1 h).2
    by_cases hk : k = key
    · subst hk
      -- the name does not occur among the others
      have hothers : Assoc.get? k (rest.filterMap (blob? keep)) = none :=
        Assoc.get?_eq_none_iff.2 fun hmem =>
          h.notMem_keys ((keys_filterMap_blob? rest keep).subset hmem)
      rw [blobAt?, Assoc.get?, if_pos rfl]
      cases item with
      | bytes bytes =>
        cases hkeep : keep k with
        | true => simp [blob?, hkeep, Assoc.get?]
        | false => simp [blob?, hkeep, hothers]
      | _ =>
        rw [List.filterMap_cons_none rfl, hothers]
        simp
    · rw [blobAt?, Assoc.get?, if_neg hk, ← blobAt?, ← hrest, List.filterMap_cons]
      cases item with
      | bytes bytes =>
        cases hkeep : keep k with
        | true => simp [blob?, hkeep, Assoc.get?, hk]
        | false => simp [blob?, hkeep]
      | _ => rfl

/-- The blobs that a plugin takes are those under the names that it looks for. -/
theorem get?_blobs (h : Assoc.Sorted bag)
    (hnames : ∀ key ∈ Bag.reserved, names.includes key = false) (key : String) :
    Assoc.get? key (Equipment.remainder bag names).1 =
      if names.includes key then bag.blobAt? key else none := by
  have hid : names.includes key = true → idEntry ≠ key := by
    rintro hkey rfl
    rw [hnames _ (by decide)] at hkey
    cases hkey
  have hlogger : names.includes key = true → loggerEntry ≠ key := by
    rintro hkey rfl
    rw [hnames _ (by decide)] at hkey
    cases hkey
  rw [Equipment.remainder, get?_extractBlobs ((h.erase _).erase _)]
  split
  next hkey =>
    rw [blobAt?, Assoc.get?_erase, if_neg (hlogger hkey), Assoc.get?_erase, if_neg (hid hkey),
      ← blobAt?]
  · rfl

namespace AgreeFor

theorem remainder (h : AgreeFor names bag other) (hbag : Assoc.Sorted bag)
    (hother : Assoc.Sorted other) (hnames : ∀ key ∈ Bag.reserved, names.includes key = false) :
    (Equipment.remainder bag names).1 = (Equipment.remainder other names).1 := by
  refine Assoc.Sorted.ext (sorted_extractBlobs ((hbag.erase _).erase _) _)
    (sorted_extractBlobs ((hother.erase _).erase _) _) fun key => ?_
  have hblobs := get?_blobs hbag hnames key
  have hblobs' := get?_blobs hother hnames key
  rw [hblobs, hblobs']
  split
  next hkey => exact h.blobs key hkey
  · rfl

theorem argosIdOf (h : AgreeFor names bag other) (plugin : String) :
    Equipment.argosIdOf plugin bag = Equipment.argosIdOf plugin other := by
  rw [Equipment.argosIdOf, h.reserved _ (by decide), Equipment.argosIdOf]

theorem idEvents (h : AgreeFor names bag other) :
    Equipment.idEvents bag = Equipment.idEvents other := by
  rw [Equipment.idEvents, h.reserved _ (by decide), Equipment.idEvents]

theorem spanOf (h : AgreeFor names bag other) (plugin : String) :
    Equipment.spanOf plugin bag = Equipment.spanOf plugin other := by
  rw [Equipment.spanOf, h.reserved _ (by decide), h.argosIdOf, Equipment.spanOf]

/-- Bags that agree equip a plugin alike, or fail to do so for the same reason. -/
theorem ofBag (h : AgreeFor names bag other) (hbag : Assoc.Sorted bag)
    (hother : Assoc.Sorted other) (hnames : ∀ key ∈ Bag.reserved, names.includes key = false)
    (plugin : String) :
    Equipment.ofBag plugin bag names = Equipment.ofBag plugin other names := by
  have hrest : ∀ key ∈ Bag.reserved, idEntry ≠ key → loggerEntry ≠ key →
      Assoc.get? key (Equipment.remainder bag names).2 =
        Assoc.get? key (Equipment.remainder other names).2 := by
    intro key hkey hid hlogger
    rw [get?_remainder (hnames key hkey) hid hlogger, get?_remainder (hnames key hkey) hid hlogger,
      h.reserved key hkey]
  have hsource : Equipment.sourceOf (Equipment.remainder bag names).2 =
      Equipment.sourceOf (Equipment.remainder other names).2 := by
    rw [Equipment.sourceOf, hrest _ (by decide) (by decide) (by decide), Equipment.sourceOf]
  have hends :
      Equipment.endsOf (Assoc.erase SharedConfig.path (Equipment.remainder bag names).2) =
        Equipment.endsOf (Assoc.erase SharedConfig.path (Equipment.remainder other names).2) := by
    rw [Equipment.endsOf, Equipment.endsOf, Assoc.get?_erase, Assoc.get?_erase,
      hrest _ (by decide) (by decide) (by decide)]
  simp only [Equipment.ofBag, h.remainder hbag hother hnames, hsource, hends, h.argosIdOf plugin]

end AgreeFor

end Bag

/-! ## Attaching a plugin and what comes of it -/

namespace Attachment

variable {σ : Type} [RecordStore σ]

/-- What attaching a plugin, and then doing some things, can come to: why it cannot be attached, or
the plugin after some turns of its tasks before, between and after these things. -/
def ComesTo (a : Attachment) (platform : Platform) (capacity : Nat) (store : σ)
    (as : List HostAction) (result : Except PluginError (Instance σ)) : Prop :=
  match Instance.attach a platform capacity store with
  | .error e => result = .error e
  | .ok i => ∃ j, i.Runs as j ∧ result = .ok j

theorem comesTo_ok_iff {a : Attachment} {platform : Platform} {capacity : Nat} {store : σ}
    {as : List HostAction} {j : Instance σ} : a.ComesTo platform capacity store as (.ok j) ↔
      ∃ i, Instance.attach a platform capacity store = .ok i ∧ i.Runs as j := by
  unfold ComesTo
  cases Instance.attach a platform capacity store with
  | error e => simp
  | ok i => simp

end Attachment

namespace Instance

variable {σ : Type} [RecordStore σ] {i j : Instance σ} {as : List HostAction}

theorem Runs.reachable (h : i.Runs as j) : i.Reachable j := by
  induction h with
  | refl => exact .refl
  | step _ hs ih => exact ih.step hs
  | act _ a ih => exact ih.act a

omit [RecordStore σ] in
/-- What a plugin has been equipped with are the blobs in the bag under the names that it looks
for. -/
theorem get?_blobs_of_attach {a : Attachment} {platform : Platform} {capacity : Nat} {store : σ}
    (hshared : a.SharesProperly) (hbag : Assoc.Sorted a.bag)
    (hi : attach a platform capacity store = .ok i) (key : String) :
    Assoc.get? key i.setup.equipment.blobs =
      if a.names.includes key then a.bag.blobAt? key else none := by
  obtain ⟨hequipment, -⟩ := equipment_of_attach hi
  have hexecutor : a.hasExecutor = true := by
    by_contra hnot
    rw [Attachment.equipment, Bool.eq_false_iff.2 hnot] at hequipment
    cases hequipment
  rw [Attachment.equipment_eq hexecutor] at hequipment
  obtain ⟨_, -, hequipment⟩ := bind_eq_ok_iff.1 hequipment
  rw [Attachment.readBag, Equipment.ofBag] at hequipment
  obtain ⟨source, -, hequipment⟩ := bind_eq_ok_iff.1 hequipment
  obtain ⟨ends, -, hequipment⟩ := bind_eq_ok_iff.1 hequipment
  rw [← Except.ok.inj hequipment]
  exact Bag.get?_blobs hbag hshared.includes_reserved key

omit [RecordStore σ] in
/-- Bags that agree make no difference to what is attached, nor to what is logged about it. -/
theorem attach_congr {a : Attachment} {other : Bag} (hshared : a.SharesProperly)
    (hbag : Assoc.Sorted a.bag) (hother : Assoc.Sorted other)
    (h : Bag.AgreeFor a.names a.bag other) (platform : Platform) (capacity : Nat) (store : σ) :
    a.events = { a with bag := other }.events ∧
      attach a platform capacity store =
        attach { a with bag := other } platform capacity store := by
  have hread : a.readBag = { a with bag := other }.readBag :=
    h.ofBag hbag hother hshared.includes_reserved a.plugin
  have hequipment : a.equipment = { a with bag := other }.equipment := by
    rw [Attachment.equipment, hread, Attachment.equipment]
    rfl
  have hevents : a.events = { a with bag := other }.events := by
    rw [Attachment.events, hread, h.idEvents, Attachment.events]
    rfl
  refine ⟨hevents, ?_⟩
  rw [attach, hequipment, hevents, attach]

/-- A plugin has to do with the reserved entries of its bag and with the certificates and keys under
its own two names and the two shared ones, and with nothing else. If two bags agree on these, then
the same is logged and the same span opened when it is attached, and all that can come of attaching
it and of doing whatever a host may do can come of it with the other bag. The plugin never holds
another blob than those under its four names. So unless its host gives it other shared names, it
never holds the certificate or the key of a plugin with another name, but for those that are
shared. -/
theorem key_material_stays {a : Attachment} (hshared : a.SharesProperly)
    (hbag : Assoc.Sorted a.bag) (platform : Platform) (capacity : Nat) (store : σ) :
    (∀ other : Bag, Assoc.Sorted other → Bag.AgreeFor a.names a.bag other →
      a.events = { a with bag := other }.events ∧
        Equipment.spanOf a.plugin a.bag = Equipment.spanOf a.plugin other ∧
        ∀ as result, a.ComesTo platform capacity store as result ↔
          { a with bag := other }.ComesTo platform capacity store as result) ∧
      ∀ as j, a.ComesTo platform capacity store as (.ok j) →
        (∀ key, Assoc.get? key j.setup.equipment.blobs =
          if a.names.includes key then a.bag.blobAt? key else none) ∧
        (a.choices.sharedNames = none → ∀ q, q ≠ a.plugin → q ≠ "hive" →
          Assoc.get? (CredentialNames.ofPlugin q).cert j.setup.equipment.blobs = none ∧
            Assoc.get? (CredentialNames.ofPlugin q).key j.setup.equipment.blobs = none) := by
  constructor
  · intro other hother hagree
    obtain ⟨hevents, hattach⟩ := attach_congr hshared hbag hother hagree platform capacity store
    refine ⟨hevents, hagree.spanOf a.plugin, fun as result => ?_⟩
    rw [Attachment.ComesTo, hattach, Attachment.ComesTo]
  · intro as j hj
    obtain ⟨i, hi, hruns⟩ := Attachment.comesTo_ok_iff.1 hj
    have hblobs := get?_blobs_of_attach hshared hbag hi
    rw [← setup_of_reachable hruns.reachable] at hblobs
    refine ⟨hblobs, fun hnone q hne hq => ?_⟩
    have hnames : a.names = CredentialNames.ofPlugin a.plugin := by
      rw [Attachment.names, hnone]
      rfl
    obtain ⟨hcert, hkey⟩ := CredentialNames.includes_other hne hq
    rw [← hnames] at hcert hkey
    rw [hblobs, hblobs, hcert, hkey]
    exact ⟨rfl, rfl⟩

/-- A plugin with a certificate and a key of its own. -/
def withOwnPair : Attachment where
  plugin := "p1"
  bag := [("./config.yml", .members [(SharedConfig.portMember, .int 8443)]),
    ("./p1.crt", .bytes [1]), ("./p1key.key", .bytes [2]),
    ("pluginEventChannelsMap", .channels Channels.all)]

/-- The same bag with the certificate and the key of another plugin, and a text where the shared key
would be. -/
def bagOfTwo : Bag :=
  [("./config.yml", .members [(SharedConfig.portMember, .int 8443)]),
    ("./hivekey.key", .text "lost"), ("./p1.crt", .bytes [1]), ("./p1key.key", .bytes [2]),
    ("./p2.crt", .bytes [3]), ("./p2key.key", .bytes [4]),
    ("pluginEventChannelsMap", .channels Channels.all)]

theorem agree_bagOfTwo : Bag.AgreeFor withOwnPair.names withOwnPair.bag bagOfTwo where
  reserved key hkey := by
    simp only [Bag.reserved, List.mem_cons, List.not_mem_nil, or_false] at hkey
    rcases hkey with rfl | rfl | rfl | rfl <;> rfl
  blobs key hkey := by
    simp only [CredentialNames.includes, Bool.or_eq_true, decide_eq_true_eq, or_assoc] at hkey
    rcases hkey with rfl | rfl | rfl | rfl <;> rfl

/-- What belongs to another plugin makes no difference to this one, and it does not get it. -/
theorem key_material_of_two : ∃ j : Instance Store.Tree,
    { withOwnPair with bag := bagOfTwo }.ComesTo .illiterate 1 Store.Tree.empty
        [.call (.start "p1")] (.ok j) ∧
      withOwnPair.ComesTo .illiterate 1 Store.Tree.empty [.call (.start "p1")]
        (.ok j) ∧
      Assoc.get? "./p1.crt" j.setup.equipment.blobs = some [1] ∧
      Assoc.get? "./p2.crt" j.setup.equipment.blobs = none ∧
      Assoc.get? "./p2key.key" j.setup.equipment.blobs = none := by
  have hshared : withOwnPair.SharesProperly := by
    intro names h
    cases h
  obtain ⟨i, hi⟩ : ∃ i : Instance Store.Tree,
      attach withOwnPair .illiterate 1 Store.Tree.empty = .ok i := ⟨_, rfl⟩
  have hcomes : withOwnPair.ComesTo .illiterate 1 Store.Tree.empty
      [.call (.start "p1")] (.ok (i.act (.call (.start "p1")))) :=
    Attachment.comesTo_ok_iff.2 ⟨i, hi, Runs.refl.act _⟩
  obtain ⟨hsame, hholds⟩ := key_material_stays hshared (by decide)
    .illiterate 1 Store.Tree.empty
  obtain ⟨-, -, hruns⟩ := hsame bagOfTwo (by decide) agree_bagOfTwo
  obtain ⟨hblobs, hothers⟩ := hholds _ _ hcomes
  obtain ⟨hcert, hkey⟩ := hothers rfl "p2" (by decide) (by decide)
  exact ⟨_, (hruns _ _).1 hcomes, hcomes, hblobs "./p1.crt", hcert, hkey⟩

end Instance

end PluginKernel
