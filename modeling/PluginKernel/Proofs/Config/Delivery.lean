import PluginKernel.Config.Source
import PluginKernel.Proofs.Json.Members
import PluginKernel.Proofs.SortedMaps
import PluginKernel.Proofs.Text.WholeNumbers

/-!
# A configuration survives delivery

A configuration that is handed over as a value is decoded as it was: the port in the same form, the
same host, and all other members untouched. What is decoded of any value can be handed over again,
and nothing of the value is lost but that a port which is null is as good as none.
-/

namespace PluginKernel

namespace PortSetting

theorem decode_encode (port : PortSetting) : decode port.encode = .ok port := by
  cases port with
  | number n =>
    rw [encode, decode, Text.toInt64?_eq_some_iff.2 rfl]
  | text s => rfl

end PortSetting

namespace SharedConfig

variable {members : Assoc Json} {config : SharedConfig}

theorem decodePort_encode (port : PortSetting) : decodePort port.encode = .ok (some port) := by
  have hpresent : decodePort port.encode = (PortSetting.decode port.encode).map some := by
    cases port <;> rfl
  rw [hpresent, port.decode_encode]
  rfl

/-! ## What a configuration takes from its members -/

/-- What the members of a value say about a configuration. -/
structure DecodedFrom (members : Assoc Json) (config : SharedConfig) : Prop where
  port : (Assoc.get? portMember members = none ∧ config.port = none) ∨
    ∃ v, Assoc.get? portMember members = some v ∧ decodePort v = .ok config.port
  host : (Assoc.get? hostMember members = none ∧ config.host = usualHost) ∨
    Assoc.get? hostMember members = some (.str config.host)
  extra : config.extra = members.filter fun p => isExtra p.1

theorem checkMember_eq_ok_iff {name : String} {v : Json} : checkMember name v = .ok () ↔
    (name = hostMember → ∃ host, v = .str host) ∧
      (name = portMember → ∃ port, decodePort v = .ok port) := by
  have hne : hostMember ≠ portMember := by decide
  unfold checkMember
  split
  next hhost =>
    subst hhost
    cases v <;> simp [Json.asText, Except.map, hne]
  next hhost =>
    split
    next hport => cases decodePort v <;> simp [Except.map, hport, hne.symm]
    next hport => simp [hhost, hport]

/-- In a map no member is hidden behind another of its name, so only the two that are known can be
wrong. -/
theorem ofMembers_eq_ok_iff (hmap : Assoc.Sorted members) :
    ofMembers members = .ok config ↔ DecodedFrom members config := by
  simp only [ofMembers, bind_eq_ok_iff, Json.checkMembers_eq_ok_iff, checkMember_eq_ok_iff,
    Json.optional_eq_ok_iff, Json.asText_eq_ok_iff, pure, Except.pure, Except.ok.injEq]
  constructor
  · rintro ⟨-, -, port, hport, host, hhost, rfl⟩
    refine ⟨hport.imp_left fun ⟨hnone, hdefault⟩ => ⟨hnone, hdefault.symm⟩, ?_, rfl⟩
    rcases hhost with ⟨hnone, hdefault⟩ | ⟨v, hv, rfl⟩
    · exact .inl ⟨hnone, hdefault.symm⟩
    · exact .inr hv
  · rintro ⟨hport, hhost, hextra⟩
    refine ⟨(), fun p hp => ⟨fun hname => ?_, fun hname => ?_⟩, config.port,
      hport.imp_left fun ⟨hnone, hdefault⟩ => ⟨hnone, hdefault.symm⟩, config.host, ?_, ?_⟩
    · have hfound : Assoc.get? hostMember members = some p.2 :=
        hmap.get?_eq_some_iff.2 (hname ▸ hp)
      rcases hhost with ⟨hnone, -⟩ | hsome
      · rw [hnone] at hfound
        cases hfound
      · rw [hsome, Option.some.injEq] at hfound
        exact ⟨_, hfound.symm⟩
    · have hfound : Assoc.get? portMember members = some p.2 :=
        hmap.get?_eq_some_iff.2 (hname ▸ hp)
      rcases hport with ⟨hnone, -⟩ | ⟨v, hsome, hdecodes⟩
      · rw [hnone] at hfound
        cases hfound
      · rw [hsome, Option.some.injEq] at hfound
        exact ⟨_, hfound ▸ hdecodes⟩
    · exact hhost.imp (fun ⟨hnone, hdefault⟩ => ⟨hnone, hdefault.symm⟩) fun hsome => ⟨_, hsome, rfl⟩
    · rw [← hextra]

/-! ## What a configuration is handed over as -/

/-- The other members of a configuration are a map in which neither of the known ones is. -/
structure IsDeliverable (config : SharedConfig) : Prop where
  extra : Assoc.Sorted config.extra
  port : Assoc.get? portMember config.extra = none
  host : Assoc.get? hostMember config.extra = none

theorem sorted_toMembers (config : SharedConfig) : Assoc.Sorted config.toMembers :=
  Assoc.sorted_nil.foldl_insert _

/-- What is found among the members of a configuration. -/
theorem get?_toMembers (h : config.IsDeliverable) (name : String) :
    Assoc.get? name config.toMembers =
      if name = portMember then config.port.map PortSetting.encode
      else if name = hostMember then some (.str config.host)
      else Assoc.get? name config.extra := by
  let known : Assoc Json := config.port.elim [] fun port => [(portMember, port.encode)]
  have hmembers : config.toMembers = config.extra.foldl (fun m p => Assoc.insert p.1 p.2 m)
      (Assoc.insert hostMember (.str config.host) known) := by
    rw [toMembers, Assoc.ofList, List.foldl_append]
    cases hport : config.port <;> simp [known, hport, Assoc.insert]
  have hknown : Assoc.get? name known =
      if name = portMember then config.port.map PortSetting.encode else none := by
    cases hport : config.port <;> simp [known, hport, Assoc.get?, eq_comm]
  have hne : hostMember ≠ portMember := by decide
  rw [hmembers, h.extra.get?_foldl_insert, Assoc.get?_insert, hknown]
  by_cases hport : name = portMember
  · rw [hport, h.port, if_neg hne, if_pos rfl, if_pos rfl, Option.none_or]
  · by_cases hhost : name = hostMember
    · rw [hhost, h.host, if_pos rfl, if_neg hne, if_pos rfl, Option.none_or]
    · rw [if_neg (Ne.symm hhost), if_neg hport, if_neg hport, if_neg hhost, Option.or_none]

theorem isExtra_iff {name : String} :
    isExtra name = true ↔ name ≠ hostMember ∧ name ≠ portMember := by
  rw [isExtra, Bool.and_eq_true, bne_iff_ne, bne_iff_ne]

/-- A configuration is what its members say. -/
theorem decodedFrom_toMembers (h : config.IsDeliverable) :
    DecodedFrom config.toMembers config := by
  have hne : hostMember ≠ portMember := by decide
  refine ⟨?_, .inr ?_, h.extra.ext ((sorted_toMembers config).filter _) fun name => ?_⟩
  · rw [get?_toMembers h, if_pos rfl]
    cases hport : config.port with
    | none => exact .inl ⟨rfl, rfl⟩
    | some port => exact .inr ⟨_, rfl, decodePort_encode port⟩
  · rw [get?_toMembers h, if_neg hne, if_pos rfl]
  · by_cases hextra : isExtra name = true
    · obtain ⟨hhost, hport⟩ := isExtra_iff.1 hextra
      rw [Assoc.get?_filter fun _ => hextra, get?_toMembers h, if_neg hport, if_neg hhost]
    · -- a known member is neither among the others nor kept with them
      have hkept : name ∉ Assoc.keys (config.toMembers.filter fun p => isExtra p.1) := by
        intro hmem
        obtain ⟨p, hp, rfl⟩ := List.mem_map.1 hmem
        exact hextra (List.mem_filter.1 hp).2
      rw [Assoc.get?_eq_none_iff.2 hkept]
      rw [isExtra_iff, not_and_or, not_not, not_not] at hextra
      rcases hextra with rfl | rfl
      · exact h.host
      · exact h.port

/-- What is decoded of a value can be handed over. -/
theorem DecodedFrom.isDeliverable (h : DecodedFrom members config) (hmap : Assoc.Sorted members) :
    config.IsDeliverable := by
  have hknown : ∀ name, isExtra name = false →
      Assoc.get? name (members.filter fun p => isExtra p.1) = none := by
    intro name hname
    refine Assoc.get?_eq_none_iff.2 fun hmem => ?_
    obtain ⟨p, hp, rfl⟩ := List.mem_map.1 hmem
    rw [(List.mem_filter.1 hp).2] at hname
    cases hname
  refine ⟨?_, ?_, ?_⟩ <;> rw [h.extra]
  · exact hmap.filter _
  · exact hknown portMember (by decide)
  · exact hknown hostMember (by decide)

end SharedConfig

namespace ConfigSource

open SharedConfig

variable {describe : Text.Bytes → String}

theorem resolve_members_eq_ok_iff {members : Assoc Json} {config : SharedConfig} :
    (ConfigSource.members members).resolve describe = .ok config ↔ ofMembers members = .ok config :=
  mapError_eq_ok_iff

theorem resolve_ofConfig {config : SharedConfig} (h : config.IsDeliverable) :
    (ofConfig config).resolve describe = .ok config :=
  resolve_members_eq_ok_iff.2
    ((ofMembers_eq_ok_iff (sorted_toMembers config)).2 (decodedFrom_toMembers h))

/-- A configuration whose other members form a map without the two known ones is resolved from what
it is handed over as, and comes out as it was. Whatever is resolved from a map of members can be
handed over again and comes out the same; its other members are those of the map without the two
known ones. -/
theorem resolved_as_delivered (describe : Text.Bytes → String) :
    (∀ config : SharedConfig, Assoc.Sorted config.extra →
      Assoc.get? "grpc_server_port" config.extra = none →
      Assoc.get? "grpc_server_host" config.extra = none →
      (ofConfig config).resolve describe = .ok config) ∧
    ∀ (ms : Assoc Json) (config : SharedConfig), Assoc.Sorted ms →
      (ConfigSource.members ms).resolve describe = .ok config →
      (ofConfig config).resolve describe = .ok config ∧
        config.extra = Assoc.erase "grpc_server_host" (Assoc.erase "grpc_server_port" ms) := by
  refine ⟨fun config hextra hport hhost => resolve_ofConfig ⟨hextra, hport, hhost⟩,
    fun ms config hmap hresolve => ?_⟩
  have hdecoded := (ofMembers_eq_ok_iff hmap).1 (resolve_members_eq_ok_iff.1 hresolve)
  refine ⟨resolve_ofConfig (hdecoded.isDeliverable hmap), ?_⟩
  rw [hdecoded.extra, Assoc.erase, Assoc.erase, List.filter_filter]
  rfl

/-- The port is a text that spells a number, the host is empty, and the other members are no
texts. -/
def texted : SharedConfig :=
  ⟨some (.text "8443"), "", [("", .null), ("limits", .obj [("bytes", .int 18446744073709551615)])]⟩

/-- The port is null and there is no host. -/
def unported : Assoc Json :=
  [("grpc_server_port", .null), ("grpc_server_portal", .str "0.0.0.0"), ("zone", .arr [])]

/-- Nothing is said of a document that is refused. -/
def undescribed : Text.Bytes → String := fun _ => ""

theorem resolved_texted_and_unported :
    (ofConfig texted).resolve undescribed = .ok texted ∧
      ∃ config, (ConfigSource.members unported).resolve undescribed = .ok config ∧
        config.port = none ∧ (ofConfig config).resolve undescribed = .ok config ∧
        config.extra = [("grpc_server_portal", .str "0.0.0.0"), ("zone", .arr [])] := by
  obtain ⟨hgiven, hmap⟩ := resolved_as_delivered undescribed
  refine ⟨hgiven texted (by decide) rfl rfl, ⟨none, "0.0.0.0", _⟩, rfl, rfl, ?_⟩
  obtain ⟨hagain, hextra⟩ := hmap unported _ (by decide) rfl
  exact ⟨hagain, hextra⟩

end ConfigSource

end PluginKernel
