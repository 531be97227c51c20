import PluginKernel.Instance.Handover
import PluginKernel.Proofs.FirstError
import PluginKernel.Proofs.SortedMaps

/-!
# No end gets lost, and none is kept twice

An end that is handed over is kept or let go, whatever happens on the way: what is kept and what is
let go make up all that was there. That is shown for the channels, from which ends are taken one
after the other, and from there for the bag that the channels are in.

Taking an end out of its place does not touch the other places, so what is kept can be found by
looking into the channels as they were handed over: `outcome_takeEach` and `queues_ofChannels` say
so of the ends that are moved and of the queues that a plugin remembers.
-/

namespace PluginKernel

open scoped List

/-- What is kept does not depend on what an error is called. -/
theorem Handover.kept_mapError {ε δ : Type} (f : ε → δ) (h : Handover ε) (ends : List ChannelEnd) :
    Handover.kept ⟨h.outcome.mapError f, ends⟩ = h.kept := by
  unfold Handover.kept
  cases h.outcome <;> rfl

/-! ## Channels -/

/-- Two places are not the same. -/
def ChannelPlace.Apart (place other : ChannelPlace) : Prop :=
  place.direction = other.direction → place.purpose ≠ other.purpose

namespace Channels

/-- Channels as they are put together: there is one group of ends for each direction, and one end
for each purpose. -/
structure Sorted (channels : Channels) : Prop where
  directions : Assoc.Sorted channels
  purposes : ∀ group ∈ channels, Assoc.Sorted group.2

/-- The end in a place. -/
def endAt? (channels : Channels) (place : ChannelPlace) : Option ChannelEnd :=
  (Assoc.get? place.direction channels).bind (Assoc.get? place.purpose)

/-- The end in a place, if it is of the right kind. -/
def find (channels : Channels) (place : ChannelPlace) : Except ChannelFault ChannelEnd :=
  match Assoc.get? place.direction channels with
  | none => .error (.noDirection place.direction)
  | some group =>
    match Assoc.get? place.purpose group with
    | none => .error (.noEnd place)
    | some e => if e.kind = place.kind then .ok e else .error (.wrongKind place e.kind)

variable {channels : Channels} {place other : ChannelPlace} {e : ChannelEnd}

theorem find_eq_ok_iff : channels.find place = .ok e ↔
    channels.endAt? place = some e ∧ e.kind = place.kind := by
  unfold find endAt?
  cases Assoc.get? place.direction channels with
  | none => simp
  | some group =>
    simp only [Option.bind_some]
    cases Assoc.get? place.purpose group with
    | none => simp
    | some e' =>
      simp only [Option.some.injEq]
      by_cases hkind : e'.kind = place.kind
      · rw [if_pos hkind, Except.ok.injEq]
        exact ⟨fun h => ⟨h, h ▸ hkind⟩, And.left⟩
      · rw [if_neg hkind]
        exact ⟨fun h => (nomatch h), fun ⟨h, hkind'⟩ => absurd (h ▸ hkind') hkind⟩

/-- What a plugin remembers of a place is the queue of the end that is found there. -/
theorem take_eq_find (channels : Channels) (place : ChannelPlace) :
    HeldEnds.take channels place = (channels.find place).map ChannelEnd.queue := by
  unfold HeldEnds.take find
  cases Assoc.get? place.direction channels with
  | none => rfl
  | some group =>
    simp only
    cases Assoc.get? place.purpose group with
    | none => rfl
    | some e =>
      simp only
      split <;> rfl

/-- The queues that a plugin remembers are those of the ends in the six places. -/
theorem queues_ofChannels (channels : Channels) :
    (HeldEnds.ofChannels channels).map HeldEnds.queues =
      (ChannelPlace.all.mapM channels.find).map (·.map ChannelEnd.queue) := by
  unfold HeldEnds.ofChannels
  simp only [take_eq_find, ChannelPlace.all, mapM_cons_except]
  -- both sides stop at the first place where nothing is found
  rcases channels.find .commandIn with f | commandIn
  · rfl
  rcases channels.find .chatIn with f | chatIn
  · rfl
  rcases channels.find .commandOut with f | commandOut
  · rfl
  rcases channels.find .chatOut with f | chatOut
  · rfl
  rcases channels.find .dataflowOut with f | dataflowOut
  · rfl
  rcases channels.find .errorOut with f | errorOut
  · rfl
  rfl

theorem Sorted.put (h : channels.Sorted) (direction purpose : String) (e : ChannelEnd) :
    (channels.put direction purpose e).Sorted := by
  refine ⟨h.directions.insert _ _, fun group hgroup => ?_⟩
  rcases Assoc.mem_insert hgroup with rfl | hgroup
  · refine Assoc.Sorted.insert ?_ purpose e
    cases hget : Assoc.get? direction channels with
    | none => exact Assoc.sorted_nil
    | some group => exact h.purposes _ (Assoc.mem_of_get? hget)
  · exact h.purposes group hgroup

/-- The six ends that a host makes are put together properly. -/
theorem sorted_all : all.Sorted := ⟨by decide +kernel, by decide +kernel⟩

/-! ### Taking an end out of its place -/

theorem take_of_get? {group : Assoc ChannelEnd}
    (h : Assoc.get? place.direction channels = some group) :
    channels.take place.direction place.purpose =
      (Assoc.get? place.purpose group,
        Assoc.insert place.direction (Assoc.erase place.purpose group) channels) := by
  rw [take, h]

/-- Once an end has been taken out of a place, what is in another place is still found there. -/
theorem find_take (h : place.Apart other) :
    (channels.take place.direction place.purpose).2.find other = channels.find other := by
  cases hgroup : Assoc.get? place.direction channels with
  | none => rw [take, hgroup]
  | some group =>
    rw [take_of_get? hgroup, find, find, Assoc.get?_insert]
    by_cases hdirection : place.direction = other.direction
    · have hpurpose : place.purpose ≠ other.purpose := h hdirection
      rw [if_pos hdirection, ← hdirection, hgroup]
      simp only [Assoc.get?_erase, if_neg hpurpose]
    · rw [if_neg hdirection]

theorem Sorted.take (h : channels.Sorted) (direction purpose : String) :
    (channels.take direction purpose).2.Sorted := by
  unfold Channels.take
  cases hgroup : Assoc.get? direction channels with
  | none => exact h
  | some group =>
    refine ⟨h.directions.insert _ _, fun g hg => ?_⟩
    rcases Assoc.mem_insert hg with rfl | hg
    · exact (h.purposes _ (Assoc.mem_of_get? hgroup)).erase purpose
    · exact h.purposes g hg

/-- To take an end out of its place moves just this end. -/
theorem Sorted.perm_take (h : channels.Sorted) (direction purpose : String) :
    channels.ends.Perm ((channels.take direction purpose).1.toList ++
      (channels.take direction purpose).2.ends) := by
  unfold Channels.take
  cases hgroup : Assoc.get? direction channels with
  | none => exact .refl _
  | some group =>
    have hsorted : Assoc.Sorted group := h.purposes _ (Assoc.mem_of_get? hgroup)
    have hbefore := (h.directions.perm_erase hgroup).flatMap_right fun g => g.2.map (·.2)
    have hafter := (h.directions.perm_insert direction (Assoc.erase purpose group)).flatMap_right
      fun g => g.2.map (·.2)
    have hmoved : (group.map (·.2)).Perm
        ((Assoc.get? purpose group).toList ++ (Assoc.erase purpose group).map (·.2)) := by
      cases hend : Assoc.get? purpose group with
      | none =>
        rw [Assoc.erase_of_notMem (Assoc.get?_eq_none_iff.1 hend)]
        exact .refl _
      | some e => exact (hsorted.perm_erase hend).map _
    rw [List.flatMap_cons] at hbefore hafter
    calc channels.ends
      _ ~ group.map (·.2) ++ Channels.ends (Assoc.erase direction channels) := hbefore
      _ ~ (Assoc.get? purpose group).toList ++ ((Assoc.erase purpose group).map (·.2) ++
            Channels.ends (Assoc.erase direction channels)) := by
          rw [← List.append_assoc]
          exact hmoved.append_right _
      _ ~ _ := hafter.symm.append_left _

/-! ### Taking ends out of places, one after the other -/

/-- What is kept and what is let go make up what had been taken before and what was there. -/
theorem Sorted.perm_takeEach (h : channels.Sorted) (taken : List ChannelEnd)
    (places : List ChannelPlace) :
    (channels.takeEach taken places).kept ++ (channels.takeEach taken places).released ~
      taken ++ channels.ends := by
  -- an end that is moved goes from the channels to what has been taken, so both vary
  induction places generalizing channels taken with
  | nil => exact .refl _
  | cons place rest ih =>
    have hrest := h.take place.direction place.purpose
    have hmoved := h.perm_take place.direction place.purpose
    rw [takeEach]
    split
    · exact .refl _
    split
    next rest' htake =>
      rw [htake] at hmoved
      exact hmoved.symm.append_left taken
    next e rest' htake =>
      rw [htake] at hmoved hrest
      split
      · refine (ih hrest (taken ++ [e])).trans ?_
        rw [List.append_assoc]
        exact hmoved.symm.append_left taken
      · exact hmoved.symm.append_left taken

/-- The ends that are kept are those that are found in the places, and what goes wrong is what is
wrong with the first place that has no end of its kind. -/
theorem outcome_takeEach {original : Channels} {places : List ChannelPlace}
    (hsame : ∀ place ∈ places, channels.find place = original.find place)
    (hapart : places.Pairwise ChannelPlace.Apart) (taken : List ChannelEnd) :
    (channels.takeEach taken places).outcome = (places.mapM original.find).map (taken ++ ·) := by
  -- the channels lose ends on the way; places that are still to come hold what they held at first
  induction places generalizing channels taken with
  | nil => simp [takeEach, Except.map, pure, Except.pure]
  | cons place rest ih =>
    obtain ⟨hplace, hrest⟩ := List.pairwise_cons.1 hapart
    have hfirst : channels.find place = original.find place := hsame place List.mem_cons_self
    have hothers : ∀ other ∈ rest,
        (channels.take place.direction place.purpose).2.find other = original.find other := by
      intro other hother
      rw [find_take (hplace other hother)]
      exact hsame other (List.mem_cons_of_mem _ hother)
    rw [mapM_cons_except, ← hfirst, takeEach, find]
    cases hgroup : Assoc.get? place.direction channels with
    | none => rfl
    | some group =>
      rw [take_of_get? hgroup] at hothers ⊢
      simp only
      cases hend : Assoc.get? place.purpose group with
      | none => rfl
      | some e =>
        simp only
        by_cases hkind : e.kind = place.kind
        · rw [if_pos hkind, if_pos hkind, ih hothers hrest]
          cases rest.mapM original.find <;> simp [bind, Except.bind, Except.map]
        · rw [if_neg hkind, if_neg hkind]
          rfl

end Channels

theorem ChannelPlace.pairwise_apart_all : ChannelPlace.all.Pairwise ChannelPlace.Apart := by
  unfold ChannelPlace.Apart
  decide

/-! ## Bags -/

namespace Bag

/-- A bag as it is put together: there is one value for each name, and its channels are put together
likewise. -/
structure Sorted (bag : Bag) : Prop where
  entries : Assoc.Sorted bag
  channels : ∀ key channels, (key, BagItem.channels channels) ∈ bag → channels.Sorted

variable {bag : Bag} {names : CredentialNames} {key : String}

theorem sorted_nil : Sorted [] := ⟨Assoc.sorted_nil, by simp⟩

theorem Sorted.insert (h : bag.Sorted) (key : String) {item : BagItem}
    (hitem : ∀ channels, item = .channels channels → channels.Sorted) :
    Sorted (Assoc.insert key item bag) where
  entries := h.entries.insert key item
  channels k channels hmem := by
    rcases Assoc.mem_insert hmem with heq | hmem
    · exact hitem channels (Prod.mk.inj heq).2.symm
    · exact h.channels k channels hmem

theorem Sorted.filter (h : bag.Sorted) (keep : String × BagItem → Bool) :
    Sorted (bag.filter keep) where
  entries := h.entries.filter keep
  channels key channels hmem := h.channels key channels (List.mem_filter.1 hmem).1

theorem Sorted.take (h : bag.Sorted) (key : String) : (bag.take key).2.Sorted := h.filter _

/-- To take a value out of a bag moves just the ends in this value. -/
theorem Sorted.perm_take (h : bag.Sorted) (key : String) :
    bag.ends ~ (bag.take key).1.toList.flatMap BagItem.ends ++ (bag.take key).2.ends := by
  unfold Bag.take
  cases hget : Assoc.get? key bag with
  | none =>
    rw [Assoc.erase_of_notMem (Assoc.get?_eq_none_iff.1 hget)]
    exact .refl _
  | some item =>
    have hmoved := (h.entries.perm_erase hget).flatMap_right fun entry => entry.2.ends
    rw [List.flatMap_cons] at hmoved
    rw [Option.toList_some, List.flatMap_singleton]
    exact hmoved

/-- There are no ends in blobs. -/
theorem ends_extractBlobs (bag : Bag) (keep : String → Bool) :
    (bag.extractBlobs keep).2.ends = bag.ends := by
  show ends (bag.filter fun entry => (blob? keep entry).isNone) = bag.ends
  induction bag with
  | nil => rfl
  | cons entry rest ih =>
    rw [List.filter_cons]
    split
    · rw [ends, List.flatMap_cons, ← ends, ih]
      rfl
    next hblob =>
      have hends : entry.2.ends = [] := by
        obtain ⟨key, item⟩ := entry
        cases item with
        | bytes bytes => rfl
        | _ => exact absurd rfl hblob
      rw [ih, ends, ends, List.flatMap_cons, hends, List.nil_append]

/-- A configuration that can be used holds no ends. -/
theorem ends_of_sourceOf {source : ConfigSource} (h : Equipment.sourceOf bag = .ok source) :
    (Assoc.get? SharedConfig.path bag).toList.flatMap BagItem.ends = [] := by
  unfold Equipment.sourceOf at h
  split at h
  next hget => rw [hget]; rfl
  next hget => rw [hget]; rfl
  · cases h
  · cases h

theorem Sorted.perm_wire (h : bag.Sorted) : bag.wire.kept ++ bag.wire.released ~ bag.ends := by
  rw [wire]
  split
  · exact .refl _
  next source hsource =>
    have hconfig : bag.ends ~ (bag.take SharedConfig.path).2.ends := by
      have hmoved := h.perm_take SharedConfig.path
      rwa [show (bag.take SharedConfig.path).1.toList.flatMap BagItem.ends = [] from
        ends_of_sourceOf hsource, List.nil_append] at hmoved
    have hrest : (bag.take SharedConfig.path).2.Sorted := h.take _
    have hmoved := hrest.perm_take channelsEntry
    refine List.Perm.trans ?_ hconfig.symm
    simp only
    split
    next rest htake =>
      rw [htake] at hmoved
      exact hmoved.symm
    next channels rest htake =>
      have hget : Assoc.get? channelsEntry (bag.take SharedConfig.path).2 =
          some (.channels channels) := congrArg Prod.fst htake
      have hchannels : channels.Sorted := hrest.channels _ _ (Assoc.mem_of_get? hget)
      have hwired : (channels.takeEach [] ChannelPlace.all).kept ++
          (channels.takeEach [] ChannelPlace.all).released ~ channels.ends :=
        hchannels.perm_takeEach [] ChannelPlace.all
      rw [htake, Option.toList_some, List.flatMap_singleton] at hmoved
      rw [Handover.kept_mapError, ← List.append_assoc]
      exact (hwired.append_right _).trans hmoved.symm
    next other rest hother htake =>
      rw [htake, Option.toList_some, List.flatMap_singleton] at hmoved
      exact hmoved.symm

/-- What is kept and what is let go make up all that was in the bag. -/
theorem Sorted.perm_handOver (h : bag.Sorted) (names : CredentialNames) :
    (bag.handOver names).kept ++ (bag.handOver names).released ~ bag.ends := by
  -- one bag for each value that is taken out
  let b₁ := (bag.take idEntry).2
  let b₂ := (b₁.take loggerEntry).2
  let b₃ := (b₂.extractBlobs names.includes).2
  have h₁ : b₁.Sorted := h.take idEntry
  have h₂ : b₂.Sorted := h₁.take loggerEntry
  have h₃ : b₃.Sorted := h₂.filter _
  have e₁ : bag.ends ~ _ ++ b₁.ends := h.perm_take idEntry
  have e₂ : b₁.ends ~ _ ++ b₂.ends := h₁.perm_take loggerEntry
  have e₃ : b₃.ends = b₂.ends := ends_extractBlobs b₂ names.includes
  have e₄ : b₃.wire.kept ++ b₃.wire.released ~ b₂.ends := e₃ ▸ h₃.perm_wire
  show b₃.wire.kept ++ (((bag.take idEntry).1.toList ++ (b₁.take loggerEntry).1.toList).flatMap
    BagItem.ends ++ b₃.wire.released) ~ bag.ends
  rw [List.perm_iff_count] at e₁ e₂ e₄ ⊢
  intro x
  have c₁ := e₁ x
  have c₂ := e₂ x
  have c₄ := e₄ x
  simp only [List.flatMap_append, List.count_append] at c₁ c₂ c₄ ⊢
  omega

end Bag

/-- Every end that a host hands over is kept or let go. -/
theorem Attachment.perm_handOver {a : Attachment} (h : a.bag.Sorted) :
    a.handOver.kept ++ a.handOver.released ~ a.bag.ends := by
  rw [handOver]
  split
  · exact .refl _
  split
  · exact .refl _
  · exact h.perm_handOver a.names

end PluginKernel
