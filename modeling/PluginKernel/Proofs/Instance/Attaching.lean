import PluginKernel.Proofs.Instance.Turn
import PluginKernel.Proofs.Plugin.Requirements
import PluginKernel.Store.Tree

/-!
# Attaching is all or nothing

A plugin is attached with everything that it needs, or not at all. If it is, it holds the ends in
the six places and no others. If it is not, it holds none: all ends have been let go, those that had
been moved out of the bag already as well as those that were still in it, and there is no plugin,
neither a task that could run nor anything that could write to the store. `attach_all_or_nothing`
puts together which requirements there are, in what order they count, and what becomes of the ends.
-/

namespace PluginKernel

variable {σ : Type} {a : Attachment}

namespace Attachment

/-- The host leaves the names of the shared certificate and key as they are, or gives names under
which the bag does not hold anything else. -/
def SharesProperly (a : Attachment) : Prop :=
  ∀ names, a.choices.sharedNames = some names →
    names.1 ∉ Bag.reserved ∧ names.2 ∉ Bag.reserved

theorem SharesProperly.includes_reserved (h : a.SharesProperly) :
    ∀ key ∈ Bag.reserved, a.names.includes key = false :=
  fun _ hkey => CredentialNames.includes_reserved h hkey

theorem equipment_eq (h : a.hasExecutor = true) :
    a.equipment = a.checkFile >>= fun _ => a.readBag := by
  rw [equipment, h]
  rfl

/-- Moving the ends out comes to what is found by looking. -/
theorem outcome_handOver (hexecutor : a.hasExecutor = true) (hshared : a.SharesProperly) :
    a.handOver.outcome = a.checkFile >>= fun _ => a.bag.findEnds := by
  rw [handOver, hexecutor]
  cases a.checkFile with
  | error e => rfl
  | ok _ => exact Bag.outcome_handOver hshared.includes_reserved

/-- The queues that a plugin remembers are those of the ends that are kept. -/
theorem queues_equipment (hexecutor : a.hasExecutor = true) (hshared : a.SharesProperly) :
    a.equipment.map (·.ends.queues) = a.handOver.outcome.map (·.map ChannelEnd.queue) := by
  rw [equipment_eq hexecutor, outcome_handOver hexecutor hshared]
  cases a.checkFile with
  | error e => rfl
  | ok _ => exact Equipment.queues_ofBag a.plugin hshared.includes_reserved

end Attachment

namespace Instance

variable {platform : Platform} {capacity : Nat} {store : σ} {i : Instance σ}

theorem equipment_of_attach (h : attach a platform capacity store = .ok i) :
    a.equipment = .ok i.setup.equipment ∧ i.state.store = store := by
  obtain ⟨equipment, he, rfl⟩ := eq_of_attach h
  exact ⟨he, rfl⟩

theorem choices_of_attach (h : attach a platform capacity store = .ok i) :
    i.setup.choices = a.choices := by
  obtain ⟨_, -, rfl⟩ := eq_of_attach h
  rfl

theorem objection?_attach (a : Attachment) (platform : Platform) (capacity : Nat) (store : σ) :
    objection? (attach a platform capacity store) = objection? a.equipment := objection?_map _ _

/-- Attaching is all or nothing. It succeeds if all requirements are met. Then the plugin is one in
which nothing has happened yet, it holds the ends in the six places, and every other end in the bag
has been let go. Otherwise all ends have been let go, and the error is what is wrong with the first
requirement that is not met. It is the same with every store: none is looked at, and there is no
plugin that could write to one. -/
theorem attach_all_or_nothing (hexecutor : a.hasExecutor = true) (hshared : a.SharesProperly)
    (hbag : a.bag.Sorted) (platform : Platform) (capacity : Nat) (store : σ) :
    ((∃ i, attach a platform capacity store = .ok i) ↔ a.Fits) ∧
      (∀ i, attach a platform capacity store = .ok i →
        i.Fresh ∧ i.state.store = store ∧
          ∃ channels kept, Assoc.get? Bag.channelsEntry a.bag = some (.channels channels) ∧
            ChannelPlace.all.map channels.endAt? = kept.map some ∧
            i.setup.equipment.ends.queues = kept.map ChannelEnd.queue ∧
            a.handOver.outcome = .ok kept ∧
            (kept ++ a.handOver.released).Perm a.bag.ends) ∧
      ∀ e, attach a platform capacity store = .error e →
        a.handOver.outcome = .error e ∧ a.handOver.released.Perm a.bag.ends ∧
          (∀ (τ : Type) (other : τ), attach a platform capacity other = .error e) ∧
          ∃ passed r rest, Requirement.all = passed ++ r :: rest ∧
            (∀ q ∈ passed, q.fault? a = none) ∧ r.fault? a = some e := by
  have hqueues := a.queues_equipment hexecutor hshared
  have houtcome := a.outcome_handOver hexecutor hshared
  have hbalance : (a.handOver.kept ++ a.handOver.released).Perm a.bag.ends := a.perm_handOver hbag
  have hobjection :
      objection? (attach a platform capacity store) = objection? a.handOver.outcome := by
    rw [objection?_attach, ← objection?_map (·.ends.queues) a.equipment, hqueues, objection?_map]
  refine ⟨?_, fun i hi => ?_, fun e he => ?_⟩
  · rw [← objection?_eq_none_iff, hobjection, objection?_eq_none_iff, houtcome, a.fits_iff]
  · obtain ⟨hequipment, hstore⟩ := equipment_of_attach hi
    obtain ⟨kept, hkept⟩ : ∃ kept, a.handOver.outcome = .ok kept := by
      rw [← objection?_eq_none_iff, ← hobjection, hi]
      rfl
    rw [hequipment, hkept] at hqueues
    have hqueues : i.setup.equipment.ends.queues = kept.map ChannelEnd.queue := by
      exact Except.ok.inj hqueues
    obtain ⟨_, -, hfound⟩ := bind_eq_ok_iff.1 (houtcome.symm.trans hkept)
    obtain ⟨-, channels, hchannels, hends⟩ := Bag.findEnds_eq_ok_iff.1 hfound
    rw [Handover.kept, hkept] at hbalance
    exact ⟨fresh_of_attach hi, hstore, channels, kept, hchannels,
      Channels.endAt?_of_mapM_find hends, hqueues, hkept, hbalance⟩
  · have hfailed : a.handOver.outcome = .error e := by
      rw [← objection?_eq_some_iff, ← hobjection, he]
      rfl
    rw [Handover.kept, hfailed] at hbalance
    have hfirst : Requirement.all.findSome? (Requirement.fault? a) = some e := by
      rw [Requirement.first_fault, ← houtcome, hfailed]
      rfl
    obtain ⟨passed, r, rest, hall, hr, hpassed⟩ := List.findSome?_eq_some_iff.1 hfirst
    refine ⟨hfailed, hbalance, fun τ other => ?_, passed, r, rest, hall, hpassed, hr⟩
    rw [← objection?_eq_some_iff, objection?_attach,
      ← objection?_attach a platform capacity store, he]
    rfl

/-- An attachment with a configuration and some channels. -/
def offering (channels : Channels) : Attachment where
  plugin := "p1"
  bag := Assoc.insert Bag.channelsEntry (.channels channels)
    (Assoc.insert SharedConfig.path (.members [(SharedConfig.portMember, .int 8443)]) [])

/-- Channels with one end more than a plugin needs. -/
def surplus : Channels := Channels.all.put "out" "audit" ⟨.errorOut, 6⟩

theorem sorted_bag_offering {channels : Channels} (h : channels.Sorted) :
    (offering channels).bag.Sorted := by
  have hconfig : Bag.Sorted
      (Assoc.insert SharedConfig.path (.members [(SharedConfig.portMember, .int 8443)]) []) :=
    Bag.sorted_nil.insert _ fun _ heq => by cases heq
  show Bag.Sorted (Assoc.insert Bag.channelsEntry (.channels channels) _)
  refine hconfig.insert _ fun _ heq => ?_
  cases heq
  exact h

theorem sharesProperly_offering (channels : Channels) : (offering channels).SharesProperly := by
  intro names h
  have hnone : (offering channels).choices.sharedNames = none := rfl
  rw [hnone] at h
  cases h

/-- Of seven ends six are kept. If the one for errors has been taken away beforehand, all others are
let go, though five of them have been moved out by then. -/
theorem attached_with_surplus :
    (∃ (i : Instance Store.Tree) (kept : List ChannelEnd),
      attach (offering surplus) .illiterate 1 .empty = .ok i ∧
        i.setup.equipment.ends.queues = [0, 1, 2, 3, 4, 5] ∧
        (kept ++ (offering surplus).handOver.released).Perm (offering surplus).bag.ends) ∧
      (offering (surplus.take "out" "error").2).handOver.released.Perm
        (offering (surplus.take "out" "error").2).bag.ends := by
  have hsurplus : surplus.Sorted := Channels.sorted_all.put _ _ _
  constructor
  · obtain ⟨i, hi⟩ : ∃ i : Instance Store.Tree,
        attach (offering surplus) .illiterate 1 .empty = .ok i := ⟨_, rfl⟩
    have hqueues : i.setup.equipment.ends.queues = [0, 1, 2, 3, 4, 5] := by
      cases hi
      rfl
    obtain ⟨-, -, channels, kept, -, -, -, -, hbalance⟩ :=
      (attach_all_or_nothing rfl (sharesProperly_offering _) (sorted_bag_offering hsurplus)
        .illiterate 1 Store.Tree.empty).2.1 i hi
    exact ⟨i, kept, hi, hqueues, hbalance⟩
  · obtain ⟨e, he⟩ : ∃ e, attach (offering (surplus.take "out" "error").2)
        .illiterate 1 Store.Tree.empty = .error e := ⟨_, rfl⟩
    exact ((attach_all_or_nothing rfl (sharesProperly_offering _)
      (sorted_bag_offering (hsurplus.take _ _)) _ 1 Store.Tree.empty).2.2 e he).2.1

end Instance

end PluginKernel
