import PluginKernel.Json.Decode
import PluginKernel.Proofs.FirstError

/-!
# Decoding the members of an object

Each way in which a member is decoded, and when it succeeds: all members pass a check, a member must
be there and be a text, or a member may be missing.
-/

namespace PluginKernel.Json

theorem asText_eq_ok_iff {v : Json} {text : String} : v.asText = .ok text ↔ v = .str text := by
  cases v <;> simp [asText]

/-- All members pass if nothing is wrong with any of them. -/
theorem checkMembers_eq_ok_iff {check : String → Json → Except DecodeError Unit}
    {members : Assoc Json} {u : Unit} :
    checkMembers check members = .ok u ↔ ∀ p ∈ members, check p.1 p.2 = .ok () := by
  induction members with
  | nil => simp [checkMembers, pure, Except.pure]
  | cons p rest ih =>
    have hcons : checkMembers check (p :: rest) = check p.1 p.2 >>= fun _ =>
      checkMembers check rest := rfl
    rw [hcons, bind_eq_ok_iff, List.forall_mem_cons, ← ih]
    exact ⟨fun ⟨_, hfirst, hrest⟩ => ⟨hfirst, hrest⟩, fun ⟨hfirst, hrest⟩ => ⟨(), hfirst, hrest⟩⟩

theorem requiredText_eq_ok_iff {name text : String} {members : Assoc Json} :
    requiredText name members = .ok text ↔ Assoc.get? name members = some (.str text) := by
  unfold requiredText
  split
  next v hv => rw [hv, asText_eq_ok_iff, Option.some.injEq]
  next hnone => simp [hnone]

/-- A member that may be missing decodes as its default if it is. -/
theorem optional_eq_ok_iff {α : Type} {decode : Json → Except DecodeError α} {default a : α}
    {name : String} {members : Assoc Json} :
    optional decode default name members = .ok a ↔
      (Assoc.get? name members = none ∧ default = a) ∨
        ∃ v, Assoc.get? name members = some v ∧ decode v = .ok a := by
  unfold optional
  cases Assoc.get? name members <;> simp

end PluginKernel.Json
