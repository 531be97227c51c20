import Mathlib.Data.String.Basic
import Mathlib.Tactic.SplitIfs
import PluginKernel.Text.Utf8

/-!
# The order of texts is the order of their bytes

Texts are compared by code point wherever the kernel sorts them, and what it sorts is read elsewhere
as bytes. UTF-8 keeps the order: of two different characters neither is spelled by a front of the
other's bytes, and the first byte in which they differ is smaller for the smaller one.
-/

namespace PluginKernel.Text

theorem byteArray_toList_loop (b : ByteArray) (i : Nat) (r : List UInt8) :
    ByteArray.toList.loop b i r = r.reverse ++ b.data.toList.drop i := by
  fun_induction ByteArray.toList.loop b i r with
  | case1 i r h ih =>
    have hi : i < b.data.toList.length := h
    rw [ih, List.drop_eq_getElem_cons hi, List.reverse_cons, List.append_assoc]
    have hget : b.get! i = b.data.toList[i] := by
      simp only [ByteArray.get!]
      rw [getElem!_pos b.data i (by simpa using h)]
      rfl
    rw [hget]
    rfl
  | case2 i r h =>
    have hi : b.data.toList.length ≤ i := Nat.le_of_not_lt h
    rw [List.drop_eq_nil_of_le hi, List.append_nil]

/-- The bytes of a text are those of its characters. -/
theorem utf8_eq_flatMap (s : String) : utf8 s = s.toList.flatMap String.utf8EncodeChar := by
  have hbytes : s.toUTF8.data.toList = s.toList.flatMap String.utf8EncodeChar := by
    rw [String.toUTF8_eq_toByteArray, ← String.utf8Encode_toList, List.utf8Encode,
      List.toList_data_toByteArray]
  rw [utf8, ByteArray.toList, byteArray_toList_loop, List.reverse_nil, List.nil_append,
    List.drop_zero, hbytes]

/-- The bytes of a smaller character come first, whatever follows: the first byte in which two
characters differ decides. -/
theorem utf8EncodeChar_append_lt {c d : Char} (h : c < d) (l m : List UInt8) :
    String.utf8EncodeChar c ++ l < String.utf8EncodeChar d ++ m := by
  have hlt : c.val.toNat < d.val.toNat := h
  have hbound : d.val.toNat < 0x110000 := by
    rcases d.valid with hd | ⟨-, hd⟩
    · exact Nat.lt_trans hd (by decide)
    · exact hd
  unfold String.utf8EncodeChar
  generalize c.val.toNat = v at hlt
  generalize d.val.toNat = w at hlt hbound
  -- Six bits at a time, so that the digits of `v` and `w` in base 64 hang together.
  have hv : v / 64 / 64 = v / 4096 ∧ v / 4096 / 64 = v / 262144 ∧ v / 262144 / 8 = 0 := by
    simp only [Nat.div_div_eq_div_mul, true_and]
    omega
  have hw : w / 64 / 64 = w / 4096 ∧ w / 4096 / 64 = w / 262144 ∧ w / 262144 / 8 = 0 := by
    simp only [Nat.div_div_eq_div_mul, true_and]
    omega
  have htail : ∀ n : Nat, (n % 64 + 128) % 2 ^ 8 = n % 64 + 128 := fun n => by omega
  have hlead : ∀ n : Nat, (n % 32 + 192) % 2 ^ 8 = n % 32 + 192 ∧
      (n % 16 + 224) % 2 ^ 8 = n % 16 + 224 ∧ (n % 8 + 240) % 2 ^ 8 = n % 8 + 240 := by
    intro n
    omega
  dsimp only
  split_ifs <;> first
    | omega
    | simp only [List.cons_append, List.nil_append, List.cons_lt_cons_iff, UInt8.lt_iff_toNat_lt,
        ← UInt8.toNat_inj, UInt8.toNat_ofNat', htail, hlead]
      omega

/-- Texts are in the order of their bytes. -/
theorem utf8_lt_utf8 {s t : String} (h : s < t) : utf8 s < utf8 t := by
  rw [String.lt_iff] at h
  rw [utf8_eq_flatMap, utf8_eq_flatMap]
  generalize s.toList = cs at h
  generalize t.toList = ds at h
  induction cs generalizing ds with
  | nil =>
    cases ds with
    | nil => exact absurd h (List.not_lt_nil _)
    | cons d ds =>
      have hne : String.utf8EncodeChar d ≠ [] := by
        rw [← List.length_pos_iff, String.length_utf8EncodeChar]
        exact d.utf8Size_pos
      obtain ⟨b, bs, hb⟩ := List.exists_cons_of_ne_nil hne
      rw [List.flatMap_nil, List.flatMap_cons, hb, List.cons_append]
      exact List.nil_lt_cons _ _
  | cons c cs ih =>
    cases ds with
    | nil => exact absurd h (List.not_lt_nil _)
    | cons d ds =>
      rw [List.flatMap_cons, List.flatMap_cons]
      rcases List.cons_lt_cons_iff.1 h with hcd | ⟨rfl, hrest⟩
      · exact utf8EncodeChar_append_lt hcd _ _
      · exact List.append_left_lt (ih ds hrest)

end PluginKernel.Text
