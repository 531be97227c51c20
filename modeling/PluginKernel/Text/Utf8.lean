import PluginKernel.Text.Hex

/-!
# UTF-8

Texts as bytes. Decoding takes the shortest form of each character only, and no surrogates.
-/

namespace PluginKernel.Text

/-- The bytes of a text. -/
def utf8 (s : String) : Bytes := s.toUTF8.toList

/-- Whether a byte continues a character. -/
def isContinuation (b : UInt8) : Bool := 0x80 ≤ b && b < 0xC0

/-- The low six bits of a byte that continues a character. -/
def payload (b : UInt8) : Nat := b.toNat % 64

/-- The character with a code point of at least `least`, if the code point is a character. -/
def charFrom? (least n : Nat) : Option Char :=
  if least ≤ n && n.isValidChar then some (Char.ofNat n) else none

/-- The character that the front of some bytes spells, and what follows it. -/
def takeChar? : Bytes → Option (Char × Bytes)
  | [] => none
  | a :: rest =>
    if a < 0x80 then some (Char.ofNat a.toNat, rest)
    else if a < 0xC0 then none
    else if a < 0xE0 then
      match rest with
      | b :: rest =>
        if isContinuation b then
          (charFrom? 0x80 (64 * (a.toNat - 0xC0) + payload b)).map (·, rest)
        else none
      | _ => none
    else if a < 0xF0 then
      match rest with
      | b :: c :: rest =>
        if isContinuation b && isContinuation c then
          (charFrom? 0x800 (4096 * (a.toNat - 0xE0) + 64 * payload b + payload c)).map (·, rest)
        else none
      | _ => none
    else if a < 0xF8 then
      match rest with
      | b :: c :: d :: rest =>
        if isContinuation b && isContinuation c && isContinuation d then
          (charFrom? 0x10000 (262144 * (a.toNat - 0xF0) + 4096 * payload b + 64 * payload c +
            payload d)).map (·, rest)
        else none
      | _ => none
    else none

/-- A character takes up some of the bytes. -/
theorem takeChar?_length_lt {bytes rest : Bytes} {c : Char}
    (h : takeChar? bytes = some (c, rest)) : rest.length < bytes.length := by
  unfold takeChar? at h
  repeat' split at h
  all_goals first
    | (simp at h; done)
    | (simp only [Option.some.injEq, Prod.mk.injEq] at h
       obtain ⟨-, rfl⟩ := h
       simp only [List.length_cons]
       omega)
    | (simp only [Option.map_eq_some_iff, Prod.mk.injEq] at h
       obtain ⟨_, -, -, rfl⟩ := h
       simp only [List.length_cons]
       omega)

/-- The characters that some bytes spell, if they are UTF-8. -/
def ofUtf8? (bytes : Bytes) : Option (List Char) :=
  if bytes.isEmpty then some []
  else
    match _h : takeChar? bytes with
    | none => none
    | some (c, rest) => (ofUtf8? rest).map (c :: ·)
termination_by bytes.length
decreasing_by exact takeChar?_length_lt _h

end PluginKernel.Text
