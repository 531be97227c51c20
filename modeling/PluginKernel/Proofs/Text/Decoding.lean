import PluginKernel.Proofs.Text.ByteOrder

/-!
# Bytes of a text are read back

Each character is spelled by a byte that says how many more there are, and then by as many bytes of
six bits each. Reading puts the bits together again, so the bytes of a text spell the text and
nothing else. Bytes spell no more characters than there are among them that begin one.
-/

namespace PluginKernel.Text

theorem charFrom?_toNat {c : Char} {least n : Nat} (hn : n = c.val.toNat) (h : least ≤ n) :
    charFrom? least n = some c := by
  have hvalid : n.isValidChar := hn ▸ c.valid
  rw [charFrom?, if_pos (by simp [h, hvalid]), hn]
  exact congrArg some (Char.ofNat_toNat c)

theorem toNat_continuation (n : Nat) : (UInt8.ofNat (n % 64 + 128)).toNat = n % 64 + 128 := by
  rw [UInt8.toNat_ofNat']
  omega

/-- A byte that continues a character says so. -/
theorem isContinuation_ofNat (n : Nat) : isContinuation (UInt8.ofNat (n % 64 + 128)) = true := by
  have hlow : (0x80 : UInt8) ≤ UInt8.ofNat (n % 64 + 128) := by
    rw [UInt8.le_iff_toNat_le, toNat_continuation]
    exact Nat.le_add_left 128 _
  have hhigh : UInt8.ofNat (n % 64 + 128) < (0xC0 : UInt8) := by
    rw [UInt8.lt_iff_toNat_lt, toNat_continuation]
    show n % 64 + 128 < 192
    omega
  rw [isContinuation, decide_eq_true hlow, decide_eq_true hhigh, Bool.and_true]

/-- A byte that continues a character carries six bits. -/
theorem payload_ofNat (n : Nat) : payload (UInt8.ofNat (n % 64 + 128)) = n % 64 := by
  rw [payload, toNat_continuation]
  omega

/-- A character is read back, whatever follows it. -/
theorem takeChar?_utf8EncodeChar (c : Char) (rest : Bytes) :
    takeChar? (String.utf8EncodeChar c ++ rest) = some (c, rest) := by
  have hbound : c.val.toNat < 0x110000 := by
    rcases c.valid with hc | ⟨-, hc⟩
    · exact Nat.lt_trans hc (by decide)
    · exact hc
  have hlt (n : Nat) (b : UInt8) : UInt8.ofNat n < b ↔ n % 256 < b.toNat := by
    rw [UInt8.lt_iff_toNat_lt, UInt8.toNat_ofNat']
  have hlead (n : Nat) (hn : n < 256) : (UInt8.ofNat n).toNat = n := by
    rw [UInt8.toNat_ofNat']
    exact Nat.mod_eq_of_lt hn
  unfold String.utf8EncodeChar
  generalize hv : c.val.toNat = v at hbound
  dsimp only
  split_ifs with h1 h2 h3
  · simp only [List.cons_append, List.nil_append, takeChar?, hlt, UInt8.reduceToNat]
    rw [if_pos (show v % 256 < 128 by omega), hlead v (by omega), ← hv]
    exact congrArg (fun d => some (d, rest)) (Char.ofNat_toNat c)
  · simp only [List.cons_append, List.nil_append, takeChar?, hlt, UInt8.reduceToNat,
      isContinuation_ofNat, payload_ofNat, if_true]
    rw [if_neg (show ¬(v / 64 % 32 + 192) % 256 < 128 by omega),
      if_neg (show ¬(v / 64 % 32 + 192) % 256 < 192 by omega),
      if_pos (show (v / 64 % 32 + 192) % 256 < 224 by omega), hlead _ (by omega),
      charFrom?_toNat (c := c) (by omega) (by omega)]
    rfl
  · simp only [List.cons_append, List.nil_append, takeChar?, hlt, UInt8.reduceToNat,
      isContinuation_ofNat, payload_ofNat, Bool.and_true, if_true]
    rw [if_neg (show ¬(v / 4096 % 16 + 224) % 256 < 128 by omega),
      if_neg (show ¬(v / 4096 % 16 + 224) % 256 < 192 by omega),
      if_neg (show ¬(v / 4096 % 16 + 224) % 256 < 224 by omega),
      if_pos (show (v / 4096 % 16 + 224) % 256 < 240 by omega), hlead _ (by omega),
      charFrom?_toNat (c := c) (by omega) (by omega)]
    rfl
  · simp only [List.cons_append, List.nil_append, takeChar?, hlt, UInt8.reduceToNat,
      isContinuation_ofNat, payload_ofNat, Bool.and_true, if_true]
    rw [if_neg (show ¬(v / 262144 % 8 + 240) % 256 < 128 by omega),
      if_neg (show ¬(v / 262144 % 8 + 240) % 256 < 192 by omega),
      if_neg (show ¬(v / 262144 % 8 + 240) % 256 < 224 by omega),
      if_neg (show ¬(v / 262144 % 8 + 240) % 256 < 240 by omega),
      if_pos (show (v / 262144 % 8 + 240) % 256 < 248 by omega), hlead _ (by omega),
      charFrom?_toNat (c := c) (by omega) (by omega)]
    rfl

theorem ofUtf8?_of_takeChar? {bytes rest : Bytes} {c : Char}
    (h : takeChar? bytes = some (c, rest)) : ofUtf8? bytes = (ofUtf8? rest).map (c :: ·) := by
  cases bytes with
  | nil => cases h
  | cons b bs =>
    rw [ofUtf8?, List.isEmpty_cons, if_neg Bool.false_ne_true]
    split
    next hnone =>
      rw [h] at hnone
      cases hnone
    next hsome =>
      rw [h] at hsome
      cases hsome
      rfl

/-- The bytes of a text spell it. -/
theorem ofUtf8?_utf8 (s : String) : ofUtf8? (utf8 s) = some s.toList := by
  rw [utf8_eq_flatMap]
  induction s.toList with
  | nil =>
    rw [List.flatMap_nil, ofUtf8?]
    rfl
  | cons c cs ih =>
    rw [List.flatMap_cons, ofUtf8?_of_takeChar? (takeChar?_utf8EncodeChar c _), ih]
    rfl

/-! ## Counting characters -/

/-- How many bytes begin a character. -/
def leads (bytes : Bytes) : Nat := bytes.countP (!isContinuation ·)

theorem leads_append (a b : Bytes) : leads (a ++ b) = leads a + leads b := List.countP_append

theorem leads_cons_le (b : UInt8) (bytes : Bytes) : leads (b :: bytes) ≤ leads bytes + 1 := by
  rw [leads, List.countP_cons]
  split
  · exact Nat.le_refl _
  · exact Nat.le_succ _

/-- Of the bytes of a character only the first begins one. -/
theorem leads_utf8EncodeChar_le (c : Char) : leads (String.utf8EncodeChar c) ≤ 1 := by
  have hnot (n : Nat) (rest : Bytes) :
      leads (UInt8.ofNat (n % 64 + 128) :: rest) = leads rest := by
    rw [leads, List.countP_cons, isContinuation_ofNat]
    rfl
  have hnil : leads [] = 0 := rfl
  unfold String.utf8EncodeChar
  dsimp only
  split_ifs <;> refine (leads_cons_le _ _).trans ?_ <;>
    simp only [hnot, hnil, Nat.zero_add, Nat.le_refl]

/-- A character takes up a byte that begins one. -/
theorem leads_lt_of_takeChar? {bytes rest : Bytes} {c : Char}
    (h : takeChar? bytes = some (c, rest)) : leads rest < leads bytes := by
  cases bytes with
  | nil => cases h
  | cons b bs =>
    unfold takeChar? at h
    dsimp only at h
    have hfirst : isContinuation b = false := by
      by_contra hb
      rw [Bool.not_eq_false, isContinuation, Bool.and_eq_true, decide_eq_true_eq,
        decide_eq_true_eq] at hb
      rw [if_neg (UInt8.not_lt.2 hb.1), if_pos hb.2] at h
      cases h
    have hsuffix : rest <:+ bs := by
      repeat' split at h
      all_goals first
        | (cases h; done)
        | (cases h
           exact List.suffix_rfl)
        | (obtain ⟨d, -, hpair⟩ := Option.map_eq_some_iff.1 h
           cases hpair
           simp [List.suffix_cons_iff])
    have hle : leads rest ≤ leads bs := hsuffix.sublist.countP_le
    have hcons : leads (b :: bs) = leads bs + 1 := by simp [leads, hfirst]
    omega

/-- Bytes spell no more characters than begin among them. -/
theorem length_le_leads {bytes : Bytes} {cs : List Char} (h : ofUtf8? bytes = some cs) :
    cs.length ≤ leads bytes := by
  induction cs generalizing bytes with
  | nil => exact Nat.zero_le _
  | cons c cs ih =>
    rw [ofUtf8?] at h
    split at h
    · cases h
    · split at h
      · cases h
      next d rest htake =>
        obtain ⟨ds, hrest, heq⟩ := Option.map_eq_some_iff.1 h
        cases heq
        exact Nat.lt_of_le_of_lt (ih hrest) (leads_lt_of_takeChar? htake)

end PluginKernel.Text
