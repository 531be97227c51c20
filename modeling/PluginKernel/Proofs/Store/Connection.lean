import PluginKernel.Proofs.FirstError
import PluginKernel.Proofs.Text.Decoding
import PluginKernel.Proofs.Text.Splitting
import PluginKernel.Store.Connection

/-!
# Paths that are taken as they are

The path of a database stands in a connection text between a scheme and parameters. It leads to the
file at it exactly if nothing in it can be taken for a part of what stands around it, for an encoded
byte or for the name of a database without a file. Otherwise the name of the file that the
connection text leads to is another one, because it is shorter: what is taken for a scheme or for
parameters is lost, and an encoded byte stands for less than the three characters that spell it.
-/

namespace PluginKernel.Store.Database

open Text

/-- A text begins with a percent sign and two hexadecimal digits. -/
inductive BeginsEscape : List Char → Prop where
  | intro {h l : Char} {rest : List Char} (hhigh : (hexValue? h).isSome = true)
    (hlow : (hexValue? l).isSome = true) : BeginsEscape ('%' :: h :: l :: rest)

/-- Somewhere in a text there is a percent sign with two hexadecimal digits behind it. -/
def HasEscape (cs : List Char) : Prop := ∃ back, back <:+ cs ∧ BeginsEscape back

/-- A path of which nothing has a meaning in a connection text. -/
structure IsLiteralPath (path : String) : Prop where
  parameters : '?' ∉ path.toList
  escapes : ¬ HasEscape path.toList
  memory : path ≠ ":memory:"
  scheme : ¬ "sqlite:".toList <+: path.toList
  slashes : ¬ "//".toList <+: path.toList

/-! ## Encoded bytes -/

theorem hasEscape_cons_iff {c : Char} {cs : List Char} :
    HasEscape (c :: cs) ↔ BeginsEscape (c :: cs) ∨ HasEscape cs := by
  constructor
  · rintro ⟨back, hback, hbegins⟩
    rcases List.suffix_cons_iff.1 hback with rfl | hback
    · exact .inl hbegins
    · exact .inr ⟨back, hback, hbegins⟩
  · rintro (hbegins | ⟨back, hback, hbegins⟩)
    · exact ⟨c :: cs, List.suffix_rfl, hbegins⟩
    · exact ⟨back, hback.trans (List.suffix_cons c cs), hbegins⟩

theorem not_hasEscape_of_notMem {cs : List Char} (h : '%' ∉ cs) : ¬ HasEscape cs := by
  rintro ⟨back, hback, hbegins⟩
  cases hbegins
  exact h (hback.subset List.mem_cons_self)

/-- A character that does not begin an encoded byte stands for itself. -/
theorem percentDecode_cons {c : Char} {cs : List Char} (h : ¬ BeginsEscape (c :: cs)) :
    percentDecode (c :: cs) = utf8 (String.singleton c) ++ percentDecode cs := by
  rw [percentDecode.eq_def]
  split
  next high low rest heq =>
    cases heq
    split
    next hhigh hlow => exact absurd (.intro (by rw [hhigh]; rfl) (by rw [hlow]; rfl)) h
    · rfl
  next heq =>
    cases heq
    rfl
  next heq => cases heq

/-- Without an encoded byte there is nothing to decode. -/
theorem percentDecode_of_not_hasEscape {cs : List Char} (h : ¬ HasEscape cs) :
    percentDecode cs = utf8 (String.ofList cs) := by
  rw [utf8_eq_flatMap, String.toList_ofList]
  induction cs with
  | nil => rfl
  | cons c cs ih =>
    rw [hasEscape_cons_iff, not_or] at h
    rw [percentDecode_cons h.1, ih h.2, utf8_eq_flatMap, List.flatMap_cons]
    simp

/-- A character that stands for itself begins once. -/
theorem leads_utf8_append_le (c : Char) (bytes : Bytes) :
    leads (utf8 (String.singleton c) ++ bytes) ≤ leads bytes + 1 := by
  have hle := leads_utf8EncodeChar_le c
  rw [leads_append, utf8_eq_flatMap, String.toList_singleton, List.flatMap_singleton]
  omega

/-- Of what is decoded no more begins than there were characters, and less if there was an encoded
byte. -/
theorem leads_percentDecode (cs : List Char) : leads (percentDecode cs) ≤ cs.length ∧
    (HasEscape cs → leads (percentDecode cs) < cs.length) := by
  fun_induction percentDecode cs with
  | case1 h l rest high low hlow hhigh ih =>
    have hle := leads_cons_le (UInt8.ofNat (16 * high + low)) (percentDecode rest)
    simp only [List.length_cons]
    omega
  | case2 h l rest hnot ih =>
    have hle := leads_utf8_append_le '%' (percentDecode (h :: l :: rest))
    have hbegins : ¬ BeginsEscape ('%' :: h :: l :: rest) := by
      rintro ⟨hhigh, hlow⟩
      obtain ⟨high, hhigh⟩ := Option.isSome_iff_exists.1 hhigh
      obtain ⟨low, hlow⟩ := Option.isSome_iff_exists.1 hlow
      exact hnot high low hhigh hlow
    rw [hasEscape_cons_iff, or_iff_right hbegins]
    exact ⟨hle.trans (Nat.succ_le_succ ih.1),
      fun hescape => hle.trans_lt (Nat.succ_lt_succ (ih.2 hescape))⟩
  | case3 c rest hnot ih =>
    have hle := leads_utf8_append_le c (percentDecode rest)
    have hbegins : ¬ BeginsEscape (c :: rest) := by
      rintro ⟨hhigh, hlow⟩
      exact hnot _ _ _ rfl rfl
    rw [hasEscape_cons_iff, or_iff_right hbegins]
    exact ⟨hle.trans (Nat.succ_le_succ ih.1),
      fun hescape => hle.trans_lt (Nat.succ_lt_succ (ih.2 hescape))⟩
  | case4 =>
    refine ⟨Nat.le_refl 0, ?_⟩
    rintro ⟨back, hback, hbegins⟩
    rw [List.suffix_nil.1 hback] at hbegins
    cases hbegins

/-! ## Schemes -/

/-- What stands in front of a separator that it does not have itself stands before the first one. -/
theorem prefix_of_prefix_append {front cs rest : List Char} {sep : Char} (hsep : sep ∉ front)
    (h : front <+: cs ++ sep :: rest) : front <+: cs := by
  rcases List.prefix_or_prefix_of_prefix h (List.prefix_append cs _) with hfront | ⟨back, rfl⟩
  · exact hfront
  · cases back with
    | nil => simp
    | cons c back =>
      rw [List.prefix_append_right_inj, List.cons_prefix_cons] at h
      exact absurd (by simp [h.1]) hsep

theorem stripAll_of_not_prefix {front cs : List Char} (h : ¬ front <+: cs) (n : Nat) :
    stripAll front cs n = cs := by
  cases n with
  | zero => rfl
  | succ n =>
    rw [stripAll]
    split
    next rest hrest => exact absurd ⟨rest, (stripFront?_eq_some_iff.1 hrest).symm⟩ h
    · rfl

theorem stripAll_append (front cs : List Char) (n : Nat) :
    stripAll front (front ++ cs) (n + 1) = stripAll front cs n := by
  rw [stripAll, stripFront?_eq_some_iff.2 rfl]

/-- What is taken off stands before a separator that the front does not have. -/
theorem exists_stripAll {front : List Char} {sep : Char} (hsep : sep ∉ front) (s t : List Char)
    (n : Nat) : ∃ s', stripAll front (s ++ sep :: t) n = s' ++ sep :: t ∧ s' <:+ s := by
  induction n generalizing s with
  | zero => exact ⟨s, rfl, List.suffix_rfl⟩
  | succ n ih =>
    by_cases hfront : front <+: s
    · obtain ⟨back, rfl⟩ := hfront
      obtain ⟨s', hs', hsuffix⟩ := ih back
      rw [List.append_assoc, stripAll_append]
      exact ⟨s', hs', hsuffix.trans (List.suffix_append _ _)⟩
    · exact ⟨s, stripAll_of_not_prefix (fun h => hfront (prefix_of_prefix_append hsep h)) _,
        List.suffix_rfl⟩

/-- Something is taken off if there is something to take off. -/
theorem exists_stripAll_succ {front : List Char} {sep : Char} (hsep : sep ∉ front)
    (s t : List Char) (n : Nat) : ∃ s', stripAll front (s ++ sep :: t) (n + 1) = s' ++ sep :: t ∧
      s' <:+ s ∧ (¬ front <+: s → s' = s) ∧
      (front <+: s → s'.length + front.length ≤ s.length) := by
  by_cases hfront : front <+: s
  · obtain ⟨back, rfl⟩ := hfront
    obtain ⟨s', hs', hsuffix⟩ := exists_stripAll hsep back t n
    have hle := hsuffix.length_le
    rw [List.append_assoc, stripAll_append]
    refine ⟨s', hs', hsuffix.trans (List.suffix_append _ _), fun h => absurd ⟨back, rfl⟩ h, ?_⟩
    rw [List.length_append]
    omega
  · exact ⟨s, stripAll_of_not_prefix (fun h => hfront (prefix_of_prefix_append hsep h)) _,
      List.suffix_rfl, fun _ => rfl, fun h => absurd h hfront⟩

theorem connection_eq (cs : List Char) :
    connection cs = ("sqlite:".toList ++ cs) ++ '?' :: "mode=rwc".toList := rfl

/-- What is taken for schemes is a front of the path, if it begins in one of two ways, and nothing
otherwise. -/
theorem exists_withoutScheme (path : List Char) : ∃ s,
    withoutScheme (connection path) = s ++ '?' :: "mode=rwc".toList ∧ s <:+ path ∧
      (s = path ↔ ¬ "sqlite:".toList <+: path ∧ ¬ "//".toList <+: path) := by
  have hscheme : "sqlite://".toList = "sqlite:".toList ++ "//".toList := by simp
  have hlength : ("sqlite:".toList ++ path).length = path.length + 7 := by
    rw [List.length_append]
    exact Nat.add_comm 7 _
  obtain ⟨n, hn⟩ : ∃ n, (connection path).length = n + 2 :=
    ⟨path.length + 14, by simp [connection_eq]⟩
  have hboth : '?' ∉ "sqlite://".toList := by decide
  have hone : '?' ∉ "sqlite:".toList := by decide
  by_cases hslashes : "//".toList <+: path
  · -- the scheme is taken off together with the front of the path
    obtain ⟨s₁, hs₁, hsuffix₁, -, hshorter⟩ := exists_stripAll_succ hboth
      ("sqlite:".toList ++ path) "mode=rwc".toList (n + 1)
    obtain ⟨s, hs, hsuffix⟩ := exists_stripAll hone s₁ "mode=rwc".toList
      (s₁ ++ '?' :: "mode=rwc".toList).length
    have hlt := hshorter (by rw [hscheme, List.prefix_append_right_inj]; exact hslashes)
    have hle := hsuffix.length_le
    have hnine : "sqlite://".toList.length = 9 := by decide
    refine ⟨s, ?_, ?_, ?_⟩
    · rw [withoutScheme, hn, connection_eq, hs₁, hs]
    · exact List.suffix_of_suffix_length_le (hsuffix.trans hsuffix₁) (List.suffix_append _ _)
        (by omega)
    · refine iff_of_false ?_ fun h => h.2 hslashes
      rintro rfl
      omega
  · have hfirst : stripAll "sqlite://".toList (connection path) (connection path).length =
        connection path := by
      refine stripAll_of_not_prefix (fun h => hslashes ?_) _
      have hfront := prefix_of_prefix_append hboth (connection_eq path ▸ h)
      rwa [hscheme, List.prefix_append_right_inj] at hfront
    obtain ⟨s, hs, hsuffix, hsame, hshorter⟩ := exists_stripAll_succ hone path
      "mode=rwc".toList n
    refine ⟨s, ?_, hsuffix, ?_⟩
    · rw [withoutScheme, hfirst, hn, connection_eq, List.append_assoc, stripAll_append, hs]
    · rw [and_iff_left hslashes]
      refine ⟨fun h hprefix => ?_, hsame⟩
      have hlt := hshorter hprefix
      have hseven : "sqlite:".toList.length = 7 := by decide
      rw [h] at hlt
      omega

/-! ## What a path leads to -/

/-- A parameter does not change the name of a file. -/
theorem applyParameter_eq_file {d : Database} {p : String × String} {name : String} {create : Bool}
    (h : applyParameter d p = .ok (.file name create)) : ∃ c, d = .file name c := by
  unfold applyParameter at h
  repeat' split at h
  all_goals first
    | exact ⟨create, Except.ok.inj h⟩
    | (cases h; done)
    | (cases h
       exact ⟨_, rfl⟩)

theorem foldlM_applyParameter {ps : List (String × String)} {d : Database} {name : String}
    {create : Bool} (h : ps.foldlM applyParameter d = .ok (.file name create)) :
    ∃ c, d = .file name c := by
  induction ps generalizing d with
  | nil =>
    cases h
    exact ⟨create, rfl⟩
  | cons p ps ih =>
    rw [List.foldlM_cons, bind_eq_ok_iff] at h
    obtain ⟨e, he, hrest⟩ := h
    obtain ⟨c, rfl⟩ := ih hrest
    exact applyParameter_eq_file he

/-- What stands before the first separator is a front without one. -/
theorem exists_splitFirst (s t : List Char) :
    ∃ name rest, splitFirst '?' (s ++ '?' :: t) = (name, some rest) ∧ '?' ∉ name ∧ name <+: s := by
  rcases notMem_or_first '?' s with hs | ⟨a, b, ha, rfl⟩
  · exact ⟨s, t, splitFirst_append hs, hs, List.prefix_rfl⟩
  · refine ⟨a, b ++ '?' :: t, ?_, ha, List.prefix_append _ _⟩
    rw [List.append_assoc, List.cons_append]
    exact splitFirst_append ha

/-- A path of which nothing has a meaning in a connection text leads to the file at it. -/
theorem ofPath_of_isLiteralPath {path : String} (h : IsLiteralPath path) :
    ofPath path = .ok (.file path true) := by
  obtain ⟨s, hs, -, hsame⟩ := exists_withoutScheme path.toList
  rw [hsame.2 ⟨h.scheme, h.slashes⟩] at hs
  have hsplit : splitFirst '?' (withoutScheme (connection path.toList)) =
      (path.toList, some "mode=rwc".toList) := by
    rw [hs]
    exact splitFirst_append h.parameters
  have hname : path.toList ≠ ":memory:".toList := fun hsame =>
    h.memory (String.toList_inj.1 hsame)
  have hmode : parameters "mode=rwc".toList = [("mode", "rwc")] := by decide +kernel
  have hdecoded : ofUtf8? (percentDecode path.toList) = some path.toList := by
    rw [percentDecode_of_not_hasEscape h.escapes, ofUtf8?_utf8, String.toList_ofList]
  simp only [ofPath, ofConnection, hsplit, if_neg hname, hdecoded, Option.getD_some, hmode,
    String.ofList_toList]
  rfl

/-- A path that leads to the file at it has nothing in it that has a meaning. -/
theorem isLiteralPath_of_ofPath {path : String} {create : Bool}
    (h : ofPath path = .ok (.file path create)) : IsLiteralPath path := by
  obtain ⟨s, hs, hsuffix, hsame⟩ := exists_withoutScheme path.toList
  obtain ⟨name, rest, hsplit, hnone, hprefix⟩ := exists_splitFirst s "mode=rwc".toList
  rw [ofPath, ofConnection, hs, hsplit] at h
  dsimp only at h
  split at h
  · obtain ⟨c, hc⟩ := foldlM_applyParameter h
    cases hc
  next hmemory =>
    split at h
    next cs hcs =>
      obtain ⟨c, hc⟩ := foldlM_applyParameter h
      have hlist : path.toList = cs := by
        cases hc
        exact String.toList_ofList
      -- the name has as many characters as the path, so nothing of the path is lost in it
      have hchars := length_le_leads hcs
      obtain ⟨hdecoded, hescapes⟩ := leads_percentDecode name
      have hname := hprefix.length_le
      have hpath := hsuffix.length_le
      rw [← hlist] at hchars
      obtain rfl : name = s := hprefix.eq_of_length (by omega)
      have hwhole : name = path.toList := hsuffix.eq_of_length (by omega)
      obtain ⟨hscheme, hslashes⟩ := hsame.1 hwhole
      rw [hwhole] at hnone hescapes hmemory hchars
      exact ⟨hnone, fun hescape => absurd (hescapes hescape) (Nat.not_lt.2 hchars),
        fun heq => hmemory (congrArg String.toList heq), hscheme, hslashes⟩
    · cases h

/-- A path leads to the file at it, which may be created, exactly if nothing of it has a meaning in
a connection text. -/
theorem ofPath_eq_file_iff {path : String} {create : Bool} :
    ofPath path = .ok (.file path create) ↔ IsLiteralPath path ∧ create = true := by
  constructor
  · intro h
    have hliteral := isLiteralPath_of_ofPath h
    rw [ofPath_of_isLiteralPath hliteral] at h
    cases h
    exact ⟨hliteral, rfl⟩
  · rintro ⟨h, rfl⟩
    exact ofPath_of_isLiteralPath h

end PluginKernel.Store.Database
