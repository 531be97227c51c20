import Mathlib.Data.List.Sort
import PluginKernel.Proofs.Text.ByteOrder
import PluginKernel.Proofs.Text.Splitting
import PluginKernel.Store.Basic

/-!
# Paths, children and sorted names

What a store lists below a directory depends on its keys alone: `IsChild` says which names these
are, without saying how they are found. A list of names is sorted by their bytes, and so it is
determined by the names that are in it.
-/

namespace PluginKernel.Store

/-! ## Normalized paths -/

theorem toList_normalize (p : String) : (normalize p).toList = normalChars p := String.toList_ofList

theorem normalize_eq_normalize_iff {p q : String} :
    normalize p = normalize q ↔ normalChars p = normalChars q := by
  rw [normalize, normalize, String.ofList_inj]

theorem head?_normalChars (p : String) : (normalChars p).head? ≠ some '/' := by
  intro h
  have hc := Text.head?_trimBoth _ h
  simp at hc

/-- Something is left of a path exactly if it is more than slashes. -/
theorem normalChars_ne_nil_iff {p : String} : normalChars p ≠ [] ↔ ∃ c ∈ p.toList, c ≠ '/' := by
  obtain ⟨front, back, hfront, hback, hp⟩ :=
    Text.eq_append_trimBoth_append (p := (· == '/')) p.toList
  have hslash : ∀ c, c ∈ front ∨ c ∈ back → c = '/' := by
    rintro c (hc | hc)
    · simpa using hfront c hc
    · simpa using hback c hc
  refine ⟨fun hne => ?_, fun ⟨c, hc, hne⟩ hnil => ?_⟩
  · obtain ⟨c, cs, hcs⟩ := List.exists_cons_of_ne_nil hne
    refine ⟨c, ?_, fun heq => head?_normalChars p ?_⟩
    · rw [hp, show Text.trimBoth (· == '/') p.toList = c :: cs from hcs]
      simp
    · rw [hcs, heq, List.head?_cons]
  · rw [hp, show Text.trimBoth (· == '/') p.toList = [] from hnil, List.append_nil,
      List.mem_append] at hc
    exact hne (hslash c hc)

/-! ## Sorted names -/

theorem pairwise_insertName (name : String) {ns : List String} (h : ns.Pairwise (· < ·)) :
    (insertName name ns).Pairwise (· < ·) := by
  induction ns with
  | nil => exact List.pairwise_singleton _ _
  | cons n rest ih =>
    obtain ⟨hn, hrest⟩ := List.pairwise_cons.1 h
    unfold insertName
    split
    · next hlt =>
      refine List.pairwise_cons.2 ⟨fun a ha => ?_, h⟩
      rcases List.mem_cons.1 ha with rfl | ha
      · exact hlt
      · exact lt_trans hlt (hn a ha)
    · next hle =>
      split
      · exact h
      · next hne =>
        refine List.pairwise_cons.2 ⟨fun a ha => ?_, ih hrest⟩
        rcases (mem_insertName a name rest).1 ha with rfl | ha
        · exact lt_of_le_of_ne (not_lt.1 hle) (Ne.symm hne)
        · exact hn a ha

/-- Sorted names increase strictly. -/
theorem pairwise_sortNames (ns : List String) : (sortNames ns).Pairwise (· < ·) := by
  unfold sortNames
  induction ns with
  | nil => exact List.Pairwise.nil
  | cons n rest ih => exact pairwise_insertName n ih

/-- Sorted names increase strictly byte by byte. -/
theorem pairwise_utf8_sortNames (ns : List String) :
    (sortNames ns).Pairwise fun a b => Text.utf8 a < Text.utf8 b :=
  (pairwise_sortNames ns).imp Text.utf8_lt_utf8

/-- The same names are sorted in one way only. -/
theorem sortNames_eq_of_mem_iff {ns ms : List String} (h : ∀ a, a ∈ ns ↔ a ∈ ms) :
    sortNames ns = sortNames ms := by
  refine List.Pairwise.eq_of_mem_iff (pairwise_sortNames ns) (pairwise_sortNames ms) fun a => ?_
  rw [mem_sortNames, mem_sortNames, h]

/-! ## Children -/

/-- A name is a child of a directory: the directory, a slash and the name are a key, or a slash
follows the name of a directory in which some key is found. -/
def IsChild (isKey : String → Prop) (directory name : String) : Prop :=
  ('/' ∉ name.toList ∧ isKey (directory ++ "/" ++ name)) ∨
    ∃ d, '/' ∉ d.toList ∧ name = d ++ "/" ∧
      ∃ key, isKey key ∧ (directory ++ "/" ++ d ++ "/").toList <+: key.toList

theorem isChild_congr {isKey isKey' : String → Prop} (h : ∀ key, isKey key ↔ isKey' key)
    (directory name : String) : IsChild isKey directory name ↔ IsChild isKey' directory name := by
  simp only [IsChild, h]

/-- The children of a directory, said by what follows the directory and a slash in a key. -/
theorem isChild_iff_below {isKey : String → Prop} {directory name : String} :
    IsChild isKey directory name ↔
      ∃ key below, isKey key ∧ key.toList = directory.toList ++ '/' :: below ∧
        (('/' ∉ below ∧ name.toList = below) ∨
          ∃ d rest, '/' ∉ d ∧ below = d ++ '/' :: rest ∧ name.toList = d ++ ['/']) := by
  constructor
  · rintro (⟨hname, hkey⟩ | ⟨d, hd, rfl, key, hkey, rest, hrest⟩)
    · exact ⟨_, name.toList, hkey, by simp, Or.inl ⟨hname, rfl⟩⟩
    · refine ⟨key, d.toList ++ '/' :: rest, hkey, ?_, Or.inr ⟨d.toList, rest, hd, rfl, by simp⟩⟩
      rw [← hrest]
      simp
  · rintro ⟨key, below, hkey, hsplit, ⟨hbelow, hname⟩ | ⟨d, rest, hd, rfl, hname⟩⟩
    · refine Or.inl ⟨hname ▸ hbelow, ?_⟩
      have heq : directory ++ "/" ++ name = key := by
        rw [← String.toList_inj, hsplit, ← hname]
        simp
      rw [heq]
      exact hkey
    · refine Or.inr ⟨String.ofList d, by simpa using hd, ?_, key, hkey, rest, ?_⟩
      · rw [← String.toList_inj, hname]
        simp
      · rw [hsplit]
        simp

theorem toList_childOf {below : List Char} (h : '/' ∉ below) :
    (childOf below).toList = below := by
  rw [childOf, Text.splitFirst_of_notMem h]
  simp

theorem toList_childOf_append {d rest : List Char} (h : '/' ∉ d) :
    (childOf (d ++ '/' :: rest)).toList = d ++ ['/'] := by
  rw [childOf, Text.splitFirst_append h]
  simp

/-- What follows a directory belongs to the child that `childOf` says, and to no other. -/
theorem childOf_eq_iff {below : List Char} {name : String} :
    childOf below = name ↔ ('/' ∉ below ∧ name.toList = below) ∨
      ∃ d rest, '/' ∉ d ∧ below = d ++ '/' :: rest ∧ name.toList = d ++ ['/'] := by
  rw [← String.toList_inj]
  rcases Text.notMem_or_first '/' below with hbelow | ⟨d, rest, hd, rfl⟩
  · rw [toList_childOf hbelow]
    refine ⟨fun h => Or.inl ⟨hbelow, h.symm⟩, ?_⟩
    rintro (⟨-, h⟩ | ⟨d, rest, -, rfl, -⟩)
    · exact h.symm
    · simp at hbelow
  · rw [toList_childOf_append hd]
    refine ⟨fun h => Or.inr ⟨d, rest, hd, rfl, h.symm⟩, ?_⟩
    rintro (⟨h, -⟩ | ⟨d', rest', hd', heq, h⟩)
    · simp at h
    · rw [h, (Text.append_sep_inj hd hd' heq).1]

end PluginKernel.Store
