import Mathlib.Data.List.TakeWhile
import PluginKernel.Text.Blank
import PluginKernel.Text.Search

/-!
# Searching, splitting and trimming undone

Each function that takes a text apart, or finds a text in another, is described by how the text is
put together again, so that no later proof looks into the scans. A part that a separator does not
occur in is determined by what it is followed by: this is what makes paths with different segments
different.
-/

namespace PluginKernel.Text

/-! ## Searching -/

theorem occursIn_iff {needle hay : List Char} : occursIn needle hay = true ↔ needle <:+: hay := by
  induction hay with
  | nil => rw [occursIn, List.isEmpty_iff, List.infix_nil]
  | cons c cs ih =>
    rw [occursIn, Bool.or_eq_true, List.isPrefixOf_iff_prefix, ih, List.infix_cons_iff]

theorem contains_iff {needle hay : String} :
    contains needle hay = true ↔ needle.toList <:+: hay.toList := occursIn_iff

/-! ## Fronts -/

theorem stripFront?_eq_some_iff {front cs rest : List Char} :
    stripFront? front cs = some rest ↔ cs = front ++ rest := by
  induction front generalizing cs with
  | nil => simp [stripFront?, eq_comm]
  | cons p ps ih =>
    cases cs with
    | nil => simp [stripFront?]
    | cons c cs =>
      by_cases hpc : p = c
      · subst hpc
        rw [stripFront?, if_pos (beq_self_eq_true p), ih, List.cons_append, List.cons.injEq]
        exact (and_iff_right rfl).symm
      · rw [stripFront?, if_neg (by simpa using hpc), List.cons_append, List.cons.injEq]
        refine ⟨fun h => ?_, fun h => absurd h.1.symm hpc⟩
        cases h

/-- A scan stops where something follows that it does not take. -/
theorem takeWhile_append_stop {p : Char → Bool} (front rest : List Char)
    (hfront : ∀ c ∈ front, p c = true) (hrest : ∀ c ∈ rest.head?, p c = false) :
    (front ++ rest).takeWhile p = front ∧ (front ++ rest).dropWhile p = rest := by
  rw [List.takeWhile_append_of_pos hfront, List.dropWhile_append_of_pos hfront]
  cases rest with
  | nil => exact ⟨List.append_nil front, rfl⟩
  | cons c cs =>
    have hc : ¬p c = true := by simp [hrest c rfl]
    rw [List.takeWhile_cons_of_neg hc, List.dropWhile_cons_of_neg hc, List.append_nil]
    exact ⟨rfl, rfl⟩

/-! ## Separators -/

variable {sep : Char}

/-- Two texts that agree, each cut at its first separator, agree on both sides of the cut. -/
theorem append_sep_inj {a b l m : List Char} (ha : sep ∉ a) (hb : sep ∉ b)
    (h : a ++ sep :: l = b ++ sep :: m) : a = b ∧ l = m := by
  induction a generalizing b with
  | nil =>
    cases b with
    | nil => exact ⟨rfl, (List.cons.inj h).2⟩
    | cons d ds => exact absurd (by simp [(List.cons.inj h).1]) hb
  | cons c cs ih =>
    cases b with
    | nil => exact absurd (by simp [(List.cons.inj h).1]) ha
    | cons d ds =>
      obtain ⟨rfl, htail⟩ := List.cons.inj h
      obtain ⟨rfl, rfl⟩ := ih (fun hc => ha (List.mem_cons_of_mem _ hc))
        (fun hd => hb (List.mem_cons_of_mem _ hd)) htail
      exact ⟨rfl, rfl⟩

theorem splitFirst_of_notMem {cs : List Char} (h : sep ∉ cs) : splitFirst sep cs = (cs, none) := by
  have hdrop : cs.dropWhile (· != sep) = [] := by
    rw [List.dropWhile_eq_nil_iff]
    intro c hc
    simpa using fun hcs : c = sep => h (hcs ▸ hc)
  rw [splitFirst, hdrop]

theorem splitFirst_append {cs rest : List Char} (h : sep ∉ cs) :
    splitFirst sep (cs ++ sep :: rest) = (cs, some rest) := by
  have hall : ∀ c ∈ cs, (c != sep) = true := by
    intro c hc
    simpa using fun hcs : c = sep => h (hcs ▸ hc)
  obtain ⟨htake, hdrop⟩ := takeWhile_append_stop cs (sep :: rest) hall (by simp)
  rw [splitFirst, hdrop, htake]

/-- A text has no separator, or is cut at its first one. -/
theorem notMem_or_first (sep : Char) (cs : List Char) :
    sep ∉ cs ∨ ∃ a b, sep ∉ a ∧ cs = a ++ sep :: b := by
  by_cases h : sep ∈ cs
  · obtain ⟨a, b, rfl, ha⟩ := List.eq_append_cons_of_mem h
    exact Or.inr ⟨a, b, ha, rfl⟩
  · exact Or.inl h

/-- A text has no separator, or is cut at its last one. -/
theorem notMem_or_last (sep : Char) (cs : List Char) :
    sep ∉ cs ∨ ∃ a b, sep ∉ b ∧ cs = a ++ sep :: b := by
  rcases notMem_or_first sep cs.reverse with h | ⟨a, b, ha, hcs⟩
  · exact Or.inl (by simpa using h)
  · refine Or.inr ⟨b.reverse, a.reverse, by simpa using ha, ?_⟩
    rw [← List.reverse_reverse cs, hcs]
    simp

theorem splitLast_of_notMem {cs : List Char} (h : sep ∉ cs) : splitLast sep cs = (none, cs) := by
  rw [splitLast, splitFirst_of_notMem (by simpa using h)]
  simp

theorem splitLast_append {front cs : List Char} (h : sep ∉ cs) :
    splitLast sep (front ++ sep :: cs) = (some front, cs) := by
  have hrev : (front ++ sep :: cs).reverse = cs.reverse ++ sep :: front.reverse := by simp
  rw [splitLast, hrev, splitFirst_append (by simpa using h)]
  simp

/-! ## Ends -/

section Ends

variable {p : Char → Bool}

theorem head?_trimBoth {cs : List Char} : ∀ c ∈ (trimBoth p cs).head?, p c = false := by
  intro c hc
  have hfront : trimBoth p cs <+: cs.dropWhile p := by
    rw [trimBoth, ← List.reverse_suffix, List.reverse_reverse]
    exact List.dropWhile_suffix p
  obtain ⟨tail, htail⟩ := hfront
  have hhead : (cs.dropWhile p).head? = some c := by
    rw [← htail, List.head?_append, Option.mem_def.1 hc, Option.some_or]
  have hnot := List.head?_dropWhile_not p cs
  rw [hhead] at hnot
  exact hnot

theorem trimBoth_append_right {cs back : List Char} (h : ∀ c ∈ back, p c) :
    trimBoth p (cs ++ back) = trimBoth p cs := by
  have hall : ∀ c ∈ back.reverse, p c := fun c hc => h c (List.mem_reverse.1 hc)
  rw [trimBoth, trimBoth, List.dropWhile_append]
  split
  · next hnil =>
    have hcs : cs.dropWhile p = [] := by simpa using hnil
    have hback : back.dropWhile p = [] := List.dropWhile_eq_nil_iff.2 h
    rw [hcs, hback]
  · rw [List.reverse_append, List.dropWhile_append_of_pos hall]

theorem trimBoth_append_left {front cs : List Char} (h : ∀ c ∈ front, p c) :
    trimBoth p (front ++ cs) = trimBoth p cs := by
  rw [trimBoth, List.dropWhile_append_of_pos h, trimBoth]

/-- Where neither end is trimmed nothing is. -/
theorem trimBoth_eq_self_of_ends {cs : List Char} (hhead : ∀ c ∈ cs.head?, p c = false)
    (hlast : ∀ c ∈ cs.getLast?, p c = false) : trimBoth p cs = cs := by
  have hkept : ∀ ds : List Char, (∀ c ∈ ds.head?, p c = false) → ds.dropWhile p = ds := by
    intro ds hds
    cases ds with
    | nil => rfl
    | cons d rest => exact List.dropWhile_cons_of_neg (by simp [hds d rfl])
  rw [← List.head?_reverse] at hlast
  rw [trimBoth, hkept cs hhead, hkept cs.reverse hlast, List.reverse_reverse]

/-- Where there is nothing to trim nothing is trimmed. -/
theorem trimBoth_eq_self {cs : List Char} (h : ∀ c ∈ cs, p c = false) : trimBoth p cs = cs :=
  trimBoth_eq_self_of_ends (fun c hc => h c (List.mem_of_head? hc))
    fun c hc => h c (List.mem_of_getLast? hc)

/-- Trimming the end first changes nothing. -/
theorem trimBoth_trimEnd (cs : List Char) : trimBoth p (trimEnd p cs) = trimBoth p cs := by
  have hback : cs = trimEnd p cs ++ (cs.reverse.takeWhile p).reverse := by
    rw [trimEnd, ← List.reverse_append, List.takeWhile_append_dropWhile, List.reverse_reverse]
  conv => rhs; rw [hback]
  refine (trimBoth_append_right fun c hc => ?_).symm
  exact List.mem_takeWhile_imp (List.mem_reverse.1 hc)

/-- A text is its trimmed part between two runs of what is trimmed. -/
theorem eq_append_trimBoth_append (cs : List Char) :
    ∃ front back, (∀ c ∈ front, p c) ∧ (∀ c ∈ back, p c) ∧ cs = front ++ trimBoth p cs ++ back := by
  refine ⟨cs.takeWhile p, ((cs.dropWhile p).reverse.takeWhile p).reverse,
    fun c hc => List.mem_takeWhile_imp hc,
    fun c hc => List.mem_takeWhile_imp (List.mem_reverse.1 hc), ?_⟩
  rw [trimBoth, List.append_assoc, ← List.reverse_append, List.takeWhile_append_dropWhile,
    List.reverse_reverse, List.takeWhile_append_dropWhile]

/-- Trimming the end leaves what trimming both ends leaves, behind some of what is trimmed. -/
theorem trimEnd_eq_append (cs : List Char) :
    ∃ front, (∀ c ∈ front, p c) ∧ trimEnd p cs = front ++ trimBoth p cs := by
  obtain ⟨front, back, hfront, hback, hcs⟩ := eq_append_trimBoth_append (p := p) (trimEnd p cs)
  rw [trimBoth_trimEnd] at hcs
  refine ⟨front, hfront, ?_⟩
  cases hlast : back.getLast? with
  | none => rw [hcs, List.getLast?_eq_none_iff.1 hlast, List.append_nil]
  | some c =>
    have hc := hback c (List.mem_of_getLast? hlast)
    have hnot := List.head?_dropWhile_not p cs.reverse
    have hend : (trimEnd p cs).getLast? = some c := by
      rw [hcs, List.getLast?_append, hlast, Option.some_or]
    rw [trimEnd, List.getLast?_reverse] at hend
    rw [hend] at hnot
    exact absurd (hc.symm.trans hnot) (by decide)

/-- Where neither the front is trimmed away nor the back is trimmed, only the front of the front
is. -/
theorem trimBoth_append {cs ds : List Char} (hcs : ∃ c ∈ cs, p c = false) (hne : ds ≠ [])
    (hds : ∀ c ∈ ds.getLast?, p c = false) :
    trimBoth p (cs ++ ds) = cs.dropWhile p ++ ds := by
  have hdrop : cs.dropWhile p ≠ [] := by
    rw [Ne, List.dropWhile_eq_nil_iff]
    obtain ⟨c, hc, hpc⟩ := hcs
    intro hall
    rw [hall c hc] at hpc
    cases hpc
  have hback : (cs.dropWhile p ++ ds).reverse.dropWhile p = (cs.dropWhile p ++ ds).reverse := by
    obtain ⟨d, hd⟩ := Option.ne_none_iff_exists'.1 (mt List.getLast?_eq_none_iff.1 hne)
    have hhead : (cs.dropWhile p ++ ds).reverse.head? = some d := by
      rw [List.head?_reverse, List.getLast?_append, hd, Option.some_or]
    obtain ⟨es, hes⟩ := List.head?_eq_some_iff.1 hhead
    rw [hes, List.dropWhile_cons_of_neg (by simp [hds d hd])]
  rw [trimBoth, List.dropWhile_append, if_neg (by simpa using hdrop), hback, List.reverse_reverse]

end Ends

end PluginKernel.Text
