import Mathlib.Data.String.Basic
import PluginKernel.Assoc

/-!
# Maps whose keys increase

A list of pairs is the map it is meant to be if its keys increase strictly. Whatever insertion makes
of such a map is one again. Then no pair is hidden behind another with the same key: to take the
value of a key away takes away just one pair, and to give it another value changes just that pair.
-/

namespace PluginKernel.Assoc

variable {α : Type} {m : Assoc α} {key : String} {value : α}

/-- The keys increase strictly. -/
def Sorted (m : Assoc α) : Prop := (keys m).Pairwise (· < ·)

instance (m : Assoc α) : Decidable (Sorted m) := inferInstanceAs (Decidable (List.Pairwise _ _))

theorem sorted_nil : Sorted ([] : Assoc α) := List.Pairwise.nil

theorem sorted_cons_iff {p : String × α} :
    Sorted (p :: m) ↔ (∀ k ∈ keys m, p.1 < k) ∧ Sorted m := List.pairwise_cons

theorem Sorted.insert (h : Sorted m) (key : String) (value : α) :
    Sorted (insert key value m) := by
  induction m with
  | nil => exact List.pairwise_singleton _ _
  | cons p rest ih =>
    obtain ⟨k, v⟩ := p
    obtain ⟨hk, hrest⟩ := sorted_cons_iff.1 h
    unfold Assoc.insert
    split
    · next hlt =>
      refine sorted_cons_iff.2 ⟨fun a ha => ?_, h⟩
      rcases List.mem_cons.1 ha with rfl | ha
      · exact hlt
      · exact lt_trans hlt (hk a ha)
    · next hle =>
      split
      · next heq =>
        subst heq
        exact sorted_cons_iff.2 ⟨hk, hrest⟩
      · next hne =>
        refine sorted_cons_iff.2 ⟨fun a ha => ?_, ih hrest⟩
        rcases (mem_keys_insert a key value rest).1 ha with ha | rfl
        · exact hk a ha
        · exact lt_of_le_of_ne (not_lt.1 hle) hne

theorem Sorted.filter (h : Sorted m) (keep : String × α → Bool) : Sorted (m.filter keep) :=
  List.Pairwise.sublist (List.filter_sublist.map _) h

theorem Sorted.erase (h : Sorted m) (key : String) : Sorted (erase key m) := h.filter _

theorem Sorted.foldl_insert {n : Assoc α} (h : Sorted n) (pairs : List (String × α)) :
    Sorted (pairs.foldl (fun n p => Assoc.insert p.1 p.2 n) n) := by
  induction pairs generalizing n with
  | nil => exact h
  | cons p rest ih => exact ih (h.insert p.1 p.2)

/-! ## Keys and values -/

theorem get?_eq_none_iff : get? key m = none ↔ key ∉ keys m := by
  induction m with
  | nil => simp [keys]
  | cons p rest ih =>
    obtain ⟨k, v⟩ := p
    by_cases hk : k = key
    · simp [get?, keys, hk]
    · rw [get?, if_neg hk, ih]
      simp [keys, Ne.symm hk]

theorem mem_of_get? (h : get? key m = some value) : (key, value) ∈ m := by
  induction m with
  | nil => cases h
  | cons p rest ih =>
    obtain ⟨k, v⟩ := p
    rw [get?] at h
    split at h
    next hk =>
      cases h
      exact hk ▸ List.mem_cons_self
    · exact List.mem_cons_of_mem _ (ih h)

theorem mem_insert {p : String × α} (h : p ∈ Assoc.insert key value m) :
    p = (key, value) ∨ p ∈ m := by
  induction m with
  | nil => exact .inl (List.mem_singleton.1 h)
  | cons q rest ih =>
    obtain ⟨k, v⟩ := q
    unfold Assoc.insert at h
    split at h
    · exact List.mem_cons.1 h
    · split at h
      · exact (List.mem_cons.1 h).imp_right (List.mem_cons_of_mem _)
      · rcases List.mem_cons.1 h with rfl | h
        · exact .inr List.mem_cons_self
        · exact (ih h).imp_right (List.mem_cons_of_mem _)

theorem mem_or_mem_of_mem_foldl_insert {n : Assoc α} {pairs : List (String × α)} {p : String × α}
    (h : p ∈ pairs.foldl (fun n p => Assoc.insert p.1 p.2 n) n) : p ∈ n ∨ p ∈ pairs := by
  induction pairs generalizing n with
  | nil => exact .inl h
  | cons q rest ih =>
    rcases ih h with h | h
    · rcases mem_insert h with rfl | h
      · exact .inr List.mem_cons_self
      · exact .inl h
    · exact .inr (List.mem_cons_of_mem _ h)

theorem mem_keys_foldl_insert {n : Assoc α} {pairs : List (String × α)} :
    key ∈ keys (pairs.foldl (fun n p => Assoc.insert p.1 p.2 n) n) ↔
      key ∈ keys n ∨ key ∈ keys pairs := by
  induction pairs generalizing n with
  | nil => simp [keys]
  | cons q rest ih =>
    rw [List.foldl_cons, ih, mem_keys_insert, or_assoc]
    simp [keys, eq_comm]

/-- A value is found in the map of some pairs, in whatever order they come, unless another value is
given to the same key. -/
theorem get?_ofList_eq_some {pairs : List (String × α)} (hmem : (key, value) ∈ pairs)
    (hunique : ∀ v, (key, v) ∈ pairs → v = value) : get? key (ofList pairs) = some value := by
  have hkey : key ∈ keys (ofList pairs) :=
    mem_keys_foldl_insert.2 (.inr (List.mem_map_of_mem hmem))
  cases hget : get? key (ofList pairs) with
  | none => exact absurd hkey (get?_eq_none_iff.1 hget)
  | some v =>
    rcases mem_or_mem_of_mem_foldl_insert (mem_of_get? hget) with hv | hv
    · cases hv
    · rw [hunique v hv]

/-- A value is found where nothing with its key has been taken away. -/
theorem get?_filter {keep : String × α → Bool} (h : ∀ value, keep (key, value) = true) :
    get? key (m.filter keep) = get? key m := by
  induction m with
  | nil => rfl
  | cons p rest ih =>
    obtain ⟨k, v⟩ := p
    by_cases hk : k = key
    · subst hk
      rw [List.filter_cons_of_pos (h v), get?, get?, if_pos rfl, if_pos rfl]
    · rw [List.filter_cons, get?, if_neg hk, ← ih]
      split
      · rw [get?, if_neg hk]
      · rfl

/-- What is not there cannot be taken away. -/
theorem erase_of_notMem (h : key ∉ keys m) : erase key m = m := by
  refine List.filter_eq_self.2 fun p hp => ?_
  have hne : p.1 ≠ key := fun heq => h (heq ▸ List.mem_map_of_mem hp)
  simpa using hne

/-- The key of the first pair is not among the others. -/
theorem Sorted.notMem_keys {k : String} {v : α} (h : Sorted ((k, v) :: m)) : k ∉ keys m :=
  fun hk => lt_irrefl k ((sorted_cons_iff.1 h).1 k hk)

/-- A value that is put in is taken away with its key. -/
theorem erase_insert (key : String) (value : α) (m : Assoc α) :
    erase key (Assoc.insert key value m) = erase key m := by
  induction m with
  | nil => simp [Assoc.insert, erase]
  | cons p rest ih =>
    obtain ⟨k, v⟩ := p
    unfold Assoc.insert
    split
    · rw [erase, List.filter_cons_of_neg (by simp), ← erase]
    · split
      next hk =>
        rw [erase, erase, List.filter_cons_of_neg (by simp), List.filter_cons_of_neg (by simp [hk])]
      next hk =>
        have hkeep : ∀ rest : Assoc α, erase key ((k, v) :: rest) = (k, v) :: erase key rest :=
          fun _ => List.filter_cons_of_pos (by simpa using hk)
        rw [hkeep, hkeep, ih]

/-! ## One pair for each key -/

namespace Sorted

/-- A map is determined by the values of all keys. -/
theorem ext {n : Assoc α} (hm : Sorted m) (hn : Sorted n) (h : ∀ key, get? key m = get? key n) :
    m = n := by
  have hkeys : ∀ key, key ∈ keys m ↔ key ∈ keys n := by
    intro key
    rw [← not_iff_not, ← get?_eq_none_iff, ← get?_eq_none_iff, h]
  induction m generalizing n with
  | nil =>
    cases n with
    | nil => rfl
    | cons q rest => exact absurd ((hkeys q.1).2 List.mem_cons_self) List.not_mem_nil
  | cons p rest ih =>
    obtain ⟨k, v⟩ := p
    cases n with
    | nil => exact absurd ((hkeys k).1 List.mem_cons_self) List.not_mem_nil
    | cons q rest' =>
      obtain ⟨k', v'⟩ := q
      obtain ⟨hleast, hrest⟩ := sorted_cons_iff.1 hm
      obtain ⟨hleast', hrest'⟩ := sorted_cons_iff.1 hn
      -- the first key of either map is the least of the same keys
      have hk : k = k' := by
        rcases List.mem_cons.1 ((hkeys k).1 List.mem_cons_self) with heq | hmem
        · exact heq
        · rcases List.mem_cons.1 ((hkeys k').2 List.mem_cons_self) with heq | hmem'
          · exact heq.symm
          · exact absurd (hleast k' hmem') (lt_asymm (hleast' k hmem))
      subst hk
      have hv : v = v' := by
        have hfirst := h k
        rw [get?, if_pos rfl, get?, if_pos rfl] at hfirst
        exact Option.some.inj hfirst
      subst hv
      have htail : ∀ key, get? key rest = get? key rest' := by
        intro key
        by_cases hkey : k = key
        · subst hkey
          rw [get?_eq_none_iff.2 hm.notMem_keys, get?_eq_none_iff.2 hn.notMem_keys]
        · have hother := h key
          rwa [get?, if_neg hkey, get?, if_neg hkey] at hother
      have htailKeys : ∀ key, key ∈ keys rest ↔ key ∈ keys rest' := by
        intro key
        rw [← not_iff_not, ← get?_eq_none_iff, ← get?_eq_none_iff, htail]
      rw [ih hrest hrest' htail htailKeys]

/-- What is in a map is found in it. -/
theorem get?_eq_some_iff (h : Sorted m) : get? key m = some value ↔ (key, value) ∈ m := by
  refine ⟨mem_of_get?, fun hmem => ?_⟩
  induction m with
  | nil => cases hmem
  | cons p rest ih =>
    obtain ⟨k, v⟩ := p
    rcases List.mem_cons.1 hmem with heq | hmem
    · cases heq
      rw [get?, if_pos rfl]
    · have hne : k ≠ key := fun heq => h.notMem_keys (heq ▸ List.mem_map_of_mem hmem)
      rw [get?, if_neg hne]
      exact ih (sorted_cons_iff.1 h).2 hmem

/-- The pairs of one map put into another win over those that are there. -/
theorem get?_foldl_insert {n : Assoc α} (h : Sorted m) (key : String) :
    get? key (m.foldl (fun n p => Assoc.insert p.1 p.2 n) n) = (get? key m).or (get? key n) := by
  induction m generalizing n with
  | nil => rfl
  | cons p rest ih =>
    obtain ⟨k, v⟩ := p
    rw [List.foldl_cons, ih (sorted_cons_iff.1 h).2, get?_insert, get?]
    by_cases hk : k = key
    · subst hk
      rw [get?_eq_none_iff.2 h.notMem_keys, if_pos rfl, if_pos rfl]
      rfl
    · rw [if_neg hk, if_neg hk]

/-- To take a value away takes away just one pair. -/
theorem perm_erase (h : Sorted m) (hget : get? key m = some value) :
    m.Perm ((key, value) :: Assoc.erase key m) := by
  induction m with
  | nil => cases hget
  | cons p rest ih =>
    obtain ⟨k, v⟩ := p
    have hrest : Sorted rest := (sorted_cons_iff.1 h).2
    rw [get?] at hget
    by_cases hk : k = key
    · subst hk
      rw [if_pos rfl] at hget
      cases hget
      have herase : Assoc.erase k ((k, value) :: rest) = rest := by
        rw [Assoc.erase, List.filter_cons_of_neg (by simp)]
        exact erase_of_notMem h.notMem_keys
      rw [herase]
    · rw [if_neg hk] at hget
      have herase : Assoc.erase key ((k, v) :: rest) = (k, v) :: Assoc.erase key rest :=
        List.filter_cons_of_pos (by simpa using hk)
      rw [herase]
      exact ((ih hrest hget).cons (k, v)).trans (.swap _ _ _)

/-- To give a key a value leaves all other pairs as they are. -/
theorem perm_insert (h : Sorted m) (key : String) (value : α) :
    (Assoc.insert key value m).Perm ((key, value) :: Assoc.erase key m) := by
  have hget : get? key (Assoc.insert key value m) = some value := by
    rw [get?_insert, if_pos rfl]
  have hperm := (h.insert key value).perm_erase hget
  rwa [erase_insert] at hperm

end Sorted

/-! ## A function of each value -/

section

variable {β : Type}

theorem mapValues_insert (f : α → β) (key : String) (value : α) (m : Assoc α) :
    mapValues f (insert key value m) = insert key (f value) (mapValues f m) := by
  induction m with
  | nil => rfl
  | cons p rest ih =>
    simp only [insert, mapValues, List.map_cons] at ih ⊢
    split
    · rfl
    · split
      · rfl
      · rw [List.map_cons, ih]

theorem get?_mapValues (f : α → β) (key : String) (m : Assoc α) :
    get? key (mapValues f m) = (get? key m).map f := by
  induction m with
  | nil => rfl
  | cons p rest ih =>
    simp only [mapValues, List.map_cons, get?] at ih ⊢
    split
    · rfl
    · exact ih

theorem keys_mapValues (f : α → β) (m : Assoc α) : keys (mapValues f m) = keys m :=
  List.map_map

end

end PluginKernel.Assoc
