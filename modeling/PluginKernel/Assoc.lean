/-!
# Association lists sorted by key

A finite map from texts to values, kept as a list of pairs in strictly increasing order of the keys.
Texts are ordered by code point, which is also the order of their UTF-8 bytes. `insert` replaces the
value of a key that is present, so the last of several insertions counts.
-/

namespace PluginKernel

/-- A list of pairs, sorted by key. -/
abbrev Assoc (α : Type) : Type := List (String × α)

namespace Assoc

variable {α β : Type}

/-- The value of a key. -/
def get? (key : String) : Assoc α → Option α
  | [] => none
  | (k, v) :: rest => if k = key then some v else get? key rest

/-- Whether a key has a value. -/
def contains (key : String) (m : Assoc α) : Bool := (get? key m).isSome

/-- Give a key a value, in place of the one it may have. -/
def insert (key : String) (value : α) : Assoc α → Assoc α
  | [] => [(key, value)]
  | (k, v) :: rest =>
    if key < k then (key, value) :: (k, v) :: rest
    else if k = key then (key, value) :: rest
    else (k, v) :: insert key value rest

/-- Take the value of a key away. -/
def erase (key : String) (m : Assoc α) : Assoc α := m.filter (·.1 != key)

/-- The keys, in increasing order. -/
def keys (m : Assoc α) : List String := m.map (·.1)

/-- The map that results from inserting pairs one after the other. -/
def ofList (pairs : List (String × α)) : Assoc α :=
  pairs.foldl (fun m p => insert p.1 p.2 m) []

/-- Apply a function to every value. -/
def mapValues (f : α → β) (m : Assoc α) : Assoc β := m.map fun p => (p.1, f p.2)

@[simp] theorem get?_nil (key : String) : get? key ([] : Assoc α) = none := rfl

/-- An insertion is seen at its key and nowhere else. -/
theorem get?_insert (key k : String) (value : α) (m : Assoc α) :
    get? k (insert key value m) = if key = k then some value else get? k m := by
  induction m with
  | nil => simp [insert, get?]
  | cons p rest ih =>
    obtain ⟨a, v⟩ := p
    simp only [insert]
    split
    · simp [get?]
    · split
      · next h => subst h; by_cases hk : a = k <;> simp [get?, hk]
      · next hne =>
        simp only [get?, ih]
        by_cases ha : a = k
        · subst ha; simp [Ne.symm hne]
        · simp [ha]

/-- An insertion adds its key. -/
theorem mem_keys_insert (k key : String) (value : α) (m : Assoc α) :
    k ∈ keys (insert key value m) ↔ k ∈ keys m ∨ key = k := by
  induction m with
  | nil => simp [insert, keys, eq_comm]
  | cons p rest ih =>
    unfold insert
    split
    · simp [keys, or_comm, eq_comm]
    · split
      · next heq => simp [keys, heq, or_comm, eq_comm]
      · simp only [keys, List.map_cons, List.mem_cons] at ih ⊢
        rw [ih, or_assoc]

/-- What is erased has no value any more; every other key keeps its own. -/
theorem get?_erase (key k : String) (m : Assoc α) :
    get? k (erase key m) = if key = k then none else get? k m := by
  induction m with
  | nil => simp [erase, get?]
  | cons p rest ih =>
    obtain ⟨a, v⟩ := p
    simp only [erase, List.filter_cons] at ih ⊢
    by_cases ha : a = key
    · subst ha
      simp only [bne_self_eq_false, Bool.false_eq_true, if_false, ih, get?]
      by_cases hk : a = k <;> simp [hk]
    · simp only [bne_iff_ne, ne_eq, ha, not_false_eq_true, if_true, get?, ih]
      by_cases hk : a = k
      · subst hk; simp [Ne.symm ha]
      · simp [hk]

end Assoc

end PluginKernel
