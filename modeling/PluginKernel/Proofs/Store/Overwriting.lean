import PluginKernel.Proofs.Store.Agreement

/-!
# Writing replaces what is read at one path

Whatever a store holds, a record that was written is what is read from then on at every spelling of
its path, and nothing else changes. So writes to a store that was not empty leave it as it was but
for the last record at each of their paths.
-/

namespace PluginKernel.Store

/-- A write replaces what is read at its path, and nothing else; the record must be one that its
text stands for. -/
class LawfulStore (σ : Type) [RecordStore σ] : Prop where
  /-- What is read after a write. -/
  read_of_write {s s' : σ} {path : String} {record : Assoc Json}
    (hrecord : Json.parse? (Json.obj record).print = some (.obj record))
    (h : RecordStore.write s path record = .ok s') (q : String) :
    RecordStore.read s' q =
      if normalize path = normalize q then .ok (some record) else RecordStore.read s q

instance : LawfulStore Tree where
  read_of_write {s s' path record} _ h q := by
    cases h
    change Except.ok ((s.write path record).read q) = _
    rw [Tree.read_write]
    split <;> rfl

instance : LawfulStore Rows where
  read_of_write {s s' path record} hrecord h q := by
    cases h
    change (s.write path record).read q = if _ then _ else s.read q
    rw [Rows.read, Rows.find?_write]
    by_cases hpath : normalize path = normalize q
    · rw [if_pos hpath, if_pos hpath]
      simp only [Rows.record_rowFor, hrecord]
    · rw [if_neg hpath, if_neg hpath, Rows.read]

instance : LawfulStore Backend where
  read_of_write {s s' path record} hrecord h q := by
    cases s with
    | memory tree =>
      cases h
      exact LawfulStore.read_of_write (s := tree) hrecord rfl q
    | table rows =>
      cases h
      exact LawfulStore.read_of_write (s := rows) hrecord rfl q

/-- A store reads as another one does after some writes. -/
def ReadsAfter {σ : Type} [RecordStore σ] (s₀ : σ) (ws : List (String × Assoc Json)) (s : σ) :
    Prop :=
  ∀ path, RecordStore.read s path =
    match lastAt ws path with
    | some record => .ok (some record)
    | none => RecordStore.read s₀ path

theorem ReadsAfter.refl {σ : Type} [RecordStore σ] (s : σ) : ReadsAfter s [] s := fun _ => rfl

theorem ReadsAfter.write {σ : Type} [RecordStore σ] [LawfulStore σ] {s₀ s s' : σ}
    {ws : List (String × Assoc Json)} (hs : ReadsAfter s₀ ws s) {w : String × Assoc Json}
    (hw : Json.parse? (Json.obj w.2).print = some (.obj w.2))
    (h : RecordStore.write s w.1 w.2 = .ok s') : ReadsAfter s₀ (ws ++ [w]) s' := by
  intro path
  rw [LawfulStore.read_of_write hw h, lastAt_concat, hs path]
  by_cases hpath : normalize w.1 = normalize path
  · rw [if_pos hpath, if_pos hpath]
  · rw [if_neg hpath, if_neg hpath]

end PluginKernel.Store
