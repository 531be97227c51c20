import Mathlib.Data.List.Perm.Basic
import PluginKernel.Proofs.SortedMaps
import PluginKernel.Proofs.Store.Agreement

/-!
# Which writes can be exchanged

A store that does not fail is written to by a function. Of two writes at one path the first leaves
no trace; two writes at different paths can be exchanged, but for the order of the rows of a table,
on which nothing depends. So a write is lost without a trace if one at its path follows sooner or
later, and the writes of two writers who share no path can be interleaved in any way.
-/

namespace PluginKernel

namespace Assoc

variable {α : Type} {key k : String} {value v : α}

/-- Of two insertions at one key the second stays. -/
theorem insert_insert (key : String) (value v : α) (m : Assoc α) :
    insert key v (insert key value m) = insert key v m := by
  induction m with
  | nil => simp [insert]
  | cons p rest ih =>
    obtain ⟨a, x⟩ := p
    by_cases hlt : key < a
    · simp [insert, hlt]
    · by_cases heq : a = key
      · subst heq
        simp [insert]
      · simp [insert, hlt, heq, ih]

/-- Insertions at different keys can be exchanged. -/
theorem insert_comm (h : key ≠ k) (m : Assoc α) :
    insert key value (insert k v m) = insert k v (insert key value m) := by
  wlog hlt : key < k generalizing key k value v
  · exact (this h.symm (lt_of_le_of_ne (not_lt.1 hlt) h.symm)).symm
  have hnot : ¬ k < key := hlt.not_gt
  induction m with
  | nil => simp [insert, hlt, hnot, h]
  | cons p rest ih =>
    obtain ⟨a, x⟩ := p
    rcases lt_trichotomy k a with hk | rfl | hk
    · simp [insert, hk, hlt, hnot, hlt.trans hk, h]
    · simp [insert, hlt, hnot, h]
    · rcases lt_trichotomy key a with hkey | rfl | hkey
      · simp [insert, hkey, hk.not_gt, hk.ne, hnot, h]
      · simp [insert, hnot, h]
      · simp [insert, hk.not_gt, hk.ne, hkey.not_gt, hkey.ne, ih]

end Assoc

/-- A list consists of the elements of two others, those of each in their order. -/
inductive Interleaving {α : Type} : List α → List α → List α → Prop where
  | nil : Interleaving [] [] []
  /-- The next element comes from the first list. -/
  | left {a : α} {as bs cs : List α} (h : Interleaving as bs cs) :
    Interleaving (a :: as) bs (a :: cs)
  /-- The next element comes from the second list. -/
  | right {b : α} {as bs cs : List α} (h : Interleaving as bs cs) :
    Interleaving as (b :: bs) (b :: cs)

namespace Interleaving

variable {α β : Type} {as bs cs : List α}

theorem symm (h : Interleaving as bs cs) : Interleaving bs as cs := by
  induction h with
  | nil => exact .nil
  | left _ ih => exact .right ih
  | right _ ih => exact .left ih

theorem map (f : α → β) (h : Interleaving as bs cs) :
    Interleaving (as.map f) (bs.map f) (cs.map f) := by
  induction h with
  | nil => exact .nil
  | left _ ih => exact .left ih
  | right _ ih => exact .right ih

end Interleaving

namespace Store

namespace Tree

/-- A write leaves no trace if one at its path is among those that follow. -/
theorem writes_write (t : Tree) {path : String} (record : Assoc Json)
    {ws : List (String × Assoc Json)} (h : Written ws (normalize path)) :
    ws.foldl (fun t w => t.write w.1 w.2) (t.write path record) =
      ws.foldl (fun t w => t.write w.1 w.2) t := by
  induction ws generalizing t with
  | nil =>
    obtain ⟨w, hw, -⟩ := h
    cases hw
  | cons w ws ih =>
    rw [List.foldl_cons, List.foldl_cons]
    by_cases hpath : normalize w.1 = normalize path
    · rw [write, write, hpath, Assoc.insert_insert, write, hpath]
    · obtain ⟨v, hv, hkey⟩ := h
      have hrest : Written ws (normalize path) := by
        rcases List.mem_cons.1 hv with rfl | hv
        · exact absurd hkey hpath
        · exact ⟨v, hv, hkey⟩
      have hswap : (t.write path record).write w.1 w.2 = (t.write w.1 w.2).write path record := by
        rw [write, write, write, write, Assoc.insert_comm hpath]
      rw [hswap, ih _ hrest]

end Tree

namespace Rows

/-- The rows of a table that none of some writes replaces. -/
def kept (ws : List (String × Assoc Json)) (t : Rows) : List Row :=
  t.rows.filter fun row => ∀ w ∈ ws, normalize w.1 ≠ row.path

theorem kept_write (w : String × Assoc Json) (ws : List (String × Assoc Json)) (t : Rows) :
    kept ws (t.write w.1 w.2) =
      kept ws ⟨[t.rowFor w.1 (Json.obj w.2).print]⟩ ++ kept (w :: ws) t := by
  rw [kept, rows_write, ← List.singleton_append, List.filter_append, List.filter_filter]
  refine congrArg _ (List.filter_congr fun row _ => ?_)
  rw [Bool.eq_iff_iff, Bool.and_eq_true, decide_eq_true_iff, decide_eq_true_iff, bne_iff_ne,
    List.forall_mem_cons, and_comm, ne_comm]

/-- A write replaces nothing but a record, so a path has the same row afterwards but for it. -/
theorem rowFor_write (t : Rows) (path : String) (record : Assoc Json) :
    (t.write path record).rowFor = t.rowFor := by
  funext q text
  rw [rowFor, find?_write]
  by_cases h : normalize path = normalize q
  · have hfind : t.find? path = t.find? q := by rw [find?, find?, h]
    rw [if_pos h, rowFor, rowFor, hfind, normalize_eq_normalize_iff.1 h]
    cases t.find? q <;> rfl
  · rw [if_neg h, rowFor]

/-- What writes make of a table depends only on those rows that they do not replace and on what they
keep of the others. -/
theorem writes_congr {t t' : Rows} {ws : List (String × Assoc Json)} (h : kept ws t = kept ws t')
    (hrow : t.rowFor = t'.rowFor) :
    ws.foldl (fun t w => t.write w.1 w.2) t = ws.foldl (fun t w => t.write w.1 w.2) t' := by
  induction ws generalizing t t' with
  | nil =>
    obtain ⟨rows⟩ := t
    have hrows : rows = t'.rows := by simpa [kept] using h
    rw [hrows]
  | cons w ws ih =>
    rw [List.foldl_cons, List.foldl_cons]
    refine ih ?_ ?_
    · rw [kept_write, kept_write, h, hrow]
    · rw [rowFor_write, rowFor_write, hrow]

/-- A write leaves no trace if one at its path is among those that follow. -/
theorem writes_write (t : Rows) {path : String} (record : Assoc Json)
    {ws : List (String × Assoc Json)} (h : Written ws (normalize path)) :
    ws.foldl (fun t w => t.write w.1 w.2) (t.write path record) =
      ws.foldl (fun t w => t.write w.1 w.2) t := by
  obtain ⟨w, hw, hkey⟩ := h
  refine writes_congr ?_ (rowFor_write _ _ _)
  rw [kept_write (path, record)]
  have hnew : kept ws ⟨[t.rowFor path (Json.obj record).print]⟩ = [] := by
    rw [kept, List.filter_eq_nil_iff]
    intro row hrow hall
    rw [List.mem_singleton.1 hrow, path_rowFor] at hall
    exact of_decide_eq_true hall w hw hkey
  rw [hnew, List.nil_append, kept, kept]
  refine List.filter_congr fun row _ => decide_eq_decide.2 ?_
  rw [List.forall_mem_cons]
  refine ⟨fun hall => hall.2, fun hall => ⟨?_, hall⟩⟩
  rw [← hkey]
  exact hall w hw

/-- Writes at different paths can be exchanged, but for the order of the rows. -/
theorem perm_write_write (t : Rows) {p q : String} (h : normalize p ≠ normalize q)
    (record record' : Assoc Json) :
    ((t.write p record).write q record').rows.Perm ((t.write q record').write p record).rows := by
  have hwrites : ∀ {p q : String} (record record' : Assoc Json), normalize p ≠ normalize q →
      ((t.write p record).write q record').rows =
        t.rowFor q (Json.obj record').print :: t.rowFor p (Json.obj record).print ::
          t.rows.filter fun row => row.path != normalize p && row.path != normalize q := by
    intro p q record record' hne
    have hkept : ((t.rowFor p (Json.obj record).print).path != normalize q) = true := by
      rw [path_rowFor]
      exact bne_iff_ne.2 hne
    rw [rows_write, rowFor_write, rows_write, List.filter_cons, if_pos hkept, List.filter_filter]
    simp only [Bool.and_comm]
  rw [hwrites record record' h, hwrites record' record h.symm]
  simp only [Bool.and_comm]
  exact .swap _ _ _

/-- What a table lists does not depend on the order of its rows. -/
theorem list_eq_of_perm {t t' : Rows} (h : t.rows.Perm t'.rows) (path : String) :
    t.list path = t'.list path := by
  rw [list, list]
  refine sortNames_eq_of_mem_iff fun name => ?_
  simp only [List.mem_append, List.mem_map, List.mem_filterMap, List.mem_filter, h.mem_iff]

theorem find?_eq_some_iff {t : Rows} (ht : (t.rows.map Row.path).Nodup) {path : String}
    {row : Row} : t.find? path = some row ↔ row ∈ t.rows ∧ row.path = normalize path := by
  refine ⟨fun h => ⟨List.mem_of_find?_eq_some h, by simpa using List.find?_some h⟩, ?_⟩
  rintro ⟨hrow, hpath⟩
  cases hfind : t.find? path with
  | none => exact absurd hpath (by simpa using List.find?_eq_none.1 hfind row hrow)
  | some found =>
    have hfound : found.path = normalize path := by simpa using List.find?_some hfind
    have hmem := List.mem_of_find?_eq_some hfind
    rw [List.inj_on_of_nodup_map ht hmem hrow (hfound.trans hpath.symm)]

/-- What is found in a table does not depend on the order of its rows. -/
theorem find?_eq_of_perm {t t' : Rows} (h : t.rows.Perm t'.rows)
    (ht : (t.rows.map Row.path).Nodup) (path : String) : t.find? path = t'.find? path := by
  refine Option.ext fun row => ?_
  rw [find?_eq_some_iff ht, find?_eq_some_iff ((h.map Row.path).nodup_iff.1 ht), h.mem_iff]

end Rows

/-! ## Stores of either kind -/

namespace Backend

/-- A store after a write. -/
def put : Backend → String × Assoc Json → Backend
  | .memory tree, w => .memory (tree.write w.1 w.2)
  | .table rows, w => .table (rows.write w.1 w.2)

/-- A store after some writes. -/
def putAll (b : Backend) (ws : List (String × Assoc Json)) : Backend := ws.foldl put b

variable {b b' b'' : Backend} {v w : String × Assoc Json} {vs ws : List (String × Assoc Json)}

theorem write_eq_ok (b : Backend) (w : String × Assoc Json) :
    RecordStore.write b w.1 w.2 = .ok (b.put w) := by
  cases b <;> rfl

theorem writeAll_eq_putAll (b : Backend) (ws : List (String × Assoc Json)) :
    writeAll b ws = .ok (b.putAll ws) := by
  have hwrite : ∀ (b : Backend) path record, RecordStore.write b path record =
      .ok (b.put (path, record)) := fun b path record => b.write_eq_ok (path, record)
  exact writeAll_eq_ok hwrite b ws

@[simp] theorem putAll_nil (b : Backend) : b.putAll [] = b := rfl

@[simp] theorem putAll_cons (b : Backend) (w : String × Assoc Json)
    (ws : List (String × Assoc Json)) : b.putAll (w :: ws) = (b.put w).putAll ws := rfl

theorem putAll_memory (tree : Tree) (ws : List (String × Assoc Json)) :
    putAll (.memory tree) ws = .memory (ws.foldl (fun t w => t.write w.1 w.2) tree) := by
  induction ws generalizing tree with
  | nil => rfl
  | cons w ws ih => exact ih _

theorem putAll_table (rows : Rows) (ws : List (String × Assoc Json)) :
    putAll (.table rows) ws = .table (ws.foldl (fun t w => t.write w.1 w.2) rows) := by
  induction ws generalizing rows with
  | nil => rfl
  | cons w ws ih => exact ih _

/-- A write leaves no trace if one at its path is among those that follow. -/
theorem putAll_put (b : Backend) (h : Written ws (normalize w.1)) :
    (b.put w).putAll ws = b.putAll ws := by
  cases b with
  | memory tree => rw [put, putAll_memory, putAll_memory, tree.writes_write _ h]
  | table rows => rw [put, putAll_table, putAll_table, rows.writes_write _ h]

/-- Writes leave no trace if for each of them one at its path is among those that follow. -/
theorem putAll_putAll (b : Backend) (h : ∀ v ∈ vs, Written ws (normalize v.1)) :
    (b.putAll vs).putAll ws = b.putAll ws := by
  induction vs generalizing b with
  | nil => rfl
  | cons v vs ih =>
    obtain ⟨hv, hvs⟩ := List.forall_mem_cons.1 h
    rw [putAll_cons, ih _ hvs, putAll_put b hv]

/-- In a table each row is its path, cut at the last slash, and no two rows have one path. -/
def IsConsistent : Backend → Prop
  | .memory _ => True
  | .table rows => rows.Split ∧ (rows.rows.map Row.path).Nodup

theorem IsConsistent.put (h : b.IsConsistent) (w : String × Assoc Json) :
    (b.put w).IsConsistent := by
  cases b with
  | memory tree => trivial
  | table rows =>
    refine ⟨h.1.write w.1 w.2, ?_⟩
    rw [Rows.rows_write, List.map_cons, List.nodup_cons, Rows.path_rowFor]
    refine ⟨fun hmem => ?_, h.2.sublist (List.filter_sublist.map _)⟩
    obtain ⟨row, hrow, hpath⟩ := List.mem_map.1 hmem
    exact bne_iff_ne.1 (List.mem_filter.1 hrow).2 hpath

theorem IsConsistent.putAll (h : b.IsConsistent) (ws : List (String × Assoc Json)) :
    (b.putAll ws).IsConsistent := by
  induction ws generalizing b with
  | nil => exact h
  | cons w ws ih => exact ih (h.put w)

/-- Two stores hold the same: they are one tree, or tables with the same rows in whatever order. -/
inductive Same : Backend → Backend → Prop where
  | memory (tree : Tree) : Same (.memory tree) (.memory tree)
  | table {rows rows' : Rows} (h : rows.rows.Perm rows'.rows) : Same (.table rows) (.table rows')

namespace Same

theorem refl (b : Backend) : b.Same b := by
  cases b with
  | memory tree => exact .memory tree
  | table rows => exact .table (.refl _)

theorem symm (h : b.Same b') : b'.Same b := by
  cases h with
  | memory tree => exact .memory tree
  | table h => exact .table h.symm

theorem trans (h : b.Same b') (h' : b'.Same b'') : b.Same b'' := by
  cases h with
  | memory tree => exact h'
  | table h =>
    cases h' with
    | table h' => exact .table (h.trans h')

theorem put (h : b.Same b') (hb : b.IsConsistent) (w : String × Assoc Json) :
    (b.put w).Same (b'.put w) := by
  cases h with
  | memory tree => exact .refl _
  | @table rows rows' h =>
    refine .table ?_
    have hrow : rows.rowFor w.1 = rows'.rowFor w.1 := by
      funext text
      rw [Rows.rowFor, Rows.rowFor, Rows.find?_eq_of_perm h hb.2]
    rw [Rows.rows_write, Rows.rows_write, hrow]
    exact (h.filter _).cons _

theorem putAll (h : b.Same b') (hb : b.IsConsistent) (ws : List (String × Assoc Json)) :
    (b.putAll ws).Same (b'.putAll ws) := by
  induction ws generalizing b b' with
  | nil => exact h
  | cons w ws ih => exact ih (h.put hb w) (hb.put w)

end Same

/-- Writes at different paths can be exchanged. -/
theorem same_put_put (b : Backend) (h : normalize v.1 ≠ normalize w.1) :
    ((b.put v).put w).Same ((b.put w).put v) := by
  cases b with
  | memory tree =>
    rw [put, put, put, put, Tree.write, Tree.write, Tree.write, Tree.write,
      Assoc.insert_comm h.symm]
    exact .memory _
  | table rows => exact .table (rows.perm_write_write h _ _)

/-- A write can be made before or after others if it is made at none of their paths. -/
theorem same_putAll_put (hb : b.IsConsistent) (h : ∀ w ∈ ws, normalize v.1 ≠ normalize w.1) :
    ((b.put v).putAll ws).Same ((b.putAll ws).put v) := by
  induction ws generalizing b with
  | nil => exact .refl _
  | cons w ws ih =>
    obtain ⟨hw, hws⟩ := List.forall_mem_cons.1 h
    exact ((b.same_put_put hw).putAll ((hb.put v).put w) ws).trans (ih (hb.put w) hws)

/-- The writes of two writers who share no path end in the same store in whatever order they are
interleaved: the one in which one writer comes after the other. -/
theorem same_putAll_of_interleaving {us : List (String × Assoc Json)}
    (h : Interleaving vs ws us) (hb : b.IsConsistent)
    (hpaths : ∀ v ∈ vs, ∀ w ∈ ws, normalize v.1 ≠ normalize w.1) :
    (b.putAll us).Same ((b.putAll vs).putAll ws) := by
  induction h generalizing b with
  | nil => exact .refl b
  | @left v _ _ _ _ ih => exact ih (hb.put v) (List.forall_mem_cons.1 hpaths).2
  | @right w vs ws us h ih =>
    have hfirst : ∀ v ∈ vs, normalize w.1 ≠ normalize v.1 := fun v hv =>
      (hpaths v hv w List.mem_cons_self).symm
    have hrest := ih (hb.put w) fun v hv u hu => hpaths v hv u (List.mem_cons_of_mem w hu)
    exact hrest.trans ((same_putAll_put hb hfirst).putAll ((hb.put w).putAll vs) ws)

/-! ## What depends on a write -/

/-- Whether there is a record with a normalized path. -/
def Has : Backend → String → Prop
  | .memory tree, key => key ∈ tree.paths
  | .table rows, key => rows.Has key

theorem has_put {key : String} : (b.put w).Has key ↔ b.Has key ∨ normalize w.1 = key := by
  cases b with
  | memory tree => exact Assoc.mem_keys_insert key (normalize w.1) w.2 _
  | table rows => exact Rows.has_write

/-- A store lists the children of a directory. -/
theorem IsConsistent.list (h : b.IsConsistent) {path : String} (hpath : normalChars path ≠ []) :
    ∃ names, RecordStore.list b path = .ok (sortNames names) ∧
      ∀ name, name ∈ names ↔ IsChild b.Has (normalize path) name := by
  cases b with
  | memory tree =>
    refine ⟨_, rfl, fun name => ?_⟩
    rw [← mem_sortNames]
    exact tree.mem_list_iff path name
  | table rows =>
    refine ⟨_, rfl, fun name => ?_⟩
    rw [← mem_sortNames]
    exact Rows.mem_list_iff h.1 hpath name

/-- Stores that have the same records below a directory list the same there. -/
theorem list_congr (h : b.IsConsistent) (h' : b'.IsConsistent) {path : String}
    (hpath : normalChars path ≠ [])
    (hhas : ∀ key : String, normalChars path ++ ['/'] <+: key.toList → (b.Has key ↔ b'.Has key)) :
    RecordStore.list b path = RecordStore.list b' path := by
  obtain ⟨names, hlist, hmem⟩ := h.list hpath
  obtain ⟨names', hlist', hmem'⟩ := h'.list hpath
  rw [hlist, hlist', sortNames_eq_of_mem_iff fun name => ?_]
  rw [hmem, hmem', isChild_iff_below, isChild_iff_below, toList_normalize]
  have hbelow : ∀ {key : String} {below : List Char},
      key.toList = normalChars path ++ '/' :: below → (b.Has key ↔ b'.Has key) :=
    fun hsplit => hhas _ ⟨_, by rw [hsplit, List.append_assoc, List.singleton_append]⟩
  constructor
  · rintro ⟨key, below, hkey, hsplit, hname⟩
    exact ⟨key, below, (hbelow hsplit).1 hkey, hsplit, hname⟩
  · rintro ⟨key, below, hkey, hsplit, hname⟩
    exact ⟨key, below, (hbelow hsplit).2 hkey, hsplit, hname⟩

/-- What is read at a path does not depend on writes at others. -/
theorem read_putAll (b : Backend) {path : String} (h : ¬ Written ws (normalize path)) :
    RecordStore.read (b.putAll ws) path = RecordStore.read b path := by
  induction ws generalizing b with
  | nil => rfl
  | cons w ws ih =>
    have hw : normalize w.1 ≠ normalize path := fun heq => h ⟨w, List.mem_cons_self, heq⟩
    have hws : ¬ Written ws (normalize path) := fun ⟨v, hv, heq⟩ =>
      h ⟨v, List.mem_cons_of_mem w hv, heq⟩
    rw [putAll_cons, ih _ hws]
    cases b with
    | memory tree =>
      refine congrArg Except.ok ?_
      rw [Tree.read_write, if_neg hw]
    | table rows =>
      change (rows.write w.1 w.2).read path = rows.read path
      rw [Rows.read, Rows.find?_write, if_neg hw, Rows.read]

theorem has_putAll {key : String} : (b.putAll ws).Has key ↔ b.Has key ∨ Written ws key := by
  induction ws generalizing b with
  | nil => simp [Written]
  | cons w ws ih =>
    rw [putAll_cons, ih, has_put, or_assoc, Written, Written]
    simp

/-- Stores that hold the same answer the same. -/
theorem Same.answers (h : b.Same b') (hb : b.IsConsistent) (path : String) :
    RecordStore.list b path = RecordStore.list b' path ∧
      RecordStore.read b path = RecordStore.read b' path := by
  cases h with
  | memory tree => exact ⟨rfl, rfl⟩
  | @table rows rows' h =>
    refine ⟨congrArg Except.ok (Rows.list_eq_of_perm h path), ?_⟩
    change rows.read path = rows'.read path
    rw [Rows.read, Rows.read, Rows.find?_eq_of_perm h hb.2]

end Backend

end Store

end PluginKernel
