import Mathlib.Data.List.Induction
import PluginKernel.Proofs.Store.Paths
import PluginKernel.Store.Backend

/-!
# Both kinds of store answer alike

What a store answers is said in terms of the writes made to it: a path is read as the last of the
writes at its spellings left it, and what is listed below it is `IsChild` of the paths written.

A tree answers this way by its definition. A table does for two reasons. Each of its rows is its
path cut at the last slash, so rows whose parent is a directory are its records, and rows whose
parent lies below it lead to its directories. And the pattern that finds these parents takes the
directory literally: it may find more, as it ignores the case of letters, but what does not start
with the directory is passed over, and nothing that does is missed.
-/

namespace PluginKernel.Store

/-! ## What writes leave behind -/

/-- A store after some writes, made one after the other. -/
def writeAll {σ : Type} [RecordStore σ] (s : σ) (ws : List (String × Assoc Json)) :
    Except StatisticError σ :=
  ws.foldlM (fun s w => RecordStore.write s w.1 w.2) s

/-- A store whose writes never fail is written to by a function. -/
theorem writeAll_eq_ok {σ : Type} [RecordStore σ] {write : σ → String → Assoc Json → σ}
    (h : ∀ s path record, RecordStore.write s path record = .ok (write s path record)) (s : σ)
    (ws : List (String × Assoc Json)) :
    writeAll s ws = .ok (ws.foldl (fun s w => write s w.1 w.2) s) := by
  induction ws generalizing s with
  | nil => rfl
  | cons w ws ih =>
    rw [writeAll, List.foldlM_cons, h]
    exact ih (write s w.1 w.2)

/-- A store that hands its writes on to another is written to as that one is. -/
theorem writeAll_map {σ τ : Type} [RecordStore σ] [RecordStore τ] {f : σ → τ}
    (h : ∀ s path record, RecordStore.write (f s) path record =
      (RecordStore.write s path record).map f) (s : σ) (ws : List (String × Assoc Json)) :
    writeAll (f s) ws = (writeAll s ws).map f := by
  induction ws generalizing s with
  | nil => rfl
  | cons w ws ih =>
    rw [writeAll, writeAll, List.foldlM_cons, List.foldlM_cons, h]
    cases RecordStore.write s w.1 w.2 with
    | error e => rfl
    | ok next => exact ih next

/-- The record that the last of some writes at the spellings of a path wrote. -/
def lastAt (ws : List (String × Assoc Json)) (path : String) : Option (Assoc Json) :=
  (ws.filter fun w => normalize w.1 = normalize path).getLast?.map (·.2)

/-- Whether one of some writes was made under a key. -/
def Written (ws : List (String × Assoc Json)) (key : String) : Prop := ∃ w ∈ ws, normalize w.1 = key

theorem lastAt_concat (ws : List (String × Assoc Json)) (w : String × Assoc Json) (path : String) :
    lastAt (ws ++ [w]) path =
      if normalize w.1 = normalize path then some w.2 else lastAt ws path := by
  by_cases h : normalize w.1 = normalize path <;> simp [lastAt, List.filter_append, h]

theorem written_concat (ws : List (String × Assoc Json)) (w : String × Assoc Json) (key : String) :
    Written (ws ++ [w]) key ↔ Written ws key ∨ normalize w.1 = key := by
  simp only [Written, List.mem_append, List.mem_singleton]
  constructor
  · rintro ⟨v, hv | rfl, hkey⟩
    · exact Or.inl ⟨v, hv, hkey⟩
    · exact Or.inr hkey
  · rintro (⟨v, hv, hkey⟩ | hkey)
    · exact ⟨v, Or.inl hv, hkey⟩
    · exact ⟨w, Or.inr rfl, hkey⟩

/-- What is read is there because it was written. -/
theorem exists_of_lastAt_eq_some {ws : List (String × Assoc Json)} {path : String}
    {record : Assoc Json} (h : lastAt ws path = some record) :
    ∃ w ∈ ws, normalize w.1 = normalize path ∧ w.2 = record := by
  obtain ⟨w, hw, rfl⟩ := Option.map_eq_some_iff.1 h
  obtain ⟨hmem, hkey⟩ := List.mem_filter.1 (List.mem_of_getLast? hw)
  exact ⟨w, hmem, by simpa using hkey, rfl⟩

/-! ## Trees -/

namespace Tree

/-- A tree reads what was written last. -/
theorem read_writes (ws : List (String × Assoc Json)) (path : String) :
    (ws.foldl (fun t w => t.write w.1 w.2) Tree.empty).read path = lastAt ws path := by
  induction ws using List.reverseRecOn with
  | nil => rfl
  | append_singleton ws w ih =>
    rw [List.foldl_append, List.foldl_cons, List.foldl_nil, read_write, lastAt_concat, ih]

/-- The paths of a tree are those that were written. -/
theorem mem_paths_writes (ws : List (String × Assoc Json)) (key : String) :
    key ∈ (ws.foldl (fun t w => t.write w.1 w.2) Tree.empty).paths ↔ Written ws key := by
  induction ws using List.reverseRecOn with
  | nil => simp [Tree.empty, paths, Assoc.keys, Written]
  | append_singleton ws w ih =>
    rw [List.foldl_append, List.foldl_cons, List.foldl_nil, written_concat, ← ih]
    exact Assoc.mem_keys_insert key (normalize w.1) w.2 _

/-- A tree lists the children of a directory. -/
theorem mem_list_iff (t : Tree) (path name : String) :
    name ∈ t.list path ↔ IsChild (· ∈ t.paths) (normalize path) name := by
  rw [list, mem_sortNames, List.mem_filterMap, isChild_iff_below, toList_normalize]
  simp only [Option.map_eq_some_iff, Text.stripFront?_eq_some_iff, childOf_eq_iff,
    List.append_assoc, List.singleton_append]
  constructor
  · rintro ⟨key, hkey, below, hsplit, hname⟩
    exact ⟨key, below, hkey, hsplit, hname⟩
  · rintro ⟨key, below, hkey, hsplit, hname⟩
    exact ⟨key, hkey, below, hsplit, hname⟩

end Tree

/-! ## Patterns -/

namespace LikeItem

/-- A pattern takes a literal text character by character. -/
theorem ofPattern_literalPattern (cs : List Char) {tail : List Char} (h : tail ≠ []) :
    ofPattern '\\' (literalPattern cs ++ tail) = cs.map char ++ ofPattern '\\' tail := by
  induction cs with
  | nil => rfl
  | cons c cs ih =>
    rw [literalPattern, List.flatMap_cons, List.append_assoc, ← literalPattern, List.map_cons,
      List.cons_append, ← ih]
    obtain ⟨d, ds, hd⟩ := List.exists_cons_of_ne_nil
      (List.append_ne_nil_of_right_ne_nil (literalPattern cs) h)
    by_cases hc : c = '\\' ∨ c = '%' ∨ c = '_'
    · rw [if_pos (by simpa [or_assoc] using hc)]
      simp only [List.cons_append, List.nil_append]
      rw [ofPattern, if_pos (beq_self_eq_true _)]
    · simp only [not_or] at hc
      rw [if_neg (by simp [hc]), hd, List.singleton_append, ofPattern, if_neg (by simp [hc])]
      simp [ofPattern.single, hc]

theorem isMatch_run (cs : List Char) : isMatch [.run] cs = true := by
  have hskip : ∀ ds : List Char, (isMatch [] ds || isMatch.skip [] ds) = true := by
    intro ds
    induction ds with
    | nil => simp [isMatch]
    | cons d ds ih => rw [isMatch.skip, ih, Bool.or_true]
  rw [isMatch]
  exact hskip cs

theorem isMatch_literal (cs : List Char) (items : List LikeItem) (text : List Char) :
    isMatch (cs.map char ++ items) (cs ++ text) = isMatch items text := by
  induction cs with
  | nil => rfl
  | cons c cs ih =>
    rw [List.map_cons, List.cons_append, List.cons_append, isMatch, ih, sameLetter,
      beq_self_eq_true, Bool.true_and]

end LikeItem

/-- Whatever lies below a directory matches the pattern of the directory. -/
theorem like_below (directory rest : List Char) :
    like (literalPattern directory ++ ['/', '%']) (directory ++ '/' :: rest) = true := by
  rw [like, LikeItem.ofPattern_literalPattern directory (by simp), LikeItem.isMatch_literal]
  exact (LikeItem.isMatch_literal ['/'] [.run] rest).trans (LikeItem.isMatch_run rest)

/-! ## Tables -/

namespace Row

theorem path_of (path : List Char) (record : String) :
    (Row.of path record).path = String.ofList path := rfl

theorem of_append {parent name : List Char} (h : '/' ∉ name) (record : String) :
    Row.of (parent ++ '/' :: name) record =
      ⟨String.ofList (parent ++ '/' :: name), String.ofList parent, String.ofList name,
        record⟩ := by
  rw [Row.of, Text.splitLast_append h]
  rfl

theorem of_eq_of_notMem {path : List Char} (h : '/' ∉ path) (record : String) :
    Row.of path record = ⟨String.ofList path, "", String.ofList path, record⟩ := by
  rw [Row.of, Text.splitLast_of_notMem h]
  rfl

end Row

namespace Rows

/-- Each row of a table is its path, cut at the last slash. -/
def Split (t : Rows) : Prop := ∀ row ∈ t.rows, row = Row.of row.path.toList row.record

/-- Whether a table has a row with a path. -/
def Has (t : Rows) (key : String) : Prop := ∃ row ∈ t.rows, row.path = key

/-- Where each row is its path, cut at the last slash, a write leaves such a row. -/
theorem Split.rowFor_eq {t : Rows} (h : t.Split) (path record : String) :
    t.rowFor path record = Row.of (normalChars path) record := by
  rw [rowFor]
  split
  · next row hrow =>
    have hpath : row.path = normalize path := by simpa using List.find?_some hrow
    rw [h row (List.mem_of_find?_eq_some hrow), hpath, toList_normalize]
    rfl
  · rfl

theorem mem_rows_write {t : Rows} {path : String} {record : Assoc Json} {row : Row} :
    row ∈ (t.write path record).rows ↔ row = t.rowFor path (Json.obj record).print ∨
      row ∈ t.rows ∧ row.path ≠ normalize path := by
  simp [rows_write]

theorem Split.write {t : Rows} (h : t.Split) (path : String) (record : Assoc Json) :
    (t.write path record).Split := by
  intro row hrow
  rcases mem_rows_write.1 hrow with rfl | ⟨hold, -⟩
  · rw [h.rowFor_eq, Row.path_of, String.toList_ofList]
    rfl
  · exact h row hold

theorem has_write {t : Rows} {path : String} {record : Assoc Json} {key : String} :
    (t.write path record).Has key ↔ t.Has key ∨ normalize path = key := by
  simp only [Has, mem_rows_write]
  constructor
  · rintro ⟨row, rfl | ⟨hold, -⟩, hkey⟩
    · exact Or.inr ((t.path_rowFor _ _).symm.trans hkey)
    · exact Or.inl ⟨row, hold, hkey⟩
  · rintro (⟨row, hold, hkey⟩ | hkey)
    · by_cases h : row.path = normalize path
      · exact ⟨_, Or.inl rfl, (t.path_rowFor _ _).trans (h.symm.trans hkey)⟩
      · exact ⟨row, Or.inr ⟨hold, h⟩, hkey⟩
    · exact ⟨_, Or.inl rfl, (t.path_rowFor _ _).trans hkey⟩

theorem split_writes (ws : List (String × Assoc Json)) :
    (ws.foldl (fun t w => t.write w.1 w.2) Rows.empty).Split := by
  induction ws using List.reverseRecOn with
  | nil => exact fun row hrow => absurd hrow List.not_mem_nil
  | append_singleton ws w ih =>
    rw [List.foldl_append, List.foldl_cons, List.foldl_nil]
    exact ih.write w.1 w.2

/-- The paths of a table are those that were written. -/
theorem has_writes (ws : List (String × Assoc Json)) (key : String) :
    (ws.foldl (fun t w => t.write w.1 w.2) Rows.empty).Has key ↔ Written ws key := by
  induction ws using List.reverseRecOn with
  | nil => simp [Has, Rows.empty, Written]
  | append_singleton ws w ih =>
    rw [List.foldl_append, List.foldl_cons, List.foldl_nil, written_concat, ← ih, has_write]

theorem find?_write (t : Rows) (path : String) (record : Assoc Json) (q : String) :
    (t.write path record).find? q =
      if normalize path = normalize q then some (t.rowFor path (Json.obj record).print)
      else t.find? q := by
  rw [find?, rows_write, List.find?_cons, path_rowFor]
  by_cases h : normalize path = normalize q
  · rw [if_pos h, decide_eq_true h]
  · rw [if_neg h, decide_eq_false h, find?, List.find?_filter]
    refine congrArg (fun p => List.find? p t.rows) (funext fun row => ?_)
    by_cases hrow : row.path = normalize q
    · simp [hrow, Ne.symm h]
    · simp [hrow]

/-- The row of a path holds the text of what was written last. -/
theorem find?_writes (ws : List (String × Assoc Json)) (path : String) :
    (ws.foldl (fun t w => t.write w.1 w.2) Rows.empty).find? path =
      (lastAt ws path).map fun record =>
        Row.of (normalChars path) (Json.obj record).print := by
  induction ws using List.reverseRecOn with
  | nil => rfl
  | append_singleton ws w ih =>
    rw [List.foldl_append, List.foldl_cons, List.foldl_nil, find?_write,
      (split_writes ws).rowFor_eq, lastAt_concat, ih]
    split
    · next h => rw [Option.map_some, normalize_eq_normalize_iff.1 h]
    · rfl

/-- A table reads what was written last, if its text stands for it. -/
theorem read_writes {ws : List (String × Assoc Json)}
    (h : ∀ w ∈ ws, Json.parse? (Json.obj w.2).print = some (.obj w.2)) (path : String) :
    (ws.foldl (fun t w => t.write w.1 w.2) Rows.empty).read path = .ok (lastAt ws path) := by
  rw [read, find?_writes]
  cases hlast : lastAt ws path with
  | none => rfl
  | some record =>
    obtain ⟨w, hw, -, rfl⟩ := exists_of_lastAt_eq_some hlast
    have hrecord : (Row.of (normalChars path) (Json.obj w.2).print).record =
        (Json.obj w.2).print := rfl
    simp only [Option.map_some, hrecord, h w hw]

/-- The names of the rows whose parent is a directory are the keys right below it. -/
theorem mem_leaves_iff {t : Rows} (ht : t.Split) {directory : List Char} (hd : directory ≠ [])
    (name : String) :
    (∃ row ∈ t.rows, row.parent.toList = directory ∧ row.name = name) ↔
      ∃ key, t.Has key ∧ key.toList = directory ++ '/' :: name.toList ∧ '/' ∉ name.toList := by
  constructor
  · rintro ⟨row, hrow, hparent, rfl⟩
    refine ⟨row.path, ⟨row, hrow, rfl⟩, ?_⟩
    have hof := ht row hrow
    rcases Text.notMem_or_last '/' row.path.toList with hslash | ⟨a, b, hb, hpath⟩
    · rw [hof, Row.of_eq_of_notMem hslash] at hparent
      exact absurd hparent.symm hd
    · rw [hpath, Row.of_append hb] at hof
      have hname : row.name.toList = b := by rw [hof, String.toList_ofList]
      have hdir : directory = a := by rw [← hparent, hof, String.toList_ofList]
      rw [hname, hdir]
      exact ⟨hpath, hb⟩
  · rintro ⟨key, ⟨row, hrow, rfl⟩, hpath, hname⟩
    have hof := ht row hrow
    rw [hpath, Row.of_append hname, String.ofList_toList] at hof
    refine ⟨row, hrow, ?_, ?_⟩
    · rw [hof, String.toList_ofList]
    · rw [hof]

/-- The parents below a directory go through the directories in which some key is found. -/
theorem mem_directories_iff {t : Rows} (ht : t.Split) (directory : List Char) (name : String) :
    (∃ row ∈ t.rows, like (literalPattern directory ++ ['/', '%']) row.parent.toList = true ∧
      ∃ rest, row.parent.toList = directory ++ '/' :: rest ∧
        String.ofList ((Text.splitFirst '/' rest).1 ++ ['/']) = name) ↔
      ∃ key d rest, t.Has key ∧ '/' ∉ d ∧ key.toList = directory ++ '/' :: (d ++ '/' :: rest) ∧
        name.toList = d ++ ['/'] := by
  constructor
  · rintro ⟨row, hrow, -, below, hparent, rfl⟩
    have hof := ht row hrow
    rcases Text.notMem_or_last '/' row.path.toList with hslash | ⟨a, b, hb, hpath⟩
    · rw [hof, Row.of_eq_of_notMem hslash] at hparent
      simp at hparent
    · rw [hpath, Row.of_append hb] at hof
      have ha : a = directory ++ '/' :: below := by
        rw [← hparent, hof, String.toList_ofList]
      rcases Text.notMem_or_first '/' below with hbelow | ⟨d, rest, hd, rfl⟩
      · refine ⟨row.path, below, b, ⟨row, hrow, rfl⟩, hbelow, ?_, ?_⟩
        · rw [hpath, ha, List.append_assoc, List.cons_append]
        · rw [Text.splitFirst_of_notMem hbelow, String.toList_ofList]
      · refine ⟨row.path, d, rest ++ '/' :: b, ⟨row, hrow, rfl⟩, hd, ?_, ?_⟩
        · rw [hpath, ha]
          simp
        · rw [Text.splitFirst_append hd, String.toList_ofList]
  · rintro ⟨key, d, rest, ⟨row, hrow, rfl⟩, hd, hpath, hname⟩
    have hof := ht row hrow
    -- The last slash of the key stands right behind `d` or further on.
    have hparent : ∃ below, row.parent.toList = directory ++ '/' :: below ∧
        (Text.splitFirst '/' below).1 = d := by
      rcases Text.notMem_or_last '/' rest with hrest | ⟨a, b, hb, rfl⟩
      · have hcut : directory ++ '/' :: (d ++ '/' :: rest) =
            (directory ++ '/' :: d) ++ '/' :: rest := by simp
        rw [hpath, hcut, Row.of_append hrest] at hof
        refine ⟨d, ?_, by rw [Text.splitFirst_of_notMem hd]⟩
        rw [hof, String.toList_ofList]
      · have hcut : directory ++ '/' :: (d ++ '/' :: (a ++ '/' :: b)) =
            (directory ++ '/' :: (d ++ '/' :: a)) ++ '/' :: b := by simp
        rw [hpath, hcut, Row.of_append hb] at hof
        refine ⟨d ++ '/' :: a, ?_, by rw [Text.splitFirst_append hd]⟩
        rw [hof, String.toList_ofList]
    obtain ⟨below, hbelow, hfirst⟩ := hparent
    refine ⟨row, hrow, ?_, below, hbelow, ?_⟩
    · rw [hbelow]
      exact like_below directory below
    · rw [hfirst, ← hname, String.ofList_toList]

/-- A table lists the children of a directory other than the root. -/
theorem mem_list_iff {t : Rows} (ht : t.Split) {path : String} (hp : normalChars path ≠ [])
    (name : String) : name ∈ t.list path ↔ IsChild t.Has (normalize path) name := by
  have hleaves := mem_leaves_iff ht hp name
  have hdirectories := mem_directories_iff ht (normalChars path) name
  rw [list, mem_sortNames, List.mem_append, isChild_iff_below, toList_normalize]
  simp only [List.mem_map, List.mem_filter, List.mem_filterMap, Option.map_eq_some_iff,
    Text.stripFront?_eq_some_iff, List.append_assoc, List.singleton_append, decide_eq_true_eq,
    and_assoc]
  rw [hleaves, hdirectories]
  constructor
  · rintro (⟨key, hkey, hsplit, hname⟩ | ⟨key, d, rest, hkey, hd, hsplit, hname⟩)
    · exact ⟨key, name.toList, hkey, hsplit, Or.inl ⟨hname, rfl⟩⟩
    · exact ⟨key, _, hkey, hsplit, Or.inr ⟨d, rest, hd, rfl, hname⟩⟩
  · rintro ⟨key, below, hkey, hsplit, ⟨hbelow, rfl⟩ | ⟨d, rest, hd, rfl, hname⟩⟩
    · exact Or.inl ⟨key, hkey, hsplit, hbelow⟩
    · exact Or.inr ⟨key, d, rest, hkey, hd, hsplit, hname⟩

end Rows

/-! ## One answer -/

/-- A store answers as if some writes had been made to it while it was empty: a path is read as the
last write at one of its spellings left it, and below a directory its children are listed, in the
order of their bytes. -/
structure Answers {σ : Type} [RecordStore σ] (s : σ) (ws : List (String × Assoc Json)) : Prop where
  /-- What is read. -/
  read : ∀ path, RecordStore.read s path = .ok (lastAt ws path)
  /-- What is listed. -/
  list : ∀ path, normalChars path ≠ [] → ∃ names, RecordStore.list s path = .ok (sortNames names) ∧
    ∀ name, name ∈ names ↔ IsChild (Written ws) (normalize path) name

/-- Writes to an empty tree succeed, and it answers as they say. -/
theorem Answers.of_tree (ws : List (String × Assoc Json)) :
    ∃ tree : Tree, writeAll Tree.empty ws = .ok tree ∧ Answers tree ws := by
  refine ⟨_, writeAll_eq_ok (fun _ _ _ => rfl) _ ws,
    fun path => congrArg Except.ok (Tree.read_writes ws path), fun path _ => ⟨_, rfl, ?_⟩⟩
  intro name
  rw [← mem_sortNames, ← isChild_congr (Tree.mem_paths_writes ws)]
  exact Tree.mem_list_iff _ path name

/-- Writes to an empty table succeed, and it answers as they say, if the text of each record stands
for it. -/
theorem Answers.of_rows {ws : List (String × Assoc Json)}
    (h : ∀ w ∈ ws, Json.parse? (Json.obj w.2).print = some (.obj w.2)) :
    ∃ rows : Rows, writeAll Rows.empty ws = .ok rows ∧ Answers rows ws := by
  refine ⟨_, writeAll_eq_ok (fun _ _ _ => rfl) _ ws, Rows.read_writes h,
    fun path hp => ⟨_, rfl, ?_⟩⟩
  intro name
  rw [← mem_sortNames, ← isChild_congr (Rows.has_writes ws)]
  exact Rows.mem_list_iff (Rows.split_writes ws) hp name

/-- Writes to an empty store of either kind succeed, and it answers as they say. -/
theorem Answers.of_backend {backend : Backend}
    (hempty : backend = .memory .empty ∨ backend = .table .empty)
    {ws : List (String × Assoc Json)}
    (h : ∀ w ∈ ws, Json.parse? (Json.obj w.2).print = some (.obj w.2)) :
    ∃ store, writeAll backend ws = .ok store ∧ Answers store ws := by
  rcases hempty with rfl | rfl
  · obtain ⟨tree, hwrites, hread, hlist⟩ := Answers.of_tree ws
    refine ⟨.memory tree, ?_, hread, hlist⟩
    rw [writeAll_map (f := Backend.memory) (fun _ _ _ => rfl), hwrites]
    rfl
  · obtain ⟨rows, hwrites, hread, hlist⟩ := Answers.of_rows h
    refine ⟨.table rows, ?_, hread, hlist⟩
    rw [writeAll_map (f := Backend.table) (fun _ _ _ => rfl), hwrites]
    rfl

/-- Stores that answer as if the same writes had been made to them list the same names. -/
theorem Answers.list_eq {σ τ : Type} [RecordStore σ] [RecordStore τ] {s : σ} {t : τ}
    {ws : List (String × Assoc Json)} (hs : Answers s ws) (ht : Answers t ws) {path : String}
    (hp : normalChars path ≠ []) : RecordStore.list s path = RecordStore.list t path := by
  obtain ⟨ns, hns, hmem⟩ := hs.list path hp
  obtain ⟨ms, hms, hmem'⟩ := ht.list path hp
  rw [hns, hms, sortNames_eq_of_mem_iff fun name => (hmem name).trans (hmem' name).symm]

/-- A tree and a table to which the same writes are made answer alike. A path is read as the last
record written at one of its spellings. Below a path that is more than slashes both list the same
names, strictly sorted by their bytes: the keys right below it, and with a slash behind it each
directory right below it in which some key is found. -/
theorem tree_and_rows_agree (ws : List (String × Assoc Json))
    (h : ∀ w ∈ ws, Json.parse? (Json.obj w.2).print = some (.obj w.2)) :
    ∃ (tree : Tree) (rows : Rows),
      writeAll Tree.empty ws = .ok tree ∧ writeAll Rows.empty ws = .ok rows ∧
      (∀ path, RecordStore.read tree path = .ok (lastAt ws path) ∧
        RecordStore.read rows path = .ok (lastAt ws path)) ∧
      ∀ path : String, (∃ c ∈ path.toList, c ≠ '/') → ∃ names,
        RecordStore.list tree path = .ok names ∧ RecordStore.list rows path = .ok names ∧
        (names.Pairwise fun a b => Text.utf8 a < Text.utf8 b) ∧
        ∀ name, name ∈ names ↔ IsChild (Written ws) (normalize path) name := by
  obtain ⟨tree, htreeWrites, htree⟩ := Answers.of_tree ws
  obtain ⟨rows, hrowsWrites, hrows⟩ := Answers.of_rows h
  refine ⟨tree, rows, htreeWrites, hrowsWrites,
    fun path => ⟨htree.read path, hrows.read path⟩, fun path hp => ?_⟩
  have hne := normalChars_ne_nil_iff.2 hp
  obtain ⟨ns, hns, hmem⟩ := htree.list path hne
  refine ⟨sortNames ns, hns, ?_, pairwise_utf8_sortNames ns, fun name => ?_⟩
  · rw [← htree.list_eq hrows hne]
    exact hns
  · rw [mem_sortNames, hmem]

/-- Writes at two spellings of a path that is a directory, too. -/
def sampleWrites : List (String × Assoc Json) :=
  [("/a/b", [("n", .int 1)]), ("a/b/", [("n", .int 2)]), ("a/b/c/d", [("n", .int 3)])]

/-- The later of two spellings counts, and a record with a directory of its name is listed twice. -/
theorem agree_on_sampleWrites : ∃ (tree : Tree) (rows : Rows) (names : List String),
    writeAll Tree.empty sampleWrites = .ok tree ∧ writeAll Rows.empty sampleWrites = .ok rows ∧
    RecordStore.read tree "a/b" = .ok (some [("n", .int 2)]) ∧
    RecordStore.read rows "a/b" = .ok (some [("n", .int 2)]) ∧
    RecordStore.list tree "a" = .ok names ∧ RecordStore.list rows "a" = .ok names ∧
    "b" ∈ names ∧ "b/" ∈ names := by
  have hjson : ∀ w ∈ sampleWrites, Json.parse? (Json.obj w.2).print = some (.obj w.2) := by
    intro w hw
    simp only [sampleWrites, List.mem_cons, List.not_mem_nil, or_false] at hw
    rcases hw with rfl | rfl | rfl <;> with_unfolding_all rfl
  have hlast : lastAt sampleWrites "a/b" = some [("n", .int 2)] := by
    with_unfolding_all rfl
  have hkey : Written sampleWrites "a/b" := ⟨("/a/b", _), List.mem_cons_self, by decide +kernel⟩
  have hbelow : Written sampleWrites "a/b/c/d" :=
    ⟨("a/b/c/d", [("n", .int 3)]), by simp [sampleWrites], by decide +kernel⟩
  obtain ⟨tree, rows, htree, hrows, hread, hlist⟩ := tree_and_rows_agree sampleWrites hjson
  obtain ⟨names, hns, hms, -, hmem⟩ := hlist "a" ⟨'a', by simp, by decide⟩
  have hdir : normalize "a" = "a" := by decide +kernel
  refine ⟨tree, rows, names, htree, hrows, ?_, ?_, hns, hms, ?_, ?_⟩
  · rw [(hread "a/b").1, hlast]
  · rw [(hread "a/b").2, hlast]
  · rw [hmem, hdir]
    exact Or.inl ⟨by simp, hkey⟩
  · rw [hmem, hdir]
    exact Or.inr ⟨"b", by simp, rfl, _, hbelow, ⟨['c', '/', 'd'], by simp⟩⟩

end PluginKernel.Store
