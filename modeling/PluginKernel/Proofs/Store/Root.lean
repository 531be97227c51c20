import PluginKernel.Ledger.Storage
import PluginKernel.Proofs.Store.Agreement

/-!
# What is found from the root

The root is the directory whose path has nothing but slashes. Its children should be the keys
without a slash and the first segments of all others. Neither kind of store lists them: both look
for what follows a directory and a slash, and no key has a slash at its front. So a tree lists
nothing at its root. A table also lists the rows without a parent, and these are the keys without a
slash; it lists no directory.

That is all that is missing. Whoever knows the first segment of a key finds its record by listing
directories, unless the key has two slashes in a row.
-/

namespace PluginKernel.Store

/-! ## The root and its children -/

/-- A path that has nothing but slashes. -/
def IsRoot (path : String) : Prop := ∀ c ∈ path.toList, c = '/'

/-- A name is a child of the root: it is a key, or a slash follows it at the front of some key. -/
def IsRootChild (isKey : String → Prop) (name : String) : Prop :=
  ('/' ∉ name.toList ∧ isKey name) ∨
    ∃ d, '/' ∉ d.toList ∧ name = d ++ "/" ∧ ∃ key, isKey key ∧ name.toList <+: key.toList

/-- A store lists the children of the root, as some writes have left them. -/
def ListsRoot {σ : Type} [RecordStore σ] (s : σ) (ws : List (String × Assoc Json))
    (root : String) : Prop :=
  ∃ names, RecordStore.list s root = .ok names ∧
    ∀ name, name ∈ names ↔ IsRootChild (Written ws) name

theorem IsRoot.normalChars_eq {path : String} (h : IsRoot path) : normalChars path = [] := by
  by_contra hne
  obtain ⟨c, hc, hslash⟩ := normalChars_ne_nil_iff.1 hne
  exact hslash (h c hc)

/-- No key has a slash at its front. -/
theorem Written.toList_ne_cons {ws : List (String × Assoc Json)} {key : String}
    (h : Written ws key) (rest : List Char) : key.toList ≠ '/' :: rest := by
  obtain ⟨w, -, rfl⟩ := h
  intro hkey
  apply head?_normalChars w.1
  rw [← toList_normalize, hkey, List.head?_cons]

/-- Every key has a child of the root that leads to it. -/
theorem exists_isRootChild {isKey : String → Prop} {key : String} (h : isKey key) :
    ∃ name, IsRootChild isKey name ∧ ('/' ∈ key.toList → '/' ∈ name.toList) := by
  rcases Text.notMem_or_first '/' key.toList with hkey | ⟨d, rest, hd, hkey⟩
  · exact ⟨key, Or.inl ⟨hkey, h⟩, fun hslash => absurd hslash hkey⟩
  · refine ⟨String.ofList d ++ "/", Or.inr ⟨String.ofList d, by simpa using hd, rfl, key, h, ?_⟩,
      fun _ => by simp⟩
    rw [hkey]
    exact ⟨rest, by simp⟩

/-! ## Listing the root -/

namespace Tree

/-- A tree whose keys have no slash at the front lists nothing at its root. -/
theorem list_root {t : Tree} (h : ∀ key ∈ t.paths, ∀ rest, key.toList ≠ '/' :: rest)
    {root : String} (hroot : IsRoot root) : t.list root = [] := by
  have hnone : t.paths.filterMap (fun key =>
      (Text.stripFront? (normalChars root ++ ['/']) key.toList).map childOf) = [] := by
    rw [List.filterMap_eq_nil_iff, hroot.normalChars_eq]
    intro key hkey
    cases hstrip : Text.stripFront? ([] ++ ['/']) key.toList with
    | none => rfl
    | some rest => exact absurd (Text.stripFront?_eq_some_iff.1 hstrip) (h key hkey rest)
  rw [list, hnone]
  rfl

end Tree

namespace Rows

/-- A table whose keys have no slash at the front lists at its root those that have none at all. -/
theorem mem_list_root_iff {t : Rows} (ht : t.Split)
    (h : ∀ key, t.Has key → ∀ rest, key.toList ≠ '/' :: rest) {root : String}
    (hroot : IsRoot root) (name : String) :
    name ∈ t.list root ↔ t.Has name ∧ '/' ∉ name.toList := by
  -- what stands before the last slash of a key does not begin with a slash either
  have hparent : ∀ row ∈ t.rows, ∀ rest, row.parent.toList ≠ '/' :: rest := by
    intro row hrow rest hrest
    have hof := ht row hrow
    rcases Text.notMem_or_last '/' row.path.toList with hslash | ⟨a, b, hb, hpath⟩
    · rw [hof, Row.of_eq_of_notMem hslash] at hrest
      cases hrest
    · rw [hpath, Row.of_append hb] at hof
      have ha : a = '/' :: rest := by
        rw [← hrest, hof, String.toList_ofList]
      rw [ha] at hpath
      exact h row.path ⟨row, hrow, rfl⟩ _ hpath
  have hleaf : ∀ row ∈ t.rows, row.parent.toList = [] →
      row.name = row.path ∧ '/' ∉ row.path.toList := by
    intro row hrow hnil
    have hof := ht row hrow
    rcases Text.notMem_or_last '/' row.path.toList with hslash | ⟨a, b, hb, hpath⟩
    · refine ⟨?_, hslash⟩
      rw [hof, Row.of_eq_of_notMem hslash, String.ofList_toList]
    · rw [hpath, Row.of_append hb] at hof
      have ha : a = [] := by
        rw [← hnil, hof, String.toList_ofList]
      rw [ha] at hpath
      exact absurd hpath (h row.path ⟨row, hrow, rfl⟩ b)
  rw [list, hroot.normalChars_eq, mem_sortNames, List.mem_append]
  constructor
  · rintro (hname | hname)
    · obtain ⟨row, hrow, rfl⟩ := List.mem_map.1 hname
      obtain ⟨hrow, hnil⟩ := List.mem_filter.1 hrow
      obtain ⟨heq, hslash⟩ := hleaf row hrow (by simpa using hnil)
      rw [heq]
      exact ⟨⟨row, hrow, rfl⟩, hslash⟩
    · obtain ⟨row, hrow, hname⟩ := List.mem_filterMap.1 hname
      obtain ⟨rest, hrest, -⟩ := Option.map_eq_some_iff.1 hname
      exact absurd (Text.stripFront?_eq_some_iff.1 hrest)
        (hparent row (List.mem_filter.1 hrow).1 rest)
  · rintro ⟨⟨row, hrow, rfl⟩, hslash⟩
    left
    have hof := ht row hrow
    rw [Row.of_eq_of_notMem hslash, String.ofList_toList] at hof
    refine List.mem_map.2 ⟨row, List.mem_filter.2 ⟨hrow, ?_⟩, ?_⟩
    · rw [hof]
      rfl
    · rw [hof]

end Rows

/-! ## Descending -/

section Descending

variable {σ : Type} [RecordStore σ]

/-- The directories that are found from one: it is listed, and so is each directory that is found.
The name of a directory ends in a slash, so names are written one behind the other. -/
inductive LeadsTo (s : σ) (start : String) : String → Prop where
  | refl : LeadsTo s start start
  | down {directory name : String} {names : List String} (h : LeadsTo s start directory)
      (hlist : RecordStore.list s directory = .ok names) (hname : name ∈ names)
      (hdir : Ledger.isDirectory name = true) : LeadsTo s start (directory ++ name)

/-- A record is found from a directory: it is listed in one that the directory leads to. -/
def FoundFrom (s : σ) (start path : String) : Prop :=
  ∃ directory name names, LeadsTo s start directory ∧ RecordStore.list s directory = .ok names ∧
    name ∈ names ∧ Ledger.isDirectory name = false ∧ path = directory ++ name

/-- Where no directory is listed, what is found is what is listed. -/
theorem foundFrom_iff {s : σ} {start path : String} {names : List String}
    (hlist : RecordStore.list s start = .ok names)
    (hnames : ∀ name ∈ names, Ledger.isDirectory name = false) :
    FoundFrom s start path ↔ ∃ name ∈ names, path = start ++ name := by
  have hleads : ∀ directory, LeadsTo s start directory → directory = start := by
    intro directory h
    induction h with
    | refl => rfl
    | down h hlist' hname hdir ih =>
      rw [ih, hlist] at hlist'
      cases hlist'
      rw [hnames _ hname] at hdir
      cases hdir
  constructor
  · rintro ⟨directory, name, names', h, hlist', hname, -, rfl⟩
    obtain rfl := hleads directory h
    rw [hlist] at hlist'
    cases hlist'
    exact ⟨name, hname, rfl⟩
  · rintro ⟨name, hname, rfl⟩
    exact ⟨start, name, names, .refl, hlist, hname, hnames name hname, rfl⟩

/-- A store lists what is below each directory other than the root. -/
def ListsBelow (s : σ) (isKey : String → Prop) : Prop :=
  ∀ path, normalChars path ≠ [] → ∃ names, RecordStore.list s path = .ok names ∧
    ∀ name, name ∈ names ↔ IsChild isKey (normalize path) name

/-- A path none of whose segments is empty. -/
structure HasSegments (path : List Char) : Prop where
  /-- It has no slash at its front. -/
  front : path.head? ≠ some '/'
  /-- No two of its slashes stand in a row. -/
  row : ¬ ['/', '/'] <:+: path

/-- What stands before a slash of such a path is a directory, and its name may end in a slash. -/
theorem HasSegments.normalChars_directory {path a rest : List Char} (h : HasSegments path)
    (hsplit : path = a ++ '/' :: rest) : normalChars (String.ofList (a ++ ['/'])) = a ∧ a ≠ [] := by
  have hhead : a.head? ≠ some '/' := by
    intro ha
    apply h.front
    rw [hsplit, List.head?_append, ha, Option.some_or]
  have hlast : a.getLast? ≠ some '/' := by
    intro ha
    obtain ⟨front, rfl⟩ := List.getLast?_eq_some_iff.1 ha
    apply h.row
    exact ⟨front, rest, by rw [hsplit]; simp⟩
  constructor
  · rw [normalChars, String.toList_ofList, Text.trimBoth_append_right (by simp)]
    refine Text.trimBoth_eq_self_of_ends (fun c hc => ?_) (fun c hc => ?_)
    · exact beq_eq_false_iff_ne.2 fun heq => hhead (heq ▸ hc)
    · exact beq_eq_false_iff_ne.2 fun heq => hlast (heq ▸ hc)
  · rintro rfl
    apply h.front
    rw [hsplit]
    rfl

variable {s : σ} {isKey : String → Prop} {key : String} {d : List Char}

/-- From the first segment of a key each directory of the key is found. -/
theorem leadsTo_of_split (hs : ListsBelow s isKey) (hkey : isKey key)
    (hsegments : HasSegments key.toList) (hd : '/' ∉ d) (hfirst : d ++ ['/'] <+: key.toList)
    (a rest : List Char) (hsplit : key.toList = a ++ '/' :: rest) :
    LeadsTo s (String.ofList (d ++ ['/'])) (String.ofList (a ++ ['/'])) := by
  induction hn : a.length using Nat.strong_induction_on generalizing a rest with
  | _ n ih =>
    rcases Text.notMem_or_last '/' a with ha | ⟨b, segment, hsegment, rfl⟩
    · obtain ⟨tail, htail⟩ := hfirst
      rw [hsplit, List.append_assoc, List.singleton_append] at htail
      rw [(Text.append_sep_inj hd ha htail).1]
      exact .refl
    · have hcut : key.toList = b ++ '/' :: (segment ++ '/' :: rest) := by
        rw [hsplit]
        simp
      obtain ⟨hdirectory, hb⟩ := hsegments.normalChars_directory hcut
      obtain ⟨names, hlist, hnames⟩ := hs (String.ofList (b ++ ['/'])) (hdirectory.symm ▸ hb)
      have hchild : String.ofList (segment ++ ['/']) ∈ names := by
        rw [hnames, normalize, hdirectory]
        refine Or.inr ⟨String.ofList segment, by simpa using hsegment, ?_, key, hkey, rest, ?_⟩
        · rw [String.ofList_append]
        · rw [hcut]
          simp
      have hleads := ih b.length (by rw [← hn]; simp) b (segment ++ '/' :: rest) hcut rfl
      have hdown := hleads.down hlist hchild (by simp [Ledger.isDirectory])
      have hjoin : String.ofList (b ++ ['/']) ++ String.ofList (segment ++ ['/']) =
          String.ofList (b ++ '/' :: segment ++ ['/']) := by
        rw [← String.ofList_append]
        simp
      rwa [hjoin] at hdown

/-- From the first segment of a key its record is found. -/
theorem foundFrom_of_isKey (hs : ListsBelow s isKey) (hkey : isKey key)
    (hsegments : HasSegments key.toList) (hd : '/' ∉ d) (hfirst : d ++ ['/'] <+: key.toList) :
    FoundFrom s (String.ofList (d ++ ['/'])) key := by
  have hslash : '/' ∈ key.toList := hfirst.subset (by simp)
  obtain ⟨a, leaf, hleaf, hsplit⟩ :=
    (Text.notMem_or_last '/' key.toList).resolve_left (not_not_intro hslash)
  obtain ⟨hdirectory, ha⟩ := hsegments.normalChars_directory hsplit
  obtain ⟨names, hlist, hnames⟩ := hs (String.ofList (a ++ ['/'])) (hdirectory.symm ▸ ha)
  have hname : '/' ∉ (String.ofList leaf).toList := by simpa using hleaf
  have hchild : String.ofList leaf ∈ names := by
    rw [hnames, normalize, hdirectory]
    have hpath : String.ofList a ++ "/" ++ String.ofList leaf = key := by
      rw [← String.toList_inj, hsplit]
      simp
    exact Or.inl ⟨hname, hpath.symm ▸ hkey⟩
  have hjoin : key = String.ofList (a ++ ['/']) ++ String.ofList leaf := by
    rw [← String.toList_inj, hsplit]
    simp
  exact ⟨_, _, names, leadsTo_of_split hs hkey hsegments hd hfirst a leaf hsplit, hlist, hchild,
    Ledger.isDirectory_of_notMem hname, hjoin⟩

end Descending

/-! ## What writes leave to be found -/

/-- Writes to an empty tree succeed. It lists nothing at its root, and each other directory. -/
theorem exists_tree (ws : List (String × Assoc Json)) :
    ∃ tree : Tree, writeAll Tree.empty ws = .ok tree ∧
      (∀ root, IsRoot root → RecordStore.list tree root = .ok []) ∧
      ListsBelow tree (Written ws) := by
  refine ⟨_, writeAll_eq_ok (fun _ _ _ => rfl) _ ws, fun root hroot => ?_, fun path _ => ?_⟩
  · refine congrArg Except.ok (Tree.list_root (fun key hkey => ?_) hroot)
    exact ((Tree.mem_paths_writes ws key).1 hkey).toList_ne_cons
  · refine ⟨_, rfl, fun name => ?_⟩
    rw [← isChild_congr (Tree.mem_paths_writes ws)]
    exact Tree.mem_list_iff _ path name

/-- Writes to an empty table succeed. It lists the keys without a slash at its root, sorted by their
bytes, and each other directory. -/
theorem exists_rows (ws : List (String × Assoc Json)) :
    ∃ rows : Rows, writeAll Rows.empty ws = .ok rows ∧
      (∀ root, IsRoot root → ∃ names, RecordStore.list rows root = .ok names ∧
        (names.Pairwise fun a b => Text.utf8 a < Text.utf8 b) ∧
        ∀ name, name ∈ names ↔ Written ws name ∧ '/' ∉ name.toList) ∧
      ListsBelow rows (Written ws) := by
  have hsplit := Rows.split_writes ws
  refine ⟨_, writeAll_eq_ok (fun _ _ _ => rfl) _ ws, fun root hroot => ?_, fun path hp => ?_⟩
  · refine ⟨_, rfl, pairwise_utf8_sortNames _, fun name => ?_⟩
    rw [← Rows.has_writes ws]
    refine Rows.mem_list_root_iff hsplit (fun key hkey => ?_) hroot name
    exact ((Rows.has_writes ws key).1 hkey).toList_ne_cons
  · refine ⟨_, rfl, fun name => ?_⟩
    rw [← isChild_congr (Rows.has_writes ws)]
    exact Rows.mem_list_iff hsplit hp name

/-- A list of the keys without a slash is the list of the children of the root exactly if no key has
one. -/
theorem listsRoot_iff {σ : Type} [RecordStore σ] {s : σ} {ws : List (String × Assoc Json)}
    {root : String} {names : List String} (hlist : RecordStore.list s root = .ok names)
    (hnames : ∀ name, name ∈ names ↔ Written ws name ∧ '/' ∉ name.toList) :
    ListsRoot s ws root ↔ ∀ key, Written ws key → '/' ∉ key.toList := by
  constructor
  · rintro ⟨names', hlist', hchildren⟩ key hkey hslash
    rw [hlist] at hlist'
    cases hlist'
    obtain ⟨name, hname, hdirectory⟩ := exists_isRootChild hkey
    rw [← hchildren, hnames] at hname
    exact hname.2 (hdirectory hslash)
  · intro h
    refine ⟨names, hlist, fun name => ?_⟩
    rw [hnames]
    constructor
    · rintro ⟨hkey, hslash⟩
      exact Or.inl ⟨hslash, hkey⟩
    · rintro (⟨hslash, hkey⟩ | ⟨d, -, rfl, key, hkey, hfront⟩)
      · exact ⟨hkey, hslash⟩
      · exact absurd (hfront.subset (by simp)) (h key hkey)

/-- A list of nothing is the list of the children of the root exactly if nothing was written. -/
theorem listsRoot_iff_eq_nil {σ : Type} [RecordStore σ] {s : σ} {ws : List (String × Assoc Json)}
    {root : String} (hlist : RecordStore.list s root = .ok []) : ListsRoot s ws root ↔ ws = [] := by
  constructor
  · rintro ⟨names, hlist', hchildren⟩
    rw [hlist] at hlist'
    cases hlist'
    by_contra hne
    obtain ⟨w, hw⟩ := List.exists_mem_of_ne_nil ws hne
    have hwritten : Written ws (normalize w.1) := ⟨w, hw, rfl⟩
    obtain ⟨name, hname, -⟩ := exists_isRootChild hwritten
    rw [← hchildren] at hname
    cases hname
  · rintro rfl
    refine ⟨[], hlist, fun name => ?_⟩
    constructor
    · intro h
      cases h
    · rintro (⟨-, w, hw, -⟩ | ⟨d, -, -, key, ⟨w, hw, -⟩, -⟩) <;> cases hw

/-- What is found from the root. Whatever is written to an empty tree and to an empty table, at any
spelling of the root the tree lists nothing, and the table the keys without a slash, sorted by their
bytes. These are the children of the root only if nothing was written to the tree, and if no key of
the table has a slash. So nothing is found by descending from the root of a tree, and from the root
of a table just the records whose keys have no slash.

Below the root nothing is missing. In both, a record whose key has a slash, but no two in a row, is
found by descending from the first segment of its key. -/
theorem root_lists_no_directory (ws : List (String × Assoc Json)) :
    ∃ (tree : Tree) (rows : Rows),
      writeAll Tree.empty ws = .ok tree ∧ writeAll Rows.empty ws = .ok rows ∧
      (∀ root, IsRoot root →
        RecordStore.list tree root = .ok [] ∧ (ListsRoot tree ws root ↔ ws = []) ∧
        (∀ path, ¬ FoundFrom tree root path) ∧
        (∃ names, RecordStore.list rows root = .ok names ∧
          (names.Pairwise fun a b => Text.utf8 a < Text.utf8 b) ∧
          ∀ name, name ∈ names ↔ Written ws name ∧ '/' ∉ name.toList) ∧
        (ListsRoot rows ws root ↔ ∀ key, Written ws key → '/' ∉ key.toList) ∧
        ∀ path, FoundFrom rows root path ↔
          ∃ key, Written ws key ∧ '/' ∉ key.toList ∧ path = root ++ key) ∧
      ∀ first key : String, '/' ∉ first.toList → Written ws key →
        (first ++ "/").toList <+: key.toList → ¬ ['/', '/'] <:+: key.toList →
        FoundFrom tree (first ++ "/") key ∧ FoundFrom rows (first ++ "/") key := by
  obtain ⟨tree, htree, htreeRoot, htreeBelow⟩ := exists_tree ws
  obtain ⟨rows, hrows, hrowsRoot, hrowsBelow⟩ := exists_rows ws
  refine ⟨tree, rows, htree, hrows, fun root hroot => ?_, fun first key hd hkey hfirst hrow => ?_⟩
  · have hnothing := htreeRoot root hroot
    obtain ⟨names, hlist, hsorted, hnames⟩ := hrowsRoot root hroot
    have hrecords : ∀ name ∈ names, Ledger.isDirectory name = false := fun name hname =>
      Ledger.isDirectory_of_notMem ((hnames name).1 hname).2
    refine ⟨hnothing, listsRoot_iff_eq_nil hnothing, fun path hfound => ?_,
      ⟨names, hlist, hsorted, hnames⟩, listsRoot_iff hlist hnames, fun path => ?_⟩
    · obtain ⟨name, hname, -⟩ := (foundFrom_iff hnothing (fun _ h => nomatch h)).1 hfound
      cases hname
    · rw [foundFrom_iff hlist hrecords]
      simp only [hnames, and_assoc]
  · have hsegments : HasSegments key.toList := by
      refine ⟨fun hhead => ?_, hrow⟩
      obtain ⟨rest, hrest⟩ := List.head?_eq_some_iff.1 hhead
      exact hkey.toList_ne_cons rest hrest
    have hstart : first ++ "/" = String.ofList (first.toList ++ ['/']) := by
      rw [← String.toList_inj]
      simp
    have hprefix : first.toList ++ ['/'] <+: key.toList := by simpa using hfirst
    rw [hstart]
    exact ⟨foundFrom_of_isKey htreeBelow hkey hsegments hd hprefix,
      foundFrom_of_isKey hrowsBelow hkey hsegments hd hprefix⟩

/-- A record with no directory, and one that is two directories deep. -/
def rootedWrites : List (String × Assoc Json) :=
  [("top", [("n", .int 1)]), ("/a/b/c", [("n", .int 2)])]

/-- From the root of the table only the first of the two is found, and the other one is found from
its first segment. -/
theorem found_of_rootedWrites : ∃ (tree : Tree) (rows : Rows),
    writeAll Tree.empty rootedWrites = .ok tree ∧ writeAll Rows.empty rootedWrites = .ok rows ∧
    RecordStore.list tree "//" = .ok [] ∧
    FoundFrom rows "//" "//top" ∧ ¬ FoundFrom rows "//" "//a/b/c" ∧
    FoundFrom tree "a/" "a/b/c" ∧ FoundFrom rows "a/" "a/b/c" := by
  obtain ⟨tree, rows, htree, hrows, hroot, hbelow⟩ := root_lists_no_directory rootedWrites
  obtain ⟨hnothing, -, -, -, -, hfound⟩ := hroot "//" (by simp [IsRoot])
  have htop : Written rootedWrites "top" := ⟨("top", _), List.mem_cons_self, by decide +kernel⟩
  have hdeep : Written rootedWrites "a/b/c" :=
    ⟨("/a/b/c", [("n", .int 2)]), by simp [rootedWrites], by decide +kernel⟩
  obtain ⟨htreeDeep, hrowsDeep⟩ := hbelow "a" "a/b/c" (by decide) hdeep (by decide) (by decide)
  have hshallow := (hfound "//top").2 ⟨"top", htop, by decide, by decide⟩
  refine ⟨tree, rows, htree, hrows, hnothing, hshallow, fun h => ?_, htreeDeep, hrowsDeep⟩
  obtain ⟨key, -, hslash, hpath⟩ := (hfound "//a/b/c").1 h
  have hkey : key.toList = "a/b/c".toList := by
    simpa using (congrArg String.toList hpath).symm
  rw [hkey] at hslash
  exact hslash (by decide)

/-- The directory of a record is not listed at the root, neither by a tree nor by a table. -/
theorem root_hides_directory : ∃ (tree : Tree) (rows : Rows),
    writeAll Tree.empty [("a/b", [])] = .ok tree ∧ writeAll Rows.empty [("a/b", [])] = .ok rows ∧
    IsRootChild (Written [("a/b", [])]) "a/" ∧
    RecordStore.list tree "" = .ok [] ∧ ¬ ListsRoot tree [("a/b", [])] "" ∧
    RecordStore.list rows "" = .ok [] ∧ ¬ ListsRoot rows [("a/b", [])] "" := by
  have hkey : normalize "a/b" = "a/b" := by decide +kernel
  have hchild : IsRootChild (Written [("a/b", [])]) "a/" :=
    Or.inr ⟨"a", by decide, by decide, "a/b", ⟨("a/b", []), List.mem_cons_self, hkey⟩, by decide⟩
  have hmissed : ∀ {σ : Type} [RecordStore σ] {s : σ}, RecordStore.list s "" = .ok [] →
      ¬ ListsRoot s [("a/b", [])] "" := by
    rintro σ _ s hlist ⟨names, hlist', hnames⟩
    rw [hlist] at hlist'
    cases hlist'
    cases (hnames "a/").2 hchild
  obtain ⟨tree, htree, htreeRoot, -⟩ := exists_tree [("a/b", [])]
  obtain ⟨rows, hrows, hrowsRoot, -⟩ := exists_rows [("a/b", [])]
  obtain ⟨names, hlist, -, hnames⟩ := hrowsRoot "" (by simp [IsRoot])
  have hnil : names = [] := by
    rw [List.eq_nil_iff_forall_not_mem]
    intro name hname
    obtain ⟨⟨w, hw, rfl⟩, hslash⟩ := (hnames name).1 hname
    rw [List.mem_singleton.1 hw, hkey] at hslash
    exact hslash (by decide)
  rw [hnil] at hlist
  have hnothing := htreeRoot "" (by simp [IsRoot])
  exact ⟨tree, rows, htree, hrows, hchild, hnothing, hmissed hnothing, hlist, hmissed hlist⟩

end PluginKernel.Store
