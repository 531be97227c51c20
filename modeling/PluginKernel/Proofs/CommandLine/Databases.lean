import PluginKernel.CommandLine.Outcome
import PluginKernel.Proofs.FirstError

/-!
# A database that was kept is found again

A database is opened at the place that its path spells, or made there if there is no file; so what
is kept there is what is opened the next time. Whether anything is found at the path is another
question, because then the path is followed: `exists?_keep_iff` says that the file is found exactly
if the path could be followed before, and if it does not end like that of a directory.
-/

namespace PluginKernel.CommandLine.Machine

variable {m m' : Machine} {path : String} {d : OpenDatabase}

/-- No statistics are kept at a path: there is no file, or one without any. -/
def IsFreshAt (m : Machine) (path : String) : Prop :=
  ∀ rows, m.databaseAt path = some (some rows) → rows = .empty

/-! ## Following a path -/

/-- There is a directory at a place. -/
def IsDirectory (m : Machine) (place : Place) : Prop := m.look place = .error .isDirectory

theorem isDirectory_iff {place : Place} : m.IsDirectory place ↔
    m.files.lookup place = none ∧ m.hasDirectory place = true := by
  rw [IsDirectory, look]
  cases m.files.lookup place with
  | some content => simp
  | none => cases m.hasDirectory place <;> simp

theorem follow_cons_eq_ok_iff {place place' : Place} {step : String} {rest : List String} :
    m.follow place (step :: rest) = .ok place' ↔
      m.IsDirectory place ∧ m.follow (goOn place step) rest = .ok place' := by
  rw [follow, IsDirectory]
  split
  next content h => simp [h]
  next h => simp [h]
  next e hne h =>
    rw [h]
    exact ⟨fun hok => (nomatch hok), fun hgo => absurd (Except.error.inj hgo.1) hne⟩

/-- Following ends nowhere but where the text of the path leads. -/
theorem eq_foldl_of_follow {place place' : Place} {steps : List String}
    (h : m.follow place steps = .ok place') : place' = steps.foldl goOn place := by
  induction steps generalizing place with
  | nil => exact (Except.ok.inj h).symm
  | cons step rest ih => exact ih (follow_cons_eq_ok_iff.1 h).2

/-- If following fails it is for something else than that a directory is there. -/
theorem follow_ne_isDirectory (place : Place) (steps : List String) :
    m.follow place steps ≠ .error .isDirectory := by
  induction steps generalizing place with
  | nil => exact fun h => nomatch h
  | cons step rest ih =>
    rw [follow]
    split
    · exact fun h => nomatch h
    · exact ih _
    next e hne _ => exact fun he => hne (Except.error.inj he)

/-- Where the same directories are, the same paths can be followed. -/
theorem follow_eq_ok_congr (h : ∀ place, m.IsDirectory place ↔ m'.IsDirectory place)
    {place place' : Place} {steps : List String} :
    m.follow place steps = .ok place' ↔ m'.follow place steps = .ok place' := by
  induction steps generalizing place with
  | nil => exact .rfl
  | cons step rest ih => rw [follow_cons_eq_ok_iff, follow_cons_eq_ok_iff, h, ih]

/-- A file is found at a path if the path can be followed to it and does not end like the path of a
directory. -/
theorem find_eq_ok_iff {content : FileContent} : m.find path = .ok content ↔ path ≠ "" ∧
    m.follow (m.origin path) (steps path) = .ok (m.place path) ∧
      m.look (m.place path) = .ok content ∧ endsInDirectory path = false := by
  by_cases hempty : path = ""
  · simp [hempty, find]
  rw [find, if_neg (by simpa using hempty), bind_eq_ok_iff]
  constructor
  · rintro ⟨place, hfollow, h⟩
    obtain rfl := eq_foldl_of_follow hfollow
    obtain ⟨content', hlook, h⟩ := bind_eq_ok_iff.1 h
    split at h
    · cases h
    next hends =>
      cases h
      exact ⟨hempty, hfollow, hlook, Bool.eq_false_iff.2 hends⟩
  · rintro ⟨-, hfollow, hlook, hends⟩
    exact ⟨_, hfollow, bind_eq_ok_iff.2 ⟨content, hlook, by rw [hends]; rfl⟩⟩

theorem find_eq_isDirectory_iff : m.find path = .error .isDirectory ↔ path ≠ "" ∧
    m.follow (m.origin path) (steps path) = .ok (m.place path) ∧ m.IsDirectory (m.place path) := by
  by_cases hempty : path = ""
  · simp [hempty, find]
  rw [find, if_neg (by simpa using hempty)]
  cases hfollow : m.follow (m.origin path) (steps path) with
  | error e =>
    refine ⟨fun h => ?_, fun h => (nomatch h.2.1)⟩
    obtain rfl : e = .isDirectory := Except.error.inj h
    exact absurd hfollow (follow_ne_isDirectory _ _)
  | ok place =>
    obtain rfl : place = m.place path := eq_foldl_of_follow hfollow
    rw [IsDirectory]
    cases hlook : m.look (m.place path) with
    | ok content => cases endsInDirectory path <;> simp [bind, Except.bind, hlook]
    | error e => simp [bind, Except.bind, hlook, hempty]

/-- There is something at a path if it leads to a file or to a directory. -/
theorem exists?_eq_true_iff : m.exists? path = true ↔
    (∃ content, m.find path = .ok content) ∨ m.find path = .error .isDirectory := by
  rw [exists?]
  cases m.find path with
  | ok content => simp
  | error e => cases e <;> simp

/-! ## Opening and keeping -/

/-- A path can be followed to a file: whatever it goes through is a directory, also what it leaves
again by a double dot, and it does not end like the path of a directory. -/
structure IsFollowed (m : Machine) (path : String) : Prop where
  followed : m.follow (m.origin path) (steps path) = .ok (m.place path)
  ending : endsInDirectory path = false

theorem openDatabase_of_databaseAt {name : String} {create : Bool} {rows : Store.Rows}
    (hpath : Store.Database.ofPath path = .ok (.file name create))
    (h : m.databaseAt name = some (some rows)) :
    m.openDatabase path = .ok ⟨.file name create, rows⟩ := by
  rw [openDatabase, Store.Database.openAt, hpath]
  simp only [bind, Except.bind, h]
  rfl

theorem openDatabase_of_canCreate (hpath : Store.Database.ofPath path = .ok (.file path true))
    (hnone : m.databaseAt path = none) (hcan : m.canCreate path = true) :
    m.openDatabase path = .ok ⟨.file path true, .empty⟩ := by
  rw [openDatabase, Store.Database.openAt, hpath]
  simp only [bind, Except.bind, hnone, hcan]
  rfl

/-- Opening a database at a path that is taken as it is finds what the file there holds, or nothing
if there is no file yet. -/
theorem openDatabase_eq_ok (hpath : Store.Database.ofPath path = .ok (.file path true))
    (h : m.openDatabase path = .ok d) : d.database = .file path true ∧
      (m.databaseAt path = some (some d.rows) ∨
        m.databaseAt path = none ∧ d.rows = .empty ∧ m.canCreate path = true) := by
  cases hat : m.databaseAt path with
  | none =>
    rw [openDatabase, Store.Database.openAt, hpath] at h
    simp only [bind, Except.bind, hat, Bool.true_and] at h
    split at h
    · cases h
    next hfound =>
      split at hfound
      next hcan =>
        cases hfound
        cases h
        exact ⟨rfl, .inr ⟨rfl, rfl, hcan⟩⟩
      · cases hfound
  | some found =>
    cases found with
    | none =>
      rw [openDatabase, Store.Database.openAt, hpath] at h
      simp only [bind, Except.bind, hat] at h
      cases h
    | some rows =>
      rw [openDatabase_of_databaseAt hpath hat] at h
      cases h
      exact ⟨rfl, .inl rfl⟩

theorem lookup_filter_ne (files : List (Place × FileContent)) {place other : Place}
    (h : place ≠ other) : (files.filter (·.1 != other)).lookup place = files.lookup place := by
  induction files with
  | nil => rfl
  | cons f files ih =>
    by_cases hother : f.1 = other
    · have hplace : (place == f.1) = false := beq_eq_false_iff_ne.2 fun hf => h (hf.trans hother)
      rw [List.filter_cons_of_neg (by simp [hother]), ih, List.lookup_cons, hplace]
    · rw [List.filter_cons_of_pos (by simp [hother]), List.lookup_cons, List.lookup_cons, ih]

theorem lookup_keep (m : Machine) (path : String) (rows : Store.Rows) (place : Place) :
    (m.keep path rows).files.lookup place =
      if place = m.place path then some (.database rows) else m.files.lookup place := by
  rw [keep, List.lookup_cons]
  by_cases h : place = m.place path
  · rw [if_pos h, h, beq_self_eq_true]
  · rw [if_neg h, beq_eq_false_iff_ne.2 h]
    exact lookup_filter_ne m.files h

/-- What is kept of a database that was opened at a path is opened there the next time. -/
theorem close_of_openDatabase (hpath : Store.Database.ofPath path = .ok (.file path true))
    (h : m.openDatabase path = .ok d) (rows : Store.Rows) :
    m.close { d with rows } = m.keep path rows ∧
      (m.keep path rows).openDatabase path = .ok ⟨.file path true, rows⟩ := by
  obtain ⟨hdatabase, -⟩ := openDatabase_eq_ok hpath h
  refine ⟨by rw [close, hdatabase], openDatabase_of_databaseAt hpath ?_⟩
  have hplace : (m.keep path rows).place path = m.place path := rfl
  rw [databaseAt, hplace, lookup_keep, if_pos rfl]
  rfl

/-- A database that is kept where there were no statistics: when it was opened it had no rows, and
what is kept is opened the next time. -/
theorem keep_of_openDatabase (hpath : Store.Database.ofPath path = .ok (.file path true))
    (hfresh : m.IsFreshAt path) (h : m.openDatabase path = .ok d) (rows : Store.Rows) :
    d.rows = .empty ∧ m.close { d with rows } = m.keep path rows ∧
      (m.keep path rows).openDatabase path = .ok ⟨.file path true, rows⟩ := by
  refine ⟨?_, close_of_openDatabase hpath h rows⟩
  obtain ⟨-, hat | ⟨-, hempty, -⟩⟩ := openDatabase_eq_ok hpath h
  · exact hfresh _ hat
  · exact hempty

/-! ## Finding what was kept -/

theorem hasDirectory_iff {place : Place} : m.hasDirectory place = true ↔
    place <+: m.directory ∨ (∃ d ∈ m.directories, place <+: d) ∨
      ∃ f ∈ m.files, place <+: f.1.dropLast := by
  simp [hasDirectory, List.any_eq_true, or_assoc]

/-- Whatever leads to a directory is one. -/
theorem hasDirectory_of_front {place front : Place} (h : m.hasDirectory place = true)
    (hfront : front <+: place) : m.hasDirectory front = true := by
  rw [hasDirectory_iff] at h ⊢
  rcases h with h | ⟨d, hd, h⟩ | ⟨f, hf, h⟩
  · exact .inl (hfront.trans h)
  · exact .inr (.inl ⟨d, hd, hfront.trans h⟩)
  · exact .inr (.inr ⟨f, hf, hfront.trans h⟩)

theorem hasDirectory_keep {rows : Store.Rows} {place : Place} :
    (m.keep path rows).hasDirectory place = true ↔
      m.hasDirectory place = true ∨ place <+: (m.place path).dropLast := by
  rw [hasDirectory_iff, hasDirectory_iff, keep]
  constructor
  · rintro (h | h | ⟨f, hf, h⟩)
    · exact .inl (.inl h)
    · exact .inl (.inr (.inl h))
    · rcases List.mem_cons.1 hf with rfl | hf
      · exact .inr h
      · exact .inl (.inr (.inr ⟨f, (List.mem_filter.1 hf).1, h⟩))
  · rintro ((h | h | ⟨f, hf, h⟩) | h)
    · exact .inl h
    · exact .inr (.inl h)
    · by_cases hplace : f.1 = m.place path
      · exact .inr (.inr ⟨_, List.mem_cons_self, hplace ▸ h⟩)
      · exact .inr (.inr ⟨f, List.mem_cons_of_mem _ (List.mem_filter.2 ⟨hf, by simpa⟩), h⟩)
    · exact .inr (.inr ⟨_, List.mem_cons_self, h⟩)

/-- A file that is made or replaced changes nothing about directories. -/
theorem isDirectory_keep (hpath : Store.Database.ofPath path = .ok (.file path true))
    (h : m.openDatabase path = .ok d) (rows : Store.Rows) (place : Place) :
    (m.keep path rows).IsDirectory place ↔ m.IsDirectory place := by
  -- either a file is replaced, or one is made in a directory
  have hthere : ¬ m.IsDirectory (m.place path) ∧ m.hasDirectory (m.place path).dropLast = true := by
    obtain ⟨-, hat | ⟨-, -, hcan⟩⟩ := openDatabase_eq_ok hpath h
    · obtain ⟨content, hlookup, -⟩ := Option.map_eq_some_iff.1 hat
      refine ⟨fun hdirectory => ?_, hasDirectory_iff.2 (.inr (.inr ?_))⟩
      · rw [(isDirectory_iff.1 hdirectory).1] at hlookup
        cases hlookup
      · obtain ⟨before, after, hfiles, -⟩ := List.lookup_eq_some_iff.1 hlookup
        exact ⟨(m.place path, content), by simp [hfiles], List.prefix_rfl⟩
    · rw [canCreate] at hcan
      split at hcan
      next hmissing hdirectory =>
        refine ⟨fun h => ?_, (isDirectory_iff.1 hdirectory).2⟩
        rw [IsDirectory, hmissing] at h
        cases h
      · cases hcan
  rw [isDirectory_iff, lookup_keep]
  by_cases hplace : place = m.place path
  · rw [if_pos hplace, hplace]
    exact ⟨fun h => (nomatch h.1), fun h => absurd h hthere.1⟩
  · rw [if_neg hplace, isDirectory_iff, hasDirectory_keep]
    exact and_congr_right fun _ => ⟨fun h => h.elim id (hasDirectory_of_front hthere.2), .inl⟩

/-- What was kept at a path is found there exactly if the path could be followed. -/
theorem exists?_keep_iff (hpath : Store.Database.ofPath path = .ok (.file path true))
    (h : m.openDatabase path = .ok d) (rows : Store.Rows) :
    (m.keep path rows).exists? path = true ↔ m.IsFollowed path := by
  have hplace : (m.keep path rows).place path = m.place path := rfl
  have horigin : (m.keep path rows).origin path = m.origin path := rfl
  have hlook : (m.keep path rows).look (m.place path) = .ok (.database rows) := by
    rw [look, lookup_keep, if_pos rfl]
  have hnone : ¬ (m.keep path rows).IsDirectory (m.place path) := by
    rw [IsDirectory, hlook]
    exact fun h => nomatch h
  rw [exists?_eq_true_iff, find_eq_isDirectory_iff]
  simp only [find_eq_ok_iff, hplace, horigin, follow_eq_ok_congr (isDirectory_keep hpath h rows)]
  constructor
  · rintro (⟨content, -, hfollow, -, hends⟩ | ⟨-, -, hdirectory⟩)
    · exact ⟨hfollow, hends⟩
    · exact absurd hdirectory hnone
  · intro hfollowed
    refine .inl ⟨_, ?_, hfollowed.followed, hlook, hfollowed.ending⟩
    rintro rfl
    exact absurd hfollowed.ending (by decide)

end PluginKernel.CommandLine.Machine
