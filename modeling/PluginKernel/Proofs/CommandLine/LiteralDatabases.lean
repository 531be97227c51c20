import PluginKernel.Proofs.CommandLine.Databases
import PluginKernel.Proofs.CommandLine.RecordedRuns
import PluginKernel.Proofs.Ledger.StoredTimes
import PluginKernel.Proofs.Store.Connection

/-!
# Which file a path of a database leads to

A path of which nothing has a meaning in a connection text is a path like that of any other file:
what is kept by it is found by it, no path to another file finds it, and statistics are shown of the
file that was looked for. Every other path leads elsewhere, although the same characters are used to
ask whether there is a file.
-/

namespace PluginKernel.CommandLine

open Store.Database (IsLiteralPath ofPath ofPath_eq_file_iff ofPath_of_isLiteralPath)

namespace Machine

variable {m : Machine} {path other : String}

/-- What is kept in a file is not seen in another one. -/
theorem databaseAt_keep (h : m.place other ≠ m.place path) (rows : Store.Rows) :
    (m.keep path rows).databaseAt other = m.databaseAt other := by
  have hplace : (m.keep path rows).place other = m.place other := rfl
  rw [databaseAt, hplace, lookup_keep, if_neg h]
  rfl

/-- A file that is found by following a path is the one at the place where the path leads as a
text. -/
theorem databaseAt_of_find {content : FileContent} (h : m.find path = .ok content) :
    m.databaseAt path = some (rows? content) := by
  obtain ⟨-, -, hlook, -⟩ := find_eq_ok_iff.1 h
  rw [look] at hlook
  split at hlook
  next hlookup =>
    cases hlook
    rw [databaseAt, hlookup]
    rfl
  · cases hlook

/-- Where there is something already no file can be made. -/
theorem canCreate_eq_false (hexists : m.exists? path = true) : m.canCreate path = false := by
  rw [canCreate]
  split
  next hmissing _ =>
    rcases exists?_eq_true_iff.1 hexists with ⟨content, hfind⟩ | hfind
    · obtain ⟨-, -, hlook, -⟩ := find_eq_ok_iff.1 hfind
      rw [hmissing] at hlook
      cases hlook
    · obtain ⟨-, -, hdirectory⟩ := find_eq_isDirectory_iff.1 hfind
      rw [IsDirectory, hmissing] at hdirectory
      cases hdirectory
  · rfl

end Machine

namespace StatsArguments

variable {a : StatsArguments} {m : Machine}

theorem lines_of_stored {σ : Type} [RecordStore σ] {store : σ} {s : Statistic} {ss : List Statistic}
    (h : (Ledger.stored a.filing a.flowGroup a.flow store).1 = s :: ss) :
    a.lines store = (s :: ss).map statsLine := by
  rw [lines, h]

/-- Statistics are shown of the database that is there. -/
theorem execute_of_databaseAt {rows : Store.Rows} (hpath : IsLiteralPath a.database)
    (hexists : m.exists? a.database = true) (h : m.databaseAt a.database = some (some rows)) :
    a.execute m = (m.keep a.database rows, { output := a.lines rows }) := by
  rw [execute, hexists,
    Machine.openDatabase_of_databaseAt (ofPath_of_isLiteralPath hpath) h]
  rfl

/-- Nothing is shown and nothing changes if what is there is no database. -/
theorem execute_of_no_database (hpath : IsLiteralPath a.database)
    (hexists : m.exists? a.database = true)
    (h : ∀ rows, m.databaseAt a.database ≠ some (some rows)) :
    (a.execute m).1 = m ∧ (a.execute m).2.output = [] ∧
      (a.execute m).2.failure.isSome = true := by
  have hopen : ∃ f, m.openDatabase a.database = .error f := by
    cases hopen : m.openDatabase a.database with
    | error f => exact ⟨f, rfl⟩
    | ok d =>
      obtain ⟨-, hat | ⟨-, -, hcan⟩⟩ :=
        Machine.openDatabase_eq_ok (ofPath_of_isLiteralPath hpath) hopen
      · exact absurd hat (h _)
      · rw [Machine.canCreate_eq_false hexists] at hcan
        cases hcan
  obtain ⟨f, hopen⟩ := hopen
  rw [execute, hexists, hopen]
  exact ⟨rfl, rfl, rfl⟩

end StatsArguments

/-- What a database at a path is opened for is done to the file at the path. -/
structure LeadsToItsFile (m : Machine) (path : String) : Prop where
  /-- What is opened is what the file holds; it is made if there is none. -/
  opened : ∀ d, m.openDatabase path = .ok d → d.database = .file path true ∧
    (m.databaseAt path = some (some d.rows) ∨ m.databaseAt path = none ∧ d.rows = .empty)
  /-- What is kept is found when the path is opened again. -/
  found : ∀ d rows, m.openDatabase path = .ok d →
    (m.close { d with rows }).openDatabase path = .ok ⟨.file path true, rows⟩
  /-- It is not found through a path to another file. -/
  apart : ∀ d rows other e, m.openDatabase path = .ok d → IsLiteralPath other →
    m.place other ≠ m.place path →
      (m.close { d with rows }).openDatabase other = .ok e →
        m.databaseAt other = some (some e.rows) ∨ m.databaseAt other = none ∧ e.rows = .empty
  /-- What a run has kept is found as well. -/
  ran : ∀ (a : RunArguments) (credentials : Credentials) (source : ConfigSource) (d : OpenDatabase),
    a.database = some path → m.openDatabase path = .ok d →
      (a.runOn m credentials source).1.openDatabase path =
        .ok ⟨.file path true, (a.runWith m credentials source d.rows).1⟩
  /-- The file that is found if the path is followed is the one that is opened. -/
  checked : ∀ content, m.find path = .ok content →
    m.databaseAt path = some (Machine.rows? content)
  /-- Statistics are shown of the file that was found to be there. -/
  shown : ∀ (a : StatsArguments) (rows : Store.Rows), a.database = path → m.exists? path = true →
    m.databaseAt path = some (some rows) →
      a.execute m = (m.keep path rows, { output := a.lines rows })
  /-- If what was found is no database, nothing is shown and nothing changes. -/
  refused : ∀ a : StatsArguments, a.database = path → m.exists? path = true →
    (∀ rows, m.databaseAt path ≠ some (some rows)) →
      (a.execute m).1 = m ∧ (a.execute m).2.output = [] ∧ (a.execute m).2.failure.isSome = true

/-- A path leads to the file at it exactly if nothing of it has a meaning in a connection text. Then
everything that a database is opened for is done to this very file. -/
theorem literal_paths_lead_to_their_files (path : String) :
    ((∃ create, ofPath path = .ok (.file path create)) ↔ IsLiteralPath path) ∧
      (IsLiteralPath path → ∀ m, LeadsToItsFile m path) := by
  refine ⟨⟨fun ⟨create, h⟩ => (ofPath_eq_file_iff.1 h).1,
    fun h => ⟨true, ofPath_eq_file_iff.2 ⟨h, rfl⟩⟩⟩, fun hpath m => ?_⟩
  constructor
  case opened =>
    intro d hopen
    obtain ⟨hdatabase, hfound⟩ := Machine.openDatabase_eq_ok (ofPath_of_isLiteralPath hpath) hopen
    exact ⟨hdatabase, hfound.imp_right fun ⟨hnone, hempty, _⟩ => ⟨hnone, hempty⟩⟩
  case found =>
    intro d rows hopen
    obtain ⟨hclose, hagain⟩ :=
      Machine.close_of_openDatabase (ofPath_of_isLiteralPath hpath) hopen rows
    rw [hclose, hagain]
  case apart =>
    intro d rows other e hopen hother hne hopened
    rw [(Machine.close_of_openDatabase (ofPath_of_isLiteralPath hpath) hopen rows).1] at hopened
    obtain ⟨-, hfound⟩ := Machine.openDatabase_eq_ok (ofPath_of_isLiteralPath hother) hopened
    rw [Machine.databaseAt_keep hne] at hfound
    exact hfound.imp_right fun ⟨hnone, hempty, _⟩ => ⟨hnone, hempty⟩
  case ran =>
    intro a credentials source d ha hopen
    obtain ⟨hclose, hagain⟩ := Machine.close_of_openDatabase (ofPath_of_isLiteralPath hpath)
      hopen (a.runWith m credentials source d.rows).1
    have hrun : (a.runOn m credentials source).1 =
        m.close { d with rows := (a.runWith m credentials source d.rows).1 } := by
      rw [RunArguments.runOn, ha]
      simp only [hopen]
    rw [hrun, hclose, hagain]
  case checked => exact fun content => Machine.databaseAt_of_find
  case shown =>
    rintro a rows rfl hexists hthere
    exact StatsArguments.execute_of_databaseAt hpath hexists hthere
  case refused =>
    rintro a rfl hexists hnone
    exact StatsArguments.execute_of_no_database hpath hexists hnone

/-! ## A path with a percent sign -/

/-- The statistics of a plugin that was started. -/
def startedRows : Store.Rows :=
  Ledger.persistAll (StatsArguments.usual "" "a-1" "p1").filing .empty [Ledger.sampleAt .zero]

theorem lines_startedRows (path : String) :
    (StatsArguments.usual path "a-1" "p1").lines startedRows =
      ["ok     Start up                 code=1    mode=1 elapsed=0s"] := by
  have hgroup : IsSegment "System" := ⟨by decide, by decide⟩
  have hflow : IsSegment "p1" := ⟨by decide, by decide⟩
  have hnamed : ∀ s ∈ (Ledger.sampleAt .zero).statistics, s.IsNamed := by
    intro s hs
    rw [List.mem_singleton.1 hs]
    exact ⟨hgroup, hflow, by decide, by decide⟩
  have hstored := Ledger.stored_eq hnamed rfl hgroup hflow
    (Ledger.answers_persistAll (StatsArguments.usual path "a-1" "p1").filing
      [Ledger.sampleAt .zero])
  have hfound : (Ledger.stored (StatsArguments.usual path "a-1" "p1").filing "System" "p1"
      startedRows).1 = [(Statistic.of "System" "p1" "Start up" "1" 1 .zero).atResolution] := by
    refine (congrArg Prod.fst hstored).trans ?_
    decide +kernel
  have hline : statsLine (Statistic.of "System" "p1" "Start up" "1" 1 .zero).atResolution =
      "ok     Start up                 code=1    mode=1 elapsed=0s" := by decide +kernel
  rw [← hline]
  exact StatsArguments.lines_of_stored hfound

/-- A machine with these files. -/
def Machine.holding (files : List (Place × FileContent)) : Machine where
  files := files
  certificates := fun _ => ⟨"", "", ""⟩
  platform := .illiterate

/-- A percent sign without digits behind it means nothing. -/
theorem isLiteralPath_fifty : IsLiteralPath "50%.db" := by
  refine ⟨by decide, ?_, by decide, by decide, by decide⟩
  rintro ⟨back, hback, hbegins⟩
  cases hbegins with
  | intro hhigh hlow =>
    simp [List.suffix_cons_iff] at hback
    obtain ⟨rfl, -⟩ := hback
    exact absurd hhigh (by decide)

/-- So a database at a path with such a sign is made, found again and shown. -/
theorem fifty_leads_to_its_file : ∃ d, (Machine.holding []).openDatabase "50%.db" = .ok d ∧
    ((Machine.holding []).close { d with rows := startedRows }).openDatabase "50%.db" =
      .ok ⟨.file "50%.db" true, startedRows⟩ ∧
    ((StatsArguments.usual "50%.db" "a-1" "p1").execute
      (Machine.holding [(["50%.db"], .database startedRows)])).2.output =
        ["ok     Start up                 code=1    mode=1 elapsed=0s"] := by
  obtain ⟨-, hliteral⟩ := literal_paths_lead_to_their_files "50%.db"
  have hnone : (Machine.holding []).databaseAt "50%.db" = none := by decide +kernel
  have hcan : (Machine.holding []).canCreate "50%.db" = true := by decide +kernel
  have hopen := Machine.openDatabase_of_canCreate (ofPath_of_isLiteralPath isLiteralPath_fifty)
    hnone hcan
  have hfound := (hliteral isLiteralPath_fifty _).found _ startedRows hopen
  have hthere : (Machine.holding [(["50%.db"], .database startedRows)]).databaseAt "50%.db" =
      some (some startedRows) := by
    have hplace : (Machine.holding [(["50%.db"], .database startedRows)]).place "50%.db" =
        ["50%.db"] := by decide +kernel
    rw [Machine.databaseAt, hplace]
    rfl
  have hshown := (hliteral isLiteralPath_fifty _).shown (.usual "50%.db" "a-1" "p1") startedRows rfl
    (by decide +kernel) hthere
  refine ⟨_, hopen, hfound, ?_⟩
  rw [hshown]
  dsimp only
  exact lines_startedRows "50%.db"

/-- A machine with an empty file, and with statistics in a file that the path of the empty one
spells. -/
def Machine.twoFiles : Machine :=
  .holding [(["a%41.db"], .bytes []), (["aA.db"], .database startedRows)]

/-- A percent sign with two digits behind it stands for a byte. There is a file at the path, and it
holds no statistics; but what is shown are those that another file holds. -/
theorem encoded_path_leads_elsewhere :
    (¬ ∃ create, ofPath "a%41.db" = .ok (.file "a%41.db" create)) ∧
      Machine.twoFiles.exists? "a%41.db" = true ∧
      Machine.twoFiles.databaseAt "a%41.db" = some (some .empty) ∧
      (StatsArguments.usual "a%41.db" "a-1" "p1").lines Store.Rows.empty =
        ["No statistics recorded for System/p1."] ∧
      ((StatsArguments.usual "a%41.db" "a-1" "p1").execute Machine.twoFiles).2.output =
        ["ok     Start up                 code=1    mode=1 elapsed=0s"] := by
  have hpath : ofPath "a%41.db" = .ok (.file "aA.db" true) := by decide +kernel
  have hthere : Machine.twoFiles.exists? "a%41.db" = true := by decide +kernel
  have hother : Machine.twoFiles.databaseAt "aA.db" = some (some startedRows) := by
    have hplace : Machine.twoFiles.place "aA.db" = ["aA.db"] := by decide +kernel
    rw [Machine.databaseAt, hplace]
    rfl
  have hopen := Machine.openDatabase_of_databaseAt hpath hother
  refine ⟨?_, hthere, by decide +kernel, by decide +kernel, ?_⟩
  · rintro ⟨create, h⟩
    rw [hpath] at h
    have hfile := Except.ok.inj h
    injection hfile with hname
    exact absurd hname (by decide)
  · have hshown : (StatsArguments.usual "a%41.db" "a-1" "p1").execute Machine.twoFiles =
        (Machine.twoFiles.close ⟨.file "aA.db" true, startedRows⟩,
          { output := (StatsArguments.usual "a%41.db" "a-1" "p1").lines startedRows }) := by
      rw [StatsArguments.execute, show (StatsArguments.usual "a%41.db" "a-1" "p1").database =
        "a%41.db" from rfl, hthere, hopen]
      rfl
    rw [hshown]
    dsimp only
    exact lines_startedRows "a%41.db"

end PluginKernel.CommandLine
