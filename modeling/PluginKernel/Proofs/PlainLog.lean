import PluginKernel.Proofs.PlainErrors
import PluginKernel.Store.Backend

/-!
# Plain lines in the log

What is logged of a ledger and of an attachment is made of texts that came from outside: names,
identifiers, paths and wordings. None of them is sanitized, so an event is as plain as they are.
-/

namespace PluginKernel

open Text

/-- No text of an event has a control character in it. -/
structure LogEvent.IsPlain (e : LogEvent) : Prop where
  message : Text.IsPlain e.message
  fields : ∀ f ∈ e.fields, Text.IsPlain f.2

/-- All events of a list are plain. -/
def PlainEvents (es : List LogEvent) : Prop := ∀ e ∈ es, e.IsPlain

namespace PlainEvents

variable {es fs : List LogEvent} {e : LogEvent}

theorem nil : PlainEvents [] := fun _ h => absurd h List.not_mem_nil

theorem singleton (h : e.IsPlain) : PlainEvents [e] := List.forall_mem_singleton.2 h

theorem append (hes : PlainEvents es) (hfs : PlainEvents fs) : PlainEvents (es ++ fs) :=
  List.forall_mem_append.2 ⟨hes, hfs⟩

end PlainEvents

/-! ## Ledgers -/

/-- The texts of a milestone are plain. -/
structure Milestone.IsPlain (m : Milestone) : Prop where
  flowGroup : Text.IsPlain m.flowGroup
  flowName : Text.IsPlain m.flowName
  stateName : Text.IsPlain m.stateName
  stateCode : Text.IsPlain m.stateCode

/-- The texts of a statistic are plain. -/
def Statistic.IsPlain (s : Statistic) : Prop := s.milestone.IsPlain

/-- The name of a ledger and the texts of its entries are plain. -/
structure Ledger.IsPlain (l : Ledger) : Prop where
  name : Text.IsPlain l.name
  statistics : ∀ s ∈ l.statistics, s.IsPlain

/-- The place where a ledger is filed is plain. -/
structure Filing.IsPlain (filing : Filing) : Prop where
  basePath : Text.IsPlain filing.basePath
  idName : Text.IsPlain filing.idName
  id : Text.IsPlain filing.id

theorem Statistic.isPlain_logEvent {s : Statistic} (hs : s.IsPlain) {ledger : String}
    (h : Text.IsPlain ledger) : (s.logEvent ledger).IsPlain where
  message := .append (.append hs.flowName (by decide)) hs.stateName
  fields := by
    simp only [logEvent, List.forall_mem_cons]
    exact ⟨h, hs.flowGroup, hs.stateCode, Duration.isPlain_format _, fun _ hf => nomatch hf⟩

namespace Milestone

variable {m : Milestone} {plugin : String}

theorem isPlain_startUp (h : Text.IsPlain plugin) : (startUp plugin).IsPlain :=
  ⟨(by decide : Text.IsPlain systemGroup), h, (by decide : Text.IsPlain "Start up"),
    (by decide : Text.IsPlain "1")⟩

theorem isPlain_shutdown (h : Text.IsPlain plugin) : (shutdown plugin).IsPlain :=
  ⟨(by decide : Text.IsPlain systemGroup), h, (by decide : Text.IsPlain "Shutdown"),
    (by decide : Text.IsPlain "0")⟩

theorem isPlain_failed (h : m.IsPlain) : m.failed.IsPlain := by
  rw [failed]
  split
  · exact h
  · exact ⟨h.flowGroup, h.flowName, .append (.append h.stateName (by decide)) (by decide),
      h.stateCode⟩

end Milestone

namespace Ledger

variable {l : Ledger} {m : Milestone} {name : String}

theorem IsPlain.lastMilestone? (h : l.IsPlain) (hm : l.lastMilestone? = some m) : m.IsPlain := by
  obtain ⟨s, hs, rfl⟩ := Option.map_eq_some_iff.1 hm
  exact h.statistics s (List.mem_of_getLast? hs)

theorem IsPlain.record (h : l.IsPlain) (hname : Text.IsPlain name) (hm : m.IsPlain) (mode : Int64)
    (now : Nat) : (l.record name m mode now).IsPlain where
  name := hname
  statistics := by
    rw [statistics_record, List.forall_mem_append, List.forall_mem_singleton]
    exact ⟨h.statistics, hm⟩

theorem isPlain_new (hname : Text.IsPlain name) (logsEntries : Bool) (now : Nat) :
    (new name logsEntries now).IsPlain := ⟨hname, fun _ hs => nomatch hs⟩

/-- What finishing a ledger logs is as plain as the ledger. -/
theorem IsPlain.finishEvents (h : l.IsPlain) : PlainEvents l.finishEvents := by
  rw [Ledger.finishEvents]
  split
  · exact .nil
  · intro e he
    obtain ⟨s, hs, rfl⟩ := List.mem_map.1 he
    exact Statistic.isPlain_logEvent (h.statistics s hs) h.name

theorem IsPlain.recordEvents (h : l.IsPlain) (hname : Text.IsPlain name) (hm : m.IsPlain)
    (mode : Int64) (now : Nat) : PlainEvents (l.recordEvents name m mode now) := by
  have hrecord := h.record hname hm mode now
  refine .append ?_ hrecord.finishEvents
  rw [pushEvents]
  split
  · refine .singleton (Statistic.isPlain_logEvent ?_ h.name)
    exact hrecord.statistics _ (List.mem_append_right _ (List.mem_singleton_self _))
  · exact .nil

end Ledger

/-! ## Ledgers in a store -/

namespace Filing

variable {filing : Filing} {g f c : String}

theorem isPlain_flowDirectory (h : filing.IsPlain) (hg : Text.IsPlain g) (hf : Text.IsPlain f) :
    Text.IsPlain (filing.flowDirectory g f) := by
  have hbase : Text.IsPlain (withoutTrailingSlashes filing.basePath) := by
    rw [withoutTrailingSlashes, isPlain_ofList]
    intro c hc
    have hmem := List.mem_reverse.1 ((List.dropWhile_suffix _).subset (List.mem_reverse.1 hc))
    exact h.basePath c hmem
  exact .append (.append (.append (.append (.append (.append (.append (.append hbase (by decide))
    h.idName) (by decide)) h.id) (by decide)) hg) (by decide)) hf

theorem isPlain_recordPath (h : filing.IsPlain) (hg : Text.IsPlain g) (hf : Text.IsPlain f)
    (hc : Text.IsPlain c) : Text.IsPlain (filing.recordPath g f c) :=
  .append (.append (isPlain_flowDirectory h hg hf) (by decide)) hc

end Filing

/-- A store whose failures at plain paths are worded plainly. -/
class PlainStore (σ : Type) [RecordStore σ] : Prop where
  write (store : σ) (path : String) (record : Assoc Json) : Text.IsPlain path →
    FailsPlainly StatisticError.message (RecordStore.write store path record)
  list (store : σ) (path : String) : Text.IsPlain path →
    FailsPlainly StatisticError.message (RecordStore.list store path)
  read (store : σ) (path : String) : Text.IsPlain path →
    FailsPlainly StatisticError.message (RecordStore.read store path)

namespace Store

instance : PlainStore Tree where
  write _ _ _ _ := .ok _
  list _ _ _ := .ok _
  read _ _ _ := .ok _

instance : PlainStore Rows where
  write _ _ _ _ := .ok _
  list _ _ _ := .ok _
  read store path hpath := by
    change FailsPlainly StatisticError.message (store.read path)
    rw [Rows.read]
    split
    · exact .ok _
    split
    · exact .error (by decide)
    · exact .ok _
    · exact .error (.append (.append (.append (by decide) hpath) (by decide)) (by decide))

instance : PlainStore Backend where
  write store path record hpath := by
    cases store with
    | memory tree => exact (PlainStore.write tree path record hpath).map _
    | table rows => exact (PlainStore.write rows path record hpath).map _
  list store path hpath := by
    cases store with
    | memory tree => exact PlainStore.list tree path hpath
    | table rows => exact PlainStore.list rows path hpath
  read store path hpath := by
    cases store with
    | memory tree => exact PlainStore.read tree path hpath
    | table rows => exact PlainStore.read rows path hpath

instance {σ : Type} [RecordStore σ] [PlainStore σ] : PlainStore (Faulty σ) where
  write store path record hpath := by
    simp only [RecordStore.write]
    split
    · exact .error (by decide)
    · exact (PlainStore.write store.store path record hpath).map _
  list store path hpath := by
    simp only [RecordStore.list]
    split
    · exact .error (by decide)
    · exact PlainStore.list store.store path hpath
  read store path hpath := by
    simp only [RecordStore.read]
    split
    · exact .error (by decide)
    split
    · exact .ok _
    · exact PlainStore.read store.store path hpath

end Store

namespace Ledger

variable {σ : Type} [RecordStore σ] [PlainStore σ] {filing : Filing} {g f : String}

theorem isPlain_failureEvent {message path : String} {e : StatisticError}
    (hmessage : Text.IsPlain message) (hpath : Text.IsPlain path) (he : Text.IsPlain e.message) :
    (failureEvent message path e).IsPlain where
  message := hmessage
  fields := by
    simp only [failureEvent, LogEvent.warn, List.forall_mem_cons]
    exact ⟨hpath, he, fun _ hf => nomatch hf⟩

/-- What is logged when an entry is written is plain if the entry and its place are. -/
theorem plainEvents_persistEntry (h : filing.IsPlain) {s : Statistic} (hs : s.IsPlain)
    {p : Persisting σ} (hp : PlainEvents p.events) :
    PlainEvents (persistEntry filing p s).events := by
  have hpath := Filing.isPlain_recordPath h hs.flowGroup hs.flowName hs.stateCode
  rw [persistEntry]
  split
  · exact hp
  · next e he =>
    exact hp.append (.singleton (isPlain_failureEvent (by decide) hpath
      (PlainStore.write _ _ _ hpath e he)))

theorem plainEvents_persist (h : filing.IsPlain) {l : Ledger} (hl : l.IsPlain) (store : σ) :
    PlainEvents (l.persist filing store).events := by
  have hfold : ∀ (ss : List Statistic), (∀ s ∈ ss, s.IsPlain) → ∀ p : Persisting σ,
      PlainEvents p.events → PlainEvents (ss.foldl (persistEntry filing) p).events := by
    intro ss
    induction ss with
    | nil => exact fun _ _ hp => hp
    | cons s ss ih =>
      intro hss p hp
      obtain ⟨hs, hss⟩ := List.forall_mem_cons.1 hss
      exact ih hss _ (plainEvents_persistEntry h hs hp)
  exact hfold l.statistics hl.statistics _ .nil

/-- What a store holds below a directory is plain: the names that it lists, and the texts of the
records under these names that stand for statistics. -/
structure PlainBelow (store : σ) (directory : String) : Prop where
  names : ∀ names, RecordStore.list store directory = .ok names → ∀ name ∈ names, Text.IsPlain name
  records : ∀ name members, RecordStore.read store (directory ++ "/" ++ name) = .ok (some members) →
    ∀ r, StoredStatistic.read (directory ++ "/" ++ name) members = .ok r → r.toStatistic.IsPlain

/-- An entry that is read is plain, and so is what is logged if it cannot be read. -/
theorem plain_readEntry {store : σ} {directory name : String} (hdirectory : Text.IsPlain directory)
    (hname : Text.IsPlain name) (hstore : PlainBelow store directory) :
    (∀ s, readEntry store directory name = .ok (some s) → s.IsPlain) ∧
      ∀ e, readEntry store directory name = .error e → e.IsPlain := by
  have hpath : Text.IsPlain (directory ++ "/" ++ name) :=
    .append (.append hdirectory (by decide)) hname
  have hfailure : ∀ e : StatisticError, Text.IsPlain e.message →
      (failureEvent "error reading dataflow statistic" (directory ++ "/" ++ name) e).IsPlain :=
    fun _ => isPlain_failureEvent (by decide) hpath
  rw [readEntry]
  cases hread : RecordStore.read store (directory ++ "/" ++ name) with
  | error cause =>
    refine ⟨fun s hs => (nomatch hs), fun e he => ?_⟩
    cases he
    exact hfailure cause (PlainStore.read store _ hpath cause hread)
  | ok members? =>
    cases members? with
    | none => exact ⟨fun s hs => (nomatch hs), fun e he => (nomatch he)⟩
    | some members =>
      dsimp only
      cases hr : StoredStatistic.read (directory ++ "/" ++ name) members with
      | error cause =>
        refine ⟨fun s hs => (nomatch hs), fun e he => ?_⟩
        cases he
        exact hfailure cause (StoredStatistic.failsPlainly_read hpath members cause hr)
      | ok r =>
        refine ⟨fun s hs => ?_, fun e he => (nomatch he)⟩
        cases hs
        exact hstore.records name members hread r hr

/-- What is retrieved from below a directory, and what is logged on the way, is as plain as what the
store holds there. -/
theorem plain_stored (h : filing.IsPlain) (hg : Text.IsPlain g) (hf : Text.IsPlain f) {store : σ}
    (hstore : PlainBelow store (filing.flowDirectory g f)) :
    (∀ s ∈ (stored filing g f store).1, s.IsPlain) ∧ PlainEvents (stored filing g f store).2 := by
  have hdirectory := Filing.isPlain_flowDirectory h hg hf
  rw [stored]
  cases hlist : RecordStore.list store (filing.flowDirectory g f) with
  | error e =>
    refine ⟨fun _ hs => (nomatch hs), .singleton ?_⟩
    exact isPlain_failureEvent (by decide) hdirectory (PlainStore.list _ _ hdirectory e hlist)
  | ok names =>
    have hname : ∀ name ∈ names.filter (!isDirectory ·), Text.IsPlain name := fun name hmem =>
      hstore.names names hlist name (List.mem_filter.1 hmem).1
    simp only [readEntries, List.filterMap_map]
    refine ⟨fun s hs => ?_, fun e he => ?_⟩
    · obtain ⟨name, hmem, hs⟩ := List.mem_filterMap.1 hs
      refine (plain_readEntry hdirectory (hname name hmem) hstore).1 s ?_
      dsimp only [Function.comp_apply] at hs
      split at hs
      · next hread => rw [hread, hs]
      · cases hs
    · obtain ⟨name, hmem, he⟩ := List.mem_filterMap.1 he
      refine (plain_readEntry hdirectory (hname name hmem) hstore).2 e ?_
      dsimp only [Function.comp_apply] at he
      split at he
      · cases he
      · next hread =>
        cases he
        exact hread

end Ledger

/-! ## Attaching a plugin -/

namespace Attachment

variable {a : Attachment}

/-- What a host names when it attaches a plugin is plain: the plugin, and what the check of its file
names. -/
structure IsPlain (a : Attachment) : Prop where
  plugin : Text.IsPlain a.plugin
  fileCheck : ∀ check, a.choices.fileCheck = some check → check.IsPlain

theorem isPlain_refusal (h : a.IsPlain) {message : String} (hmessage : Text.IsPlain message)
    {e : PluginError} (he : Text.IsPlain e.message) : (a.refusal message e).IsPlain where
  message := hmessage
  fields := by
    simp only [refusal, LogEvent.warn, List.forall_mem_cons]
    exact ⟨h.plugin, he, fun _ hf => nomatch hf⟩

end Attachment

theorem FileCheck.plainEvents {check : FileCheck} (h : check.IsPlain)
    (content : Except FileError Bytes) : PlainEvents (check.events content) := by
  have hdigest : ∀ digest, digestOf content = .ok digest → Text.IsPlain digest := by
    intro digest hdigest
    cases content with
    | error e => cases hdigest
    | ok bytes =>
      cases hdigest
      exact isPlain_hex _
  rw [events]
  split
  · next digest _ hok =>
    refine .singleton ⟨(by decide : Text.IsPlain "plugin version"), ?_⟩
    exact List.forall_mem_cons.2 ⟨h.1, List.forall_mem_singleton.2 (hdigest digest hok)⟩
  · next e _ he =>
    refine .singleton ⟨(by decide : Text.IsPlain "unable to sha256 plugin"), ?_⟩
    exact List.forall_mem_cons.2 ⟨h.1,
      List.forall_mem_singleton.2 (failsPlainly_digestOf content e he)⟩
  · split
    · exact .singleton ⟨(by decide : Text.IsPlain "plugin digest matches manifest"),
        List.forall_mem_singleton.2 h.1⟩
    · exact .nil
  · exact .nil

theorem Equipment.plainEvents_idEvents (bag : Bag) : PlainEvents (idEvents bag) := by
  rw [idEvents]
  split
  · exact .nil
  · exact .nil
  · exact .singleton ⟨(by decide : Text.IsPlain "ignoring non-text argos id"),
      List.forall_mem_singleton.2 (BagItem.isPlain_kind _)⟩

namespace Attachment

variable {a : Attachment}

theorem failsPlainly_checkFile (h : a.IsPlain) :
    FailsPlainly PluginError.message a.checkFile := by
  rw [checkFile]
  split
  · next check hcheck => exact FileCheck.failsPlainly_run (h.fileCheck check hcheck) _
  · exact .ok _

/-- Whatever else a host hands over, attaching logs plain lines. -/
theorem plainEvents_checked (h : a.IsPlain) :
    PlainEvents (match a.choices.fileCheck with
      | some check => check.events a.content
      | none => []) := by
  split
  · next check hcheck => exact FileCheck.plainEvents (h.fileCheck check hcheck) _
  · exact .nil

theorem plainEvents (h : a.IsPlain) : PlainEvents a.events := by
  rw [events]
  split
  · exact .nil
  have hchecked := plainEvents_checked h
  dsimp only
  split
  · next e he =>
    exact hchecked.append (.singleton (isPlain_refusal h (by decide)
      (failsPlainly_checkFile h e he)))
  · refine (hchecked.append (Equipment.plainEvents_idEvents _)).append (.singleton ?_)
    split
    · next e he =>
      exact isPlain_refusal h (by decide) (Equipment.failsPlainly_ofBag _ _ _ e he)
    · exact ⟨(by decide : Text.IsPlain "plugin initialized"),
        List.forall_mem_singleton.2 h.plugin⟩

end Attachment

end PluginKernel
