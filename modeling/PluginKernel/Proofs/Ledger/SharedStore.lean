import PluginKernel.Proofs.Ledger.GrowingSnapshots

/-!
# Ledgers that share a store

All that is filed under one identifier lies below a place of its own: the base path, the name of
the identifier and the identifier with a slash behind it. Identifiers have no slash in them, so of
two different ones neither place is below the other, even if one identifier starts with the other.
So the writes for one identifier can be exchanged with those for another, and nothing that is
listed or read for one depends on the other.
-/

namespace PluginKernel

open Store

/-- Trimming leaves the front up to a character that is not trimmed, but for its own front. -/
theorem Text.dropWhile_append_prefix_trimBoth {p : Char → Bool} {c : Char} (hc : p c = false)
    (cs ds : List Char) : cs.dropWhile p ++ [c] <+: Text.trimBoth p (cs ++ c :: ds) := by
  have hfront : (cs ++ c :: ds).dropWhile p = (cs.dropWhile p ++ [c]) ++ ds := by
    rw [List.dropWhile_append]
    split
    · next hnil =>
      rw [List.isEmpty_iff.1 hnil, List.dropWhile_cons_of_neg (by simp [hc])]
      rfl
    · simp
  rw [Text.trimBoth, hfront, List.reverse_append, List.dropWhile_append]
  split
  · have hstop : (cs.dropWhile p ++ [c]).reverse.dropWhile p = (cs.dropWhile p ++ [c]).reverse := by
      rw [List.reverse_append, List.reverse_singleton, List.singleton_append,
        List.dropWhile_cons_of_neg (by simp [hc])]
    rw [hstop]
    exact (List.reverse_reverse _).symm ▸ List.prefix_rfl
  · rw [List.reverse_append, List.reverse_reverse]
    exact List.prefix_append _ _

namespace Filing

variable {filing filing' : Filing}

/-- What the places of all identifiers with one name start with. -/
def stem (filing : Filing) : List Char :=
  (Text.trimEnd (· == '/') filing.basePath.toList ++ ("/" ++ filing.idName ++ "/").toList).dropWhile
    (· == '/')

/-- The place of an identifier, which all that is filed under it lies below. -/
def home (filing : Filing) : List Char := filing.stem ++ (filing.id.toList ++ ['/'])

theorem dropWhile_append_id (hid : IsSegment filing.id) (front : List Char) :
    (front ++ (filing.id.toList ++ ['/'])).dropWhile (· == '/') =
      front.dropWhile (· == '/') ++ (filing.id.toList ++ ['/']) := by
  rw [List.dropWhile_append]
  split
  · next hnil =>
    obtain ⟨c, cs, hcs⟩ := List.exists_cons_of_ne_nil hid.toList_ne_nil
    have hc : c ≠ '/' := fun heq => hid.2 (by simp [hcs, heq])
    rw [List.isEmpty_iff.1 hnil, hcs, List.cons_append,
      List.dropWhile_cons_of_neg (by simpa using hc)]
    rfl
  · rfl

/-- Whatever is filed lies below the place of its identifier. -/
theorem home_prefix_normalChars (hid : IsSegment filing.id) {path : String} (back : List Char)
    (hpath : path.toList =
      Text.trimEnd (· == '/') filing.basePath.toList ++ filing.trunk ++ back) :
    filing.home <+: normalChars path := by
  have hsplit : path.toList = Text.trimEnd (· == '/') filing.basePath.toList ++
      ("/" ++ filing.idName ++ "/").toList ++ (filing.id.toList ++ ['/']) ++
        'D' :: ("ataFlowStatistics/DataFlowGroup/".toList ++ back) := by
    rw [hpath, trunk]
    simp
  rw [normalChars, hsplit]
  have hkept := Text.dropWhile_append_prefix_trimBoth (p := (· == '/')) (c := 'D') (by decide)
    (Text.trimEnd (· == '/') filing.basePath.toList ++ ("/" ++ filing.idName ++ "/").toList ++
      (filing.id.toList ++ ['/'])) ("ataFlowStatistics/DataFlowGroup/".toList ++ back)
  rw [dropWhile_append_id hid] at hkept
  exact (List.prefix_append _ _).trans hkept

theorem home_prefix_flowDirectory (hid : IsSegment filing.id) (g f : String) :
    filing.home <+: normalChars (filing.flowDirectory g f) :=
  home_prefix_normalChars hid _ (filing.toList_flowDirectory g f)

theorem home_prefix_recordPath (hid : IsSegment filing.id) (g f c : String) :
    filing.home <+: normalChars (filing.recordPath g f c) := by
  refine home_prefix_normalChars hid (flowChars g f ++ '/' :: c.toList) ?_
  rw [recordPath, String.toList_append, String.toList_append, toList_flowDirectory]
  simp

/-- Two filings differ in the identifier alone, and both identifiers are segments of a path. -/
structure Apart (filing filing' : Filing) : Prop where
  basePath : filing.basePath = filing'.basePath
  idName : filing.idName = filing'.idName
  left : IsSegment filing.id
  right : IsSegment filing'.id
  ne : filing.id ≠ filing'.id

theorem Apart.symm (h : filing.Apart filing') : filing'.Apart filing :=
  ⟨h.basePath.symm, h.idName.symm, h.right, h.left, h.ne.symm⟩

/-- The places of different identifiers lie apart. -/
theorem Apart.not_home_prefix (hapart : filing.Apart filing') {key : List Char}
    (h : filing.home <+: key) : ¬ filing'.home <+: key := by
  rintro ⟨rest', hrest'⟩
  obtain ⟨rest, hrest⟩ := h
  have hstem : filing'.stem = filing.stem := by rw [stem, stem, hapart.basePath, hapart.idName]
  rw [← hrest, home, home, hstem] at hrest'
  simp only [List.append_assoc, List.append_cancel_left_eq, List.singleton_append] at hrest'
  have hid := (Text.append_sep_inj hapart.left.2 hapart.right.2 hrest'.symm).1
  exact hapart.ne (String.toList_inj.1 hid)

end Filing

namespace Ledger

variable {filing filing' : Filing} {store : Backend}

/-- Writes below the place of another identifier change nothing of what is found in a flow. -/
theorem stored_putAll (hid : IsSegment filing.id) (hstore : store.IsConsistent)
    {ws : List (String × Assoc Json)}
    (hws : ∀ key, Written ws key → ¬ filing.home <+: key.toList) (g f : String) :
    stored filing g f (store.putAll ws) = stored filing g f store := by
  have hhome := Filing.home_prefix_flowDirectory hid g f
  have hne : normalChars (filing.flowDirectory g f) ≠ [] := by
    intro hnil
    rw [hnil, List.prefix_nil] at hhome
    simp [Filing.home] at hhome
  have hlist : RecordStore.list (store.putAll ws) (filing.flowDirectory g f) =
      RecordStore.list store (filing.flowDirectory g f) := by
    refine Backend.list_congr (hstore.putAll ws) hstore hne fun key hkey => ?_
    rw [Backend.has_putAll]
    refine ⟨fun h => h.resolve_right fun hw => hws key hw ?_, Or.inl⟩
    exact (hhome.trans (List.prefix_append _ _)).trans hkey
  have hentry : readEntry (store.putAll ws) (filing.flowDirectory g f) =
      readEntry store (filing.flowDirectory g f) := by
    funext name
    have hread : RecordStore.read (store.putAll ws) (filing.flowDirectory g f ++ "/" ++ name) =
        RecordStore.read store (filing.flowDirectory g f ++ "/" ++ name) := by
      refine Backend.read_putAll store fun hw => hws _ hw ?_
      rw [toList_normalize]
      exact Filing.home_prefix_recordPath hid g f name
    rw [readEntry, readEntry, hread]
  rw [stored, stored, hlist]
  cases RecordStore.list store (filing.flowDirectory g f) with
  | error e => rfl
  | ok names => simp only [readEntries, hentry]

/-! ## Two ledgers -/

/-- The entries of a ledger, each with where it is filed. -/
def filed (filing : Filing) (l : Ledger) : List (Filing × Statistic) :=
  l.statistics.map fun s => (filing, s)

/-- What writing entries one after the other makes of a store. -/
def writeFiled (store : Backend) (entries : List (Filing × Statistic)) : Backend :=
  (entries.foldl (fun p entry => persistEntry entry.1 p entry.2) ⟨store, {}, []⟩).store

theorem writeFiled_eq (store : Backend) (entries : List (Filing × Statistic)) :
    writeFiled store entries = store.putAll (entries.map fun entry => writeOf entry.1 entry.2) := by
  have hfold : ∀ p : Persisting Backend,
      (entries.foldl (fun p entry => persistEntry entry.1 p entry.2) p).store =
        p.store.putAll (entries.map fun entry => writeOf entry.1 entry.2) := by
    induction entries with
    | nil => exact fun _ => rfl
    | cons entry entries ih =>
      intro p
      have hentry : (persistEntry entry.1 p entry.2).store =
          p.store.put (writeOf entry.1 entry.2) := by
        have hwrite := p.store.write_eq_ok (writeOf entry.1 entry.2)
        rw [persistEntry, show RecordStore.write p.store (pathOf entry.1 entry.2)
          (StoredStatistic.ofStatistic entry.2).toMembers = _ from hwrite]
      rw [List.foldl_cons, ih, hentry]
      rfl
  exact hfold _

/-- Persisting a ledger is writing its entries one after the other. -/
theorem persist_eq_writeFiled (l : Ledger) (filing : Filing) (store : Backend) :
    (l.persist filing store).store = writeFiled store (filed filing l) := by
  rw [writeFiled_eq, store_persist, filed, List.map_map]
  rfl

theorem home_prefix_of_written (hid : IsSegment filing.id) {l : Ledger} {key : String}
    (h : Written ((filed filing l).map fun entry => writeOf entry.1 entry.2) key) :
    filing.home <+: key.toList := by
  obtain ⟨w, hw, rfl⟩ := h
  obtain ⟨entry, hentry, rfl⟩ := List.mem_map.1 hw
  obtain ⟨s, -, rfl⟩ := List.mem_map.1 hentry
  rw [toList_normalize]
  exact Filing.home_prefix_recordPath hid s.flowGroup s.flowName s.stateCode

/-- Stores that answer the same give the same statistics of a flow. -/
theorem stored_congr {b b' : Backend}
    (h : ∀ path, RecordStore.list b path = RecordStore.list b' path ∧
      RecordStore.read b path = RecordStore.read b' path) (g f : String) :
    stored filing g f b = stored filing g f b' := by
  have hentry : readEntry b = readEntry b' := by
    funext directory name
    rw [readEntry, readEntry, (h _).2]
  rw [stored, stored, (h _).1]
  cases RecordStore.list b' (filing.flowDirectory g f) with
  | error e => rfl
  | ok names => simp only [readEntries, hentry]

/-- However the writes of two ledgers are interleaved, one ledger could have come after the
other. -/
theorem same_of_interleaving (hapart : filing.Apart filing') {l l' : Ledger}
    (hstore : store.IsConsistent) {entries : List (Filing × Statistic)}
    (h : Interleaving (filed filing l) (filed filing' l') entries) :
    (writeFiled store entries).Same (l'.persist filing' (l.persist filing store).store).store := by
  rw [persist_eq_writeFiled, persist_eq_writeFiled, writeFiled_eq, writeFiled_eq, writeFiled_eq]
  refine Backend.same_putAll_of_interleaving (h.map _) hstore fun v hv w hw heq => ?_
  have hv' := home_prefix_of_written hapart.left ⟨v, hv, rfl⟩
  have hw' := home_prefix_of_written hapart.right ⟨w, hw, heq.symm⟩
  exact hapart.not_home_prefix hv' hw'

/-- What is found of a ledger does not depend on one that comes after it. -/
theorem stored_of_same (hapart : filing.Apart filing') {l l' : Ledger}
    (hstore : store.IsConsistent) {final : Backend}
    (h : final.Same (l'.persist filing' (l.persist filing store).store).store) (g f : String) :
    stored filing g f final = stored filing g f (l.persist filing store).store := by
  have hfirst : (l.persist filing store).store.IsConsistent := by
    rw [store_persist]
    exact hstore.putAll _
  rw [persist_eq_writeFiled l', writeFiled_eq] at h
  have hboth := hfirst.putAll ((filed filing' l').map fun entry => writeOf entry.1 entry.2)
  rw [← stored_congr (h.symm.answers hboth) g f]
  refine stored_putAll hapart.left hfirst (fun key hkey hbelow => ?_) g f
  exact hapart.not_home_prefix hbelow (home_prefix_of_written hapart.right hkey)

/-- Two ledgers are persisted into one store under different identifiers, with the same base path
and the same name of the identifier. However their writes are interleaved, the store ends as if
they had been persisted one after the other, in either order. And what is then found in any flow of
either identifier is what would be found had only the ledger of this identifier been persisted. -/
theorem persisted_apart (hapart : filing.Apart filing') (l l' : Ledger)
    (hstore : store.IsConsistent) {entries : List (Filing × Statistic)}
    (h : Interleaving (filed filing l) (filed filing' l') entries) :
    (writeFiled store entries).Same (l'.persist filing' (l.persist filing store).store).store ∧
      (writeFiled store entries).Same (l.persist filing (l'.persist filing' store).store).store ∧
      (∀ g f, stored filing g f (writeFiled store entries) =
        stored filing g f (l.persist filing store).store) ∧
      ∀ g f, stored filing' g f (writeFiled store entries) =
        stored filing' g f (l'.persist filing' store).store := by
  have hfirst := same_of_interleaving hapart hstore h
  have hsecond := same_of_interleaving hapart.symm hstore h.symm
  exact ⟨hfirst, hsecond, stored_of_same hapart hstore hfirst,
    stored_of_same hapart.symm hstore hsecond⟩

theorem sample_apart_sample : (Filing.sample "7").Apart (.sample "77") :=
  ⟨rfl, rfl, ⟨by decide, by decide⟩, ⟨by decide, by decide⟩, by decide⟩

/-- The timelines of two identifiers of which one starts with the other are written by turns, and
the one is found as if the other were not there. -/
theorem persisted_apart_sampleTimeline : ∃ entries,
    Interleaving (filed (.sample "7") sampleTimeline)
        (filed (.sample "77") sampleTimeline) entries ∧
      entries.map (·.1.id) = ["7", "77", "77", "7", "7", "77"] ∧
      ∀ g f, stored (.sample "7") g f (writeFiled (Backend.table .empty) entries) =
        stored (.sample "7") g f
          (sampleTimeline.persist (.sample "7") (Backend.table .empty)).store := by
  have hempty : (Backend.table .empty).IsConsistent :=
    ⟨fun row hrow => absurd hrow List.not_mem_nil, List.nodup_nil⟩
  have hturns : Interleaving (filed (.sample "7") sampleTimeline)
      (filed (.sample "77") sampleTimeline) _ :=
    .left (.right (.right (.left (.left (.right .nil)))))
  obtain ⟨-, -, hstored, -⟩ := persisted_apart sample_apart_sample sampleTimeline sampleTimeline
    hempty hturns
  exact ⟨_, hturns, rfl, hstored⟩

end Ledger

end PluginKernel
