import PluginKernel.Ledger.Path
import PluginKernel.Proofs.Store.Paths

/-!
# Where statistics are filed, normalized

The path of a record is a root, which depends on the filing alone, and behind it the group, the flow
and the code. None of these three has a slash in it or is empty, so nothing of them is lost when the
path is normalized, and the path determines them.
-/

namespace PluginKernel

/-- A text that can be one segment of a path: it is not empty and has no slash in it. -/
def IsSegment (s : String) : Prop := s ≠ "" ∧ '/' ∉ s.toList

/-- A text that can be the end of a path: it is not empty and does not end in a slash. -/
def IsPathEnd (s : String) : Prop := s ≠ "" ∧ s.toList.getLast? ≠ some '/'

theorem IsPathEnd.getLast? {s : String} (h : IsPathEnd s) (front : List Char) :
    ∀ c ∈ (front ++ s.toList).getLast?, (c == '/') = false := by
  intro c hc
  have hne : s.toList ≠ [] := by
    rw [Ne, String.toList_eq_nil_iff]
    exact h.1
  rw [Option.mem_def, List.getLast?_append_of_ne_nil _ hne] at hc
  exact beq_eq_false_iff_ne.2 fun heq => h.2 (heq ▸ hc)

namespace IsSegment

theorem toList_ne_nil {s : String} (h : IsSegment s) : s.toList ≠ [] := by
  rw [Ne, String.toList_eq_nil_iff]
  exact h.1

theorem isPathEnd {s : String} (h : IsSegment s) : IsPathEnd s :=
  ⟨h.1, fun hlast => h.2 (List.mem_of_getLast? hlast)⟩

end IsSegment

namespace Filing

/-- What all paths of a filing start with, but for the base path: from the slash behind it to the
slash before the group. -/
def trunk (filing : Filing) : List Char :=
  ("/" ++ filing.idName ++ "/" ++ filing.id ++ "/DataFlowStatistics/DataFlowGroup/").toList

/-- What all normalized paths of a filing start with. -/
def root (filing : Filing) : List Char :=
  (Store.normalChars filing.basePath ++ filing.trunk).dropWhile (· == '/')

/-- The segments of a flow, with what stands between them. -/
def flowChars (flowGroup flowName : String) : List Char :=
  flowGroup.toList ++ '/' :: ("dataFlowName".toList ++ '/' :: flowName.toList)

theorem root_congr {filing filing' : Filing}
    (hbase : Store.normalize filing'.basePath = Store.normalize filing.basePath)
    (hname : filing'.idName = filing.idName) (hid : filing'.id = filing.id) :
    filing'.root = filing.root := by
  rw [root, root, trunk, trunk, hname, hid, Store.normalize_eq_normalize_iff.1 hbase]

theorem toList_flowDirectory (filing : Filing) (flowGroup flowName : String) :
    (filing.flowDirectory flowGroup flowName).toList =
      Text.trimEnd (· == '/') filing.basePath.toList ++ filing.trunk ++
        flowChars flowGroup flowName := by
  simp [flowDirectory, withoutTrailingSlashes, trunk, flowChars]

theorem exists_mem_trunk (filing : Filing) : ∃ c ∈ filing.trunk, (c == '/') = false :=
  ⟨'D', by simp [trunk], by decide⟩

/-- Normalizing a path of a filing takes slashes from its front only. -/
theorem normalChars_of_toList {filing : Filing} {path : String} {back : List Char}
    (hpath : path.toList = Text.trimEnd (· == '/') filing.basePath.toList ++ filing.trunk ++ back)
    (hne : back ≠ []) (hback : ∀ c ∈ back.getLast?, (c == '/') = false) :
    Store.normalChars path = filing.root ++ back := by
  obtain ⟨front, hfront, htrim⟩ := Text.trimEnd_eq_append (p := (· == '/')) filing.basePath.toList
  obtain ⟨d, hd, hslash⟩ := filing.exists_mem_trunk
  have hmem : ∃ c ∈ Text.trimEnd (· == '/') filing.basePath.toList ++ filing.trunk,
      (c == '/') = false := ⟨d, List.mem_append_right _ hd, hslash⟩
  rw [Store.normalChars, hpath, Text.trimBoth_append hmem hne hback, htrim, List.append_assoc,
    List.dropWhile_append_of_pos hfront]
  rfl

variable {g f c : String}

theorem normalChars_flowDirectory (filing : Filing) (hf : IsPathEnd f) :
    Store.normalChars (filing.flowDirectory g f) = filing.root ++ flowChars g f := by
  have hsplit : flowChars g f =
      (g.toList ++ '/' :: ("dataFlowName".toList ++ ['/'])) ++ f.toList := by
    simp [flowChars]
  refine normalChars_of_toList (filing.toList_flowDirectory g f) (by simp [flowChars]) ?_
  rw [hsplit]
  exact hf.getLast? _

theorem normalChars_recordPath (filing : Filing) (hc : IsSegment c) :
    Store.normalChars (filing.recordPath g f c) =
      filing.root ++ (flowChars g f ++ '/' :: c.toList) := by
  have hsplit : flowChars g f ++ '/' :: c.toList = (flowChars g f ++ ['/']) ++ c.toList := by simp
  refine normalChars_of_toList ?_ (by simp) ?_
  · rw [recordPath, String.toList_append, String.toList_append, toList_flowDirectory]
    simp
  · rw [hsplit]
    exact hc.isPathEnd.getLast? _

theorem flowDirectory_ne_nil (filing : Filing) (hf : IsPathEnd f) :
    Store.normalChars (filing.flowDirectory g f) ≠ [] := by
  rw [normalChars_flowDirectory filing hf]
  simp [flowChars]

/-- A flow followed by a slash determines its segments and what follows. -/
theorem flowChars_inj {g' f' : String} {l m : List Char} (hg : '/' ∉ g.toList)
    (hg' : '/' ∉ g'.toList) (hf : '/' ∉ f.toList) (hf' : '/' ∉ f'.toList)
    (h : flowChars g f ++ '/' :: l = flowChars g' f' ++ '/' :: m) : g = g' ∧ f = f' ∧ l = m := by
  simp only [flowChars, List.append_assoc, List.cons_append] at h
  obtain ⟨heq, h⟩ := Text.append_sep_inj hg hg' h
  obtain ⟨-, h⟩ := Text.append_sep_inj (by decide) (by decide) h
  obtain ⟨heq', h⟩ := Text.append_sep_inj hf hf' h
  exact ⟨String.toList_inj.1 heq, String.toList_inj.1 heq', h⟩

/-- Different places have different paths. -/
theorem normalize_recordPath_inj {filing filing' : Filing} {g' f' c' : String}
    (hroot : filing'.root = filing.root) (hg : IsSegment g) (hg' : IsSegment g')
    (hf : IsSegment f) (hf' : IsSegment f') (hc : IsSegment c) (hc' : IsSegment c') :
    Store.normalize (filing.recordPath g f c) = Store.normalize (filing'.recordPath g' f' c') ↔
      g = g' ∧ f = f' ∧ c = c' := by
  rw [Store.normalize_eq_normalize_iff, normalChars_recordPath filing hc,
    normalChars_recordPath filing' hc', hroot, List.append_cancel_left_eq]
  constructor
  · intro h
    obtain ⟨heq, heq', h⟩ := flowChars_inj hg.2 hg'.2 hf.2 hf'.2 h
    exact ⟨heq, heq', String.toList_inj.1 h⟩
  · rintro ⟨rfl, rfl, rfl⟩
    rfl

end Filing

end PluginKernel
