import Mathlib.Tactic.SplitIfs
import PluginKernel.Duration.Grammar
import PluginKernel.Proofs.Text.Digits
import PluginKernel.Proofs.Text.Splitting

/-!
# Components are read as they are written

A number ends where its unit begins, and a unit ends where the next number begins, so a text is a
row of components in at most one way. Reading takes the components off one by one and finds exactly
that row. Their values are added with a check after every step; all values are counted upwards, so a
check fails only if the whole sum does not fit.
-/

namespace PluginKernel

open Text

namespace TimeUnit

theorem ofSpelling?_eq_some_iff {cs : List Char} {unit : TimeUnit} :
    ofSpelling? cs = some unit ↔ cs ∈ unit.spellings := by
  constructor
  · intro h
    unfold ofSpelling? at h
    split_ifs at h with h1 h2 h3 h4 h5 h6 <;> cases h
    · simp [spellings, h1]
    · simp only [Bool.or_eq_true, decide_eq_true_eq] at h2
      rcases h2 with (h2 | h2) | h2 <;> simp [spellings, h2]
    · simp [spellings, h3]
    · simp [spellings, h4]
    · simp [spellings, h5]
    · simp [spellings, h6]
  · intro h
    cases unit <;> simp only [spellings, List.mem_cons, List.not_mem_nil, or_false] at h
    case microsecond => rcases h with rfl | rfl | rfl <;> rfl
    all_goals subst h; rfl

/-- A unit has a spelling, without digits and points. -/
theorem spelling_stops {cs : List Char} {unit : TimeUnit} (h : cs ∈ unit.spellings) :
    cs ≠ [] ∧ ∀ c ∈ cs, Duration.endsUnit c = false := by
  have hall : unit.spellings.all
      (fun ds => !ds.isEmpty && ds.all fun c => !Duration.endsUnit c) = true := by
    cases unit <;> decide
  simpa using List.all_eq_true.1 hall cs h

/-- No unit is longer than an hour. -/
theorem nanos_le (unit : TimeUnit) : unit.nanos ≤ 3600000000000 := by
  cases unit <;> decide

end TimeUnit

namespace Duration

/-! ## One component -/

theorem isDigit_of_mem_takeWhile {cs : List Char} {c : Char} (h : c ∈ cs.takeWhile isDigit) :
    isDigit c = true := List.mem_takeWhile_imp h

theorem isDigit_of_endsUnit {c : Char} (h : endsUnit c = false) : isDigit c = false := by
  rw [endsUnit, Bool.or_eq_false_iff] at h
  exact h.1

/-- What is taken off a text is a component as written, and the text is put together from it and
the rest. -/
theorem written_of_takeComponent {cs rest : List Char} {c : Component}
    (h : takeComponent cs = some (c, rest)) : ∃ front, c.Written front ∧ cs = front ++ rest := by
  have hcs : cs.takeWhile isDigit ++ cs.dropWhile isDigit = cs := List.takeWhile_append_dropWhile
  simp only [takeComponent] at h
  split at h
  · cases h
  next hdigits =>
    obtain ⟨unit, hunit, hpair⟩ := Option.map_eq_some_iff.1 h
    cases hpair
    have hspelling := TimeUnit.ofSpelling?_eq_some_iff.1 hunit
    unfold takeNumber at hspelling hdigits ⊢
    split at hspelling
    next tail htail =>
      rw [htail] at hcs
      simp only [htail] at hspelling hdigits ⊢
      have hfraction : tail.takeWhile isDigit ++ tail.dropWhile isDigit = tail :=
        List.takeWhile_append_dropWhile
      have hunits := List.takeWhile_append_dropWhile (p := (!endsUnit ·))
        (l := tail.dropWhile isDigit)
      refine ⟨_, .pointed (fun c => isDigit_of_mem_takeWhile) (fun c => isDigit_of_mem_takeWhile)
        ?_ hspelling, ?_⟩
      · by_contra hnone
        rw [not_or, not_not, not_not] at hnone
        exact hdigits (by simp [hnone.1, hnone.2])
      · rw [List.append_assoc, List.cons_append, List.append_assoc, hunits, hfraction, hcs]
    next hpoint =>
      have hunits := List.takeWhile_append_dropWhile (p := (!endsUnit ·))
        (l := cs.dropWhile isDigit)
      refine ⟨_, .plain (fun c => isDigit_of_mem_takeWhile) ?_ hspelling, ?_⟩
      · intro hnone
        exact hdigits (by simp [hnone])
      · rw [List.append_assoc, hunits, hcs]

/-- A component as written is taken off a text if a number or nothing follows. -/
theorem takeComponent_append {c : Component} {front : List Char} (h : c.Written front)
    {rest : List Char} (hrest : ∀ d ∈ rest.head?, endsUnit d = true) :
    takeComponent (front ++ rest) = some (c, rest) := by
  have hunit : ∀ {spelling : List Char} {unit : TimeUnit}, spelling ∈ unit.spellings →
      ((spelling ++ rest).takeWhile (!endsUnit ·) = spelling ∧
        (spelling ++ rest).dropWhile (!endsUnit ·) = rest) ∧
      ∀ d ∈ (spelling ++ rest).head?, endsUnit d = false := by
    intro spelling unit hspelling
    obtain ⟨hne, hends⟩ := TimeUnit.spelling_stops hspelling
    refine ⟨takeWhile_append_stop spelling rest (fun d hd => by simp [hends d hd])
      fun d hd => by simp [hrest d hd], fun d hd => ?_⟩
    obtain ⟨a, as, rfl⟩ := List.exists_cons_of_ne_nil hne
    simp only [List.cons_append, List.head?_cons, Option.mem_some_iff] at hd
    exact hd ▸ hends a List.mem_cons_self
  cases h with
  | @plain whole spelling unit hwhole hne hspelling =>
    obtain ⟨⟨htake, hdrop⟩, hhead⟩ := hunit hspelling
    obtain ⟨hdigits, htail⟩ := takeWhile_append_stop whole (spelling ++ rest) hwhole
      fun d hd => isDigit_of_endsUnit (hhead d hd)
    have hnumber : takeNumber (whole ++ spelling ++ rest) = (whole, [], spelling ++ rest) := by
      rw [takeNumber, List.append_assoc, hdigits, htail]
      split
      next tail heq =>
        have hpoint := hhead '.' (by rw [heq]; rfl)
        simp [endsUnit] at hpoint
      · rfl
    rw [takeComponent, hnumber]
    simp only [htake, hdrop, TimeUnit.ofSpelling?_eq_some_iff.2 hspelling, Option.map_some]
    rw [if_neg (by simp [hne])]
  | @pointed whole fraction spelling unit hwhole hfraction hne hspelling =>
    obtain ⟨⟨htake, hdrop⟩, hhead⟩ := hunit hspelling
    obtain ⟨hdigits, htail⟩ := takeWhile_append_stop whole ('.' :: (fraction ++ (spelling ++ rest)))
      hwhole (by simp [isDigit])
    obtain ⟨hdigits', htail'⟩ := takeWhile_append_stop fraction (spelling ++ rest) hfraction
      fun d hd => isDigit_of_endsUnit (hhead d hd)
    have hnumber : takeNumber (whole ++ '.' :: (fraction ++ spelling) ++ rest) =
        (whole, fraction, spelling ++ rest) := by
      rw [takeNumber, List.append_assoc, List.cons_append, List.append_assoc, hdigits, htail]
      simp only [hdigits', htail']
    rw [takeComponent, hnumber]
    simp only [htake, hdrop, TimeUnit.ofSpelling?_eq_some_iff.2 hspelling, Option.map_some]
    rw [if_neg]
    intro hnone
    simp only [Bool.and_eq_true, List.isEmpty_iff] at hnone
    exact hne.elim (· hnone.1) (· hnone.2)

/-! ## Rows of components -/

theorem Component.Written.ne_nil {c : Component} {front : List Char} (h : c.Written front) :
    front ≠ [] := by
  cases h with
  | plain hwhole hne hspelling => simp [hne]
  | pointed hwhole hfraction hne hspelling => simp

/-- A component begins with a digit or a point. -/
theorem Component.Written.endsUnit_head? {c : Component} {front : List Char} (h : c.Written front)
    (rest : List Char) : ∀ d ∈ (front ++ rest).head?, endsUnit d = true := by
  have hdigits : ∀ {whole : List Char} (tail : List Char), (∀ c ∈ whole, isDigit c = true) →
      whole ≠ [] → ∀ d ∈ (whole ++ tail).head?, endsUnit d = true := by
    intro whole tail hwhole hne d hd
    obtain ⟨a, as, rfl⟩ := List.exists_cons_of_ne_nil hne
    simp only [List.cons_append, List.head?_cons, Option.mem_some_iff] at hd
    rw [endsUnit, ← hd, hwhole a List.mem_cons_self, Bool.true_or]
  cases h with
  | @plain whole spelling unit hwhole hne hspelling =>
    rw [List.append_assoc]
    exact hdigits _ hwhole hne
  | @pointed whole fraction spelling unit hwhole hfraction hne hspelling =>
    rw [List.append_assoc]
    cases whole with
    | nil =>
      intro d hd
      cases hd
      rfl
    | cons a as => exact hdigits _ hwhole (List.cons_ne_nil a as)

theorem Row.endsUnit_head? {cs : List Component} {body : List Char} (h : Row cs body) :
    ∀ d ∈ body.head?, endsUnit d = true := by
  cases h with
  | nil => simp
  | cons hc hcs => exact hc.endsUnit_head? _

theorem components?_nil : components? [] = some [] := by
  rw [components?.eq_def]
  rfl

/-- A component at the front of a text is taken off it, if a number or nothing follows. -/
theorem components?_cons {c : Component} {front rest : List Char} (h : c.Written front)
    (hrest : ∀ d ∈ rest.head?, endsUnit d = true) :
    components? (front ++ rest) = (components? rest).map (c :: ·) := by
  rw [components?.eq_def, if_neg (by simp [h.ne_nil]), takeComponent_append h hrest]

/-- Reading finds the row that a text is. -/
theorem components?_eq_some_iff {cs : List Component} {body : List Char} :
    components? body = some cs ↔ Row cs body := by
  constructor
  · fun_induction components? body generalizing cs with
    | case1 body hempty =>
      intro h
      cases h
      rw [List.isEmpty_iff.1 hempty]
      exact .nil
    | case2 => simp
    | case3 body hne c rest hc ih =>
      intro h
      obtain ⟨cs', hcs', rfl⟩ := Option.map_eq_some_iff.1 h
      obtain ⟨front, hfront, rfl⟩ := written_of_takeComponent hc
      exact .cons hfront (ih hcs')
  · intro h
    induction h with
    | nil => exact components?_nil
    | cons hc hcs ih => rw [components?_cons hc hcs.endsUnit_head?, ih, Option.map_some]

/-! ## Values -/

theorem checked_eq_some {n : Nat} (h : n < 2 ^ (128 : Nat)) : checked n = some n := if_pos h

theorem checked_eq_none {n : Nat} (h : 2 ^ (128 : Nat) ≤ n) : checked n = none :=
  if_neg (Nat.not_lt.2 h)

theorem Component.value_eq (c : Component) :
    c.value = digitsValue c.whole * c.unit.nanos + c.fractionNanos := by
  have htake : c.fraction.take (Nat.min 18 c.fraction.length) = c.fraction.take 18 := by
    rw [← List.take_eq_take_min]
  rw [Component.value, Component.fractionNanos, Component.kept, List.length_take]
  exact congrArg (fun ds => _ + digitsValue ds * c.unit.nanos / _) htake

/-- The checks of a component fail only if its value does not fit. -/
theorem Component.nanos?_eq (c : Component) : c.nanos? = checked c.value := by
  have hpos : 0 < c.unit.nanos := by cases c.unit <;> decide
  have hwhole : digitsValue c.whole ≤ digitsValue c.whole * c.unit.nanos :=
    Nat.le_mul_of_pos_right _ hpos
  rw [value_eq]
  unfold Component.nanos?
  by_cases h1 : digitsValue c.whole < 2 ^ (128 : Nat)
  · rw [checked_eq_some h1, Option.bind_eq_bind, Option.bind_some]
    by_cases h2 : digitsValue c.whole * c.unit.nanos < 2 ^ (128 : Nat)
    · rw [checked_eq_some h2, Option.bind_some]
    · rw [checked_eq_none (Nat.not_lt.1 h2), checked_eq_none (by omega)]
      rfl
  · rw [checked_eq_none (Nat.not_lt.1 h1), checked_eq_none (by omega)]
    rfl

@[simp] theorem total_nil : total [] = 0 := rfl

@[simp] theorem total_cons (c : Component) (cs : List Component) :
    total (c :: cs) = c.value + total cs := rfl

/-- Adding components to what was added before fails only if the sum of all does not fit. -/
theorem foldlM_sum_eq (cs : List Component) {m : Nat} (hm : m < 2 ^ (128 : Nat)) :
    cs.foldlM (fun total c => do checked (total + (← c.nanos?))) m = checked (m + total cs) := by
  induction cs generalizing m with
  | nil => exact (checked_eq_some hm).symm
  | cons c cs ih =>
    rw [List.foldlM_cons, Component.nanos?_eq, total_cons]
    by_cases hc : c.value < 2 ^ (128 : Nat)
    · rw [checked_eq_some hc]
      by_cases hsum : m + c.value < 2 ^ (128 : Nat)
      · change (checked (m + c.value)).bind (fun n => cs.foldlM _ n) = _
        rw [checked_eq_some hsum, ← Nat.add_assoc]
        exact ih hsum
      · simp only [Option.bind_eq_bind, Option.bind_some, checked_eq_none (Nat.not_lt.1 hsum)]
        rw [checked_eq_none (by omega)]
        rfl
    · rw [checked_eq_none (Nat.not_lt.1 hc), checked_eq_none (by omega)]
      rfl

/-- The checks of a sum fail only if the sum does not fit. -/
theorem sum?_eq (cs : List Component) : sum? cs = checked (total cs) := by
  have hzero := foldlM_sum_eq cs (m := 0) (by decide)
  rw [Nat.zero_add] at hzero
  exact hzero

end Duration

end PluginKernel
