/-!
# The first thing that goes wrong

Where several things may go wrong one after the other, the error is that of the first that does.
`objection?` forgets everything about a result but its error, so that this can be said as a search
through a list of checks: the error of a sequence of checks is that of the first one, in the order
of the list, that objects.
-/

namespace PluginKernel

variable {ε δ α β : Type}

/-- What went wrong, if something did. -/
def objection? : Except ε α → Option ε
  | .error e => some e
  | .ok _ => none

@[simp] theorem mapError_ok (f : ε → δ) (a : α) : (Except.ok a).mapError f = .ok a := rfl

@[simp] theorem mapError_error (f : ε → δ) (e : ε) :
    (Except.error e : Except ε α).mapError f = .error (f e) := rfl

theorem objection?_eq_some_iff {x : Except ε α} {e : ε} : objection? x = some e ↔ x = .error e := by
  cases x <;> simp [objection?]

theorem objection?_eq_none_iff {x : Except ε α} : objection? x = none ↔ ∃ a, x = .ok a := by
  cases x <;> simp [objection?]

@[simp] theorem objection?_map (f : α → β) (x : Except ε α) :
    objection? (x.map f) = objection? x := by
  cases x <;> rfl

@[simp] theorem objection?_mapError (f : ε → δ) (x : Except ε α) :
    objection? (x.mapError f) = (objection? x).map f := by
  cases x <;> rfl

theorem objection?_mapError_eq_some_iff {f : δ → ε} {x : Except δ α} {e : ε} :
    objection? (x.mapError f) = some e ↔ ∃ d, x = .error d ∧ f d = e := by
  cases x <;> simp [objection?]

theorem mapError_eq_ok_iff {f : ε → δ} {x : Except ε α} {a : α} :
    x.mapError f = .ok a ↔ x = .ok a := by
  cases x <;> simp

theorem map_mapError (f : ε → δ) (g : α → β) (x : Except ε α) :
    (x.mapError f).map g = (x.map g).mapError f := by
  cases x <;> rfl

/-- If the first of two things goes wrong the second is not reached. -/
theorem objection?_bind (x : Except ε α) (f : α → Except ε β) :
    objection? (x >>= f) = (objection? x).or (x.toOption.bind fun a => objection? (f a)) := by
  cases x <;> rfl

/-- Two things done one after the other come to something if each of them does. -/
theorem bind_eq_ok_iff {x : Except ε α} {f : α → Except ε β} {b : β} :
    x >>= f = .ok b ↔ ∃ a, x = .ok a ∧ f a = .ok b := by
  cases x <;> simp [bind, Except.bind]

/-! ## One check for each member of a list -/

variable {f : α → Except ε β} {as : List α}

theorem mapM_cons_except (f : α → Except ε β) (a : α) (as : List α) :
    (a :: as).mapM f = f a >>= fun b => (as.mapM f).map (b :: ·) := by
  rw [List.mapM_cons]
  rfl

theorem objection?_mapM (f : α → Except ε β) (as : List α) :
    objection? (as.mapM f) = as.findSome? fun a => objection? (f a) := by
  induction as with
  | nil => rfl
  | cons a rest ih =>
    rw [mapM_cons_except, objection?_bind, List.findSome?_cons]
    cases ha : f a with
    | error e => rfl
    | ok b =>
      show objection? ((rest.mapM f).map (b :: ·)) = _
      rw [objection?_map, ih]
      rfl

/-- If all checks pass there is one result for each. -/
theorem mapM_eq_ok_iff {bs : List β} : as.mapM f = .ok bs ↔ as.map f = bs.map .ok := by
  induction as generalizing bs with
  | nil => cases bs <;> simp [pure, Except.pure]
  | cons a rest ih =>
    rw [mapM_cons_except]
    cases ha : f a with
    | error e => cases bs <;> simp [bind, Except.bind, ha]
    | ok b =>
      show (rest.mapM f).map (b :: ·) = .ok bs ↔ _
      cases bs with
      | nil => cases rest.mapM f <;> simp [Except.map]
      | cons c cs =>
        rw [List.map_cons, List.map_cons, List.cons.injEq, ← ih, ha]
        cases rest.mapM f <;> simp [Except.map]

end PluginKernel
