import PluginKernel.Ledger.Error
import PluginKernel.Text.Blank
import PluginKernel.Text.Search

/-!
# Stores of records

A store keeps records under slash-separated paths, as a tree of directories does. Slashes at the
ends of a path do not count; slashes within it do. The children of a path are the next segments of
the paths below it: a record's own name, or the name of a directory with a slash behind it.
-/

namespace PluginKernel

/-- What a store answers: records can be written, listed and read, and each call can fail. -/
class RecordStore (σ : Type) where
  /-- Create or replace the record at a path. -/
  write : σ → String → Assoc Json → Except StatisticError σ
  /-- The children of a path in increasing order. -/
  list : σ → String → Except StatisticError (List String)
  /-- The record at a path, if there is one. -/
  read : σ → String → Except StatisticError (Option (Assoc Json))

namespace Store

/-- The characters of a path without the slashes at its ends. -/
def normalChars (path : String) : List Char := Text.trimBoth (· == '/') path.toList

/-- A path without the slashes at its ends. -/
def normalize (path : String) : String := String.ofList (normalChars path)

/-- Add a text to a strictly increasing list, unless it is there. -/
def insertName (name : String) : List String → List String
  | [] => [name]
  | n :: rest =>
    if name < n then name :: n :: rest
    else if name = n then n :: rest
    else n :: insertName name rest

/-- The strictly increasing list of the texts in a list. -/
def sortNames (names : List String) : List String := names.foldr insertName []

theorem mem_insertName (a name : String) (ns : List String) :
    a ∈ insertName name ns ↔ a = name ∨ a ∈ ns := by
  induction ns with
  | nil => simp [insertName]
  | cons n rest ih =>
    unfold insertName
    split
    · simp
    · split
      · next h => subst h; simp
      · simp only [List.mem_cons, ih]
        constructor
        · rintro (h | h | h) <;> simp [h]
        · rintro (h | h | h) <;> simp [h]

@[simp] theorem mem_sortNames (a : String) (ns : List String) : a ∈ sortNames ns ↔ a ∈ ns := by
  unfold sortNames
  induction ns with
  | nil => simp
  | cons n rest ih => simp [mem_insertName, ih]

/-- The child that a path below a directory belongs to, given what follows the directory: a
directory with a slash behind its name, or a record. -/
def childOf (below : List Char) : String :=
  match Text.splitFirst '/' below with
  | (dir, some _) => String.ofList (dir ++ ['/'])
  | (name, none) => String.ofList name

end Store

end PluginKernel
