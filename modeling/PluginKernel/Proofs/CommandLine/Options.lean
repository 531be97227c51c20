import PluginKernel.CommandLine.Program
import PluginKernel.Proofs.Text.Splitting

/-!
# Options that are given and options that are left out

A value behind an equals sign is taken as it is, whatever it looks like. So the words that ask for
the statistics of a flow ask for the flow, the identifier and the database that they name, and for
the usual places of all else.
-/

namespace PluginKernel.CommandLine

/-- The word that gives an option a value. -/
def optionWord (name value : String) : String := "--" ++ name ++ "=" ++ value

theorem toList_optionWord (name value : String) :
    (optionWord name value).toList = '-' :: '-' :: (name.toList ++ '=' :: value.toList) := by
  simp [optionWord]

theorem Words.read_optionWord {rules : List OptionRule} {rule : OptionRule} {onlyFront : Bool}
    {w w' : Words} {name value : String} {rest : List String} (hname : '=' ∉ name.toList)
    (hrule : rules.find? (·.name = name) = some rule) (htakes : rule.takesValue = true)
    (hadd : w.addOption rule value = .ok w') :
    read rules onlyFront w (optionWord name value :: rest) = read rules onlyFront w' rest := by
  have hsplit : Text.splitFirst '=' (name.toList ++ '=' :: value.toList) =
      (name.toList, some value.toList) := Text.splitFirst_append hname
  rw [read.eq_def]
  simp only [toList_optionWord]
  split
  next hdashes => simp at hdashes
  next body _ hbody =>
    cases hbody
    simp only [hsplit, String.ofList_toList, hrule, Option.isNone_some, Bool.and_false,
      Bool.false_eq_true, if_false, htakes, if_true, hadd]
    rfl
  next h => cases h
  next hdash _ h =>
    cases h
    exact absurd rfl hdash
  next hword => exact (hword _ _ rfl).elim

/-- The words that ask for the statistics of a flow, with all else where it usually is. -/
def statsWords (database argosId flow : String) : List String :=
  ["stats", optionWord "db" database, optionWord "argos-id" argosId, optionWord "flow" flow]

/-- What these words ask for. -/
def StatsArguments.usual (database argosId flow : String) : StatsArguments where
  database := database
  argosId := argosId
  flow := flow
  flowGroup := Milestone.systemGroup
  basePath := FilingPlace.usualBasePath
  idName := FilingPlace.usualIdName

theorem Invocation.read_statsWords {database : String} (hdatabase : database ≠ "")
    (argosId flow : String) : read (statsWords database argosId flow) =
      .ok (.stats (.usual database argosId flow)) := by
  have hread : Words.read sharedRules true {} (statsWords database argosId flow) =
      .ok { arguments := statsWords database argosId flow } := rfl
  have haccepts : isPath database = true := by
    rw [isPath, Bool.not_eq_true', ← Bool.not_eq_true]
    exact fun hempty => hdatabase (String.isEmpty_iff.1 hempty)
  have hoptions : Words.read statsRules false {} (statsWords database argosId flow).tail =
      .ok { options := [("argos-id", argosId), ("db", database), ("flow", flow)] } := by
    have hdatabase : Words.addOption {} { name := "db", accepts := isPath, isRequired := true }
        database = .ok { options := [("db", database)] } := by
      simp only [Words.addOption, haccepts]
      rfl
    rw [statsWords, List.tail_cons, Words.read_optionWord (by decide) rfl rfl hdatabase,
      Words.read_optionWord (by decide) rfl rfl rfl, Words.read_optionWord (by decide) rfl rfl rfl]
    rfl
  rw [read, hread]
  show (readStats (statsWords database argosId flow).tail).map Invocation.stats = _
  rw [readStats, readWords, hoptions]
  rfl

end PluginKernel.CommandLine
