import PluginKernel.Assoc
import PluginKernel.Text.Search

/-!
# The grammar of command lines

A command line is a list of words. Words that begin with two dashes are options; an option that
takes a value has it behind an equals sign or in the next word, which must not look like an option.
Each option may be given once. All other words are arguments, and behind a word of two dashes every
word is one. An option may be required, may require another one, and says which values it accepts.
-/

namespace PluginKernel.CommandLine

/-- An option that a command has. -/
structure OptionRule where
  /-- The name, without dashes. -/
  name : String
  /-- Whether it takes a value. -/
  takesValue : Bool := true
  /-- The values that it accepts. -/
  accepts : String → Bool := fun _ => true
  /-- Whether it must be given. -/
  isRequired : Bool := false
  /-- The option that must be given along with it. -/
  companion : Option String := none

/-- What is wrong with a command line, or what else it asks for. -/
inductive UsageError where
  /-- It asks how the program is used. -/
  | help
  /-- There is no such option. -/
  | unknownOption (word : String)
  /-- An option lacks its value. -/
  | missingValue (name : String)
  /-- An option has a value but takes none. -/
  | unexpectedValue (name : String)
  /-- An option does not accept its value. -/
  | refusedValue (name value : String)
  /-- An option is given twice. -/
  | repeated (name : String)
  /-- An argument is one too many. -/
  | unexpectedArgument (word : String)
  /-- An argument is not accepted. -/
  | refusedArgument (word : String)
  | missingArgument
  /-- A required option is missing. -/
  | missingOption (name : String)
  /-- There is no such command. -/
  | unknownCommand (word : String)
  | noCommand
deriving DecidableEq, Repr

/-- The wording of each cause. -/
def UsageError.message : UsageError → String
  | help => "usage: hive [--log-level LEVEL] [--json-logs] paths|digest|run|stats ..."
  | unknownOption word => "error: unexpected argument " ++ word
  | missingValue name => "error: --" ++ name ++ " needs a value"
  | unexpectedValue name => "error: --" ++ name ++ " takes no value"
  | refusedValue name value => "error: --" ++ name ++ " does not accept " ++ value
  | repeated name => "error: --" ++ name ++ " is given more than once"
  | unexpectedArgument word => "error: unexpected argument " ++ word
  | refusedArgument _ => "error: an argument is empty"
  | missingArgument => "error: an argument is missing"
  | missingOption name => "error: --" ++ name ++ " is missing"
  | unknownCommand word => "error: unknown command " ++ word
  | noCommand => "error: a command is missing"

/-- The options and arguments of a command line. -/
structure Words where
  /-- The options that were given, with their values; a value is empty if none is taken. -/
  options : Assoc String := []
  arguments : List String := []

/-- Whether a word looks like an option. -/
def looksLikeOption (word : String) : Bool :=
  match word.toList with
  | '-' :: _ :: _ => true
  | _ => false

namespace Words

/-- Add an option. -/
def addOption (w : Words) (rule : OptionRule) (value : String) : Except UsageError Words :=
  if Assoc.contains rule.name w.options then .error (.repeated rule.name)
  else if !rule.accepts value then .error (.refusedValue rule.name value)
  else .ok { w with options := Assoc.insert rule.name value w.options }

/-- Add an argument. -/
def addArgument (w : Words) (word : String) : Words :=
  { w with arguments := w.arguments ++ [word] }

/-- Read words. If `onlyFront` holds, reading stops at the first argument, and it and what follows
are the arguments. -/
def read (rules : List OptionRule) (onlyFront : Bool) (w : Words) :
    List String → Except UsageError Words
  | [] => .ok w
  | word :: rest =>
    match word.toList with
    | ['-', '-'] =>
      match onlyFront, rest with
      | true, next :: _ => .error (.unexpectedArgument next)
      | _, _ => .ok { w with arguments := w.arguments ++ rest }
    | '-' :: '-' :: body =>
      let (name, value) := Text.splitFirst '=' body
      let name := String.ofList name
      if name = "help" && value.isNone then .error .help
      else
        match rules.find? (·.name = name), value with
        | none, _ => .error (.unknownOption word)
        | some rule, some value =>
          if rule.takesValue then do
            let w ← w.addOption rule (String.ofList value)
            read rules onlyFront w rest
          else .error (.unexpectedValue name)
        | some rule, none =>
          if !rule.takesValue then do
            let w ← w.addOption { rule with accepts := fun _ => true } ""
            read rules onlyFront w rest
          else
            match rest with
            | [] => .error (.missingValue name)
            | value :: rest =>
              if looksLikeOption value then .error (.missingValue name)
              else do
                let w ← w.addOption rule value
                read rules onlyFront w rest
    | '-' :: 'h' :: _ => .error .help
    | '-' :: _ :: _ => .error (.unknownOption word)
    | _ =>
      if onlyFront then .ok { w with arguments := word :: rest }
      else read rules onlyFront (w.addArgument word) rest

/-- The value of an option. -/
def value? (w : Words) (name : String) : Option String := Assoc.get? name w.options

/-- Check that what one option asks for is there. -/
def checkRule (w : Words) (rule : OptionRule) : Except UsageError Unit :=
  if Assoc.contains rule.name w.options then
    match rule.companion with
    | some other => if Assoc.contains other w.options then .ok () else .error (.missingOption other)
    | none => .ok ()
  else if rule.isRequired then .error (.missingOption rule.name)
  else .ok ()

/-- Check that all that the options ask for is there. -/
def check (w : Words) (rules : List OptionRule) : Except UsageError Unit :=
  rules.forM w.checkRule

/-- The only argument, if it is accepted. -/
def onlyArgument (w : Words) (accepts : String → Bool) : Except UsageError String :=
  match w.arguments with
  | [] => .error .missingArgument
  | [word] => if accepts word then .ok word else .error (.refusedArgument word)
  | _ :: word :: _ => .error (.unexpectedArgument word)

/-- Check that there is no argument. -/
def noArgument (w : Words) : Except UsageError Unit :=
  match w.arguments with
  | [] => .ok ()
  | word :: _ => .error (.unexpectedArgument word)

end Words

end PluginKernel.CommandLine
