import PluginKernel.Json.Basic

/-!
# Why a value does not decode

A record, a configuration or a message is decoded from a structured value member by member. Members
are visited in the order of their names and the first that does not fit decides; which are missing
is asked afterwards, in the order of declaration. Members that are not declared are passed over.
-/

namespace PluginKernel

/-- Why a value does not decode. -/
inductive DecodeError where
  /-- A declared member is missing. -/
  | missingField (name : String)
  /-- A value of another kind was expected. -/
  | wrongKind (found : Json) (expected : String)
  /-- A list has too few items for what it should spell. -/
  | tooShort (length : Nat) (expected : String)
  /-- A list has items left over. -/
  | tooLong (length : Nat)
  /-- An object that should name a variant does not have exactly one member. -/
  | notSingleton
  /-- None of the alternatives of a type fits. -/
  | noVariant (name : String)

namespace DecodeError

/-- The wording of each cause. -/
def message : DecodeError → String
  | .missingField name => "missing field `" ++ name ++ "`"
  | .wrongKind found expected => "invalid type: " ++ found.describe ++ ", expected " ++ expected
  | .tooShort n expected => "invalid length " ++ Text.showInt n ++ ", expected " ++ expected
  | .tooLong n => "invalid length " ++ Text.showInt n ++ ", expected fewer elements in array"
  | .notSingleton => "invalid value: map, expected map with a single key"
  | .noVariant name => "data did not match any variant of untagged enum " ++ name

end DecodeError

namespace Json

/-- A value that has to be a text. -/
def asText : Json → Except DecodeError String
  | .str s => .ok s
  | v => .error (.wrongKind v "a string")

/-- A value that has to be a text or absent. -/
def asOptionalText : Json → Except DecodeError (Option String)
  | .null => .ok none
  | v => v.asText.map some

/-- The value of a member that may be missing. -/
def optional {α : Type} (decode : Json → Except DecodeError α) (default : α) (name : String)
    (members : Assoc Json) : Except DecodeError α :=
  match Assoc.get? name members with
  | some v => decode v
  | none => .ok default

/-- Check the members of an object in the order of their names; the first that does not decode
decides. -/
def checkMembers (check : String → Json → Except DecodeError Unit) (members : Assoc Json) :
    Except DecodeError Unit :=
  members.forM fun p => check p.1 p.2

/-- The text of a member that must be there. -/
def requiredText (name : String) (members : Assoc Json) : Except DecodeError String :=
  match Assoc.get? name members with
  | some v => v.asText
  | none => .error (.missingField name)

end Json

end PluginKernel
