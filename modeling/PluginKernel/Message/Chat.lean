import PluginKernel.Json.Decode

/-!
# Chat messages

Messages that a host routes between plugins: a name, and possibly a query or a response. A message
is written as an object, or as the list of its parts, of which the last may be left out.
-/

namespace PluginKernel

/-- A chat message. -/
structure ChatMessage where
  /-- Whom the message is from or for. -/
  name : String
  /-- A question. -/
  query : Option String
  /-- An answer. -/
  response : Option String
deriving DecidableEq, Repr

namespace ChatMessage

/-- Whether a member may have this value. -/
def checkMember (name : String) (v : Json) : Except DecodeError Unit :=
  if name = "name" then v.asText.map fun _ => ()
  else if name = "query" || name = "response" then v.asOptionalText.map fun _ => ()
  else .ok ()

/-- What a list with too few items should spell. -/
def shape : String := "struct ChatMsg with 3 elements"

/-- The message that a value stands for. -/
def decode : Json → Except DecodeError ChatMessage
  | .obj members => do
    Json.checkMembers checkMember members
    let name ← Json.requiredText "name" members
    let query ← Json.optional Json.asOptionalText none "query" members
    let response ← Json.optional Json.asOptionalText none "response" members
    return ⟨name, query, response⟩
  | .arr [] => throw (.tooShort 0 shape)
  | .arr [name] => return ⟨← name.asText, none, none⟩
  | .arr [name, query] => return ⟨← name.asText, ← query.asOptionalText, none⟩
  | .arr (name :: query :: response :: rest) => do
    let m : ChatMessage := ⟨← name.asText, ← query.asOptionalText, ← response.asOptionalText⟩
    if rest.isEmpty then return m else throw (.tooLong (rest.length + 3))
  | v => throw (.wrongKind v "struct ChatMsg")

/-- The member of an optional text. -/
def member (name : String) : Option String → List (String × Json)
  | some s => [(name, .str s)]
  | none => []

/-- The value of a message. -/
def encode (m : ChatMessage) : Json :=
  .obj (("name", .str m.name) :: member "query" m.query ++ member "response" m.response)

end ChatMessage

end PluginKernel
