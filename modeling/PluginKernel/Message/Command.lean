import PluginKernel.Json.Decode

/-!
# Commands

A host sends commands to a plugin, and the plugin acknowledges them with commands of the same form.
A command names a plugin and what it is to do. A request that is not known is kept as such, so that
a newer host does no harm.

A command is written as an object, or as the list of its two parts; a request as its name, or as an
object whose only member has the name and no value.
-/

namespace PluginKernel

/-- What a plugin is asked to do. -/
inductive Request where
  /-- To start its server. -/
  | start
  /-- To stop its server and listen no longer. -/
  | stop
  /-- To do nothing. -/
  | status
  /-- Something that is not known. -/
  | unknown
deriving DecidableEq, Repr

/-- A command or its acknowledgment. -/
structure Command where
  /-- The plugin that it names. -/
  plugin : String
  /-- What the plugin is asked to do. -/
  request : Request
deriving DecidableEq, Repr

namespace Request

/-- The name of a request. -/
def name : Request → String
  | start => "START"
  | stop => "STOP"
  | status => "STATUS"
  | unknown => "UNKNOWN"

/-- The request of a name. -/
def ofName (name : String) : Request :=
  if name = "START" then start
  else if name = "STOP" then stop
  else if name = "STATUS" then status
  else unknown

/-- The request that a value stands for. -/
def decode : Json → Except DecodeError Request
  | .str name => .ok (ofName name)
  | .obj [(name, v)] =>
    match v with
    | .null => .ok (ofName name)
    | v => .error (.wrongKind v "unit")
  | .obj _ => .error .notSingleton
  | v => .error (.wrongKind v "string or map")

/-- The value of a request. -/
def encode (r : Request) : Json := .str r.name

end Request

namespace Command

/-- The member that names the plugin. -/
def pluginKey : String := "pluginName"

/-- The member that holds the request. -/
def requestKey : String := "command"

/-- Whether a member may have this value. -/
def checkMember (name : String) (v : Json) : Except DecodeError Unit :=
  if name = requestKey then (Request.decode v).map fun _ => ()
  else if name = pluginKey then v.asText.map fun _ => ()
  else .ok ()

/-- What a list with too few items should spell. -/
def shape : String := "struct KernelCommand with 2 elements"

/-- The command that a value stands for. -/
def decode : Json → Except DecodeError Command
  | .obj members => do
    Json.checkMembers checkMember members
    let plugin ← Json.requiredText pluginKey members
    match Assoc.get? requestKey members with
    | none => throw (.missingField requestKey)
    | some v => return ⟨plugin, ← Request.decode v⟩
  | .arr [] => throw (.tooShort 0 shape)
  | .arr [plugin] => do
    let _ ← plugin.asText
    throw (.tooShort 1 shape)
  | .arr (plugin :: request :: rest) => do
    let plugin ← plugin.asText
    let request ← Request.decode request
    if rest.isEmpty then return ⟨plugin, request⟩ else throw (.tooLong (rest.length + 2))
  | v => throw (.wrongKind v "struct KernelCommand")

/-- The value of a command. -/
def encode (c : Command) : Json :=
  .obj [(requestKey, c.request.encode), (pluginKey, .str c.plugin)]

end Command

end PluginKernel
