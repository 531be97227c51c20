import PluginKernel.Config.Shared
import PluginKernel.Yaml.Value

/-!
# Configurations as documents

A configuration may arrive as the bytes of a YAML document: a mapping whose keys are scalars of any
type. The host is the text of its scalar. The port is absent if its scalar spells nothing; otherwise
it must be a number or a text. Neither may be given twice; of other members with one name the last
counts. What is said of a document that holds no configuration is for the reader of documents to
say, and is handed in as `describe`.
-/

namespace PluginKernel.SharedConfig

open Yaml

/-- What has been read of a configuration. -/
structure Draft where
  /-- The port, if it has been given. -/
  port : Option (Option PortSetting)
  /-- The host, if it has been given. -/
  host : Option String
  /-- The other members. -/
  extra : Assoc Json

/-- How deep the collections in a member may nest: the configuration itself is one level. -/
def memberDepth : Nat := Document.depthLimit - 1

/-- Whether a scalar stands for no port at all. -/
def isAbsent (tag : Option Text.Bytes) (text : List Char) (plain : Bool) : Option Bool :=
  if !plain then some false
  else if tag == some (Node.coreTag "null") then (if Core.isNull text then some true else none)
  else if tag.isSome then some false
  else some (text.isEmpty || Core.isNull text)

/-- The port that a node stands for, if any. -/
def readPort (d : Document) (node : Node) : Reading (Option PortSetting) := do
  let node ← d.resolve node
  let absent : Option Bool :=
    match node with
    | .scalar tag text plain => isAbsent tag text plain
    | _ => some false
  if ← (absent : Option Bool) then return none
  match PortSetting.decode (← Node.value d memberDepth node) with
  | .ok port => return some port
  | .error _ => failure

/-- Read one entry. -/
def readEntry (d : Document) (draft : Draft) (entry : Node × Node) : Reading Draft := do
  let key ← Node.text d entry.1
  if key = portMember then
    if draft.port.isSome then failure
    return { draft with port := some (← readPort d entry.2) }
  else if key = hostMember then
    if draft.host.isSome then failure
    return { draft with host := some (← Node.text d entry.2) }
  else
    let v ← Node.value d memberDepth entry.2
    return { draft with extra := Assoc.insert key v draft.extra }

/-- The configuration that a document holds. -/
def ofDocument? (d : Document) : Option SharedConfig := do
  let entries ← d.entries?
  let (draft, _) ← (entries.foldlM (readEntry d) ⟨none, none, []⟩).run 0
  pure ⟨draft.port.getD none, draft.host.getD usualHost, draft.extra⟩

/-- The configuration in the bytes of a document. -/
def ofYaml (describe : Text.Bytes → String) (bytes : Text.Bytes) :
    Except ConfigError SharedConfig :=
  match (Document.ofBytes? bytes).bind ofDocument? with
  | some config => .ok config
  | none => .error (.yaml (describe bytes))

end PluginKernel.SharedConfig
