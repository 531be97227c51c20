import PluginKernel.Json.Basic
import PluginKernel.Yaml.Core
import PluginKernel.Yaml.Node

/-!
# Documents as structured values

A node becomes a structured value: sequences become lists and mappings objects, whose keys must be
texts. The type of a scalar decides what it may spell; a type that only the application knows is not
supported. Numbers that are infinite or no numbers become absent.

Two limits keep small documents from standing for large values: collections nest at most 128 deep,
and repetitions are followed at most a hundred times for each event of the document.
-/

namespace PluginKernel.Yaml

/-- Reading a value counts the repetitions that have been followed. -/
abbrev Reading (α : Type) : Type := StateT Nat Option α

namespace Document

/-- How deep collections may nest. -/
def depthLimit : Nat := 128

/-- The node itself, or the one that it repeats. -/
def resolve (d : Document) : Node → Reading Node
  | .alias id => do
    let jumps ← get
    if d.size * 100 ≤ jumps then failure
    set (jumps + 1)
    match d.find? id with
    | some node => pure node
    | none => failure
  | node => pure node

end Document

namespace Node

open Text

/-- The tag of a type of the core schema. -/
def coreTag (name : String) : Bytes := octetsOf ("tag:yaml.org,2002:" ++ name).toList

/-- Whether a tag belongs to the application: it starts with an exclamation mark. -/
def isLocalTag (tag : Bytes) : Bool :=
  match tag with
  | b :: rest => b == 0x21 && (ofUtf8? (if rest.isEmpty then tag else rest)).isSome
  | [] => false

/-- Whether a tag starts with an exclamation mark, though it is not one of the application. -/
def startsLikeLocal (tag : Bytes) : Bool := tag.head? == some 0x21

/-- What a value of the core schema is as a structured value. -/
def jsonOfCore (text : List Char) : CoreValue → Option Json
  | .null => some .null
  | .bool b => some (.bool b)
  | .int n => some (.int n)
  | .wideInt => none
  | .float (some x) => some (.float x)
  | .float none => some .null
  | .text => some (.str (String.ofList text))

/-- The value of a scalar with this tag. -/
def taggedValue? (tag : Bytes) (text : List Char) (plain : Bool) : Option Json :=
  if tag == coreTag "bool" then (Core.bool? text).map .bool
  else if tag == coreTag "int" then (Core.intValue? text).bind (jsonOfCore text)
  else if tag == coreTag "float" then (Core.float? text).bind fun x => jsonOfCore text (.float x)
  else if tag == coreTag "null" then (if Core.isNull text then some .null else none)
  else if startsLikeLocal tag && plain then jsonOfCore text (CoreValue.ofPlain text)
  else some (.str (String.ofList text))

/-- The value of a scalar. -/
def scalarValue? (tag : Option Bytes) (text : List Char) (plain : Bool) : Option Json :=
  match tag with
  | some t => if isLocalTag t then none else taggedValue? t text plain
  | none =>
    if plain then jsonOfCore text (CoreValue.ofPlain text) else some (.str (String.ofList text))

/-- Whether the type of a collection is one that only the application knows. -/
def hasLocalTag (tag : Option Bytes) : Bool := tag.any isLocalTag

/-- The value of a node in which collections nest at most `depth` deep. -/
def value (d : Document) (depth : Nat) (node : Node) : Reading Json := do
  match depth, ← d.resolve node with
  | _, .scalar tag text plain => (scalarValue? tag text plain : Option Json)
  | depth + 1, .seq tag items =>
    if hasLocalTag tag then failure
    return .arr (← items.mapM (value d depth))
  | depth + 1, .map tag entries =>
    if hasLocalTag tag then failure
    let members ← entries.mapM fun e => do
      match ← value d depth e.1 with
      | .str key => return (key, ← value d depth e.2)
      | _ => failure
    return .ofMembers members
  | _, _ => failure

/-- The characters of a scalar, whatever its type. -/
def text (d : Document) (node : Node) : Reading String := do
  match ← d.resolve node with
  | .scalar _ text _ => pure (String.ofList text)
  | _ => failure

end Node

namespace Document

/-- The entries of a document that is a mapping. An empty document counts as one. -/
def entries? (d : Document) : Option (List (Node × Node)) :=
  match d.root with
  | none => some []
  | some (.map _ entries) => some entries
  | some (.scalar _ [] true) => some []
  | _ => none

end Document

/-- The document of a stream of bytes. -/
def Document.ofBytes? (bytes : Text.Bytes) : Option Document :=
  (Event.ofBytes? bytes).bind Document.ofEvents?

end PluginKernel.Yaml
