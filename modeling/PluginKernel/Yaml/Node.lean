import PluginKernel.Yaml.Event

/-!
# Documents as trees

A document is a tree of nodes. A node that was given a name can be repeated; a repetition refers to
it by number. The number of a name is how many names the document has had so far, so a name that is
given again takes a number that the next new name takes from it. A repetition inside the node that
it repeats is possible.
-/

namespace PluginKernel.Yaml

/-- A node of a document. -/
inductive Node where
  /-- A scalar: its type, its characters, and whether it stands without quotes. -/
  | scalar (tag : Option Text.Bytes) (text : List Char) (plain : Bool)
  /-- A sequence. -/
  | seq (tag : Option Text.Bytes) (items : List Node)
  /-- A mapping. -/
  | map (tag : Option Text.Bytes) (entries : List (Node × Node))
  /-- A repeated node. -/
  | alias (id : Nat)
deriving Inhabited

/-- A collection in the middle of being read. -/
structure OpenNode where
  /-- Its type. -/
  tag : Option Text.Bytes
  /-- Whether it is a mapping. -/
  isMap : Bool
  /-- The number of events before it. -/
  start : Nat
  /-- The nodes in it, the last one first. -/
  nodes : List Node

/-- A document. -/
structure Document where
  /-- The collections that are open, the innermost first. -/
  openNodes : List OpenNode
  /-- The tree, once it is complete. -/
  root : Option Node
  /-- The names that have been given, with their numbers. -/
  names : List (List Char × Nat)
  /-- For each number, the number of events before the node it stands for. -/
  starts : List (Nat × Nat)
  /-- The complete nodes that have a name, with the number of events before them. -/
  named : List (Nat × Node)
  /-- The number of events. -/
  size : Nat

namespace Document

/-- A document without content. -/
def empty : Document := ⟨[], none, [], [], [], 0⟩

/-- Pair the keys and values of a mapping. -/
def pairUp : List Node → List (Node × Node)
  | k :: v :: rest => (k, v) :: pairUp rest
  | _ => []

/-- The node that a collection is, once it is complete. -/
def close (o : OpenNode) : Node :=
  if o.isMap then .map o.tag (pairUp o.nodes.reverse) else .seq o.tag o.nodes.reverse

/-- Put a complete node into the collection around it. -/
def deliver (d : Document) (start : Nat) (node : Node) : Document :=
  let d := { d with named := (start, node) :: d.named }
  match d.openNodes with
  | [] => { d with root := some node }
  | o :: os => { d with openNodes := { o with nodes := node :: o.nodes } :: os }

/-- Give the node that begins here a name. -/
def name (d : Document) (anchor : Option (List Char)) : Document :=
  match anchor with
  | none => d
  | some a =>
    { d with
      names := (a, d.names.length) :: d.names.filter (·.1 != a)
      starts := (d.names.length, d.size) :: d.starts }

/-- Read one event. -/
def step? (d : Document) (e : Event) : Option Document :=
  let after (d : Document) : Document := { d with size := d.size + 1 }
  match e with
  | .alias a =>
    match d.names.find? (·.1 == a) with
    | some (_, id) => some (after (d.deliver d.size (.alias id)))
    | none => none
  | .scalar props text plain =>
    some (after ((d.name props.anchor).deliver d.size (.scalar props.tag text plain)))
  | .sequenceStart props =>
    let d' := d.name props.anchor
    some (after { d' with openNodes := ⟨props.tag, false, d.size, []⟩ :: d'.openNodes })
  | .mappingStart props =>
    let d' := d.name props.anchor
    some (after { d' with openNodes := ⟨props.tag, true, d.size, []⟩ :: d'.openNodes })
  | .sequenceEnd | .mappingEnd =>
    match d.openNodes with
    | [] => none
    | o :: os => some (after (({ d with openNodes := os }).deliver o.start (close o)))
  | .documentStart | .documentEnd => some d

/-- Whether an event begins a document. -/
def begins : Event → Bool
  | .documentStart => true
  | _ => false

/-- The document of a stream. A stream without documents has an empty one; a stream with several has
none. -/
def ofEvents? (es : List Event) : Option Document :=
  if 1 < (es.filter begins).length then none else es.foldlM step? empty

/-- The node that a number stands for. -/
def find? (d : Document) (id : Nat) : Option Node := do
  let (_, start) ← d.starts.find? (·.1 == id)
  let (_, node) ← d.named.find? (·.1 == start)
  pure node

end Document

end PluginKernel.Yaml
