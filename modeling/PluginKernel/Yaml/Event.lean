import PluginKernel.Yaml.Token

/-!
# Events of YAML

The structure of a stream as a sequence of events: scalars, repeated nodes, and the beginnings and
ends of collections and documents. Every node that the grammar allows to be left out is there, as an
empty plain scalar.

Events are read from tokens by a machine. Its state says what is expected next, and a stack says
what is expected once the node in progress is complete. Each step gives one event.
-/

namespace PluginKernel.Yaml

/-- What a node carries besides its content. -/
structure Properties where
  /-- The name given to the node. -/
  anchor : Option (List Char)
  /-- The type of the node, as octets. -/
  tag : Option Text.Bytes
deriving DecidableEq, Repr

namespace Properties

/-- A node without name and type. -/
def none : Properties := ⟨.none, .none⟩

end Properties

/-- An event. -/
inductive Event where
  /-- A document begins. -/
  | documentStart
  | documentEnd
  /-- A node is repeated. -/
  | alias (name : List Char)
  /-- A scalar: its characters, and whether it stands without quotes. -/
  | scalar (props : Properties) (text : List Char) (plain : Bool)
  /-- A sequence begins. -/
  | sequenceStart (props : Properties)
  | sequenceEnd
  /-- A mapping begins. -/
  | mappingStart (props : Properties)
  | mappingEnd
deriving DecidableEq, Repr

/-- What is expected next. -/
inductive Expected where
  /-- A document. A bare one, which no mark opens, can only be the first. -/
  | document (bare : Bool)
  /-- The content of a document that a mark has opened. -/
  | content
  | documentEnd
  /-- A node in block context. -/
  | blockNode
  /-- An entry of a block sequence or its end. -/
  | blockEntry
  /-- An entry of a block sequence that is not indented, or anything else, which ends it. -/
  | bareEntry
  /-- A key of a block mapping or its end. -/
  | blockKey
  /-- A value of a block mapping. -/
  | blockValue
  /-- An entry of a flow sequence or its end. -/
  | flowEntry (first : Bool)
  /-- The key of a pair that is an entry of a flow sequence. -/
  | pairKey
  /-- The value of such a pair. -/
  | pairValue
  /-- The end of such a pair. -/
  | pairEnd
  /-- A key of a flow mapping or its end. -/
  | flowKey (first : Bool)
  /-- A value of a flow mapping. -/
  | flowValue
  /-- The value of a key of a flow mapping that has none. -/
  | noFlowValue
  /-- Nothing: the stream is over. -/
  | nothing
deriving DecidableEq, Repr

/-- How far a stream has been read. -/
structure Parse where
  /-- The tokens ahead. -/
  tokens : List Token
  /-- What is expected next. -/
  next : Expected
  /-- What is expected after the node in progress, innermost first. -/
  later : List Expected
  /-- The tag directives of the document. -/
  directives : List TagDirective

namespace Parse

/-- The beginning of a stream. -/
def start (ts : List Token) : Parse := ⟨ts, .document true, [], []⟩

/-- Expect something next. -/
def expect (p : Parse) (e : Expected) : Parse := { p with next := e }

/-- Expect what was put off last. -/
def resume (p : Parse) : Parse :=
  match p.later with
  | [] => { p with next := .nothing }
  | e :: es => { p with next := e, later := es }

/-- Put something off until the node in progress is complete. -/
def putOff (p : Parse) (e : Expected) : Parse := { p with later := e :: p.later }

/-- The parse ahead of other tokens. -/
def ahead (p : Parse) (ts : List Token) : Parse := { p with tokens := ts }

/-- The node that stands where none is written. -/
def emptyNode : Event := .scalar Properties.none [] true

/-- Whether the next token is one of some. -/
def nextIs (ts : List Token) (which : Token → Bool) : Bool :=
  match ts with
  | [] => false
  | t :: _ => which t

/-- The anchor and the tag at the front of some tokens, in either order, and what follows them. -/
def takeProperties : List Token → Option (List Char) × Option TagToken × List Token
  | .anchor a :: .tag t :: ts => (some a, some t, ts)
  | .anchor a :: ts => (some a, none, ts)
  | .tag t :: .anchor a :: ts => (some a, some t, ts)
  | .tag t :: ts => (none, some t, ts)
  | ts => (none, none, ts)

/-- The tag that is an exclamation mark alone: a scalar so tagged is read as if it were not. -/
def loneMark : Text.Bytes := octetsOf ['!']

/-- Read a node. In block context it may be a block collection. Where `bare` says so, it may be a
sequence whose entries are not indented. -/
def node? (p : Parse) (block bare : Bool) : Option (Event × Parse) :=
  match p.tokens with
  | .alias name :: ts => some (.alias name, (p.ahead ts).resume)
  | ts =>
    let (anchor, written, ts) := takeProperties ts
    let tag? : Option (Option Text.Bytes) :=
      match written with
      | none => some none
      | some t => (t.resolve? p.directives).map some
    match tag? with
    | none => none
    | some tag =>
      let props : Properties := ⟨anchor, tag⟩
      let p := p.ahead ts
      match ts with
      | .blockEntry :: _ =>
        if bare then some (.sequenceStart props, p.expect .bareEntry) else bareProperties? p props
      | .scalar text plain :: ts =>
        if tag == some loneMark then
          some (.scalar ⟨anchor, none⟩ text plain, (p.ahead ts).resume)
        else some (.scalar props text plain, (p.ahead ts).resume)
      | .flowSequenceStart :: ts =>
        some (.sequenceStart props, (p.ahead ts).expect (.flowEntry true))
      | .flowMappingStart :: ts =>
        some (.mappingStart props, (p.ahead ts).expect (.flowKey true))
      | .blockSequenceStart :: ts =>
        if block then some (.sequenceStart props, (p.ahead ts).expect .blockEntry)
        else bareProperties? p props
      | .blockMappingStart :: ts =>
        if block then some (.mappingStart props, (p.ahead ts).expect .blockKey)
        else bareProperties? p props
      | _ => bareProperties? p props
where
  /-- A node without content must have a name or a type. -/
  bareProperties? (p : Parse) (props : Properties) : Option (Event × Parse) :=
    if props.anchor.isSome || props.tag.isSome then some (.scalar props [] true, p.resume) else none

/-- Read the directives in front of a document: at most one version, and handles that differ. -/
def takeDirectives? (version : Bool) (ds : List TagDirective) :
    List Token → Option (List TagDirective × List Token)
  | .version major minor :: ts =>
    if version || major != 1 || (minor != 1 && minor != 2) then none
    else takeDirectives? true ds ts
  | .tagDirective d :: ts =>
    if ds.any (·.handle == d.handle) then none else takeDirectives? version (ds ++ [d]) ts
  | ts => some (ds, ts)

/-- The directives in force: those written, and the defaults for the other handles. -/
def withDefaults (ds : List TagDirective) : List TagDirective :=
  ds ++ TagDirective.defaults.filter fun d => !ds.any (·.handle == d.handle)

/-- Whether a token belongs to what stands in front of a document. -/
def isPreamble : Token → Bool
  | .version .. => true
  | .tagDirective _ => true
  | .documentStart => true
  | _ => false

/-- Whether a token marks the end of a document. -/
def isDocumentEnd : Token → Bool
  | .documentEnd => true
  | _ => false

/-- Read the beginning of a document, or the end of the stream, which gives no event. -/
def document? (p : Parse) (bare : Bool) : Option (Option Event × Parse) :=
  let ts := if bare then p.tokens else p.tokens.dropWhile isDocumentEnd
  if ts.isEmpty then some (none, (p.ahead ts).expect .nothing)
  else if bare && !nextIs ts isPreamble then
    some (some .documentStart,
      { (p.putOff .documentEnd).expect .blockNode with directives := withDefaults [] })
  else do
    let (ds, ts) ← takeDirectives? false [] ts
    match ts with
    | .documentStart :: ts =>
      some (some .documentStart,
        { ((p.ahead ts).putOff .documentEnd).expect .content with directives := withDefaults ds })
    | _ => none

/-- Whether a token ends an entry, a key or a value of a block collection that is empty. -/
def endsBlockItem : Token → Bool
  | .key => true
  | .value => true
  | .blockEnd => true
  | _ => false

/-- Whether a token is the mark of an entry of a block sequence. -/
def isBlockEntry : Token → Bool
  | .blockEntry => true
  | _ => false

/-- Whether a token ends an entry of a flow sequence. -/
def endsFlowEntry : Token → Bool
  | .flowEntry => true
  | .flowSequenceEnd => true
  | _ => false

/-- Whether a token ends a value of a flow mapping. -/
def endsFlowValue : Token → Bool
  | .flowEntry => true
  | .flowMappingEnd => true
  | _ => false

/-- Whether a token is the mark of a value. -/
def isValue : Token → Bool
  | .value => true
  | _ => false

/-- Read a node, or let an empty one stand for it if the next token is one of some; `after` is
expected behind it. -/
def item? (p : Parse) (block bare : Bool) (isEnd : Token → Bool) (after : Expected) :
    Option (Event × Parse) :=
  if nextIs p.tokens isEnd then some (emptyNode, p.expect after)
  else (p.putOff after).node? block bare

/-- Read an entry of a flow sequence or its end. -/
def flowEntry? (p : Parse) (first : Bool) : Option (Event × Parse) :=
  match p.tokens with
  | .flowSequenceEnd :: ts => some (.sequenceEnd, (p.ahead ts).resume)
  | ts =>
    let ts? :=
      if first then some ts
      else
        match ts with
        | .flowEntry :: ts => some ts
        | _ => none
    match ts? with
    | none => none
    | some (.flowSequenceEnd :: ts) => some (.sequenceEnd, (p.ahead ts).resume)
    | some (.key :: ts) => some (.mappingStart Properties.none, (p.ahead ts).expect .pairKey)
    | some ts => ((p.ahead ts).putOff (.flowEntry false)).node? false false

/-- Read a key of a flow mapping or its end. -/
def flowKey? (p : Parse) (first : Bool) : Option (Event × Parse) :=
  match p.tokens with
  | .flowMappingEnd :: ts => some (.mappingEnd, (p.ahead ts).resume)
  | ts =>
    let ts? :=
      if first then some ts
      else
        match ts with
        | .flowEntry :: ts => some ts
        | _ => none
    match ts? with
    | none => none
    | some (.flowMappingEnd :: ts) => some (.mappingEnd, (p.ahead ts).resume)
    | some (.key :: ts) =>
      (p.ahead ts).item? false false (fun t => isValue t || endsFlowValue t) .flowValue
    | some ts => ((p.ahead ts).putOff .noFlowValue).node? false false

/-- Read the next event; `none` inside stands for the end of the stream. -/
def step? (p : Parse) : Option (Option Event × Parse) :=
  let found (r : Option (Event × Parse)) : Option (Option Event × Parse) :=
    r.map fun (e, p) => (some e, p)
  match p.next with
  | .document bare => p.document? bare
  | .content =>
    if p.tokens.isEmpty || nextIs p.tokens (fun t => isPreamble t || isDocumentEnd t) then
      some (some emptyNode, p.resume)
    else found (p.node? true false)
  | .documentEnd =>
    let ts := if nextIs p.tokens isDocumentEnd then p.tokens.drop 1 else p.tokens
    some (some .documentEnd, { (p.ahead ts).expect (.document false) with directives := [] })
  | .blockNode => found (p.node? true false)
  | .blockEntry =>
    match p.tokens with
    | .blockEntry :: ts =>
      found ((p.ahead ts).item? true false
        (fun t => isBlockEntry t || t matches .blockEnd) .blockEntry)
    | .blockEnd :: ts => some (some .sequenceEnd, (p.ahead ts).resume)
    | _ => none
  | .bareEntry =>
    match p.tokens with
    | .blockEntry :: ts =>
      found ((p.ahead ts).item? true false (fun t => isBlockEntry t || endsBlockItem t) .bareEntry)
    | _ => some (some .sequenceEnd, p.resume)
  | .blockKey =>
    match p.tokens with
    | .key :: ts => found ((p.ahead ts).item? true true endsBlockItem .blockValue)
    | .blockEnd :: ts => some (some .mappingEnd, (p.ahead ts).resume)
    | _ => none
  | .blockValue =>
    match p.tokens with
    | .value :: ts => found ((p.ahead ts).item? true true endsBlockItem .blockKey)
    | _ => some (some emptyNode, p.expect .blockKey)
  | .flowEntry first => found (p.flowEntry? first)
  | .pairKey =>
    match p.tokens with
    | [] => none
    | t :: ts =>
      if isValue t || endsFlowEntry t then some (some emptyNode, (p.ahead ts).expect .pairValue)
      else found ((p.putOff .pairValue).node? false false)
  | .pairValue =>
    match p.tokens with
    | .value :: ts => found ((p.ahead ts).item? false false endsFlowEntry .pairEnd)
    | _ => some (some emptyNode, p.expect .pairEnd)
  | .pairEnd => some (some .mappingEnd, p.expect (.flowEntry false))
  | .flowKey first => found (p.flowKey? first)
  | .flowValue =>
    match p.tokens with
    | .value :: ts => found ((p.ahead ts).item? false false endsFlowValue (.flowKey false))
    | _ => some (some emptyNode, p.expect (.flowKey false))
  | .noFlowValue => some (some emptyNode, p.expect (.flowKey false))
  | .nothing => some (none, p)

/-- Read all events; at most `fuel` of them. -/
def run? (p : Parse) : Nat → Option (List Event)
  | 0 => none
  | fuel + 1 =>
    match p.step? with
    | none => none
    | some (none, _) => some []
    | some (some e, p) => (p.run? fuel).map (e :: ·)

end Parse

/-- The events of a stream. Between two of its tokens there are at most four of them. -/
def Event.ofTokens? (ts : List Token) : Option (List Event) :=
  (Parse.start ts).run? (8 * ts.length + 16)

/-- The events of a stream of bytes. -/
def Event.ofBytes? (bytes : Text.Bytes) : Option (List Event) := do
  Event.ofTokens? (← Token.ofChars? (← characters? bytes))

end PluginKernel.Yaml
