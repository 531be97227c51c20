import PluginKernel.Json.Token

/-!
# Reading structured values

A value is read from its tokens by a machine with a stack: one frame for each list or object that is
open, innermost first. A closed container is delivered to the frame below it, and to the outside at
the bottom. At most 127 containers may be open at once. Of several members with one name the last
counts.
-/

namespace PluginKernel.Json

/-- A container that is open. -/
inductive Frame where
  /-- A list, with the items read so far, the last one first. -/
  | list (items : List Json)
  /-- An object, with the members read so far and the name of the one being read. -/
  | object (members : Assoc Json) (name : String)

/-- What may come next. -/
inductive Expectation where
  | value
  /-- A value or the end of the list. -/
  | firstItem
  | name
  /-- A name or the end of the object. -/
  | firstName
  /-- The colon behind a name. -/
  | colon
  /-- A comma or the end of the innermost container. -/
  | separator
  /-- Nothing: this value has been read. -/
  | nothing (v : Json)

/-- How far reading has come. -/
structure Reading where
  /-- The open containers, the innermost first. -/
  frames : List Frame
  /-- What may come next. -/
  next : Expectation

namespace Reading

/-- The beginning. -/
def start : Reading := ⟨[], .value⟩

/-- How many containers may be open, plus one. -/
def depthLimit : Nat := 128

/-- Hand a value to the innermost open container. -/
def deliver (v : Json) : List Frame → Reading
  | [] => ⟨[], .nothing v⟩
  | .list items :: frames => ⟨.list (v :: items) :: frames, .separator⟩
  | .object ms name :: frames => ⟨.object (Assoc.insert name v ms) name :: frames, .separator⟩

/-- Open a container. -/
def enter (frame : Frame) (next : Expectation) (frames : List Frame) : Option Reading :=
  if frames.length + 1 < depthLimit then some ⟨frame :: frames, next⟩ else none

/-- Read a token where a value must follow. -/
def value? (frames : List Frame) : Token → Option Reading
  | .openList => enter (.list []) .firstItem frames
  | .openObject => enter (.object [] "") .firstName frames
  | .text s => some (deliver (.str s) frames)
  | .scalar v => some (deliver v frames)
  | _ => none

/-- Read a token where a name must follow. -/
def name? : List Frame → Token → Option Reading
  | .object ms _ :: frames, .text s => some ⟨.object ms s :: frames, .colon⟩
  | _, _ => none

/-- Close the innermost container. -/
def close? : List Frame → Token → Option Reading
  | .list items :: frames, .closeList => some (deliver (.arr items.reverse) frames)
  | .object ms _ :: frames, .closeObject => some (deliver (.obj ms) frames)
  | _, _ => none

/-- Read a token behind a value in a container. -/
def separator? : List Frame → Token → Option Reading
  | .list items :: frames, .comma => some ⟨.list items :: frames, .value⟩
  | .object ms name :: frames, .comma => some ⟨.object ms name :: frames, .name⟩
  | frames, t => close? frames t

/-- Read one token. -/
def step? (r : Reading) (t : Token) : Option Reading :=
  match r.next with
  | .value => value? r.frames t
  | .firstItem => (close? r.frames t).or (value? r.frames t)
  | .name => name? r.frames t
  | .firstName => (close? r.frames t).or (name? r.frames t)
  | .colon =>
    match t with
    | .colon => some ⟨r.frames, .value⟩
    | _ => none
  | .separator => separator? r.frames t
  | .nothing _ => none

end Reading

/-- The value that consists of these tokens. -/
def ofTokens? (ts : List Token) : Option Json :=
  match ts.foldlM Reading.step? Reading.start with
  | some ⟨_, .nothing v⟩ => some v
  | _ => none

/-- The value that a text stands for, if it is JSON. -/
def parse? (s : String) : Option Json := (Token.ofChars? s.toList).bind ofTokens?

end PluginKernel.Json
