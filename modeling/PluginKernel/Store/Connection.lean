import PluginKernel.Ledger.Error
import PluginKernel.Text.Search
import PluginKernel.Text.Utf8

/-!
# Opening a database

A database is opened by a connection text: a scheme, the percent-encoded name of the file, and
parameters behind a question mark. The name `:memory:` stands for a database without a file. The
path of a database is put into the connection text as it is, so a question mark or a percent sign
in it takes on a meaning.
-/

namespace PluginKernel.Store

open Text

/-- What a connection text leads to. -/
inductive Database where
  /-- A database that lives as long as the connection. -/
  | inMemory
  /-- A file, which is created if it is missing and `create` says so. -/
  | file (name : String) (create : Bool)
deriving DecidableEq, Repr

/-- Why a database cannot be opened. -/
inductive OpenError where
  /-- The name of the file is not UTF-8 once decoded. -/
  | invalidName
  /-- A parameter is not known. -/
  | unknownParameter (name : String)
  /-- A parameter does not have this value. -/
  | unknownValue (name value : String)
  /-- There is no such file, and it cannot be created. -/
  | unreachable
deriving DecidableEq, Repr

/-- The wording of each cause. -/
def OpenError.message : OpenError → String
  | .invalidName => "error with configuration: invalid utf-8 sequence"
  | .unknownParameter name =>
    "error with configuration: unknown query parameter `" ++ name ++
      "` while parsing connection URL"
  | .unknownValue name value =>
    "error with configuration: unknown value " ++ quote value ++ " for `" ++ name ++ "`"
  | .unreachable =>
    "error returned from database: (code: 14) unable to open database file"

namespace Database

/-- The connection text of a path: the file is created if it is missing. -/
def connection (path : List Char) : List Char :=
  "sqlite:".toList ++ path ++ "?mode=rwc".toList

/-- What is left of a text once a front has been taken off as often as it is there. -/
def stripAll (front cs : List Char) : Nat → List Char
  | 0 => cs
  | n + 1 =>
    match stripFront? front cs with
    | some rest => stripAll front rest n
    | none => cs

/-- A connection text without its schemes. -/
def withoutScheme (cs : List Char) : List Char :=
  let cs := stripAll "sqlite://".toList cs cs.length
  stripAll "sqlite:".toList cs cs.length

/-- Replace each percent sign with two hexadecimal digits behind it by the byte they spell. -/
def percentDecode : List Char → Bytes
  | '%' :: h :: l :: rest =>
    match hexValue? h, hexValue? l with
    | some h, some l => UInt8.ofNat (16 * h + l) :: percentDecode rest
    | _, _ => utf8 "%" ++ percentDecode (h :: l :: rest)
  | c :: rest => utf8 (String.singleton c) ++ percentDecode rest
  | [] => []

/-- The text of a parameter's name or value, where a plus sign stands for a space. -/
def parameterText (cs : List Char) : String :=
  let bytes := percentDecode (cs.map fun c => if c == '+' then ' ' else c)
  String.ofList ((ofUtf8? bytes).getD ['\ufffd'])

/-- The parameters of a connection text. -/
def parameters (cs : List Char) : List (String × String) :=
  ((cs.splitOn '&').filter (!·.isEmpty)).map fun part =>
    let (name, value) := splitFirst '=' part
    (parameterText name, parameterText (value.getD []))

/-- Let a parameter change what a connection leads to. -/
def applyParameter (d : Database) (p : String × String) : Except OpenError Database :=
  if p.1 = "mode" then
    if p.2 = "ro" || p.2 = "rw" then .ok d
    else if p.2 = "rwc" then
      match d with
      | .file name _ => .ok (.file name true)
      | .inMemory => .ok .inMemory
    else if p.2 = "memory" then .ok .inMemory
    else .error (.unknownValue "mode" p.2)
  else if p.1 = "cache" then
    if p.2 = "private" || p.2 = "shared" then .ok d else .error (.unknownValue "cache" p.2)
  else if p.1 = "immutable" then
    if p.2 = "true" || p.2 = "1" || p.2 = "false" || p.2 = "0" then .ok d
    else .error (.unknownValue "immutable" p.2)
  else if p.1 = "vfs" then .ok d
  else .error (.unknownParameter p.1)

/-- What a connection text leads to. -/
def ofConnection (cs : List Char) : Except OpenError Database := do
  let (name, rest) := splitFirst '?' (withoutScheme cs)
  let base ←
    if name = ":memory:".toList then .ok .inMemory
    else
      match ofUtf8? (percentDecode name) with
      | some cs => .ok (.file (String.ofList cs) false)
      | none => .error .invalidName
  (parameters (rest.getD [])).foldlM applyParameter base

/-- What the path of a database leads to. -/
def ofPath (path : String) : Except OpenError Database := ofConnection (connection path.toList)

/-- Open the database at a path. `files` finds what a file holds, and `canCreate` says whether a
missing file can be made. -/
def openAt {α : Type} (empty : α) (files : String → Option α) (canCreate : String → Bool)
    (path : String) : Except StatisticError (Database × α) :=
  let result : Except OpenError (Database × α) := do
    match ← ofPath path with
    | .inMemory => .ok (.inMemory, empty)
    | .file name create =>
      match files name with
      | some content => .ok (.file name create, content)
      | none =>
        if create && canCreate name then .ok (.file name create, empty) else .error .unreachable
  result.mapError fun e =>
    .other ("opening statistics database " ++ path ++ ": " ++ e.message)

end Database

end PluginKernel.Store
