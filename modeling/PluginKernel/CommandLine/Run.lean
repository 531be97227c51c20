import PluginKernel.CommandLine.Outcome
import PluginKernel.Instance.Attach
import PluginKernel.Store.Tree

/-!
# Running a plugin

A plugin is attached, started, kept running for a while and stopped. Everything that it sends is
printed. Statistics are kept in a database if one is named, and else in memory.

The certificate and the key are read first, then the configuration; then the database is opened and
the plugin attached. If no certificate is named, one is made, and the authority that signed it is
printed.
-/

namespace PluginKernel.CommandLine

/-- The lines that show a ledger. -/
def ledgerLines (l : Ledger) : List String :=
  ("dataflow " ++ l.name ++ ":") :: l.statistics.map fun s =>
    "  " ++ s.flowGroup ++ "/" ++ s.flowName ++ " " ++ s.stateName ++ " (" ++ s.stateCode ++
      ") mode=" ++ Text.showInt s.mode.toInt ++ " elapsed=" ++ s.timeSplit

/-- The line that shows that a plugin is about to shut down. -/
def shutdownLine (e : PluginError) : String := "plugin: " ++ e.message

/-- The line that shows another error. -/
def errorLine (e : PluginError) : String := "plugin error: " ++ e.message

namespace RunArguments

/-- The room of the queues between host and plugin. -/
def queueCapacity : Nat := 32

/-- The identifier under which statistics are recorded. -/
def recordedId (a : RunArguments) : String := a.argosId.getD a.plugin

/-- Read a file. -/
def readFile (m : Machine) (path : String) : Except Failure Text.Bytes :=
  (m.readBytes path).mapError fun e =>
    { message := "reading " ++ path, cause := some e.message }

/-- The certificate and the key, and what is printed about them. -/
def findCredentials (a : RunArguments) (m : Machine) :
    Except Failure (Credentials × List String) :=
  match a.credentials with
  | some (cert, key) => do
    let cert ← readFile m cert
    let key ← readFile m key
    pure (⟨cert, key⟩, [])
  | none => do
    let words := m.platform.keys.wordings
    let made ← (Tls.DevelopmentCertificates.generate words m.certificates Address.ownName).mapError
      fun e => { message := e.message }
    pure (⟨Text.utf8 made.server, Text.utf8 made.key⟩,
      ["Trust this CA to call the plugin:", made.authority])

/-- The common configuration. -/
def findConfig (a : RunArguments) (m : Machine) : Except Failure ConfigSource :=
  match a.config with
  | some path => (readFile m path).map .document
  | none => pure (.ofConfig { SharedConfig.onPort (.ofPort a.port) with host := a.host })

/-- What is handed over to the plugin. -/
def bag (a : RunArguments) (credentials : Credentials) (source : ConfigSource) : Bag :=
  let names := CredentialNames.ofPlugin a.plugin
  let bag := Assoc.ofList
    [(names.cert, .bytes credentials.cert), (names.key, .bytes credentials.key),
      (Bag.idEntry, .text a.recordedId), (Bag.channelsEntry, .channels .all)]
  Bag.putConfig bag source

/-- What is chosen for the plugin. -/
def choices (a : RunArguments) : PluginChoices where
  filingPlace := some ⟨FilingPlace.usualBasePath, FilingPlace.usualIdName⟩
  fileCheck := a.artifact.map fun artifact =>
    ⟨artifact, match a.digest with
      | some digest => .ofManifest digest
      | none => .log⟩

/-- The content of the plugin's file. -/
def content (a : RunArguments) (m : Machine) : Except FileError Text.Bytes :=
  match a.artifact with
  | some path => m.readBytes path
  | none => .error .missing

variable {σ : Type}

/-- The lines about what a plugin has sent: on its shutdown and of its ledgers, and on errors. -/
def report (s : PluginState σ) : List String × List String :=
  let errors := s.errors.buffer
  ((errors.filter (·.announcesShutdown)).map shutdownLine ++ s.dataflow.buffer.flatMap ledgerLines,
    (errors.filter (!·.announcesShutdown)).map errorLine)

variable [RecordStore σ]

/-- Start an attached plugin, keep it running, and stop it. If the start is not acknowledged it is
given up. -/
def session (a : RunArguments) (i : Instance σ) : Instance σ × Option Failure :=
  let i := i.settle.play [.command ⟨a.plugin, .start⟩]
  if i.state.acks.buffer.isEmpty then
    (i, some { message := "plugin " ++ a.plugin ++ " did not acknowledge start" })
  else
    (i.play [.readAcks 1, .wait (a.holdSeconds * nanosPerSecond), .command ⟨a.plugin, .stop⟩,
      .readAcks 1], none)

/-- Attach a plugin that keeps its statistics in a store, and run it. -/
def runWith (a : RunArguments) (m : Machine) (credentials : Credentials) (source : ConfigSource)
    (store : σ) : σ × Outcome :=
  let attachment : Attachment :=
    { plugin := a.plugin
      bag := a.bag credentials source
      choices := a.choices
      content := a.content m }
  match Instance.attach attachment m.platform queueCapacity store with
  | .error e => (store, .failed e.message)
  | .ok i =>
    let (i, failure) := a.session (m.occupied.foldl (fun i e => i.act (.occupy e)) i)
    let (output, complaints) := report i.state
    (i.state.store, { output, complaints, failure })

/-- Run a plugin, with what it needs from the machine. -/
def runOn (a : RunArguments) (m : Machine) (credentials : Credentials) (source : ConfigSource) :
    Machine × Outcome :=
  match a.database with
  | none => (m, (a.runWith m credentials source Store.Tree.empty).2)
  | some path =>
    match m.openDatabase path with
    | .error f => (m, { failure := some f })
    | .ok d =>
      let (rows, outcome) := a.runWith m credentials source d.rows
      (m.close { d with rows }, outcome)

/-- Run a plugin. -/
def execute (a : RunArguments) (m : Machine) : Machine × Outcome :=
  match a.findCredentials m with
  | .error f => (m, { failure := some f })
  | .ok (credentials, printed) =>
    match a.findConfig m with
    | .error f => (m, { output := printed, failure := some f })
    | .ok source =>
      let (m, outcome) := a.runOn m credentials source
      (m, { outcome with output := printed ++ outcome.output })

end RunArguments

end PluginKernel.CommandLine
