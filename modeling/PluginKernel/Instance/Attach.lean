import PluginKernel.Instance.Host

/-!
# Attaching a plugin

A host attaches a plugin by handing over a bag and saying what it chooses. The plugin's file is
checked first, if that is asked for, and then the bag. If something is missing, nothing is kept and
nothing runs; otherwise the plugin is idle and listens to commands.
-/

namespace PluginKernel

/-- What a host hands over to attach a plugin. -/
structure Attachment where
  /-- The name of the plugin. -/
  plugin : String
  bag : Bag
  /-- What the host chooses. -/
  choices : PluginChoices := {}
  /-- The content of the plugin's file, if it can be read. -/
  content : Except FileError Text.Bytes := .error .missing
  /-- Whether there is somebody to run the plugin's tasks. -/
  hasExecutor : Bool := true

namespace Attachment

/-- The names of the plugin's certificate and key. -/
def names (a : Attachment) : CredentialNames :=
  (CredentialNames.ofPlugin a.plugin).withShared a.choices.sharedNames

/-- What is answered if there is nobody to run tasks. -/
def noExecutor : PluginError :=
  .other ("plugin init requires a tokio runtime: there is no reactor running, must be called " ++
    "from the context of a Tokio 1.x runtime")

/-- Check the plugin's file. -/
def checkFile (a : Attachment) : Except PluginError Unit :=
  match a.choices.fileCheck with
  | some check => check.run a.content
  | none => .ok ()

/-- What the bag gives the plugin. -/
def readBag (a : Attachment) : Except PluginError Equipment :=
  Equipment.ofBag a.plugin a.bag a.names

/-- What the plugin knows of its host, if it can be attached. -/
def equipment (a : Attachment) : Except PluginError Equipment := do
  if !a.hasExecutor then throw noExecutor
  a.checkFile
  a.readBag

/-- What is logged about a plugin that is not attached. -/
def refusal (a : Attachment) (message : String) (e : PluginError) : LogEvent :=
  .warn message [("plugin", a.plugin), ("error", e.message)]

/-- What attaching logs. -/
def events (a : Attachment) : List LogEvent :=
  if !a.hasExecutor then []
  else
    let checked := match a.choices.fileCheck with
      | some check => check.events a.content
      | none => []
    match a.checkFile with
    | .error e => checked ++ [a.refusal "plugin rejected" e]
    | .ok _ =>
      let verdict := match a.readBag with
        | .error e => a.refusal "plugin initialization aborted" e
        | .ok _ => .info "plugin initialized" [("plugin", a.plugin)]
      checked ++ Equipment.idEvents a.bag ++ [verdict]

end Attachment

namespace Instance

variable {σ : Type}

/-- A plugin that has just been attached: nothing has been started. -/
def initial (setup : Setup) (capacity : Nat) (store : σ) : Instance σ where
  setup := setup
  state := .initial capacity store
  tasks := [.keeper .receive, .courier .receive, .listen .open]
  line := [0, 1, 2]
  mem_line t ht := by simp at ht ⊢; omega

/-- Attach a plugin with queues of a capacity and a store for its statistics. -/
def attach (a : Attachment) (platform : Platform) (capacity : Nat) (store : σ) :
    Except PluginError (Instance σ) :=
  a.equipment.map fun equipment =>
    let i := initial ⟨equipment, a.choices, platform⟩ capacity store
    { i with state := i.state.logged a.events }

/-- What a summary shows of a plugin. -/
def summary (i : Instance σ) : String :=
  "PluginInstance \x7b plugin: " ++ Text.quote i.setup.equipment.plugin ++ ", argos_id: " ++
    Text.quote i.setup.equipment.argosId ++ ", phase: " ++ i.state.phase.name ++ ", .. \x7d"

end Instance

end PluginKernel
