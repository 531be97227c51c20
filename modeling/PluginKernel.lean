import PluginKernel.Assoc
import PluginKernel.Binary64.Basic
import PluginKernel.Binary64.Shortest
import PluginKernel.CommandLine.Grammar
import PluginKernel.CommandLine.Invocation
import PluginKernel.CommandLine.Machine
import PluginKernel.CommandLine.Outcome
import PluginKernel.CommandLine.Program
import PluginKernel.CommandLine.Run
import PluginKernel.CommandLine.Stats
import PluginKernel.Config.Credentials
import PluginKernel.Config.Document
import PluginKernel.Config.Error
import PluginKernel.Config.Port
import PluginKernel.Config.Shared
import PluginKernel.Config.Source
import PluginKernel.Duration.Basic
import PluginKernel.Duration.Text
import PluginKernel.File
import PluginKernel.Instance.Attach
import PluginKernel.Instance.Host
import PluginKernel.Instance.Listen
import PluginKernel.Instance.Lock
import PluginKernel.Instance.Report
import PluginKernel.Instance.Serve
import PluginKernel.Instance.Settle
import PluginKernel.Instance.Setup
import PluginKernel.Instance.Start
import PluginKernel.Instance.State
import PluginKernel.Instance.Step
import PluginKernel.Instance.Stop
import PluginKernel.Instance.Task
import PluginKernel.Instance.Telemetry
import PluginKernel.Instance.Timeline
import PluginKernel.Instance.Work
import PluginKernel.Json.Basic
import PluginKernel.Json.Decode
import PluginKernel.Json.Numeral
import PluginKernel.Json.Parser
import PluginKernel.Json.Printer
import PluginKernel.Json.Token
import PluginKernel.Ledger.Basic
import PluginKernel.Ledger.Error
import PluginKernel.Ledger.Operation
import PluginKernel.Ledger.Path
import PluginKernel.Ledger.Record
import PluginKernel.Ledger.Statistic
import PluginKernel.Ledger.Storage
import PluginKernel.Log
import PluginKernel.Main
import PluginKernel.Message.Chat
import PluginKernel.Message.Command
import PluginKernel.Network
import PluginKernel.Platform
import PluginKernel.Plugin.Bag
import PluginKernel.Plugin.ChannelEnd
import PluginKernel.Plugin.Choices
import PluginKernel.Plugin.Equipment
import PluginKernel.Plugin.Error
import PluginKernel.Plugin.FileCheck
import PluginKernel.Plugin.Health
import PluginKernel.Plugin.HeldEnds
import PluginKernel.Queue
import PluginKernel.Sha256
import PluginKernel.Store.Archive
import PluginKernel.Store.Backend
import PluginKernel.Store.Basic
import PluginKernel.Store.Connection
import PluginKernel.Store.Faulty
import PluginKernel.Store.Like
import PluginKernel.Store.Rows
import PluginKernel.Store.Tree
import PluginKernel.Text.Base64
import PluginKernel.Text.Blank
import PluginKernel.Text.Decimal
import PluginKernel.Text.Hex
import PluginKernel.Text.Printable
import PluginKernel.Text.Quoted
import PluginKernel.Text.Search
import PluginKernel.Text.Utf8
import PluginKernel.TextError
import PluginKernel.Tls.Config
import PluginKernel.Tls.Development
import PluginKernel.Tls.Error
import PluginKernel.Tls.Pem
import PluginKernel.Yaml.Block
import PluginKernel.Yaml.Character
import PluginKernel.Yaml.Core
import PluginKernel.Yaml.Cursor
import PluginKernel.Yaml.Event
import PluginKernel.Yaml.Folding
import PluginKernel.Yaml.Node
import PluginKernel.Yaml.Plain
import PluginKernel.Yaml.Quoted
import PluginKernel.Yaml.Tag
import PluginKernel.Yaml.Token
import PluginKernel.Yaml.Value
import PluginKernel.Proofs.Instance.Outcomes
import PluginKernel.Duration.Grammar
import PluginKernel.Proofs.Duration.Components
import PluginKernel.Proofs.Duration.Reading
import PluginKernel.Proofs.Instance.Renumbering
import PluginKernel.Proofs.Instance.Resemblance
import PluginKernel.Proofs.Instance.StartChecks
import PluginKernel.Proofs.Instance.ErrorQueue
import PluginKernel.Proofs.Instance.Waiting
import PluginKernel.Proofs.Instance.FailedStart
import PluginKernel.Proofs.Instance.Settling
import PluginKernel.Instance.Handover
import PluginKernel.Proofs.SortedMaps
import PluginKernel.Proofs.Plugin.Custody
import PluginKernel.Proofs.Plugin.Requirements
import PluginKernel.Proofs.Instance.Attaching
import PluginKernel.Proofs.Instance.Pipeline
import PluginKernel.Proofs.Instance.Chronicle
import PluginKernel.Proofs.Instance.Charging
import PluginKernel.Proofs.Instance.Precedence
import PluginKernel.Proofs.Instance.Acknowledging
import PluginKernel.Proofs.Instance.Outlet
import PluginKernel.Proofs.Instance.Attendance
import PluginKernel.Proofs.Instance.Deeds
import PluginKernel.Proofs.Instance.HeldLock
import PluginKernel.Proofs.Instance.Commands
import PluginKernel.Proofs.Instance.OneServer
import PluginKernel.Proofs.Instance.LateCommands
import PluginKernel.Proofs.Instance.Dispatching
import PluginKernel.Proofs.Instance.Health
import PluginKernel.Proofs.Instance.Termination
import PluginKernel.Proofs.Store.Commuting
import PluginKernel.Proofs.Ledger.GrowingSnapshots
import PluginKernel.Proofs.Ledger.SharedStore
import PluginKernel.Proofs.Text.Plain
import PluginKernel.Proofs.PlainErrors
import PluginKernel.Proofs.PlainLog
import PluginKernel.Proofs.Instance.PlainRuns
import PluginKernel.Proofs.Ledger.Untimed
import PluginKernel.Proofs.Instance.Affairs
import PluginKernel.Proofs.Instance.Rounds
import PluginKernel.Proofs.Instance.Accounts
import PluginKernel.Proofs.Instance.ClosedEnds
import PluginKernel.Duration.Canonical
import PluginKernel.Proofs.Duration.Canonical
import PluginKernel.Proofs.Instance.KeyMaterial
import PluginKernel.Proofs.Instance.ClosedListeners
import PluginKernel.Proofs.Instance.Observations
import PluginKernel.Proofs.Instance.Renewal
import PluginKernel.Proofs.Instance.Reuse
import PluginKernel.Proofs.CommandLine.Session
import PluginKernel.Proofs.CommandLine.Parts
import PluginKernel.Proofs.CommandLine.Scenes
import PluginKernel.Proofs.CommandLine.Endings
import PluginKernel.Proofs.CommandLine.Returning
import PluginKernel.Proofs.Ledger.OneFlow
import PluginKernel.Proofs.Store.Connection
import PluginKernel.Proofs.CommandLine.Databases
import PluginKernel.Proofs.CommandLine.Options
import PluginKernel.Proofs.CommandLine.RecordedRuns
import PluginKernel.Proofs.Ledger.ForeignRecords
import PluginKernel.Proofs.Ledger.Gathering
import PluginKernel.Proofs.Ledger.Growth
import PluginKernel.Proofs.Instance.Serving
import PluginKernel.Proofs.Text.WholeNumbers
import PluginKernel.Proofs.Json.Members
import PluginKernel.Proofs.Config.Ports
import PluginKernel.Proofs.Config.Delivery
import PluginKernel.Proofs.Ledger.RecordMembers
import PluginKernel.Proofs.Ledger.EntryLines
import PluginKernel.Proofs.Instance.EntryLines
import PluginKernel.Proofs.Store.Root
import PluginKernel.Proofs.CommandLine.LiteralDatabases
import PluginKernel.Proofs.Message.Wire
