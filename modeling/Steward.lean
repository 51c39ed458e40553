import Steward.Activation
import Steward.Call
import Steward.Capture
import Steward.Choice
import Steward.CommandLine.Basic
import Steward.CommandLine.Help
import Steward.CommandLine.Inspect
import Steward.CommandLine.Parser
import Steward.CommandLine.Prepare
import Steward.CommandLine.Report
import Steward.Config.Basic
import Steward.Config.File
import Steward.Config.Json
import Steward.Config.Places
import Steward.Config.Printing
import Steward.Config.Reading
import Steward.Config.Validity
import Steward.Console
import Steward.Definition
import Steward.Exit
import Steward.Failure
import Steward.Files
import Steward.Journal.Basic
import Steward.Journal.Filter
import Steward.Json.Parser
import Steward.Json.Printer
import Steward.Json.Token
import Steward.Json.Value
import Steward.Lifecycle
import Steward.Machine.Basic
import Steward.Machine.Command
import Steward.Machine.Launch
import Steward.Machine.Loading
import Steward.Machine.Signal
import Steward.Machine.Step
import Steward.Machine.Utility
import Steward.Main
import Steward.Network
import Steward.OutputLog.Entry
import Steward.OutputLog.File
import Steward.Path
import Steward.Port
import Steward.Program
import Steward.Proofs.Announcement
import Steward.Proofs.Checks
import Steward.Proofs.Coherence
import Steward.Proofs.Consent
import Steward.Proofs.Custody
import Steward.Proofs.Encoding
import Steward.Proofs.Enrolment
import Steward.Proofs.ExitAccount
import Steward.Proofs.FileTree
import Steward.Proofs.Guardian
import Steward.Proofs.JsonText
import Steward.Proofs.Moments
import Steward.Proofs.Protocol
import Steward.Proofs.Repertoire
import Steward.Proofs.Shutdown
import Steward.Proofs.Silence
import Steward.Proofs.Trimming
import Steward.Query
import Steward.Record
import Steward.Rehearsal.Script
import Steward.Rehearsal.Session
import Steward.Rehearsal.Sitting
import Steward.Rehearsal.Trial
import Steward.Schedule
import Steward.ServerCommand
import Steward.Service
import Steward.Shell.Arithmetic
import Steward.Shell.Condition
import Steward.Shell.Expansion
import Steward.Shell.Format
import Steward.Shell.Parser
import Steward.Shell.Pattern
import Steward.Shell.State
import Steward.Shell.Syntax
import Steward.Shell.Token
import Steward.Station
import Steward.Supervisor.Calls
import Steward.Supervisor.Outcome
import Steward.Supervisor.Runtime
import Steward.Terminal
import Steward.Text.Blank
import Steward.Text.Case
import Steward.Text.Decimal
import Steward.Text.Line
import Steward.Text.Numeral
import Steward.Text.Quoted
import Steward.Text.Utf8
import Steward.Timestamp
import Steward.Toml.Document
import Steward.Toml.Printer
import Steward.Toml.Scalar
import Steward.Toml.Token
import Steward.Toml.Value
import Steward.Tool.Identity
import Steward.Tool.Installation
import Steward.Tool.Installer
import Steward.Tool.Locator
import Steward.Tool.Toolchain
import Steward.Update.Check
import Steward.Update.Offer
import Steward.Variables
import Steward.Version.Compare
import Steward.Version.Installed
import Steward.Version.Lookup
import Steward.Version.Published
import Steward.Version.Semantic
import Steward.Words
import Steward.World
import Steward.Proofs.OutputRecord
import Steward.Proofs.TornLog
import Steward.Proofs.LineCapture
import Steward.Proofs.ChildOutput
import Steward.Proofs.Dialogue
import Steward.Proofs.SittingDialogue
import Steward.Proofs.LifecycleTrace
import Steward.Proofs.Wiring
import Steward.Proofs.TomlKeys
import Steward.Proofs.SettingsReaders
import Steward.Proofs.TomlTexts
import Steward.Proofs.TomlSections
import Steward.Proofs.SettingsRoundTrip
import Steward.Proofs.Course
import Steward.Proofs.Launching
import Steward.Proofs.Escalation
import Steward.Proofs.Restart
import Steward.Proofs.Deactivation
import Steward.Proofs.Release
import Steward.Proofs.Exchanges
import Steward.Proofs.TagResolution
import Steward.Proofs.UpdateVerdict
import Steward.Proofs.JsonSpelling
import Steward.Proofs.CommitBuild
import Steward.Proofs.Publication
import Steward.Proofs.MenuAnswers
import Steward.Proofs.ToolNames
import Steward.Proofs.DefinitionText
import Steward.Proofs.OmittedSettings
import Steward.Proofs.CommandNames
import Steward.Proofs.CapturedStream
import Steward.Proofs.StandardStreams
import Steward.Proofs.SignalTargets
