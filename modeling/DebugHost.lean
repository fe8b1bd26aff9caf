import DebugHost.Breakpoints
import DebugHost.CommandLine.Arguments
import DebugHost.CommandLine.Usage
import DebugHost.Config.Basic
import DebugHost.Config.Reader
import DebugHost.Config.Source
import DebugHost.Connection
import DebugHost.Connection.Link
import DebugHost.Debugger
import DebugHost.Decimal
import DebugHost.Duration
import DebugHost.Error
import DebugHost.FileSystem
import DebugHost.Frame
import DebugHost.Frame.Reader
import DebugHost.Inspection.Call
import DebugHost.Inspection.Desk
import DebugHost.Inspection.Tree
import DebugHost.Json.Fault
import DebugHost.Json.Field
import DebugHost.Json.Printer
import DebugHost.Json.Reader
import DebugHost.Json.Value
import DebugHost.Launch
import DebugHost.Log.Directive
import DebugHost.Log.Failure
import DebugHost.Log.Filter
import DebugHost.Log.Record
import DebugHost.Log.Sink
import DebugHost.Log.Tail
import DebugHost.Main
import DebugHost.Message.Arguments
import DebugHost.Message.Basic
import DebugHost.Message.Bodies
import DebugHost.Message.Reader
import DebugHost.Path
import DebugHost.Process.Command
import DebugHost.Process.Exit
import DebugHost.Process.Lines
import DebugHost.Process.Runner
import DebugHost.Process.Supervisor
import DebugHost.Program
import DebugHost.Proofs.Breakpoints
import DebugHost.Proofs.Breakpoints.Record
import DebugHost.Proofs.CommandLine
import DebugHost.Proofs.CommandLine.Breakpoints
import DebugHost.Proofs.Config
import DebugHost.Proofs.Connection.Closing
import DebugHost.Proofs.Connection.Demultiplexing
import DebugHost.Proofs.Connection.Intake
import DebugHost.Proofs.Connection.Matching
import DebugHost.Proofs.Connection.Numbers
import DebugHost.Proofs.Connection.Progress
import DebugHost.Proofs.Connection.Reasons
import DebugHost.Proofs.Connection.Running
import DebugHost.Proofs.Connection.Traffic
import DebugHost.Proofs.Connection.Waiting
import DebugHost.Proofs.Connection.Wire
import DebugHost.Proofs.Debugger.Beats
import DebugHost.Proofs.Debugger.Crowd
import DebugHost.Proofs.Debugger.Moves
import DebugHost.Proofs.Debugger.Places
import DebugHost.Proofs.Debugger.Requests
import DebugHost.Proofs.Debugger.Touches
import DebugHost.Proofs.Debugger.Turns
import DebugHost.Proofs.FileSystem
import DebugHost.Proofs.Frame.Chunks
import DebugHost.Proofs.Frame.Cuts
import DebugHost.Proofs.Frame.Delivery
import DebugHost.Proofs.Frame.Envelopes
import DebugHost.Proofs.Frame.Header
import DebugHost.Proofs.Frame.Stream
import DebugHost.Proofs.Inspection.Asking
import DebugHost.Proofs.Inspection.Generations
import DebugHost.Proofs.Inspection.Overtaking
import DebugHost.Proofs.Inspection.Pauses
import DebugHost.Proofs.Inspection.Provenance
import DebugHost.Proofs.Inspection.Scene
import DebugHost.Proofs.Inspection.Sharing
import DebugHost.Proofs.Inspection.Slots
import DebugHost.Proofs.Inspection.Tree
import DebugHost.Proofs.Json.Forms
import DebugHost.Proofs.Json.Grammar
import DebugHost.Proofs.Json.Lexemes
import DebugHost.Proofs.Json.Literals
import DebugHost.Proofs.Json.Scalars
import DebugHost.Proofs.Json.Shape
import DebugHost.Proofs.Json.Swaps
import DebugHost.Proofs.Json.Values
import DebugHost.Proofs.Launch.Connecting
import DebugHost.Proofs.Launch.Failing
import DebugHost.Proofs.Launch.Launching
import DebugHost.Proofs.Launch.Running
import DebugHost.Proofs.Launch.Runs
import DebugHost.Proofs.Log.Filter
import DebugHost.Proofs.Log.Tail
import DebugHost.Proofs.Message.Order
import DebugHost.Proofs.Message.Reading
import DebugHost.Proofs.Message.Refusals
import DebugHost.Proofs.Message.Wire
import DebugHost.Proofs.Orders
import DebugHost.Proofs.Path
import DebugHost.Proofs.Process.Completion
import DebugHost.Proofs.Process.Groups
import DebugHost.Proofs.Process.Interpreter
import DebugHost.Proofs.Process.Lines
import DebugHost.Proofs.Process.OnePlace
import DebugHost.Proofs.Process.Output
import DebugHost.Proofs.Process.Place
import DebugHost.Proofs.Process.Progress
import DebugHost.Proofs.Process.Remainder
import DebugHost.Proofs.Process.Running
import DebugHost.Proofs.Process.StopBound
import DebugHost.Proofs.Process.Stops
import DebugHost.Proofs.Process.Supervision
import DebugHost.Proofs.Process.Takedown
import DebugHost.Proofs.Process.Teardown
import DebugHost.Proofs.Protocol
import DebugHost.Proofs.Record
import DebugHost.Proofs.Redaction
import DebugHost.Proofs.Redaction.Shape
import DebugHost.Proofs.Router.Delivery
import DebugHost.Proofs.Router.Relay
import DebugHost.Proofs.Router.Solo
import DebugHost.Proofs.Script
import DebugHost.Proofs.Session.Alone
import DebugHost.Proofs.Session.Configuring
import DebugHost.Proofs.Session.Deeds
import DebugHost.Proofs.Session.Disconnecting
import DebugHost.Proofs.Session.Ending
import DebugHost.Proofs.Session.Exchanges
import DebugHost.Proofs.Session.Handshake
import DebugHost.Proofs.Session.Ledger
import DebugHost.Proofs.Session.Lockstep
import DebugHost.Proofs.Session.Mail
import DebugHost.Proofs.Session.Orderly
import DebugHost.Proofs.Session.Outcomes
import DebugHost.Proofs.Session.Patience
import DebugHost.Proofs.Session.Quiet
import DebugHost.Proofs.Session.Refusal
import DebugHost.Proofs.Session.Reigns
import DebugHost.Proofs.Session.Replacing
import DebugHost.Proofs.Session.Results
import DebugHost.Proofs.Session.Resuming
import DebugHost.Proofs.Session.Runs
import DebugHost.Proofs.Session.Serial
import DebugHost.Proofs.Session.Step
import DebugHost.Proofs.Session.Tasks
import DebugHost.Proofs.Session.Tickets
import DebugHost.Proofs.Session.Undoing
import DebugHost.Proofs.Text.Utf8
import DebugHost.Proofs.Text.Words
import DebugHost.Proofs.Threads.Asking
import DebugHost.Proofs.Threads.Malformed
import DebugHost.Proofs.Threads.Recounts
import DebugHost.Proofs.Threads.Table
import DebugHost.Proofs.Toml.Names
import DebugHost.Record
import DebugHost.Redaction
import DebugHost.Report.Config
import DebugHost.Report.Process
import DebugHost.Report.Run
import DebugHost.Report.Session
import DebugHost.Router
import DebugHost.Schedule
import DebugHost.Script
import DebugHost.Session.Calls
import DebugHost.Session.Console
import DebugHost.Session.Description
import DebugHost.Session.Room
import DebugHost.Session.State
import DebugHost.Session.Status
import DebugHost.Shell.Arithmetic
import DebugHost.Shell.Builtin
import DebugHost.Shell.Condition
import DebugHost.Shell.Expansion
import DebugHost.Shell.Format
import DebugHost.Shell.Grammar
import DebugHost.Shell.Machine
import DebugHost.Shell.Operands
import DebugHost.Shell.Options
import DebugHost.Shell.Pattern
import DebugHost.Shell.Preparation
import DebugHost.Shell.Process
import DebugHost.Shell.Reader
import DebugHost.Shell.Scope
import DebugHost.Shell.System
import DebugHost.Shell.Tool
import DebugHost.Text.Character
import DebugHost.Text.Integer
import DebugHost.Text.Letter
import DebugHost.Text.Quoted
import DebugHost.Text.Regular
import DebugHost.Text.Utf8
import DebugHost.Toml.Reader
import DebugHost.Toml.Scalar
import DebugHost.Toml.Table
import DebugHost.Toml.Text
