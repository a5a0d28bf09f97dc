import AnalyzerBridge.Analyzer
import AnalyzerBridge.Bytes
import AnalyzerBridge.Bytes.Numeral
import AnalyzerBridge.Bytes.Search
import AnalyzerBridge.CommandLine.Options
import AnalyzerBridge.CommandLine.Resolve
import AnalyzerBridge.CommandLine.Run
import AnalyzerBridge.Documents
import AnalyzerBridge.Failure
import AnalyzerBridge.Frame
import AnalyzerBridge.Frame.Reader
import AnalyzerBridge.Frame.Writer
import AnalyzerBridge.Host.Disk
import AnalyzerBridge.Host.Environment
import AnalyzerBridge.Host.Errno
import AnalyzerBridge.Host.FileTree
import AnalyzerBridge.Host.Follow
import AnalyzerBridge.Host.Kernel
import AnalyzerBridge.Host.Launch
import AnalyzerBridge.Host.Life
import AnalyzerBridge.Host.Machine
import AnalyzerBridge.Host.Shell.Arithmetic
import AnalyzerBridge.Host.Shell.Builtin
import AnalyzerBridge.Host.Shell.Evaluate
import AnalyzerBridge.Host.Shell.Fields
import AnalyzerBridge.Host.Shell.Format
import AnalyzerBridge.Host.Shell.Parse
import AnalyzerBridge.Host.Shell.Pattern
import AnalyzerBridge.Host.Shell.Syntax
import AnalyzerBridge.Host.Signal
import AnalyzerBridge.Host.Utility
import AnalyzerBridge.Host.Utility.ByteSet
import AnalyzerBridge.Host.Utility.Condition
import AnalyzerBridge.Host.Utility.Regex
import AnalyzerBridge.Host.Utility.Sed
import AnalyzerBridge.Host.World
import AnalyzerBridge.LogRoute
import AnalyzerBridge.Lsp.CodeAction
import AnalyzerBridge.Lsp.Diagnostic
import AnalyzerBridge.Lsp.DiagnosticBoard
import AnalyzerBridge.Lsp.Names
import AnalyzerBridge.Lsp.Position
import AnalyzerBridge.Main
import AnalyzerBridge.Manifest
import AnalyzerBridge.Mcp.LineTransport
import AnalyzerBridge.Mcp.ToolName
import AnalyzerBridge.Path
import AnalyzerBridge.Proofs.Bytes
import AnalyzerBridge.Proofs.Documents.Ensure
import AnalyzerBridge.Proofs.Documents.Freshness
import AnalyzerBridge.Proofs.Documents.Protocol
import AnalyzerBridge.Proofs.Documents.Run
import AnalyzerBridge.Proofs.Frame.Delivery
import AnalyzerBridge.Proofs.Frame.Grammar
import AnalyzerBridge.Proofs.Frame.HeaderLine
import AnalyzerBridge.Proofs.Frame.Refinement
import AnalyzerBridge.Proofs.Frame.RoundTrip
import AnalyzerBridge.Proofs.Path
import AnalyzerBridge.Proofs.Session.Ledger
import AnalyzerBridge.Proofs.Session.LifeCycle
import AnalyzerBridge.Proofs.Session.Threads
import AnalyzerBridge.Proofs.Toml.Grammar
import AnalyzerBridge.Proofs.Toml.Scan
import AnalyzerBridge.Proofs.Toml.Values
import AnalyzerBridge.Proofs.Uri
import AnalyzerBridge.Session.Client
import AnalyzerBridge.Session.ErrorLines
import AnalyzerBridge.Session.Message
import AnalyzerBridge.Session.State
import AnalyzerBridge.Settings
import AnalyzerBridge.Supervisor
import AnalyzerBridge.Toml.Document
import AnalyzerBridge.Toml.Scan
import AnalyzerBridge.Toml.Value
import AnalyzerBridge.Tool.Capture
import AnalyzerBridge.Tool.Cargo
import AnalyzerBridge.Tool.Command
import AnalyzerBridge.Tool.Rustfmt
import AnalyzerBridge.Uri
import AnalyzerBridge.Proofs.Toml.Flatten
import AnalyzerBridge.Proofs.Toml.Lines
import AnalyzerBridge.Proofs.Toml.RoundTrip
import AnalyzerBridge.Proofs.Manifest.Spelling
import AnalyzerBridge.Proofs.Manifest.Tables
import AnalyzerBridge.Proofs.Manifest.Records
import AnalyzerBridge.Proofs.Manifest.RoundTrip
import AnalyzerBridge.Proofs.Manifest.Writing
import AnalyzerBridge.Proofs.Supervisor.Calls
import AnalyzerBridge.Proofs.Supervisor.Descriptors
import AnalyzerBridge.Proofs.Documents.Failure
import AnalyzerBridge.Proofs.Settings.Entries
import AnalyzerBridge.Proofs.Settings.Precedence
import AnalyzerBridge.Proofs.Supervisor.Clock
import AnalyzerBridge.Proofs.Frame.LineLimit
import AnalyzerBridge.Proofs.Toml.Settled
import AnalyzerBridge.Proofs.Toml.Literal
import AnalyzerBridge.Proofs.Manifest.TargetTable
import AnalyzerBridge.Proofs.Path.NormalForm
import AnalyzerBridge.Proofs.Settings.Workspace
import AnalyzerBridge.Proofs.Bytes.Numeral
import AnalyzerBridge.Proofs.Settings.Times
import AnalyzerBridge.Proofs.Session.Process
import AnalyzerBridge.Proofs.Session.Readiness
import AnalyzerBridge.Proofs.Uri.Escapes
import AnalyzerBridge.Proofs.Uri.RoundTrip
import AnalyzerBridge.Proofs.Frame.Stop
import AnalyzerBridge.Proofs.Session.Companions
import AnalyzerBridge.Proofs.Session.Course
import AnalyzerBridge.Proofs.Session.Coherence
import AnalyzerBridge.Proofs.Session.Waiters
import AnalyzerBridge.Proofs.Session.Errands
import AnalyzerBridge.Proofs.Session.Rounds
import AnalyzerBridge.Proofs.Session.Rest
import AnalyzerBridge.Proofs.Session.Unanswered
import AnalyzerBridge.Proofs.Session.Heard
import AnalyzerBridge.Proofs.Session.FailedStart
import AnalyzerBridge.Proofs.Supervisor.FailedLaunch
import AnalyzerBridge.Proofs.Supervisor.Refusal
import AnalyzerBridge.Proofs.Tool.Capture
import AnalyzerBridge.Proofs.Host.Walk
import AnalyzerBridge.Proofs.Host.Launches
import AnalyzerBridge.Proofs.Tool.Rustfmt
import AnalyzerBridge.Proofs.CommandLine.RoundTrip
import AnalyzerBridge.Proofs.Toml.Invariance
import AnalyzerBridge.Proofs.Toml.QuotedKey
import AnalyzerBridge.Proofs.Manifest.Mentions
import AnalyzerBridge.Proofs.Manifest.Repetition
import AnalyzerBridge.Proofs.Bytes.Pieces
import AnalyzerBridge.Proofs.Settings.Invalid
import AnalyzerBridge.Proofs.Path.Spelling
import AnalyzerBridge.Proofs.Documents.Spelling
import AnalyzerBridge.Proofs.Lsp.Position
import AnalyzerBridge.Proofs.Session.ErrorLines
import AnalyzerBridge.Proofs.Bytes.Lines
import AnalyzerBridge.Proofs.Mcp.LineTransport
import AnalyzerBridge.Proofs.Lsp.CodeAction
import AnalyzerBridge.Proofs.LogRoute
import AnalyzerBridge.Proofs.Frame.Conservation
import AnalyzerBridge.Proofs.Bytes.Search
import AnalyzerBridge.Proofs.Lsp.Wording
import AnalyzerBridge.Proofs.Session.Served
