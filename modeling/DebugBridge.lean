import DebugBridge.Config.Basic
import DebugBridge.Config.Load
import DebugBridge.Config.Log
import DebugBridge.Config.Validation
import DebugBridge.Console.Command
import DebugBridge.Console.Line
import DebugBridge.Console.Program
import DebugBridge.Console.Session
import DebugBridge.Data.Json
import DebugBridge.Data.Toml.Document
import DebugBridge.Data.Toml.Scalar
import DebugBridge.Data.Toml.Table
import DebugBridge.Data.Value
import DebugBridge.Debugger.Basic
import DebugBridge.Debugger.Breakpoint.Basic
import DebugBridge.Debugger.Breakpoint.Table
import DebugBridge.Debugger.Connection
import DebugBridge.Debugger.Course
import DebugBridge.Debugger.Error
import DebugBridge.Debugger.Event
import DebugBridge.Debugger.Execution
import DebugBridge.Debugger.Features
import DebugBridge.Debugger.Handles
import DebugBridge.Debugger.HitCondition
import DebugBridge.Debugger.Inspection
import DebugBridge.Debugger.Launch
import DebugBridge.Debugger.LogMessage
import DebugBridge.Debugger.Rehearsal
import DebugBridge.Debugger.Requests
import DebugBridge.Debugger.Talk
import DebugBridge.Debugger.View
import DebugBridge.File.Environment
import DebugBridge.File.Host
import DebugBridge.File.Path
import DebugBridge.File.Tree
import DebugBridge.FrontEnd.Shapes
import DebugBridge.Main
import DebugBridge.Net.Address
import DebugBridge.Process.Basic
import DebugBridge.Process.Observation
import DebugBridge.Proofs.Config.Loading
import DebugBridge.Proofs.Config.Rotation
import DebugBridge.Proofs.Console.Command
import DebugBridge.Proofs.Data.Forest
import DebugBridge.Proofs.Debugger.Agreement
import DebugBridge.Proofs.Debugger.Attribution
import DebugBridge.Proofs.Debugger.Blame
import DebugBridge.Proofs.Debugger.Completion
import DebugBridge.Proofs.Debugger.Conduct
import DebugBridge.Proofs.Debugger.Dismissal
import DebugBridge.Proofs.Debugger.Ensemble
import DebugBridge.Proofs.Debugger.Exchange
import DebugBridge.Proofs.Debugger.Farewell
import DebugBridge.Proofs.Debugger.FunctionEntry
import DebugBridge.Proofs.Debugger.HitCondition
import DebugBridge.Proofs.Debugger.Inquiry
import DebugBridge.Proofs.Debugger.Inspection
import DebugBridge.Proofs.Debugger.Interplay
import DebugBridge.Proofs.Debugger.Interruption
import DebugBridge.Proofs.Debugger.Keeping
import DebugBridge.Proofs.Debugger.Lasting
import DebugBridge.Proofs.Debugger.Leave
import DebugBridge.Proofs.Debugger.Logpoints
import DebugBridge.Proofs.Debugger.Messages
import DebugBridge.Proofs.Debugger.Numbering
import DebugBridge.Proofs.Debugger.Operation
import DebugBridge.Proofs.Debugger.Paging
import DebugBridge.Proofs.Debugger.Phases
import DebugBridge.Proofs.Debugger.Record
import DebugBridge.Proofs.Debugger.Replacement
import DebugBridge.Proofs.Debugger.Resumption
import DebugBridge.Proofs.Debugger.Seeding
import DebugBridge.Proofs.Debugger.Setup
import DebugBridge.Proofs.Debugger.Sparing
import DebugBridge.Proofs.Debugger.Story
import DebugBridge.Proofs.Debugger.Supervision
import DebugBridge.Proofs.Debugger.Table
import DebugBridge.Proofs.Debugger.Template
import DebugBridge.Proofs.Debugger.Tolerance
import DebugBridge.Proofs.File.Change
import DebugBridge.Proofs.File.Directory
import DebugBridge.Proofs.File.Parent
import DebugBridge.Proofs.File.Path
import DebugBridge.Proofs.File.Tree
import DebugBridge.Proofs.FrontEnd.Shapes
import DebugBridge.Proofs.Protocol.Command
import DebugBridge.Proofs.Protocol.CommandLines
import DebugBridge.Proofs.Protocol.Encoding
import DebugBridge.Proofs.Protocol.Frame
import DebugBridge.Proofs.Protocol.Payload
import DebugBridge.Proofs.Protocol.Property
import DebugBridge.Proofs.Protocol.Remainder
import DebugBridge.Proofs.Protocol.Spelling
import DebugBridge.Proofs.Protocol.Tag
import DebugBridge.Proofs.Protocol.Uri
import DebugBridge.Proofs.Script.Block
import DebugBridge.Proofs.Script.Blocking
import DebugBridge.Proofs.Script.Carriage
import DebugBridge.Proofs.Script.Comment
import DebugBridge.Proofs.Script.Cuts
import DebugBridge.Proofs.Script.Displacement
import DebugBridge.Proofs.Script.Extent
import DebugBridge.Proofs.Script.Following
import DebugBridge.Proofs.Script.Header
import DebugBridge.Proofs.Script.Insertion
import DebugBridge.Proofs.Script.Landing
import DebugBridge.Proofs.Script.Layout
import DebugBridge.Proofs.Script.LineEndings
import DebugBridge.Proofs.Script.LineTable
import DebugBridge.Proofs.Script.Lines
import DebugBridge.Proofs.Script.Linking
import DebugBridge.Proofs.Script.Locality
import DebugBridge.Proofs.Script.Masking
import DebugBridge.Proofs.Script.Nesting
import DebugBridge.Proofs.Script.Opening
import DebugBridge.Proofs.Script.Origin
import DebugBridge.Proofs.Script.Parallel
import DebugBridge.Proofs.Script.Placement
import DebugBridge.Proofs.Script.Positions
import DebugBridge.Proofs.Script.Preorder
import DebugBridge.Proofs.Script.Recovery
import DebugBridge.Proofs.Script.Renumbering
import DebugBridge.Proofs.Script.Resolution
import DebugBridge.Proofs.Script.Returns
import DebugBridge.Proofs.Script.Scan
import DebugBridge.Proofs.Script.Scopes
import DebugBridge.Proofs.Script.Substitution
import DebugBridge.Proofs.Script.Termination
import DebugBridge.Proofs.Script.Trailing
import DebugBridge.Proofs.Script.Transit
import DebugBridge.Proofs.Script.Transparency
import DebugBridge.Proofs.Script.Traversal
import DebugBridge.Proofs.Script.Tree
import DebugBridge.Proofs.Script.Turn
import DebugBridge.Proofs.Script.Walk
import DebugBridge.Proofs.Session.Account
import DebugBridge.Proofs.Session.Backlog
import DebugBridge.Proofs.Session.Correlation
import DebugBridge.Proofs.Session.Delivery
import DebugBridge.Proofs.Session.Handling
import DebugBridge.Proofs.Session.Move
import DebugBridge.Proofs.Session.Queue
import DebugBridge.Proofs.Session.Reading
import DebugBridge.Proofs.Session.Shutdown
import DebugBridge.Proofs.Session.SingleFlight
import DebugBridge.Proofs.Text.Base64
import DebugBridge.Proofs.Text.Blank
import DebugBridge.Proofs.Text.Canonical
import DebugBridge.Proofs.Text.Lenient
import DebugBridge.Proofs.Text.Number
import DebugBridge.Proofs.Text.Percent
import DebugBridge.Proofs.Text.Trim
import DebugBridge.Proofs.Text.Utf8
import DebugBridge.Protocol.Command
import DebugBridge.Protocol.Element
import DebugBridge.Protocol.Error
import DebugBridge.Protocol.Frame
import DebugBridge.Protocol.Markup
import DebugBridge.Protocol.Packet
import DebugBridge.Protocol.Response
import DebugBridge.Protocol.Uri
import DebugBridge.Protocol.View
import DebugBridge.Script.Directive
import DebugBridge.Script.Header
import DebugBridge.Script.Include
import DebugBridge.Script.Mask
import DebugBridge.Script.Node
import DebugBridge.Script.Outline
import DebugBridge.Script.Program
import DebugBridge.Script.Resolution
import DebugBridge.Script.Scan
import DebugBridge.Script.Source
import DebugBridge.Script.Version
import DebugBridge.Script.View
import DebugBridge.Session.Basic
import DebugBridge.Session.Client
import DebugBridge.Session.Queue
import DebugBridge.Shell.Arithmetic
import DebugBridge.Shell.Format
import DebugBridge.Shell.Grammar
import DebugBridge.Shell.Machine
import DebugBridge.Shell.Pattern
import DebugBridge.Shell.Regex
import DebugBridge.Shell.Signal
import DebugBridge.Shell.State
import DebugBridge.Shell.StreamEdit
import DebugBridge.Shell.Syntax
import DebugBridge.Shell.Token
import DebugBridge.Shell.Tool
import DebugBridge.Text.Base64
import DebugBridge.Text.Blank
import DebugBridge.Text.Case
import DebugBridge.Text.Number
import DebugBridge.Text.Percent
import DebugBridge.Text.Quoted
import DebugBridge.Text.Ranges
import DebugBridge.Text.Utf8
import DebugBridge.Text.Word
