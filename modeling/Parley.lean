import Parley.Check
import Parley.Command.Arguments
import Parley.Command.Basic
import Parley.Command.Console
import Parley.Command.Display
import Parley.Command.Edit
import Parley.Command.Footprint
import Parley.Command.Run
import Parley.Document.Basic
import Parley.Document.Compile
import Parley.Document.File
import Parley.Document.Load
import Parley.Document.Migration
import Parley.Failure
import Parley.Files.Tree
import Parley.Graph.Basic
import Parley.Graph.Draft
import Parley.Graph.Edit
import Parley.Graph.Error
import Parley.Graph.Inspection
import Parley.Graph.Session
import Parley.Json.Basic
import Parley.Json.Reader
import Parley.Json.Writer
import Parley.Log.Event
import Parley.Log.Session
import Parley.Log.Template
import Parley.Main
import Parley.Node.Basic
import Parley.Node.Create
import Parley.Node.Edge
import Parley.Node.Executor
import Parley.Node.Kind
import Parley.Node.Port
import Parley.Number.Binary64
import Parley.Number.Literal
import Parley.Number.Shortest
import Parley.Number.Style
import Parley.Project.Config
import Parley.Project.File
import Parley.Proofs.Command.Configured
import Parley.Proofs.Command.Disconnect
import Parley.Proofs.Command.Edit
import Parley.Proofs.Command.Ends
import Parley.Proofs.Command.Executor
import Parley.Proofs.Command.Field
import Parley.Proofs.Command.Lasting
import Parley.Proofs.Command.Lines
import Parley.Proofs.Command.Opening
import Parley.Proofs.Command.Outcome
import Parley.Proofs.Command.Refinement
import Parley.Proofs.Command.Reported
import Parley.Proofs.Command.Run
import Parley.Proofs.Command.Success
import Parley.Proofs.Command.Unreported
import Parley.Proofs.Document.Account
import Parley.Proofs.Document.Audit
import Parley.Proofs.Document.Canonical
import Parley.Proofs.Document.Clean
import Parley.Proofs.Document.Closed
import Parley.Proofs.Document.Compiled
import Parley.Proofs.Document.Exportable
import Parley.Proofs.Document.Extension
import Parley.Proofs.Document.File
import Parley.Proofs.Document.Foresight
import Parley.Proofs.Document.Former
import Parley.Proofs.Document.Indifference
import Parley.Proofs.Document.Loaded
import Parley.Proofs.Document.Loading
import Parley.Proofs.Document.Migrated
import Parley.Proofs.Document.Migration
import Parley.Proofs.Document.Order
import Parley.Proofs.Document.Outgoing
import Parley.Proofs.Document.Overlong
import Parley.Proofs.Document.Placement
import Parley.Proofs.Document.Preferred
import Parley.Proofs.Document.Ranking
import Parley.Proofs.Document.Reading
import Parley.Proofs.Document.References
import Parley.Proofs.Document.Refusal
import Parley.Proofs.Document.Reload
import Parley.Proofs.Document.Rows
import Parley.Proofs.Document.Spelling
import Parley.Proofs.Document.Survey
import Parley.Proofs.Document.Text
import Parley.Proofs.Document.Totality
import Parley.Proofs.Document.Unfailing
import Parley.Proofs.Document.Upgrade
import Parley.Proofs.Files.Growth
import Parley.Proofs.Files.Steps
import Parley.Proofs.Files.Tree
import Parley.Proofs.Graph.Assured
import Parley.Proofs.Graph.Autosave
import Parley.Proofs.Graph.Change
import Parley.Proofs.Graph.Connection
import Parley.Proofs.Graph.Copies
import Parley.Proofs.Graph.DataEdits
import Parley.Proofs.Graph.Entered
import Parley.Proofs.Graph.Inspection
import Parley.Proofs.Graph.Lookup
import Parley.Proofs.Graph.Misfit
import Parley.Proofs.Graph.Operation
import Parley.Proofs.Graph.Payload
import Parley.Proofs.Graph.Proper
import Parley.Proofs.Graph.Reachability
import Parley.Proofs.Graph.Refusal
import Parley.Proofs.Graph.Regular
import Parley.Proofs.Graph.Reopening
import Parley.Proofs.Graph.Rooted
import Parley.Proofs.Graph.Saving
import Parley.Proofs.Graph.Size
import Parley.Proofs.Graph.Sound
import Parley.Proofs.Graph.Stored
import Parley.Proofs.Graph.Text
import Parley.Proofs.Graph.Undo
import Parley.Proofs.Json.Grammar
import Parley.Proofs.Json.LineEnds
import Parley.Proofs.Json.Number
import Parley.Proofs.Json.Numeral
import Parley.Proofs.Json.Reading
import Parley.Proofs.Json.RoundTrip
import Parley.Proofs.Json.SameLines
import Parley.Proofs.Json.Size
import Parley.Proofs.Json.Text
import Parley.Proofs.Log.Session
import Parley.Proofs.Number.Literal
import Parley.Proofs.Number.Overflow
import Parley.Proofs.Number.Shortest
import Parley.Proofs.Number.Style
import Parley.Proofs.Number.Whole
import Parley.Proofs.Project.Folder
import Parley.Proofs.Project.Lasting
import Parley.Proofs.Project.Placement
import Parley.Proofs.Project.Reloading
import Parley.Proofs.Record.Checked
import Parley.Proofs.Record.Stored
import Parley.Proofs.Record.Update
import Parley.Proofs.Scalar.Normal
import Parley.Proofs.Scalar.RoundTrip
import Parley.Proofs.Scalar.Totality
import Parley.Proofs.Text.Digits
import Parley.Proofs.Text.Utf8
import Parley.Proofs.Yaml.Plain
import Parley.Proofs.Yaml.Quoted
import Parley.Proofs.Yaml.Rows
import Parley.Proofs.Yaml.Words
import Parley.Proofs.Yaml.Written
import Parley.Record.Checked
import Parley.Record.Fault
import Parley.Record.Values
import Parley.Scalar
import Parley.Text.Blank
import Parley.Text.Digits
import Parley.Text.Parts
import Parley.Text.Printable
import Parley.Text.Similar
import Parley.Text.Utf8
import Parley.Yaml.Basic
import Parley.Yaml.Cursor
import Parley.Yaml.Plain
import Parley.Yaml.Reader
import Parley.Yaml.ScalarText
import Parley.Yaml.Writer
