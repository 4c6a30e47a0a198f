import Stencil.Alias
import Stencil.Cache
import Stencil.Calendar.Date
import Stencil.Calendar.Format
import Stencil.Calendar.Reading
import Stencil.Command.Arithmetic
import Stencil.Command.Binding
import Stencil.Command.Block
import Stencil.Command.Builtin
import Stencil.Command.Element
import Stencil.Command.Figures
import Stencil.Command.Fragment
import Stencil.Command.Insertion
import Stencil.Command.Loop
import Stencil.Command.Missing
import Stencil.Condition.Basic
import Stencil.Condition.Reading
import Stencil.Data.Datum
import Stencil.Data.Model
import Stencil.Data.Path
import Stencil.Data.Scalar
import Stencil.Data.Scope
import Stencil.Decimal.Binary64
import Stencil.Decimal.Layout
import Stencil.Decimal.Picture
import Stencil.Decimal.Shortest
import Stencil.Description
import Stencil.Document.Basic
import Stencil.Document.Edit
import Stencil.Document.Order
import Stencil.Document.Outline
import Stencil.Document.Plain
import Stencil.Document.Toolkit
import Stencil.Entries
import Stencil.Image.Size
import Stencil.IndexRange
import Stencil.Inspection
import Stencil.Json.Basic
import Stencil.Json.Reader
import Stencil.Json.Record
import Stencil.Json.Text
import Stencil.Main
import Stencil.Pattern.Basic
import Stencil.Pattern.Property
import Stencil.Pattern.Reader
import Stencil.Payload.Command
import Stencil.Payload.Excerpt
import Stencil.Payload.Marker
import Stencil.Payload.Reader
import Stencil.Payload.Token
import Stencil.Power
import Stencil.Problem
import Stencil.Program.Arguments
import Stencil.Program.Check
import Stencil.Program.Configuration
import Stencil.Program.Entry
import Stencil.Program.FilePath
import Stencil.Program.Render
import Stencil.Program.Session
import Stencil.Renderer
import Stencil.Resource.Disk
import Stencil.Resource.Provider
import Stencil.Run.Area
import Stencil.Run.Edit
import Stencil.Run.Error
import Stencil.Run.Event
import Stencil.Run.Registry
import Stencil.Run.Scan
import Stencil.Run.Selection
import Stencil.Run.State
import Stencil.Settings
import Stencil.Text.Blank
import Stencil.Text.CaseFold
import Stencil.Text.Category
import Stencil.Text.Offset
import Stencil.Text.Printable
import Stencil.Text.Property
import Stencil.Text.Script
import Stencil.Text.Utf8
import Stencil.Proofs.Decimal.Rounding
import Stencil.Proofs.Decimal.ShortestSearch
import Stencil.Proofs.Decimal.Pattern
import Stencil.Proofs.Payload.Numeral
import Stencil.Proofs.Json.StringText
import Stencil.Proofs.Payload.Lexing
import Stencil.Proofs.Payload.Value
import Stencil.Proofs.Payload.Sealed
import Stencil.Proofs.Payload.Writing
import Stencil.Proofs.Text.Trim
import Stencil.Proofs.Data.PathText
import Stencil.Proofs.Data.Cursor
import Stencil.Proofs.Data.Scope
import Stencil.Proofs.Entries
import Stencil.Proofs.Data.Datum
import Stencil.Proofs.Data.Moves
import Stencil.Proofs.Data.PathPrint
import Stencil.Proofs.Data.Addressing
import Stencil.Proofs.Run.Step
import Stencil.Proofs.Command.Loop
import Stencil.Proofs.Command.Block
import Stencil.Proofs.Command.Deed
import Stencil.Proofs.Payload.Grammar
import Stencil.Proofs.Payload.Reading
import Stencil.Proofs.Payload.Balance
import Stencil.Proofs.Grove.Basic
import Stencil.Proofs.Grove.Held
import Stencil.Proofs.Grove.Forest
import Stencil.Proofs.Grove.Graft
import Stencil.Proofs.Grove.Division
import Stencil.Proofs.Grove.Copy
import Stencil.Proofs.Edits.Settled
import Stencil.Proofs.Edits.Reachable
import Stencil.Proofs.Grove.Fork
import Stencil.Proofs.Grove.Lineage
import Stencil.Proofs.Grove.Deletion
import Stencil.Proofs.Document.Lines
import Stencil.Proofs.Payload.Endings
import Stencil.Proofs.Run.Ahead
import Stencil.Proofs.Inspection.Sites
import Stencil.Proofs.Inspection.Pairing
import Stencil.Proofs.Grove.Slices
import Stencil.Proofs.Grove.Removal
import Stencil.Proofs.Grove.Replication
import Stencil.Proofs.Run.Atomic
import Stencil.Proofs.Run.Passing
import Stencil.Proofs.Run.Spared
import Stencil.Proofs.Command.Failure
import Stencil.Proofs.Command.Answer
import Stencil.Proofs.Command.Binding
import Stencil.Proofs.Command.OffSheet
import Stencil.Proofs.Run.Course
import Stencil.Proofs.Inspection.Walk
import Stencil.Proofs.Template.Basic
import Stencil.Proofs.Template.Passage
import Stencil.Proofs.Cache
import Stencil.Proofs.Command.Tacit
import Stencil.Proofs.Run.FailFast
import Stencil.Proofs.Substitution.Rendering
import Stencil.Proofs.Inclusion.Rendering
import Stencil.Proofs.Veil.Rendering
import Stencil.Proofs.Scan.Accounting
import Stencil.Proofs.Scan.Ending
import Stencil.Proofs.Scan.Passed
import Stencil.Proofs.Succession.Closed
import Stencil.Proofs.Succession.Ahead
import Stencil.Proofs.Succession.Rendering
import Stencil.Proofs.Run.Enclosure
import Stencil.Proofs.Numbering.Rendering
import Stencil.Proofs.Grove.Partition
import Stencil.Proofs.Grove.Replicas
import Stencil.Proofs.Run.Erasure
import Stencil.Proofs.Command.Cloning
import Stencil.Proofs.Grove.Order
import Stencil.Proofs.Condition
import Stencil.Proofs.Expansion
import Stencil.Proofs.Payload.Joining
import Stencil.Proofs.Payload.ShortForm
import Stencil.Proofs.Payload.Placement
import Stencil.Proofs.Inspection.Errors
import Stencil.Proofs.Image.Size
import Stencil.Proofs.Command.Arithmetic
import Stencil.Proofs.Decimal.Whole
import Stencil.Proofs.Command.Figures
import Stencil.Proofs.IndexRange
