import Gridfill.Archive.Bits
import Gridfill.Archive.Directory
import Gridfill.Archive.Entry
import Gridfill.Archive.Inflate
import Gridfill.Calendar.Basic
import Gridfill.Calendar.Serial
import Gridfill.Failure
import Gridfill.Listing
import Gridfill.Markup.Basic
import Gridfill.Markup.Character
import Gridfill.Markup.Doctype
import Gridfill.Markup.Encoding
import Gridfill.Markup.Entity
import Gridfill.Markup.Printer
import Gridfill.Markup.Reader
import Gridfill.Markup.Scope
import Gridfill.Number.Decimal
import Gridfill.Number.Double
import Gridfill.Package.Basic
import Gridfill.Package.PartName
import Gridfill.Package.Vocabulary
import Gridfill.Placeholder
import Gridfill.Pool
import Gridfill.Proofs.Markup.Editing
import Gridfill.Proofs.Markup.Encoding
import Gridfill.Proofs.Markup.InPlace
import Gridfill.Proofs.Markup.Meaning
import Gridfill.Proofs.Markup.Rereading
import Gridfill.Proofs.Outcome
import Gridfill.Proofs.Package.Edits
import Gridfill.Proofs.Package.PartName
import Gridfill.Proofs.Package.Writing
import Gridfill.Proofs.Placeholder
import Gridfill.Proofs.Pool.Edits
import Gridfill.Proofs.Pool.Soundness
import Gridfill.Proofs.Pool.Steps
import Gridfill.Proofs.Pool.Writing
import Gridfill.Proofs.Reference.Cell
import Gridfill.Proofs.Reference.Column
import Gridfill.Proofs.Reference.ColumnOrder
import Gridfill.Proofs.Reference.Range
import Gridfill.Proofs.Reference.RoundTrip
import Gridfill.Proofs.Reference.Target
import Gridfill.Proofs.Service.History
import Gridfill.Proofs.Sheet.Alignment
import Gridfill.Proofs.Sheet.Anchored
import Gridfill.Proofs.Sheet.Cell
import Gridfill.Proofs.Sheet.Completes
import Gridfill.Proofs.Sheet.Coverage
import Gridfill.Proofs.Sheet.Dimension
import Gridfill.Proofs.Sheet.Displays
import Gridfill.Proofs.Sheet.Downwards
import Gridfill.Proofs.Sheet.Fill
import Gridfill.Proofs.Sheet.Gains
import Gridfill.Proofs.Sheet.Growth
import Gridfill.Proofs.Sheet.Header
import Gridfill.Proofs.Sheet.HeaderCells
import Gridfill.Proofs.Sheet.HeaderNames
import Gridfill.Proofs.Sheet.HeaderRow
import Gridfill.Proofs.Sheet.HeaderSettled
import Gridfill.Proofs.Sheet.Insertions
import Gridfill.Proofs.Sheet.Layout
import Gridfill.Proofs.Sheet.Merges
import Gridfill.Proofs.Sheet.Names
import Gridfill.Proofs.Sheet.NewRows
import Gridfill.Proofs.Sheet.Order
import Gridfill.Proofs.Sheet.Overlap
import Gridfill.Proofs.Sheet.Overwriting
import Gridfill.Proofs.Sheet.Ranges
import Gridfill.Proofs.Sheet.Reach
import Gridfill.Proofs.Sheet.Reached
import Gridfill.Proofs.Sheet.Records
import Gridfill.Proofs.Sheet.Rows
import Gridfill.Proofs.Sheet.Settled
import Gridfill.Proofs.Sheet.Shape
import Gridfill.Proofs.Sheet.Shows
import Gridfill.Proofs.Sheet.Spans
import Gridfill.Proofs.Sheet.Spread
import Gridfill.Proofs.Sheet.Still
import Gridfill.Proofs.Sheet.Table
import Gridfill.Proofs.Sheet.TableChanges
import Gridfill.Proofs.Sheet.Texts
import Gridfill.Proofs.Sheet.Tokens
import Gridfill.Proofs.Sheet.Values
import Gridfill.Proofs.Sheet.Widths
import Gridfill.Proofs.Text.Decimal
import Gridfill.Proofs.Text.DigitRun
import Gridfill.Proofs.Text.Overwriting
import Gridfill.Proofs.Text.Pieces
import Gridfill.Proofs.Text.Scanning
import Gridfill.Proofs.Text.Woven
import Gridfill.Proofs.Value.Marks
import Gridfill.Proofs.Workbook.Acceptance
import Gridfill.Proofs.Workbook.Again
import Gridfill.Proofs.Workbook.Backed
import Gridfill.Proofs.Workbook.Calculation
import Gridfill.Proofs.Workbook.Check
import Gridfill.Proofs.Workbook.Coverage
import Gridfill.Proofs.Workbook.Dimension
import Gridfill.Proofs.Workbook.Filled
import Gridfill.Proofs.Workbook.Frame
import Gridfill.Proofs.Workbook.Headers
import Gridfill.Proofs.Workbook.InStep
import Gridfill.Proofs.Workbook.Load
import Gridfill.Proofs.Workbook.Numbering
import Gridfill.Proofs.Workbook.OtherSheets
import Gridfill.Proofs.Workbook.Overlap
import Gridfill.Proofs.Workbook.Records
import Gridfill.Proofs.Workbook.Refused
import Gridfill.Proofs.Workbook.Reload
import Gridfill.Proofs.Workbook.Report
import Gridfill.Proofs.Workbook.Rereading
import Gridfill.Proofs.Workbook.Run
import Gridfill.Proofs.Workbook.Shape
import Gridfill.Proofs.Workbook.Still
import Gridfill.Proofs.Workbook.Substitute
import Gridfill.Proofs.Workbook.Tokens
import Gridfill.Proofs.Workbook.Untouched
import Gridfill.Proofs.Workbook.Validity
import Gridfill.Proofs.Workbook.Values
import Gridfill.Reference.Cell
import Gridfill.Reference.Column
import Gridfill.Reference.Range
import Gridfill.Service.Call
import Gridfill.Service.Request
import Gridfill.Service.Settings
import Gridfill.Service.Store
import Gridfill.Sheet.Basic
import Gridfill.Sheet.Cell
import Gridfill.Sheet.Expand
import Gridfill.Sheet.Header
import Gridfill.Sheet.Key
import Gridfill.Sheet.Shift
import Gridfill.Sheet.Table
import Gridfill.Text.Blank
import Gridfill.Text.CodeRange
import Gridfill.Text.Cut
import Gridfill.Text.Digit
import Gridfill.Text.Integer
import Gridfill.Text.Letter
import Gridfill.Text.Printable
import Gridfill.Text.Quoted
import Gridfill.Text.Uppercase
import Gridfill.Text.Utf8
import Gridfill.Value.Basic
import Gridfill.Value.Text
import Gridfill.Workbook.Basic
import Gridfill.Workbook.Check
import Gridfill.Workbook.Session
import Gridfill.Workbook.Substitute
