import Spreadsheet.Address
import Spreadsheet.Cell
import Spreadsheet.Command.Arguments
import Spreadsheet.Command.Execution
import Spreadsheet.Command.Flag
import Spreadsheet.Command.Invocation
import Spreadsheet.Command.Run
import Spreadsheet.Disk
import Spreadsheet.Document.Basic
import Spreadsheet.Document.Edit
import Spreadsheet.Document.Files
import Spreadsheet.Files
import Spreadsheet.Formula.Cursor
import Spreadsheet.Formula.Dependencies
import Spreadsheet.Formula.Fault
import Spreadsheet.Formula.Piece
import Spreadsheet.Formula.Relocation
import Spreadsheet.Formula.Scan
import Spreadsheet.Main
import Spreadsheet.Nesting
import Spreadsheet.Number.Basic
import Spreadsheet.Number.Reading
import Spreadsheet.Number.Shortest
import Spreadsheet.Proofs.Command.Check
import Spreadsheet.Proofs.Disk
import Spreadsheet.Proofs.Document.Acceptance
import Spreadsheet.Proofs.Document.Acyclic
import Spreadsheet.Proofs.Document.Coherence
import Spreadsheet.Proofs.Document.Commutation
import Spreadsheet.Proofs.Document.Composition
import Spreadsheet.Proofs.Document.Copying
import Spreadsheet.Proofs.Document.Distance
import Spreadsheet.Proofs.Document.Erasure
import Spreadsheet.Proofs.Document.Failure
import Spreadsheet.Proofs.Document.Import
import Spreadsheet.Proofs.Document.LineEdit
import Spreadsheet.Proofs.Document.Modification
import Spreadsheet.Proofs.Document.Overwriting
import Spreadsheet.Proofs.Document.Population
import Spreadsheet.Proofs.Document.Run
import Spreadsheet.Proofs.Document.Saving
import Spreadsheet.Proofs.Document.Sources
import Spreadsheet.Proofs.Formula.Agreement
import Spreadsheet.Proofs.Formula.Brackets
import Spreadsheet.Proofs.Formula.Classification
import Spreadsheet.Proofs.Formula.Composition
import Spreadsheet.Proofs.Formula.Consumers
import Spreadsheet.Proofs.Formula.Cursor
import Spreadsheet.Proofs.Formula.Cutting
import Spreadsheet.Proofs.Formula.Exchange
import Spreadsheet.Proofs.Formula.Juxtaposition
import Spreadsheet.Proofs.Formula.Lexeme
import Spreadsheet.Proofs.Formula.Limit
import Spreadsheet.Proofs.Formula.Location
import Spreadsheet.Proofs.Formula.Neighbours
import Spreadsheet.Proofs.Formula.Offset
import Spreadsheet.Proofs.Formula.Omission
import Spreadsheet.Proofs.Formula.Operand
import Spreadsheet.Proofs.Formula.Quotation
import Spreadsheet.Proofs.Formula.Reading
import Spreadsheet.Proofs.Formula.References
import Spreadsheet.Proofs.Formula.Relocation
import Spreadsheet.Proofs.Formula.Spacing
import Spreadsheet.Proofs.Formula.Spelling
import Spreadsheet.Proofs.Formula.Translation
import Spreadsheet.Proofs.LineEdit
import Spreadsheet.Proofs.Number.Nearest
import Spreadsheet.Proofs.Number.Text
import Spreadsheet.Proofs.Range.Expansion
import Spreadsheet.Proofs.Range.Listing
import Spreadsheet.Proofs.Reference
import Spreadsheet.Proofs.Reference.Spelling
import Spreadsheet.Proofs.Sheet
import Spreadsheet.Proofs.Sheet.Csv
import Spreadsheet.Proofs.Sheet.Cycles
import Spreadsheet.Proofs.Sheet.Grd
import Spreadsheet.Proofs.Sheet.Lines
import Spreadsheet.Proofs.Sheet.Linewise
import Spreadsheet.Proofs.Sheet.Listing
import Spreadsheet.Proofs.Sheet.NormalForm
import Spreadsheet.Proofs.Sheet.Search
import Spreadsheet.Proofs.Sheet.Table
import Spreadsheet.Proofs.Sheet.Walk
import Spreadsheet.Proofs.Text
import Spreadsheet.Range
import Spreadsheet.Range.Listing
import Spreadsheet.Reference
import Spreadsheet.Settings
import Spreadsheet.Settings.Literal
import Spreadsheet.Settings.Reading
import Spreadsheet.Sheet
import Spreadsheet.Sheet.Csv
import Spreadsheet.Sheet.Cycle
import Spreadsheet.Sheet.Grd
import Spreadsheet.Text.Blank
import Spreadsheet.Text.Bytes
import Spreadsheet.Text.Digits
import Spreadsheet.Text.Hidden
import Spreadsheet.Text.Json
import Spreadsheet.Text.Place
import Spreadsheet.Text.Quoted
import Spreadsheet.Token
