import Spreadsheet.Aggregate
import Spreadsheet.BorderPreset
import Spreadsheet.Cell
import Spreadsheet.CommandLine
import Spreadsheet.CommandLine.Options
import Spreadsheet.Csv
import Spreadsheet.Dependency
import Spreadsheet.Dependency.Procedure
import Spreadsheet.Document
import Spreadsheet.Document.Editing
import Spreadsheet.Document.Exchange
import Spreadsheet.Document.Formatting
import Spreadsheet.Document.Operation
import Spreadsheet.Document.Procedure
import Spreadsheet.Evaluation
import Spreadsheet.Evaluation.Procedure
import Spreadsheet.Failure
import Spreadsheet.Files
import Spreadsheet.Formula.Expr
import Spreadsheet.Formula.Grammar
import Spreadsheet.Formula.Reference
import Spreadsheet.Formula.Token
import Spreadsheet.History
import Spreadsheet.History.Operation
import Spreadsheet.Json
import Spreadsheet.Json.Number
import Spreadsheet.Json.Quoted
import Spreadsheet.Json.Record
import Spreadsheet.Json.Token
import Spreadsheet.Main
import Spreadsheet.Notice
import Spreadsheet.Number.BinaryFraction
import Spreadsheet.Number.Display
import Spreadsheet.Number.Numeral
import Spreadsheet.Number.Shortest
import Spreadsheet.Position
import Spreadsheet.Position.Name
import Spreadsheet.Position.Procedure
import Spreadsheet.Proofs.Applied
import Spreadsheet.Proofs.Atomicity
import Spreadsheet.Proofs.CanonicalCells
import Spreadsheet.Proofs.CsvExchange
import Spreadsheet.Proofs.CsvImport
import Spreadsheet.Proofs.CsvText
import Spreadsheet.Proofs.DependentClosure
import Spreadsheet.Proofs.Dependents
import Spreadsheet.Proofs.Derivations
import Spreadsheet.Proofs.DisplayedNumbers
import Spreadsheet.Proofs.EditRuns
import Spreadsheet.Proofs.Edits
import Spreadsheet.Proofs.Effects
import Spreadsheet.Proofs.Entered
import Spreadsheet.Proofs.EqualContents
import Spreadsheet.Proofs.ExactValues
import Spreadsheet.Proofs.FirstFault
import Spreadsheet.Proofs.FormulaShape
import Spreadsheet.Proofs.Grammar
import Spreadsheet.Proofs.HistoryCapacity
import Spreadsheet.Proofs.JsonNumbers
import Spreadsheet.Proofs.JsonRecords
import Spreadsheet.Proofs.JsonText
import Spreadsheet.Proofs.LoadedCells
import Spreadsheet.Proofs.Loading
import Spreadsheet.Proofs.Locality
import Spreadsheet.Proofs.Lookups
import Spreadsheet.Proofs.LoopDetection
import Spreadsheet.Proofs.LoopReports
import Spreadsheet.Proofs.LoopSearch
import Spreadsheet.Proofs.Loops
import Spreadsheet.Proofs.Mentions
import Spreadsheet.Proofs.Names
import Spreadsheet.Proofs.NumberTexts
import Spreadsheet.Proofs.Outcome
import Spreadsheet.Proofs.Passes
import Spreadsheet.Proofs.Performing
import Spreadsheet.Proofs.PositionNames
import Spreadsheet.Proofs.Pruning
import Spreadsheet.Proofs.RangeArguments
import Spreadsheet.Proofs.RangeGeometry
import Spreadsheet.Proofs.Reachable
import Spreadsheet.Proofs.Reads
import Spreadsheet.Proofs.Recalculation
import Spreadsheet.Proofs.Rectangles
import Spreadsheet.Proofs.Reopening
import Spreadsheet.Proofs.Resizing
import Spreadsheet.Proofs.Resolution
import Spreadsheet.Proofs.Retracing
import Spreadsheet.Proofs.Rounding
import Spreadsheet.Proofs.SelectedCells
import Spreadsheet.Proofs.SelectedSheet
import Spreadsheet.Proofs.Settled
import Spreadsheet.Proofs.SettledDocument
import Spreadsheet.Proofs.SettledWorkbook
import Spreadsheet.Proofs.SheetIsolation
import Spreadsheet.Proofs.SheetNumbers
import Spreadsheet.Proofs.ShortestDecimals
import Spreadsheet.Proofs.SideEvaluation
import Spreadsheet.Proofs.SortedMaps
import Spreadsheet.Proofs.Spacing
import Spreadsheet.Proofs.Steps
import Spreadsheet.Proofs.Storage
import Spreadsheet.Proofs.StrayNames
import Spreadsheet.Proofs.Styling
import Spreadsheet.Proofs.TypedNumbers
import Spreadsheet.Proofs.UnsavedChanges
import Spreadsheet.Proofs.VisibleText
import Spreadsheet.Proofs.Walk
import Spreadsheet.Proofs.WalkValues
import Spreadsheet.Proofs.Ways
import Spreadsheet.Proofs.WellFormed
import Spreadsheet.Proofs.Words
import Spreadsheet.Range
import Spreadsheet.Range.Procedure
import Spreadsheet.Recalculation
import Spreadsheet.Recalculation.Pass
import Spreadsheet.Recalculation.Procedure
import Spreadsheet.Selection
import Spreadsheet.Selection.Operation
import Spreadsheet.Settings
import Spreadsheet.Settings.Configuration
import Spreadsheet.Sheet
import Spreadsheet.Stored
import Spreadsheet.Stored.Encoding
import Spreadsheet.Style
import Spreadsheet.Table
import Spreadsheet.Text.Blank
import Spreadsheet.Text.Hex
import Spreadsheet.Text.Word
import Spreadsheet.Text.WordChar
import Spreadsheet.Toml
import Spreadsheet.Toml.Entries
import Spreadsheet.Toml.Quoted
import Spreadsheet.Toml.Scalar
import Spreadsheet.Value
import Spreadsheet.Workbook
import Spreadsheet.Workbook.SheetOperation
