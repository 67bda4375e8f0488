import Spreadsheet.Range

namespace Spreadsheet

/-- What is wrong with the size of a column or row. -/
inductive LayoutFailure where
  | columnOutside (col : Nat)
  | rowOutside (row : Nat)
deriving DecidableEq, Repr

/-- What is wrong with a workbook. -/
inductive WorkbookFault where
  /-- There is no sheet to assemble a workbook from. -/
  | noSheets
  /-- The file lists no sheet. -/
  | emptyFile
  | activeOutside (index : Nat)
  | sheetSize (sheet : String) (columns rows : Nat)
  | cellName (sheet name : String)
  | layout (sheet : String) (failure : LayoutFailure)
  | tableRange (sheet range : String)
  /-- A table has the last number there is, so there is none for another table. The program cannot
  go on from here. -/
  | tableNumbers (sheet : String)
deriving DecidableEq, Repr

/-- Why an operation fails. -/
inductive Failure where
  /-- A file cannot be read or written. -/
  | file
  /-- A text is not the JSON of a workbook. -/
  | json
  /-- A field of a CSV text belongs to a cell outside the sheet. -/
  | csvOutside (line : Nat) (cell : Position) (extent : Extent)
  | invalidWorkbook (fault : WorkbookFault)
  | invalidName (name : String)
  | outside (cell : Position) (extent : Extent)
  | invalidSize (columns rows maxColumns maxRows : Nat)
  | layout (failure : LayoutFailure)
  | resizeDeclined
  | emptySelection
  | lastSheet
  | noSheetAt (index : Nat)
  | noSheetNamed (name : String)
  | emptyName
  | unknownTableStyle (name : String)
  | emptyCsv
  | noFile
  | nothingToUndo
  | nothingToRedo
deriving DecidableEq, Repr

/-- A size as messages show it. -/
def describeSize (columns rows : Nat) : String := toString columns ++ "x" ++ toString rows

namespace LayoutFailure

def message : LayoutFailure → String
  | .columnOutside col => "Column " ++ toString col ++ " is outside the sheet"
  | .rowOutside row => "Row " ++ toString row ++ " is outside the sheet"

end LayoutFailure

namespace WorkbookFault

def message : WorkbookFault → String
  | .noSheets => "no sheets"
  | .emptyFile => "workbook has no sheets"
  | .activeOutside index => "active sheet index " ++ toString index ++ " out of range"
  | .sheetSize sheet columns rows =>
      "sheet '" ++ sheet ++ "' has invalid size " ++ describeSize columns rows
  | .cellName sheet name => "sheet '" ++ sheet ++ "' has invalid cell id '" ++ name ++ "'"
  | .layout sheet failure => "sheet '" ++ sheet ++ "': " ++ failure.message
  | .tableRange sheet range =>
      "sheet '" ++ sheet ++ "' has invalid table range '" ++ range ++ "'"
  | .tableNumbers sheet => "sheet '" ++ sheet ++ "': attempt to add with overflow"

end WorkbookFault

namespace Failure

/-- Where a cell is missing from a sheet. -/
def outsideText (cell : Position) (extent : Extent) : String :=
  cell.name ++ " is outside the " ++ describeSize extent.columns extent.rows ++ " sheet"

/-- The text of a failure. What the reader of JSON and the file system have to say is left out. -/
def message : Failure → String
  | .file => "IO error:"
  | .json => "JSON error:"
  | .csvOutside line cell extent =>
      "Parse error at line " ++ toString line ++ ": " ++ outsideText cell extent
  | .invalidWorkbook fault => "Invalid workbook: " ++ fault.message
  | .invalidName name => Position.invalidNameMessage name
  | .outside cell extent => "Cell " ++ outsideText cell extent
  | .invalidSize columns rows maxColumns maxRows =>
      "Invalid sheet size " ++ describeSize columns rows ++ " (allowed 1..=" ++ toString maxColumns
        ++ " columns, 1..=" ++ toString maxRows ++ " rows)"
  | .layout failure => failure.message
  | .resizeDeclined => "Resize cancelled"
  | .emptySelection => "Selection is empty"
  | .lastSheet => "A workbook needs at least one sheet"
  | .noSheetAt index => "No sheet at index " ++ toString index
  | .noSheetNamed name => "No sheet named '" ++ name ++ "'"
  | .emptyName => "Name must not be empty"
  | .unknownTableStyle name => "Unknown table style '" ++ name ++ "'"
  | .emptyCsv => "CSV file is empty"
  | .noFile => "No file path set"
  | .nothingToUndo => "Nothing to undo"
  | .nothingToRedo => "Nothing to redo"

end Failure

end Spreadsheet
