import Spreadsheet.Settings
import Spreadsheet.Workbook

/-!
Workbooks as they are stored. Of a cell only the input and the style are kept; values come from a
recalculation. A stored workbook is checked as a whole before any of it is used.
-/

namespace Spreadsheet

/-- A cell as it is stored. -/
structure StoredCell where
  input : String
  style : Option Style
deriving DecidableEq

/-- A table as it is stored. -/
structure StoredTable where
  id : Nat
  range : String
  headerColor : String
  bodyColor : String
  zebra : Bool

/-- A sheet as it is stored. -/
structure StoredSheet where
  name : String
  columns : Nat
  rows : Nat
  cells : Std.ExtTreeMap String StoredCell
  columnWidths : Std.ExtTreeMap Nat Float
  rowHeights : Std.ExtTreeMap Nat Float
  columnFilters : Std.ExtTreeMap Nat (Std.ExtTreeSet String)
  tables : List StoredTable

/-- A workbook as it is stored. -/
structure StoredWorkbook where
  name : String
  sheets : List StoredSheet
  active : Nat

namespace StoredTable

def ofTable (table : Table) : StoredTable :=
  ⟨table.id, table.range.name, table.headerColor, table.bodyColor, table.zebra⟩

/-- The table on a sheet of a given size, if it lies within. -/
def toTable (table : StoredTable) (sheet : String) (extent : Extent) :
    Except WorkbookFault Table :=
  match (Range.ofName? table.range).filter fun range => extent.contains range.bottomRight with
  | some range => .ok ⟨table.id, range, table.headerColor, table.bodyColor, table.zebra⟩
  | none => .error (.tableRange sheet table.range)

end StoredTable

namespace StoredCell

def ofCell (cell : Cell) : StoredCell := ⟨cell.input, cell.style⟩

/-- The cell, unless it has neither an input nor a style. -/
def toCell? (cell : StoredCell) : Option Cell :=
  (Cell.ofInput? cell.input cell.style).or (cell.style.map Cell.ofStyle)

end StoredCell

namespace StoredSheet

def ofSheet (sheet : Sheet) : StoredSheet where
  name := sheet.name
  columns := sheet.extent.columns
  rows := sheet.extent.rows
  cells := Std.ExtTreeMap.ofList
    (sheet.cells.toList.map fun (p, cell) => (p.name, StoredCell.ofCell cell))
  columnWidths := sheet.columnWidths
  rowHeights := sheet.rowHeights
  columnFilters := sheet.columnFilters
  tables := sheet.tables.map StoredTable.ofTable

/-- Adds a stored cell to a sheet. -/
def addCell (sheet : Sheet) (name : String) (cell : StoredCell) : Except WorkbookFault Sheet :=
  match (Position.ofName? name).filter sheet.extent.contains with
  | some p => .ok (sheet.put p cell.toCell?)
  | none => .error (.cellName sheet.name name)

/-- The sheet, unless any part of it does not fit. Sizes beyond the limits are moved to them. -/
def toSheet (stored : StoredSheet) (settings : Settings) : Except WorkbookFault Sheet := do
  if settings.allows stored.columns stored.rows then
    let extent : Extent := ⟨stored.columns, stored.rows⟩
    let layout (r : Except LayoutFailure Sheet) : Except WorkbookFault Sheet :=
      r.mapError (.layout stored.name)
    let sheet ← stored.cells.toList.foldlM (fun sheet (name, cell) => addCell sheet name cell)
      (Sheet.empty 0 stored.name extent)
    let sheet ← stored.columnWidths.toList.foldlM (fun sheet (col, width) =>
      layout (sheet.setColumnWidth col (settings.clampColumnWidth width))) sheet
    let sheet ← stored.rowHeights.toList.foldlM (fun sheet (row, height) =>
      layout (sheet.setRowHeight row (settings.clampRowHeight height))) sheet
    let sheet ← stored.columnFilters.toList.foldlM (fun sheet (col, texts) =>
      layout (sheet.setColumnFilter col texts)) sheet
    let tables ← stored.tables.mapM fun table => table.toTable stored.name extent
    return { sheet with tables := tables }
  else .error (.sheetSize stored.name stored.columns stored.rows)

end StoredSheet

namespace StoredWorkbook

def ofWorkbook (workbook : Workbook) : StoredWorkbook :=
  ⟨workbook.name, workbook.sheets.map StoredSheet.ofSheet, workbook.active⟩

/-- The workbook, unless any part of it does not fit. It has not been recalculated. -/
def toWorkbook (stored : StoredWorkbook) (settings : Settings) :
    Except WorkbookFault Workbook := do
  if stored.sheets.isEmpty then .error .emptyFile
  else
    let sheets ← stored.sheets.mapM fun sheet => sheet.toSheet settings
    Workbook.ofSheets stored.name sheets stored.active

end StoredWorkbook

end Spreadsheet
