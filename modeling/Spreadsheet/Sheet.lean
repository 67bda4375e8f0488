import Spreadsheet.Csv
import Spreadsheet.Failure
import Spreadsheet.Recalculation
import Spreadsheet.Table

namespace Spreadsheet

structure Sheet where
  id : Nat
  name : String
  extent : Extent
  cells : Grid
  columnWidths : Std.ExtTreeMap Nat Float
  rowHeights : Std.ExtTreeMap Nat Float
  /-- The texts that a column has to show for a row to be visible. -/
  columnFilters : Std.ExtTreeMap Nat (Std.ExtTreeSet String)
  tables : List Table

namespace Sheet

/-- An empty sheet, which has at least one column and one row. -/
def empty (id : Nat) (name : String) (extent : Extent) : Sheet :=
  ⟨id, name, extent.raised, ∅, ∅, ∅, ∅, []⟩

def style? (sheet : Sheet) (p : Position) : Option Style := sheet.cells[p]?.bind Cell.style

def input (sheet : Sheet) (p : Position) : String := (sheet.cells[p]?.map Cell.input).getD ""

def value (sheet : Sheet) (p : Position) : Value := (sheet.cells[p]?.map Cell.value).getD .empty

/-- The text that a cell shows. -/
def shown (sheet : Sheet) (p : Position) : String := (sheet.cells[p]?.map Cell.display).getD ""

/-- Fails for a position outside the sheet. -/
def check (sheet : Sheet) (p : Position) : Except Failure Unit :=
  if sheet.extent.contains p then .ok () else .error (.outside p sheet.extent)

/-- Replaces a cell, adds it or takes it away. -/
def put (sheet : Sheet) (p : Position) (cell : Option Cell) : Sheet :=
  { sheet with cells := sheet.cells.alter p fun _ => cell }

/-- The cell that an input makes in place of the one at a position, whose style stays. -/
def entered (sheet : Sheet) (p : Position) (input : String) : Option Cell :=
  Cell.ofInput? input (sheet.style? p)

/-- Enters an input into a cell. An input that makes no cell takes away the one that was there. -/
def write (sheet : Sheet) (p : Position) (input : String) : Except Failure Sheet := do
  sheet.check p
  return sheet.put p (sheet.entered p input)

def recalculation (sheet : Sheet) : Recalculation := sheet.cells.recalculate sheet.extent

/-- The sheet with each formula at its value. -/
def recalculated (sheet : Sheet) : Sheet := { sheet with cells := sheet.recalculation.grid }

/-- The smallest rectangle from the first cell that holds all cells with an input. -/
def usedRange (sheet : Sheet) : Option Range :=
  let used := (sheet.cells.filter fun _ cell => !cell.input.isEmpty).keys
  if used.isEmpty then none else Range.bounding? (⟨0, 0⟩ :: used)

/-- The cells outside an extent. -/
def outside (sheet : Sheet) (extent : Extent) : List Position :=
  sheet.cells.keys.filter fun p => !extent.contains p

/-- Changes the size, which is at least one column and one row. All that lies outside is dropped,
and tables are cut at the edge. -/
def resize (sheet : Sheet) (extent : Extent) : Sheet :=
  let extent := extent.raised
  { sheet with
    extent := extent
    cells := sheet.cells.filter fun p _ => extent.contains p
    columnWidths := sheet.columnWidths.filter fun col _ => decide (col < extent.columns)
    rowHeights := sheet.rowHeights.filter fun row _ => decide (row < extent.rows)
    columnFilters := sheet.columnFilters.filter fun col _ => decide (col < extent.columns)
    tables := sheet.tables.filterMap fun table => table.clip extent }

def checkColumn (sheet : Sheet) (col : Nat) : Except LayoutFailure Unit :=
  if col < sheet.extent.columns then .ok () else .error (.columnOutside col)

def checkRow (sheet : Sheet) (row : Nat) : Except LayoutFailure Unit :=
  if row < sheet.extent.rows then .ok () else .error (.rowOutside row)

def setColumnWidth (sheet : Sheet) (col : Nat) (width : Float) : Except LayoutFailure Sheet := do
  sheet.checkColumn col
  return { sheet with columnWidths := sheet.columnWidths.insert col width }

def setRowHeight (sheet : Sheet) (row : Nat) (height : Float) : Except LayoutFailure Sheet := do
  sheet.checkRow row
  return { sheet with rowHeights := sheet.rowHeights.insert row height }

/-- Shows all rows again as far as a column is concerned. -/
def clearColumnFilter (sheet : Sheet) (col : Nat) : Sheet :=
  { sheet with columnFilters := sheet.columnFilters.erase col }

/-- Shows only rows with one of the given texts in a column, or all rows if no text is given. -/
def setColumnFilter (sheet : Sheet) (col : Nat) (texts : Std.ExtTreeSet String) :
    Except LayoutFailure Sheet := do
  sheet.checkColumn col
  return if texts.isEmpty then sheet.clearColumnFilter col
    else { sheet with columnFilters := sheet.columnFilters.insert col texts }

/-- The texts that the cells of a column show. -/
def distinctTexts (sheet : Sheet) (col : Nat) : Std.ExtTreeSet String :=
  let column := sheet.cells.filter fun p _ => p.col == col
  Std.ExtTreeSet.ofList ((column.values.map Cell.display).filter (!·.isEmpty))

/-- Whether a row passes all filters. -/
def isRowVisible (sheet : Sheet) (row : Nat) : Bool :=
  sheet.columnFilters.all fun col texts => texts.contains (sheet.shown ⟨row, col⟩)

/-- The rows that pass all filters. -/
def visibleRows (sheet : Sheet) : List Nat :=
  (List.range sheet.extent.rows).filter sheet.isRowVisible

/-- A number above those of all tables, if it stays below the limit. -/
def nextTableId (sheet : Sheet) : Except Failure Nat :=
  let id := (sheet.tables.map Table.id).foldl max 0 + 1
  if id < Table.idLimit then .ok id else .error (.invalidWorkbook (.tableNumbers sheet.name))

/-- Adds a table behind the others. -/
def addTable (sheet : Sheet) (table : Table) : Sheet :=
  { sheet with tables := sheet.tables ++ [table] }

/-- Takes away the first table with a number. -/
def removeTable (sheet : Sheet) (id : Nat) : Sheet :=
  { sheet with tables := sheet.tables.eraseP (·.id == id) }

/-- The used part of the rows that are chosen, with the text that is chosen for each cell. -/
def usedText (sheet : Sheet) (row : Nat → Bool) (text : Position → String) : String :=
  match sheet.usedRange with
  | none => ""
  | some used =>
    Csv.write (((List.range (used.bottomRight.row + 1)).filter row).map fun r =>
      (used.rowCells r).map text)

/-- What was entered into the sheet. -/
def inputText (sheet : Sheet) : String := sheet.usedText (fun _ => true) sheet.input

/-- What the visible rows of the sheet show. -/
def visibleText (sheet : Sheet) : String := sheet.usedText sheet.isRowVisible sheet.shown

end Sheet

end Spreadsheet
