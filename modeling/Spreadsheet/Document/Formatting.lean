import Spreadsheet.BorderPreset
import Spreadsheet.Document

namespace Spreadsheet.Document

/-- The change that gives a cell another style, if the cell is on the sheet and its style
differs. -/
def styleChange? (sheet : Sheet) (update : Position → Style → Style) (p : Position) :
    Option Change :=
  if sheet.extent.contains p then
    let previous := sheet.cells[p]?
    let cell := previous.getD (Cell.ofStyle {})
    let next := { cell with style := some (update p (cell.style.getD {})) }
    if previous = some next then none else some ⟨sheet.id, p, previous, some next⟩
  else none

/-- Changes the styles of cells, each of which is given once. -/
def restyle (sheet : Sheet) (cells : List Position) (update : Position → Style → Style) :
    Sheet × List Change :=
  let changes := cells.filterMap (styleChange? sheet update)
  (changes.foldl (fun sheet change => sheet.put change.cell change.next) sheet, changes)

/-- Changes the styles of the selected cells. The result is the number of cells that change. -/
def restyleSelection (d : Document) (update : Position → Style → Style) : Done Nat :=
  let (sheet, changes) := restyle d.activeSheet d.selection.cells.toList update
  let result := d.commit sheet changes
  ⟨result.document, changes.length, result.notices⟩

/-- Switches an attribute of each selected cell to its other state. -/
def toggleStyle (d : Document) (flag : StyleFlag) : Done Nat :=
  d.restyleSelection fun _ style => style.toggle flag

/-- Moves the alignment of each selected cell on to the next one. -/
def cycleAlign (d : Document) : Done Nat :=
  d.restyleSelection fun _ style => { style with align := style.align.next }

/-- Fills the selected cells with a colour; no colour and an empty one clear them. -/
def applyFill (d : Document) (color : Option String) : Done Nat :=
  let color := color.filter (!·.isEmpty)
  d.restyleSelection fun _ style => { style with fill := color }

/-- The rectangle around the selected cells. -/
def selectedRange (d : Document) : Except Failure Range :=
  match d.selection.bounds with
  | some region => .ok region
  | none => .error .emptySelection

/-- Draws the borders of a preset around and between the selected cells. -/
def applyBorders (d : Document) (preset : BorderPreset) : Except Failure (Done Nat) := do
  let region ← d.selectedRange
  return d.restyleSelection fun p style =>
    { style with border := (preset.border region p).nonempty? }

/-- Makes a table of the rectangle around the selected cells. Its first row is filled and bold,
which is undone together with the table. The result is the number of the table. -/
def insertTable (d : Document) (style : TableStyle) : Except Failure (Done Nat) := do
  let region ← d.selectedRange
  let id ← d.activeSheet.nextTableId
  let (sheet, changes) := restyle d.activeSheet (region.rowCells region.topLeft.row)
    fun _ cellStyle => { cellStyle with fill := some style.headerColor, bold := true }
  let table : Table := ⟨id, region, style.headerColor, style.bodyColor, true⟩
  return ⟨{ (d.setActiveSheet (sheet.addTable table)).touched with
    history := d.history.recordTable sheet.id table changes }, table.id, pruningNotices d.history⟩

/-- Makes a table in the colours of a named preset. -/
def insertTableNamed (d : Document) (name : String) : Except Failure (Done Nat) :=
  match TableStyle.ofName? name with
  | some style => d.insertTable style
  | none => .error (.unknownTableStyle name)

end Spreadsheet.Document
