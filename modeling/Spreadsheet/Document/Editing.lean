import Spreadsheet.Document

namespace Spreadsheet.Document

/-- Enters an input into a cell of the active sheet. -/
def write (d : Document) (p : Position) (input : String) : Except Failure (Done Unit) := do
  let before := d.activeSheet
  let sheet ← before.write p input
  let previous := before.cells[p]?
  let next := sheet.cells[p]?
  return d.commit sheet
    (if previous.isNone && next.isNone then [] else [⟨before.id, p, previous, next⟩])

/-- Reads the name of a cell in any case and with white space around it. -/
def cellNamed (name : String) : Except Failure Position :=
  match Position.ofName? (Text.upperCase (Text.trim name)) with
  | some p => .ok p
  | none => .error (.invalidName name)

/-- Enters an input into the cell with a name. -/
def writeNamed (d : Document) (name input : String) : Except Failure (Done Unit) := do
  d.write (← cellNamed name) input

/-- Takes away what was entered into a cell; its style stays. -/
def clearContent (d : Document) (p : Position) : Except Failure (Done Unit) := do
  let before := d.activeSheet
  before.check p
  match before.cells[p]? with
  | none => d.done ()
  | some previous =>
    let next := previous.style.map Cell.ofStyle
    if next = some previous then d.done ()
    else return d.commit (before.put p next) [⟨before.id, p, some previous, next⟩]

def recalculate (d : Document) : Done Summary :=
  let r := d.activeSheet.recalculation
  ⟨d.setActiveSheet { d.activeSheet with cells := r.grid }, r.summary, r.notices⟩

/-- The direction in which a record is applied. -/
inductive Direction where
  | undoing
  | redoing
deriving DecidableEq

/-- The cell that a change leaves behind. -/
def Direction.outcome (direction : Direction) (change : Change) : Option Cell :=
  match direction with
  | .undoing => change.previous
  | .redoing => change.next

/-- The changes of a record in the order in which they are applied. -/
def Direction.order (direction : Direction) (changes : List Change) : List Change :=
  match direction with
  | .undoing => changes.reverse
  | .redoing => changes

/-- Whether the place of a change is still there. -/
def reaches (workbook : Workbook) (change : Change) : Bool :=
  (workbook.sheetById? change.sheet).any fun sheet => sheet.extent.contains change.cell

/-- Applies changes whose places are there. -/
def applyChanges (direction : Direction) (workbook : Workbook) (changes : List Change) : Workbook :=
  changes.foldl (fun workbook change =>
    workbook.updateId change.sheet fun sheet => sheet.put change.cell (direction.outcome change))
    workbook

/-- Adds the table of a record or takes it away. -/
def applyTable (direction : Direction) (workbook : Workbook) : Record → Workbook
  | .table id inserted _ =>
    workbook.updateId id fun sheet =>
      match direction with
      | .undoing => sheet.removeTable inserted.id
      | .redoing => sheet.addTable inserted
  | _ => workbook

/-- Recalculates the sheets with the given numbers. -/
def recalculateSheets (workbook : Workbook) (ids : List Nat) : Workbook × List Notice :=
  ids.foldl (fun (workbook, notices) id =>
    match workbook.sheetById? id with
    | none => (workbook, notices)
    | some sheet =>
      let r := sheet.recalculation
      (workbook.updateId id fun sheet => { sheet with cells := r.grid }, notices ++ r.notices))
    (workbook, [])

/-- Applies a record and recalculates the sheets on which it changes cells. Changes whose places are
gone are passed over. -/
def applyRecord (direction : Direction) (workbook : Workbook) (record : Record) :
    Workbook × List Notice :=
  let changes := (direction.order record.changes).filter (reaches workbook)
  let changed := applyTable direction (applyChanges direction workbook changes) record
  recalculateSheets changed (changes.map Change.sheet).eraseDups

def undo (d : Document) : Except Failure (Done Unit) :=
  match d.history.undo? with
  | none => .error .nothingToUndo
  | some (record, history) =>
    let (workbook, notices) := applyRecord .undoing d.workbook record
    .ok ⟨{ d.touched with workbook := workbook, history := history }, (), notices⟩

def redo (d : Document) : Except Failure (Done Unit) :=
  match d.history.redo? with
  | none => .error .nothingToRedo
  | some (record, history) =>
    let (workbook, notices) := applyRecord .redoing d.workbook record
    .ok ⟨{ d.touched with workbook := workbook, history := history }, (), notices⟩

def click (d : Document) (p : Position) : Except Failure (Done Unit) := do
  d.activeSheet.check p
  { d with selection := Selection.click p }.done ()

/-- Selects the rectangle between the anchor and a cell. -/
def extendSelection (d : Document) (p : Position) : Except Failure (Done Unit) := do
  d.activeSheet.check p
  { d with selection := d.selection.extend p }.done ()

/-- Selects one more cell, or one less if it is selected. -/
def toggleSelection (d : Document) (p : Position) : Except Failure (Done Unit) := do
  d.activeSheet.check p
  { d with selection := d.selection.toggle p }.done ()

def clearSelection (d : Document) : Document := { d with selection := Selection.empty }

/-- The document with the active sheet at another size. The result is the cells that are lost. With
them all records of the sheet go, and otherwise those of positions outside. -/
def resized (d : Document) (extent : Extent) : Done (List Position) :=
  let sheet := d.activeSheet
  let lost := sheet.outside extent
  let resized := sheet.resize extent
  let r := resized.recalculation
  ⟨{ (d.setActiveSheet { resized with cells := r.grid }).touched with
    history :=
      if lost.isEmpty then d.history.dropOutside sheet.id resized.extent
      else d.history.dropSheet sheet.id
    selection := d.selection.prune resized.extent }, lost, r.notices⟩

/-- Changes the size of the active sheet. If cells would be lost, `confirm` is asked with them before
all changes, which may be an action of its own such as a dialogue, and its answer decides. -/
def resizeAsking {m : Type → Type} [Monad m] (d : Document) (extent : Extent)
    (confirm : List Position → m Bool) : m (Except Failure (Done (List Position))) := do
  let limits := d.settings
  if limits.allows extent.columns extent.rows then
    let lost := d.activeSheet.outside extent
    let answer ← if lost.isEmpty then pure true else confirm lost
    return if answer then .ok (d.resized extent) else .error .resizeDeclined
  else return .error (.invalidSize extent.columns extent.rows limits.maxColumns limits.maxRows)

/-- Changes the size of the active sheet where the answers are given beforehand. -/
def resize (d : Document) (extent : Extent) (confirm : List Position → Bool) :
    Except Failure (Done (List Position)) :=
  Id.run (d.resizeAsking extent fun lost => pure (confirm lost))

/-- Sets the width of a column to the nearest one within the limits, which is the result. -/
def setColumnWidth (d : Document) (col : Nat) (width : Float) : Except Failure (Done Float) := do
  let width := d.settings.clampColumnWidth width
  let sheet ← (d.activeSheet.setColumnWidth col width).mapError .layout
  (d.setActiveSheet sheet).touched.done width

/-- Sets the height of a row to the nearest one within the limits, which is the result. -/
def setRowHeight (d : Document) (row : Nat) (height : Float) : Except Failure (Done Float) := do
  let height := d.settings.clampRowHeight height
  let sheet ← (d.activeSheet.setRowHeight row height).mapError .layout
  (d.setActiveSheet sheet).touched.done height

/-- Shows only rows with one of the given texts in a column. -/
def setColumnFilter (d : Document) (col : Nat) (texts : Std.ExtTreeSet String) :
    Except Failure (Done Unit) := do
  let sheet ← (d.activeSheet.setColumnFilter col texts).mapError .layout
  (d.setActiveSheet sheet).touched.done ()

/-- Shows all rows again as far as a column is concerned. -/
def clearColumnFilter (d : Document) (col : Nat) : Document :=
  (d.setActiveSheet (d.activeSheet.clearColumnFilter col)).touched

def renameWorkbook (d : Document) (name : String) : Document :=
  { d with workbook := { d.workbook with name := name } }.touched

/-- Adds an empty sheet of the standard size and makes it active. The result is its place. -/
def addSheet (d : Document) (name : Option String) : Except Failure (Done Nat) := do
  let workbook ← d.workbook.addSheet name ⟨d.settings.defaultColumns, d.settings.defaultRows⟩
  { d with workbook := workbook }.clearSelection.touched.done workbook.active

def renameSheet (d : Document) (index : Nat) (name : String) : Except Failure (Done Unit) := do
  let workbook ← d.workbook.renameSheet index name
  { d with workbook := workbook }.touched.done ()

/-- Takes away a sheet and its records. -/
def deleteSheet (d : Document) (index : Nat) : Except Failure (Done Unit) := do
  let sheet ← d.workbook.sheet index
  let workbook ← d.workbook.deleteSheet index
  { d with
    workbook := workbook
    history := d.history.dropSheet sheet.id
    selection := if index = d.workbook.active then Selection.empty else d.selection
    }.touched.done ()

/-- Adds a copy of a sheet behind it. The result is the place of the copy. -/
def duplicateSheet (d : Document) (index : Nat) : Except Failure (Done Nat) := do
  let workbook ← d.workbook.duplicateSheet index
  { d with workbook := workbook }.touched.done (index + 1)

def activate (d : Document) (index : Nat) : Except Failure (Done Unit) := do
  let workbook ← d.workbook.activate index
  { d with workbook := workbook }.clearSelection.done ()

/-- Makes the first sheet with a name active. -/
def activateNamed (d : Document) (name : String) : Except Failure (Done Unit) :=
  match d.workbook.findSheet name with
  | some index => d.activate index
  | none => .error (.noSheetNamed name)

end Spreadsheet.Document
