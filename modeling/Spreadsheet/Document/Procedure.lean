import Spreadsheet.Document.Operation

/-!
Operations as they are carried out: part after part, each on what the parts before it have left. A
part that fails ends the operation, and what has been changed by then stays changed.
-/

namespace Spreadsheet

/-- Parts that are carried out on a session one after the other. They end with a result or with a
failure, and either way with the session as they leave it. -/
abbrev Procedure := EStateM Failure Session

namespace Procedure

variable {α : Type}

def document : Procedure Document := return (← get).document

def activeSheet : Procedure Sheet := return (← document).activeSheet

/-- Goes on with a result, or ends where there is none. -/
def require (result : Except Failure α) : Procedure α :=
  match result with
  | .ok value => return value
  | .error failure => throw failure

/-- Ends where a condition does not hold. -/
def ensure (condition : Bool) (failure : Failure) : Procedure Unit :=
  require (if condition then .ok () else .error failure)

def change (update : Document → Document) : Procedure Unit :=
  modify fun session => { session with document := update session.document }

def changeWorkbook (update : Workbook → Workbook) : Procedure Unit :=
  change fun d => { d with workbook := update d.workbook }

/-- Changes the active sheet. -/
def changeSheet (update : Sheet → Sheet) : Procedure Unit :=
  change fun d => d.setActiveSheet (update d.activeSheet)

def changeHistory (update : History → History) : Procedure Unit :=
  change fun d => { d with history := update d.history }

def changeSelection (update : Selection → Selection) : Procedure Unit :=
  change fun d => { d with selection := update d.selection }

/-- Notes that there are changes that no file holds. -/
def touch : Procedure Unit := change Document.touched

/-- Records changes of the active sheet as one action and brings its formulas up to date. -/
def commit (changes : List Change) : Procedure Unit :=
  unless changes.isEmpty do
    changeHistory (·.recordBatch changes)
    changeSheet Sheet.recalculated
    touch

/-- Gives out the number of a new sheet. -/
def takeId : Procedure Nat := do
  let id := (← document).workbook.nextId
  changeWorkbook fun workbook => { workbook with nextId := id + 1 }
  return id

/-- Enters an input into a cell of the active sheet. The result is the change. -/
def enter (p : Position) (input : String) : Procedure Change := do
  let sheet ← activeSheet
  require (sheet.check p)
  let next := sheet.entered p input
  changeSheet (·.put p next)
  return ⟨sheet.id, p, sheet.cells[p]?, next⟩

/-- Enters inputs one after the other. -/
def enterEach : List (Position × String) → Procedure (List Change)
  | [] => return []
  | (p, input) :: rest => do
    let first ← enter p input
    return first :: (← enterEach rest)

def write (p : Position) (input : String) : Procedure Unit := do
  let entry ← enter p input
  unless entry.previous.isNone && entry.next.isNone do commit [entry]

def writeNamed (name input : String) : Procedure Unit := do
  write (← require (Document.cellNamed name)) input

def clearContent (p : Position) : Procedure Unit := do
  let sheet ← activeSheet
  require (sheet.check p)
  match sheet.cells[p]? with
  | none => return
  | some previous =>
    let next := previous.style.map Cell.ofStyle
    unless next = some previous do
      changeSheet (·.put p next)
      commit [⟨sheet.id, p, some previous, next⟩]

def recalculate : Procedure Summary := do
  let summary := (← activeSheet).recalculation.summary
  changeSheet Sheet.recalculated
  return summary

/-- Takes a record out of the history and then applies it. -/
def retrace (take : History → Option (Record × History)) (nothing : Failure)
    (direction : Document.Direction) : Procedure Unit := do
  match take (← document).history with
  | none => throw nothing
  | some (record, history) =>
    changeHistory fun _ => history
    changeWorkbook fun workbook => (Document.applyRecord direction workbook record).1
    touch

def undo : Procedure Unit := retrace History.undo? .nothingToUndo .undoing

def redo : Procedure Unit := retrace History.redo? .nothingToRedo .redoing

/-- Changes the selection at a cell that is there. -/
def select (p : Position) (update : Selection → Selection) : Procedure Unit := do
  require ((← activeSheet).check p)
  changeSelection update

/-- Changes the styles of cells. The result are the changes, which are not recorded. -/
def applyStyles (cells : List Position) (update : Position → Style → Style) :
    Procedure (List Change) := do
  let (sheet, changes) := Document.restyle (← activeSheet) cells update
  changeSheet fun _ => sheet
  return changes

def restyleSelection (update : Position → Style → Style) : Procedure Nat := do
  let changes ← applyStyles (← document).selection.cells.toList update
  commit changes
  return changes.length

def toggleStyle (flag : StyleFlag) : Procedure Nat :=
  restyleSelection fun _ style => style.toggle flag

def cycleAlign : Procedure Nat :=
  restyleSelection fun _ style => { style with align := style.align.next }

def applyFill (color : Option String) : Procedure Nat :=
  let color := color.filter (!·.isEmpty)
  restyleSelection fun _ style => { style with fill := color }

def applyBorders (preset : BorderPreset) : Procedure Nat := do
  let region ← require (← document).selectedRange
  restyleSelection fun p style => { style with border := (preset.border region p).nonempty? }

/-- Styles the header, adds the table and records both as one action. -/
def insertTable (style : TableStyle) : Procedure Nat := do
  let region ← require (← document).selectedRange
  -- Where there is no number left the program stops, and nothing that it left is seen any more. So it
  -- does not show that the number is taken before the header is styled.
  let id ← require (← activeSheet).nextTableId
  let changes ← applyStyles (region.rowCells region.topLeft.row) fun _ cellStyle =>
    { cellStyle with fill := some style.headerColor, bold := true }
  let sheet ← activeSheet
  let table : Table := ⟨id, region, style.headerColor, style.bodyColor, true⟩
  changeSheet (·.addTable table)
  changeHistory (·.recordTable sheet.id table changes)
  touch
  return table.id

def insertTableNamed (name : String) : Procedure Nat := do
  match TableStyle.ofName? name with
  | some style => insertTable style
  | none => throw (.unknownTableStyle name)

/-- Asks first, then changes the size, and then leaves out what lies outside. -/
def resize (extent : Extent) (confirm : List Position → Bool) : Procedure (List Position) := do
  let limits := (← document).settings
  ensure (limits.allows extent.columns extent.rows)
    (.invalidSize extent.columns extent.rows limits.maxColumns limits.maxRows)
  let lost := (← activeSheet).outside extent
  ensure (lost.isEmpty || confirm lost) .resizeDeclined
  changeSheet (·.resize extent)
  let sheet ← activeSheet
  changeHistory fun history =>
    if lost.isEmpty then history.dropOutside sheet.id sheet.extent else history.dropSheet sheet.id
  changeSelection (·.prune sheet.extent)
  changeSheet Sheet.recalculated
  touch
  return lost

/-- Changes the active sheet after a check. The result is a given one. -/
def layOut (check : Sheet → Except LayoutFailure Unit) (update : Sheet → Sheet) (value : α) :
    Procedure α := do
  require ((check (← activeSheet)).mapError .layout)
  changeSheet update
  touch
  return value

def setColumnWidth (col : Nat) (width : Float) : Procedure Float := do
  let width := (← document).settings.clampColumnWidth width
  layOut (·.checkColumn col)
    (fun sheet => { sheet with columnWidths := sheet.columnWidths.insert col width }) width

def setRowHeight (row : Nat) (height : Float) : Procedure Float := do
  let height := (← document).settings.clampRowHeight height
  layOut (·.checkRow row)
    (fun sheet => { sheet with rowHeights := sheet.rowHeights.insert row height }) height

def setColumnFilter (col : Nat) (texts : Std.ExtTreeSet String) : Procedure Unit :=
  layOut (·.checkColumn col)
    (fun sheet =>
      if texts.isEmpty then sheet.clearColumnFilter col
      else { sheet with columnFilters := sheet.columnFilters.insert col texts }) ()

def clearColumnFilter (col : Nat) : Procedure Unit := do
  changeSheet (·.clearColumnFilter col)
  touch

def renameWorkbook (name : String) : Procedure Unit := do
  changeWorkbook fun workbook => { workbook with name := name }
  touch

def addSheet (name : Option String) : Procedure Nat := do
  let d ← document
  let count := d.workbook.sheets.length
  let name := name.getD ("Sheet" ++ toString (count + 1))
  require (Workbook.checkName name)
  let id ← takeId
  let sheet := Sheet.empty id name ⟨d.settings.defaultColumns, d.settings.defaultRows⟩
  changeWorkbook fun workbook => { workbook with sheets := workbook.sheets ++ [sheet] }
  changeWorkbook fun workbook => { workbook with active := count }
  changeSelection fun _ => Selection.empty
  touch
  return count

def renameSheet (index : Nat) (name : String) : Procedure Unit := do
  require (Workbook.checkName name)
  let sheet ← require ((← document).workbook.sheet index)
  changeWorkbook (·.setSheet index { sheet with name := name })
  touch

def deleteSheet (index : Nat) : Procedure Unit := do
  let workbook := (← document).workbook
  let sheet ← require (workbook.sheet index)
  ensure (workbook.sheets.length != 1) .lastSheet
  changeWorkbook fun workbook => { workbook with sheets := workbook.sheets.eraseIdx index }
  changeWorkbook fun workbook => { workbook with
    active := if index ≤ workbook.active then workbook.active - 1 else workbook.active }
  changeHistory (·.dropSheet sheet.id)
  changeSelection fun selection => if index = workbook.active then Selection.empty else selection
  touch

def duplicateSheet (index : Nat) : Procedure Nat := do
  let sheet ← require ((← document).workbook.sheet index)
  let id ← takeId
  let copy := { sheet with id := id, name := sheet.name ++ " (copy)" }
  changeWorkbook fun workbook =>
    { workbook with sheets := workbook.sheets.insertIdx (index + 1) copy }
  changeWorkbook fun workbook => { workbook with
    active := if index < workbook.active then workbook.active + 1 else workbook.active }
  touch
  return index + 1

def activate (index : Nat) : Procedure Unit := do
  let _ ← require ((← document).workbook.sheet index)
  changeWorkbook fun workbook => { workbook with active := index }
  changeSelection fun _ => Selection.empty

def activateNamed (name : String) : Procedure Unit := do
  match (← document).workbook.findSheet name with
  | some index => activate index
  | none => throw (.noSheetNamed name)

/-- Opens the workbook in a text as a whole before it takes the place of the one that was edited. -/
def load (text : String) : Procedure Unit := do
  let (workbook, _) ← require (Workbook.ofText (← document).settings text)
  changeWorkbook fun _ => workbook
  changeSelection fun _ => Selection.empty
  changeHistory History.clear
  change fun d => { d with modified := false }

def openFile (path : String) : Procedure Unit := do
  load (← require (Document.textOf (← get).files path))
  change fun d => { d with file := some path }

def store (path text : String) : Procedure Unit := do
  let files ← require (Document.store (← get).files path text)
  modify fun session => { session with files := files }

def save : Procedure Unit := do
  let d ← document
  match d.file with
  | none => throw .noFile
  | some path =>
    store path d.storedText
    change fun d => { d with modified := false }

def saveAs (path : String) : Procedure Unit := do
  store path (← document).storedText
  change fun d => { d with file := some path }
  change fun d => { d with modified := false }

/-- Looks through all fields before the first one is entered. -/
def importRecords (records : List (List String)) : Procedure Nat := do
  let extent := (← activeSheet).extent
  let inputs := Document.recordInputs records
  match inputs.find? fun (p, _) => !extent.contains p with
  | some (p, _) => throw (.csvOutside (p.row + 1) p extent)
  | none =>
    ensure (!inputs.isEmpty) .emptyCsv
    let changes ← enterEach inputs
    commit changes
    return changes.length

def importText (text : String) : Procedure Nat := importRecords (Csv.records text)

def importFile (path : String) : Procedure Nat := do
  importText (← require (Document.textOf (← get).files path))

def exportFile (path : String) : Procedure Unit := do
  store path (← activeSheet).inputText

def ofOperation : Operation → Procedure Unit
  | .write cell input => write cell input
  | .writeNamed name input => writeNamed name input
  | .clearContent cell => clearContent cell
  | .recalculate => discard recalculate
  | .undo => undo
  | .redo => redo
  | .click cell => select cell fun _ => Selection.click cell
  | .extendSelection cell => select cell (·.extend cell)
  | .toggleSelection cell => select cell (·.toggle cell)
  | .clearSelection => changeSelection fun _ => Selection.empty
  | .toggleStyle flag => discard (toggleStyle flag)
  | .cycleAlign => discard cycleAlign
  | .applyFill color => discard (applyFill color)
  | .applyBorders preset => discard (applyBorders preset)
  | .insertTable style => discard (insertTableNamed style)
  | .insertStyledTable style => discard (insertTable style)
  | .resize extent confirm => discard (resize extent confirm)
  | .setColumnWidth col width => discard (setColumnWidth col width)
  | .setRowHeight row height => discard (setRowHeight row height)
  | .setColumnFilter col texts => setColumnFilter col texts
  | .clearColumnFilter col => clearColumnFilter col
  | .renameWorkbook name => renameWorkbook name
  | .addSheet name => discard (addSheet name)
  | .renameSheet index name => renameSheet index name
  | .deleteSheet index => deleteSheet index
  | .duplicateSheet index => discard (duplicateSheet index)
  | .activate index => activate index
  | .activateNamed name => activateNamed name
  | .load text => load text
  | .openFile path => openFile path
  | .save => save
  | .saveAs path => saveAs path
  | .importText text => discard (importText text)
  | .importFile path => discard (importFile path)
  | .exportFile path => exportFile path

end Procedure

/-- What an operation that is carried out leaves, whether or not it fails. -/
def Session.carryOut (session : Session) (operation : Operation) : Session :=
  match (Procedure.ofOperation operation).run session with
  | .ok _ after => after
  | .error _ after => after

end Spreadsheet
