import Spreadsheet.Sheet

namespace Spreadsheet

structure Workbook where
  name : String
  sheets : List Sheet
  /-- The place of the active sheet among the sheets. -/
  active : Nat
  /-- The number of the next new sheet. -/
  nextId : Nat

namespace Workbook

/-- The name where nothing else is said. -/
def standardName : String := "Workbook"

/-- A workbook with one empty sheet. -/
def new (extent : Extent) : Workbook := ⟨standardName, [Sheet.empty 1 "Sheet1" extent], 0, 2⟩

/-- The workbook of some sheets, which are numbered anew. -/
def ofSheets (name : String) (sheets : List Sheet) (active : Nat) : Except WorkbookFault Workbook :=
  if sheets.isEmpty then .error .noSheets
  else if active < sheets.length then
    .ok ⟨name, sheets.mapIdx fun index sheet => { sheet with id := index + 1 }, active,
      sheets.length + 1⟩
  else .error (.activeOutside active)

def sheet (workbook : Workbook) (index : Nat) : Except Failure Sheet :=
  match workbook.sheets[index]? with
  | some sheet => .ok sheet
  | none => .error (.noSheetAt index)

/-- The place of the first sheet with a name. -/
def findSheet (workbook : Workbook) (name : String) : Option Nat :=
  workbook.sheets.findIdx? (·.name == name)

/-- The place of the sheet with a number. -/
def findId (workbook : Workbook) (id : Nat) : Option Nat := workbook.sheets.findIdx? (·.id == id)

/-- The sheet with a number. -/
def sheetById? (workbook : Workbook) (id : Nat) : Option Sheet :=
  workbook.sheets.find? (·.id == id)

def activeSheet (workbook : Workbook) : Sheet :=
  workbook.sheets.getD workbook.active (Sheet.empty 0 "" ⟨1, 1⟩)

def setSheet (workbook : Workbook) (index : Nat) (sheet : Sheet) : Workbook :=
  { workbook with sheets := workbook.sheets.set index sheet }

def setActiveSheet (workbook : Workbook) (sheet : Sheet) : Workbook :=
  workbook.setSheet workbook.active sheet

/-- Changes the first sheet with a number. -/
def updateId (workbook : Workbook) (id : Nat) (update : Sheet → Sheet) : Workbook :=
  match workbook.findId id with
  | some index => { workbook with sheets := workbook.sheets.modify index update }
  | none => workbook

def activate (workbook : Workbook) (index : Nat) : Except Failure Workbook := do
  let _ ← workbook.sheet index
  return { workbook with active := index }

/-- Fails for a name without anything but white space. -/
def checkName (name : String) : Except Failure Unit :=
  if (Text.trimChars name.toList).isEmpty then .error .emptyName else .ok ()

/-- Adds an empty sheet behind the others and makes it active. Without a name it is named for its
place. -/
def addSheet (workbook : Workbook) (name : Option String) (extent : Extent) :
    Except Failure Workbook := do
  let count := workbook.sheets.length
  let name := name.getD ("Sheet" ++ toString (count + 1))
  checkName name
  return { workbook with
    sheets := workbook.sheets ++ [Sheet.empty workbook.nextId name extent]
    active := count
    nextId := workbook.nextId + 1 }

def renameSheet (workbook : Workbook) (index : Nat) (name : String) : Except Failure Workbook := do
  checkName name
  let sheet ← workbook.sheet index
  return workbook.setSheet index { sheet with name := name }

/-- Takes away a sheet other than the last one that is left. The sheet in front of an active sheet
that is taken away becomes active. -/
def deleteSheet (workbook : Workbook) (index : Nat) : Except Failure Workbook := do
  let _ ← workbook.sheet index
  if workbook.sheets.length = 1 then .error .lastSheet
  else
    return { workbook with
      sheets := workbook.sheets.eraseIdx index
      active := if index ≤ workbook.active then workbook.active - 1 else workbook.active }

/-- Adds a copy of a sheet behind it. The active sheet stays the same. -/
def duplicateSheet (workbook : Workbook) (index : Nat) : Except Failure Workbook := do
  let sheet ← workbook.sheet index
  let copy := { sheet with id := workbook.nextId, name := sheet.name ++ " (copy)" }
  return { workbook with
    sheets := workbook.sheets.insertIdx (index + 1) copy
    active := if index < workbook.active then workbook.active + 1 else workbook.active
    nextId := workbook.nextId + 1 }

/-- The workbook with each formula at its value, and what happened on the way. -/
def recalculation (workbook : Workbook) : Workbook × List Notice :=
  let recalculated := workbook.sheets.map fun sheet => (sheet, sheet.recalculation)
  ({ workbook with sheets := recalculated.map fun (sheet, r) => { sheet with cells := r.grid } },
    recalculated.flatMap fun (_, r) => r.notices)

end Workbook

end Spreadsheet
