import Spreadsheet.Document
import Spreadsheet.Files
import Spreadsheet.Stored.Encoding

namespace Spreadsheet.Document

/-- Puts a workbook in place of the one that was edited. Nothing is selected or can be undone. -/
def replaceWorkbook (d : Document) (workbook : Workbook) : Document :=
  { d with
    workbook := workbook
    selection := Selection.empty
    history := d.history.clear
    modified := false }

/-- Opens the workbook that is stored in a text. -/
def load (d : Document) (text : String) : Except Failure (Done Unit) := do
  let (workbook, notices) ← Workbook.ofText d.settings text
  return ⟨d.replaceWorkbook workbook, (), notices⟩

def storedText (d : Document) : String := d.workbook.toText

def textOf (files : Files) (path : String) : Except Failure String :=
  match files.read? path with
  | some text => .ok text
  | none => .error .file

/-- Opens the workbook that is stored in a file. -/
def openFile (d : Document) (files : Files) (path : String) : Except Failure (Done Unit) := do
  let result ← d.load (← textOf files path)
  return { result with document := { result.document with file := some path } }

/-- A new document for a path. A file that is there is opened; otherwise the path is where the new
workbook will be saved. -/
def ofPath (settings : Settings) (files : Files) (path : Option String) :
    Except Failure (Done Unit) :=
  let d := new settings
  match path with
  | none => d.done ()
  | some path =>
    if files.exists? path then d.openFile files path
    else { d with file := some path }.done ()

/-- Stores a text in a file. -/
def store (files : Files) (path text : String) : Except Failure Files :=
  match files.write? path text with
  | some files => .ok files
  | none => .error .file

/-- Saves the workbook in a file, to which it belongs from now on. -/
def saveAs (d : Document) (files : Files) (path : String) : Except Failure (Document × Files) := do
  let files ← store files path d.storedText
  return ({ d with file := some path, modified := false }, files)

/-- Saves the workbook in the file that it belongs to. -/
def save (d : Document) (files : Files) : Except Failure (Document × Files) :=
  match d.file with
  | some path => d.saveAs files path
  | none => .error .noFile

/-- The inputs that records are for, with the positions of their cells. Empty fields are for
none. -/
def recordInputs (records : List (List String)) : List (Position × String) :=
  records.zipIdx.flatMap fun (fields, row) =>
    fields.zipIdx.filterMap fun (field, col) =>
      if field.isEmpty then none else some (⟨row, col⟩, field)

/-- Enters inputs into a sheet one after the other. The changes come in the same order. -/
def enterAll (sheet : Sheet) : List (Position × String) → Sheet × List Change
  | [] => (sheet, [])
  | (p, input) :: rest =>
    let next := sheet.entered p input
    let (last, changes) := enterAll (sheet.put p next) rest
    (last, ⟨sheet.id, p, sheet.cells[p]?, next⟩ :: changes)

/-- Enters records into the active sheet from its first cell on, as one action. A field outside the
sheet makes all of it fail. The result is the number of fields entered. -/
def importRecords (d : Document) (records : List (List String)) : Except Failure (Done Nat) :=
  let sheet := d.activeSheet
  let inputs := recordInputs records
  match inputs.find? fun (p, _) => !sheet.extent.contains p with
  | some (p, _) => .error (.csvOutside (p.row + 1) p sheet.extent)
  | none =>
    if inputs.isEmpty then .error .emptyCsv
    else
      let (sheet, changes) := enterAll sheet inputs
      let result := d.commit sheet changes
      .ok ⟨result.document, changes.length, result.notices⟩

def importText (d : Document) (text : String) : Except Failure (Done Nat) :=
  d.importRecords (Csv.records text)

def importFile (d : Document) (files : Files) (path : String) : Except Failure (Done Nat) := do
  d.importText (← textOf files path)

/-- Exports what was entered into the active sheet to a file. -/
def exportFile (d : Document) (files : Files) (path : String) : Except Failure Files :=
  store files path d.activeSheet.inputText

end Spreadsheet.Document
