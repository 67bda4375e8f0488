import Spreadsheet.Dependency
import Spreadsheet.History
import Spreadsheet.Selection
import Spreadsheet.Settings
import Spreadsheet.Workbook

/-!
Documents: a workbook that is being edited, with what is selected on its active sheet, what can be
undone, and the file that it belongs to. An operation either fails and changes nothing, or is done
and leaves a document whose formulas are at their values.
-/

namespace Spreadsheet

/-- A workbook that is being edited. -/
structure Document where
  workbook : Workbook
  selection : Selection
  history : History
  settings : Settings
  /-- The path of the file that the workbook belongs to. -/
  file : Option String
  /-- Whether there are changes that no file holds. -/
  modified : Bool

namespace Document

/-- What an operation has led to. -/
structure Done (α : Type) where
  document : Document
  value : α
  notices : List Notice

/-- An operation that is done without notices. -/
def done {α : Type} (d : Document) (value : α) : Except Failure (Done α) := .ok ⟨d, value, []⟩

def new (settings : Settings) : Document where
  workbook := Workbook.new ⟨settings.defaultColumns, settings.defaultRows⟩
  selection := Selection.empty
  history := History.empty settings.historyCapacity
  settings := settings
  file := none
  modified := false

def activeSheet (d : Document) : Sheet := d.workbook.activeSheet

def setActiveSheet (d : Document) (sheet : Sheet) : Document :=
  { d with workbook := d.workbook.setActiveSheet sheet }

/-- The document with changes that no file holds. -/
def touched (d : Document) : Document := { d with modified := true }

/-- What is to be said of the records that the next one pushes out. -/
def pruningNotices (h : History) : List Notice :=
  if h.excess = 0 then [] else [.recordsPruned h.excess]

/-- Puts a changed sheet in place of the active one, recalculates it and records the changes as one
action. Without changes nothing happens. -/
def commit (d : Document) (sheet : Sheet) (changes : List Change) : Done Unit :=
  if changes.isEmpty then ⟨d, (), []⟩
  else
    let r := sheet.recalculation
    let next := { d.setActiveSheet { sheet with cells := r.grid } with
      history := d.history.recordBatch changes }
    ⟨next.touched, (), pruningNotices d.history ++ r.notices⟩

def dependencies (d : Document) : DependencyGraph :=
  DependencyGraph.ofGrid d.activeSheet.cells d.activeSheet.extent

def precedents (d : Document) (p : Position) : List Position :=
  (d.dependencies.precedentsAt p).toList

def dependents (d : Document) (p : Position) : List Position :=
  (d.dependencies.allDependents p).toList

def loopFrom (d : Document) (p : Position) : Option (List Position) := d.dependencies.loopFrom p

/-- The value of a formula on the active sheet. -/
def evaluate (d : Document) (text : String) : Value × List Notice :=
  d.activeSheet.cells.evaluateInput d.activeSheet.extent text

/-- The names of the sheets with a cell on a loop. -/
def sheetsWithLoops (d : Document) : List String :=
  (d.workbook.sheets.filter fun sheet =>
    sheet.cells.any fun _ cell => cell.value == .fault .loop).map Sheet.name

end Document

end Spreadsheet
