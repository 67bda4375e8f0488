import Spreadsheet.Workbook

namespace Spreadsheet

inductive SheetOperation where
  | add (name : Option String) (extent : Extent)
  | duplicate (index : Nat)
  | delete (index : Nat)
  | rename (index : Nat) (name : String)
  | activate (index : Nat)
  | renameWorkbook (name : String)

namespace Workbook

def perform (workbook : Workbook) : SheetOperation → Except Failure Workbook
  | .add name extent => workbook.addSheet name extent
  | .duplicate index => workbook.duplicateSheet index
  | .delete index => workbook.deleteSheet index
  | .rename index name => workbook.renameSheet index name
  | .activate index => workbook.activate index
  | .renameWorkbook name => .ok { workbook with name := name }

/-- The workbook after an operation, whether or not it fails. -/
def after (workbook : Workbook) (operation : SheetOperation) : Workbook :=
  match workbook.perform operation with
  | .ok next => next
  | .error _ => workbook

def run (workbook : Workbook) (operations : List SheetOperation) : Workbook :=
  operations.foldl after workbook

end Workbook

end Spreadsheet
