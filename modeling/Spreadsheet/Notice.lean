import Spreadsheet.Formula.Token

namespace Spreadsheet

/-- How much a notice matters. -/
inductive Level where
  | error
  | warn
  | info
  | debug
  | trace
deriving DecidableEq, Repr

namespace Level

/-- The place of a level, the weightiest first. -/
def rank : Level → Nat
  | .error => 1
  | .warn => 2
  | .info => 3
  | .debug => 4
  | .trace => 5

/-- The name of a level in five columns. -/
def label : Level → String
  | .error => "ERROR"
  | .warn => " WARN"
  | .info => " INFO"
  | .debug => "DEBUG"
  | .trace => "TRACE"

end Level

/-- Something that happened. -/
inductive Notice where
  | unreadableFormula (body : String) (reason : FormulaError)
  | unknownFunction (name : String)
  | recalculated (formulas errors loops : Nat)
  | recordsPruned (count : Nat)
  | workbookRejected (path : String) (reason : String)
  | importRejected (reason : String)
  | imported (count : Nat) (path : String)
  | circularSheets (names : List String)

namespace Notice

def level : Notice → Level
  | .unreadableFormula .. => .trace
  | .unknownFunction .. => .trace
  | .recalculated .. => .debug
  | .recordsPruned .. => .debug
  | .workbookRejected .. => .warn
  | .importRejected .. => .warn
  | .imported .. => .info
  | .circularSheets .. => .warn

def message : Notice → String
  | .unreadableFormula body reason =>
      "formula '" ++ body ++ "' failed to parse: " ++ reason.message
  | .unknownFunction name => "unknown function " ++ name
  | .recalculated formulas errors loops =>
      "recalculated " ++ toString formulas ++ " formulas (" ++ toString errors ++ " errors, "
        ++ toString loops ++ " cycles)"
  | .recordsPruned count => "history pruned " ++ toString count ++ " oldest records"
  | .workbookRejected path reason => "rejected workbook " ++ path ++ ": " ++ reason
  | .importRejected reason => "rejected CSV import: " ++ reason
  | .imported count path => "imported " ++ toString count ++ " cells from " ++ path
  | .circularSheets names => "circular references in: " ++ ", ".intercalate names

end Notice

end Spreadsheet
