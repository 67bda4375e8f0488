import Spreadsheet.Number.Display

namespace Spreadsheet

/-- Why a formula has no value. -/
inductive Fault where
  /-- The formula cannot be read or its evaluation failed. -/
  | invalid
  /-- The cell takes part in a circular reference. -/
  | loop
deriving DecidableEq, Repr

/-- The text of a fault in a cell. -/
def Fault.text : Fault → String
  | .invalid => "#ERR"
  | .loop => "#CYCLE"

/-- The value of a cell. -/
inductive Value where
  | empty
  | number (value : Float)
  | text (value : String)
  | fault (fault : Fault)
deriving DecidableEq, Inhabited

namespace Value

def number? : Value → Option Float
  | .number n => some n
  | _ => none

def isFault : Value → Bool
  | .fault _ => true
  | _ => false

/-- The text that a cell with this value shows. -/
def display : Value → String
  | .empty => ""
  | .number n => displayNumber n
  | .text s => s
  | .fault f => f.text

/-- A number as a value. Numbers beyond all bounds and those that are none are faults. -/
def ofNumber (n : Float) : Value :=
  if n.isFinite then .number n else .fault .invalid

/-- A value as an operand: texts and empty cells count as zero, faults stay faults. -/
def toOperand : Value → Except Fault Float
  | .number n => .ok n
  | .empty => .ok 0.0
  | .text _ => .ok 0.0
  | .fault f => .error f

end Value

end Spreadsheet
