import Spreadsheet.Range

namespace Spreadsheet

/-- The operators between two operands. -/
inductive Operator where
  | add
  | subtract
  | multiply
  | divide
  | power
deriving DecidableEq, Repr

/-- A formula. -/
inductive Expr where
  | number (value : Float)
  | cell (position : Position)
  | range (range : Range)
  /-- A word that names neither a cell of the sheet nor a function. -/
  | literal (text : String)
  | negate (operand : Expr)
  | binary (operator : Operator) (left right : Expr)
  | call (name : String) (arguments : List Expr)

namespace Expr

mutual

/-- The cells that an expression reads, in the order of evaluation. Both operands and all arguments
count, whether or not their values matter in the end; a range counts as an argument only. -/
def reads : Expr → List Position
  | .number _ => []
  | .cell p => [p]
  | .range _ => []
  | .literal _ => []
  | .negate e => reads e
  | .binary _ left right => reads left ++ reads right
  | .call _ arguments => readsOfArguments arguments

/-- The cells that arguments of a call read. -/
def readsOfArguments : List Expr → List Position
  | [] => []
  | .range r :: rest => r.cells ++ readsOfArguments rest
  | e :: rest => reads e ++ readsOfArguments rest

end

theorem readsOfArguments_append (es es' : List Expr) :
    readsOfArguments (es ++ es') = readsOfArguments es ++ readsOfArguments es' := by
  induction es with
  | nil => simp [readsOfArguments]
  | cons e es ih => cases e <;> simp [readsOfArguments, ih]

end Expr

end Spreadsheet
