import Spreadsheet.Recalculation

namespace Spreadsheet

/-- A formula on the stack. As many of the cells that it reads as `next` says have been looked at. -/
structure Unresolved where
  cell : Position
  /-- The formula, if it can be read. -/
  formula : Option Expr
  reads : List Position
  next : Nat

/-- How far a pass has come. -/
structure Pass where
  memo : Std.ExtTreeMap Position Value
  /-- The formulas that are being resolved, the latest first. -/
  stack : List Unresolved
  onStack : Std.ExtTreeSet Position
  /-- The cells that were found on loops. -/
  cyclic : Std.ExtTreeSet Position
  /-- The cells that are still to be resolved for their own sake. -/
  roots : List Position

namespace Pass

def start (grid : Grid) : Pass := ⟨∅, [], ∅, ∅, grid.formulas.keys⟩

/-- The cells on the stack, the latest first. -/
def way (pass : Pass) : List Position := pass.stack.map Unresolved.cell

/-- The value of a cell, unless it holds a formula and the memo has no value for it. -/
def lookup? (grid : Grid) (pass : Pass) (p : Position) : Option Value :=
  match pass.memo[p]? with
  | some value => some value
  | none =>
    match grid[p]? with
    | none => some .empty
    | some cell => if cell.isFormula then none else some cell.value

/-- The value of a cell for evaluation. A formula that the memo has no value for counts as one that
cannot be evaluated. -/
def lookup (grid : Grid) (pass : Pass) (p : Position) : Value :=
  (pass.lookup? grid p).getD (.fault .invalid)

/-- Notes that a cell lies on a loop. -/
def mark (pass : Pass) (p : Position) : Pass :=
  { pass with cyclic := pass.cyclic.insert p, memo := pass.memo.insert p (.fault .loop) }

/-- Closes a loop at a cell on the stack: this cell and all later ones lie on the loop. -/
def closeLoop (pass : Pass) (closing : Position) : Pass :=
  (pass.way.reverse.dropWhile (· != closing)).foldl mark pass

/-- Puts a formula on the stack. -/
def openFormula (extent : Extent) (pass : Pass) (p : Position) (body : String) : Pass :=
  let formula := (parseFormula extent body).toOption
  { pass with
    onStack := pass.onStack.insert p
    stack := ⟨p, formula, (formula.map Expr.reads).getD [], 0⟩ :: pass.stack }

/-- Begins to resolve a cell, or closes a loop if this has begun before. Nothing is to be done for a
cell that has its value in the memo or that holds no formula. -/
def visit (grid : Grid) (extent : Extent) (pass : Pass) (p : Position) : Pass :=
  if p ∈ pass.onStack then pass.closeLoop p
  else if p ∈ pass.memo then pass
  else
    match grid[p]?.bind Cell.formula? with
    | some body => pass.openFormula extent p body
    | none => pass

/-- The value of a formula once all cells that it reads have been looked at. -/
def valueOf (grid : Grid) (pass : Pass) (latest : Unresolved) : Value :=
  if latest.cell ∈ pass.cyclic then .fault .loop
  else
    match latest.formula with
    | some e => e.value (pass.lookup grid)
    | none => .fault .invalid

/-- Takes the latest formula off the stack and gives it a value. -/
def finish (grid : Grid) (pass : Pass) (latest : Unresolved) (below : List Unresolved) : Pass :=
  let popped := { pass with stack := below, onStack := pass.onStack.erase latest.cell }
  { popped with memo := popped.memo.insert latest.cell (popped.valueOf grid latest) }

/-- Goes on with the latest formula on the stack, or with the next root if there is none. -/
def step? (grid : Grid) (extent : Extent) (pass : Pass) : Option Pass :=
  match pass.stack, pass.roots with
  | latest :: below, _ =>
    match latest.reads[latest.next]? with
    | some p =>
      let looking := { latest with next := latest.next + 1 }
      some (visit grid extent { pass with stack := looking :: below } p)
    | none => some (pass.finish grid latest below)
  | [], p :: roots => some (visit grid extent { pass with roots := roots } p)
  | [], [] => none

/-- A pass after a number of steps. It does not change any more once nothing is left to be done. -/
def after (grid : Grid) (extent : Extent) : Nat → Pass
  | 0 => start grid
  | steps + 1 => ((after grid extent steps).step? grid extent).getD (after grid extent steps)

/-- Takes the values of some cells out of a memo, one after the other, if none of them is missing. -/
def takeValues (memo : Std.ExtTreeMap Position Value) : List Position → Option (List Value)
  | [] => some []
  | p :: rest => do
    let value ← memo[p]?
    return value :: (← takeValues (memo.erase p) rest)

end Pass

end Spreadsheet
