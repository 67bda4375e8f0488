import Spreadsheet.Evaluation

namespace Spreadsheet

namespace Gathered

/-- One more number behind those that have been gathered. -/
def addNumber (gathered : Gathered) (n : Float) : Gathered :=
  ⟨gathered.numbers ++ [n], gathered.fault⟩

/-- A fault counts if it is the first one. -/
def addFault (gathered : Gathered) (fault : Fault) : Gathered :=
  ⟨gathered.numbers, gathered.fault.or (some fault)⟩

/-- Gathers the value of a cell that is an argument or belongs to one. -/
def takeCell (gathered : Gathered) : Value → Gathered
  | .number n => gathered.addNumber n
  | _ => gathered

/-- Gathers the value of any other argument. -/
def takeValue (gathered : Gathered) : Value → Gathered
  | .number n => gathered.addNumber n
  | .fault fault => gathered.addFault fault
  | _ => gathered

end Gathered

namespace Expr

/-- Looks up a cell and notes it. -/
def lookNoting (look : Position → Value) (p : Position) : StateM (List Position) Value := do
  modify (· ++ [p])
  return look p

/-- Looks up a cell that is an argument or belongs to one. -/
def gatherCell (look : Position → Value) (gathered : Gathered) (p : Position) :
    StateM (List Position) Gathered := do
  return gathered.takeCell (← lookNoting look p)

mutual

/-- The value of an expression. All cells that are looked up for it are noted in their order. -/
def evalNoting (look : Position → Value) : Expr → StateM (List Position) Value
  | .number n => return .number n
  | .cell p => lookNoting look p
  | .range _ => return .fault .invalid
  | .literal text => return .text text
  | .negate e => do
    match (← evalNoting look e).toOperand with
    | .ok n => return .ofNumber (-n)
    | .error f => return .fault f
  | .binary operator left right => do
    let a ← evalNoting look left
    let b ← evalNoting look right
    match a.toOperand, b.toOperand with
    | .error f, _ => return .fault f
    | .ok _, .error f => return .fault f
    | .ok a, .ok b => return operator.apply a b
  | .call name arguments => do
    match Aggregate.ofName? name with
    | some f => return (← gatherNoting look arguments .none).call f
    | none => return .fault .invalid

/-- Gathers arguments behind those that have been gathered. -/
def gatherNoting (look : Position → Value) :
    List Expr → Gathered → StateM (List Position) Gathered
  | [], gathered => return gathered
  | .range r :: rest, gathered => do
    gatherNoting look rest (← r.cells.foldlM (gatherCell look) gathered)
  | .cell p :: rest, gathered => do gatherNoting look rest (← gatherCell look gathered p)
  | .literal _ :: rest, gathered => gatherNoting look rest gathered
  | e :: rest, gathered => do
    gatherNoting look rest (gathered.takeValue (← evalNoting look e))

end

end Expr

end Spreadsheet
