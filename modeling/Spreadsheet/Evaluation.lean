import Spreadsheet.Aggregate
import Spreadsheet.Formula.Expr
import Spreadsheet.Value

/-!
The value of a formula, given the values of the cells.

* Texts and empty cells count as zero in arithmetic, faults pass through it; of two faults the left
  one counts.
* A division by zero, a result beyond all bounds, an unknown function, and a range that is not an
  argument are faults.
* A reference or range that is an argument gives its numbers and nothing else, whatever the other
  cells hold; any other argument that is a fault makes the call one.
-/

namespace Spreadsheet

def Operator.apply (operator : Operator) (a b : Float) : Value :=
  match operator with
  | .add => .ofNumber (a + b)
  | .subtract => .ofNumber (a - b)
  | .multiply => .ofNumber (a * b)
  | .divide => if b == 0.0 then .fault .invalid else .ofNumber (a / b)
  | .power => .ofNumber (a.pow b)

/-- What the arguments of a call amount to: their numbers, and the first fault among them. -/
structure Gathered where
  numbers : List Float
  fault : Option Fault

namespace Gathered

def none : Gathered := ⟨[], Option.none⟩

/-- Numbers without a fault. -/
def ofNumbers (numbers : List Float) : Gathered := ⟨numbers, Option.none⟩

/-- The arguments of both, in this order. -/
def append (a b : Gathered) : Gathered := ⟨a.numbers ++ b.numbers, a.fault.or b.fault⟩

/-- The value of an argument that is neither a reference nor a range. -/
def ofValue : Value → Gathered
  | .number n => ofNumbers [n]
  | .fault f => ⟨[], some f⟩
  | .empty => none
  | .text _ => none

def call (f : Aggregate) (arguments : Gathered) : Value :=
  match arguments.fault with
  | some fault => .fault fault
  | Option.none =>
    match f.apply arguments.numbers with
    | some n => .ofNumber n
    | Option.none => .fault .invalid

end Gathered

namespace Expr

mutual

/-- The value of an expression within a formula. -/
def eval (look : Position → Value) : Expr → Value
  | .number n => .number n
  | .cell p => look p
  | .range _ => .fault .invalid
  | .literal text => .text text
  | .negate e =>
    match (eval look e).toOperand with
    | .ok n => .ofNumber (-n)
    | .error f => .fault f
  | .binary operator left right =>
    match (eval look left).toOperand, (eval look right).toOperand with
    | .ok a, .ok b => operator.apply a b
    | .error f, _ => .fault f
    | .ok _, .error f => .fault f
  | .call name arguments =>
    match Aggregate.ofName? name with
    | some f => (gather look arguments).call f
    | none => .fault .invalid

/-- What the arguments of a call amount to. -/
def gather (look : Position → Value) : List Expr → Gathered
  | [] => .none
  | .range r :: rest =>
    (Gathered.ofNumbers (r.cells.filterMap fun p => (look p).number?)).append (gather look rest)
  | .cell p :: rest => (Gathered.ofNumbers (look p).number?.toList).append (gather look rest)
  | .literal _ :: rest => gather look rest
  | e :: rest => (Gathered.ofValue (eval look e)).append (gather look rest)

end

/-- The value of a whole formula: an empty cell that it refers to counts as zero. -/
def value (look : Position → Value) (e : Expr) : Value :=
  match e.eval look with
  | .empty => .number 0.0
  | .number n => .ofNumber n
  | other => other

mutual

/-- The names of unknown functions in the order in which evaluation meets them. The arguments of an
unknown function are not evaluated. -/
def unknownFunctions : Expr → List String
  | .negate e => unknownFunctions e
  | .binary _ left right => unknownFunctions left ++ unknownFunctions right
  | .call name arguments =>
    if (Aggregate.ofName? name).isSome then unknownAmong arguments else [name]
  | _ => []

/-- The names of unknown functions in arguments. -/
def unknownAmong : List Expr → List String
  | [] => []
  | e :: rest => unknownFunctions e ++ unknownAmong rest

end

end Expr

end Spreadsheet
