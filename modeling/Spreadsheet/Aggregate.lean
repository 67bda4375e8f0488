import Spreadsheet.Text.Word

namespace Spreadsheet

/-- A function of a formula. -/
inductive Aggregate where
  | sum
  | average
  | min
  | max
  | count
deriving DecidableEq, Repr

namespace Aggregate

def named : List (String × Aggregate) :=
  [("SUM", .sum), ("AVERAGE", .average), ("MIN", .min), ("MAX", .max), ("COUNT", .count)]

def ofName? (name : String) : Option Aggregate := Text.lookupName? named name

/-- The sum from left to right. The sum of no numbers is the negative zero, which changes no
number that it is added to. -/
def total (values : List Float) : Float := values.foldl (· + ·) (-0.0)

/-- The smaller of two numbers, and the other one where one is not a number. -/
def lesser (a b : Float) : Float :=
  if a.isNaN then b else if b < a then b else a

/-- The greater of two numbers, and the other one where one is not a number. -/
def greater (a b : Float) : Float :=
  if a.isNaN then b else if a < b then b else a

/-- Combines numbers from left to right; none combine to zero. -/
def reduce (combine : Float → Float → Float) : List Float → Float
  | [] => 0.0
  | first :: rest => rest.foldl combine first

/-- The result of a function. There is no average of no numbers. -/
def apply (f : Aggregate) (values : List Float) : Option Float :=
  match f with
  | .sum => some (total values)
  | .average => if values.isEmpty then none else some (total values / Float.ofNat values.length)
  | .min => some (reduce lesser values)
  | .max => some (reduce greater values)
  | .count => some (Float.ofNat values.length)

end Aggregate

end Spreadsheet
