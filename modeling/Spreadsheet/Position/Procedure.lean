import Spreadsheet.Position.Name

namespace Spreadsheet

namespace Coordinate

/-- A number, unless it reaches the limit. -/
def within? (n : Nat) : Option Nat := if n < coordinateLimit then some n else none

/-- A difference, unless it falls below zero. -/
def difference? (a b : Nat) : Option Nat := if b ≤ a then some (a - b) else none

theorem within?_of_lt {n : Nat} (h : n < coordinateLimit) : within? n = some n := if_pos h

theorem difference?_of_le {a b : Nat} (h : b ≤ a) : difference? a b = some (a - b) := if_pos h

/-- A number with one more digit behind it. -/
def push? (base number digit : Nat) : Option Nat := do
  within? ((← within? (number * base)) + digit)

/-- The number of digits in a base. -/
def accumulate? (base : Nat) (digits : List Nat) : Option Nat := digits.foldlM (push? base) 0

end Coordinate

namespace Position

/-- Reads a name digit by digit, first the letters of the column. -/
def parse? (name : String) : Option Position :=
  let letters := name.toList.takeWhile Char.isUpper
  let digits := name.toList.dropWhile Char.isUpper
  if !letters.isEmpty && !digits.isEmpty && digits.all Char.isDigit then do
    let col ← Coordinate.accumulate? 26 (letters.map fun c => c.toNat - 'A'.toNat + 1)
    let col ← Coordinate.difference? col 1
    let row ← Coordinate.accumulate? 10 (digits.map fun c => c.toNat - '0'.toNat)
    let row ← Coordinate.difference? row 1
    return ⟨row, col⟩
  else none

end Position

end Spreadsheet
