import Spreadsheet.Position.Procedure
import Spreadsheet.Range

namespace Spreadsheet

namespace Range

/-- The number of rows or columns from the first one to the last one. -/
def side? (first last : Nat) : Option Nat := do
  Coordinate.within? ((← Coordinate.difference? last first) + 1)

def width? (r : Range) : Option Nat := side? r.topLeft.col r.bottomRight.col

def height? (r : Range) : Option Nat := side? r.topLeft.row r.bottomRight.row

/-- The number of cells. It is no failure if there are too many of them to be counted. -/
def countCells? (r : Range) : Option (Option Nat) := do
  let width ← r.width?
  let height ← r.height?
  return Coordinate.within? (width * height)

/-- The part of the rectangle on a sheet. It is no failure if there is none. -/
def clip? (r : Range) (extent : Extent) : Option (Option Range) := do
  if extent.contains r.topLeft then
    let lastCol ← Coordinate.difference? extent.columns 1
    let lastRow ← Coordinate.difference? extent.rows 1
    return some ⟨r.topLeft, ⟨min r.bottomRight.row lastRow, min r.bottomRight.col lastCol⟩⟩
  else
    return none

end Range

end Spreadsheet
