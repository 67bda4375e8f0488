import Spreadsheet.Position.Name
import Spreadsheet.Text.Word

namespace Spreadsheet

/-- The size of a sheet. -/
structure Extent where
  columns : Nat
  rows : Nat
deriving DecidableEq, Repr, Inhabited

namespace Extent

def contains (extent : Extent) (p : Position) : Bool :=
  decide (p.col < extent.columns) && decide (p.row < extent.rows)

/-- The size with at least one column and one row. -/
def raised (extent : Extent) : Extent := ⟨max extent.columns 1, max extent.rows 1⟩

end Extent

/-- The rectangle of cells between two corners, both included. -/
structure Range where
  topLeft : Position
  bottomRight : Position
deriving DecidableEq, Repr, Inhabited

namespace Range

instance : Ord Range where
  compare := compareLex (compareOn topLeft) (compareOn bottomRight)

instance : Std.TransOrd Range :=
  inferInstanceAs (Std.TransCmp (compareLex (compareOn topLeft) (compareOn bottomRight)))

instance : Std.LawfulEqOrd Range where
  eq_of_compare {a b} h := by
    have h' : (compare a.topLeft b.topLeft).then (compare a.bottomRight b.bottomRight) = .eq := h
    rw [Ordering.then_eq_eq, Std.LawfulEqOrd.compare_eq_iff_eq,
      Std.LawfulEqOrd.compare_eq_iff_eq] at h'
    cases a
    cases b
    simp_all

/-- The smallest rectangle that holds both positions, whatever corners they are. -/
def spanning (a b : Position) : Range :=
  ⟨⟨min a.row b.row, min a.col b.col⟩, ⟨max a.row b.row, max a.col b.col⟩⟩

def single (p : Position) : Range := ⟨p, p⟩

/-- The smallest rectangle that holds a list of cells. -/
def bounding? : List Position → Option Range
  | [] => none
  | p :: rest =>
    some <| rest.foldl (fun r q =>
      ⟨⟨min r.topLeft.row q.row, min r.topLeft.col q.col⟩,
        ⟨max r.bottomRight.row q.row, max r.bottomRight.col q.col⟩⟩) (single p)

def contains (r : Range) (p : Position) : Bool :=
  decide (r.topLeft.row ≤ p.row) && decide (p.row ≤ r.bottomRight.row)
    && decide (r.topLeft.col ≤ p.col) && decide (p.col ≤ r.bottomRight.col)

def width (r : Range) : Nat := r.bottomRight.col - r.topLeft.col + 1

def height (r : Range) : Nat := r.bottomRight.row - r.topLeft.row + 1

/-- The number of cells, if it stays below the limit for coordinates. -/
def cellCount? (r : Range) : Option Nat :=
  let count := r.width * r.height
  if count < coordinateLimit then some count else none

/-- The members of one row of the rectangle, from left to right. -/
def rowCells (r : Range) (row : Nat) : List Position :=
  (List.range' r.topLeft.col (r.bottomRight.col + 1 - r.topLeft.col)).map fun col => ⟨row, col⟩

/-- The members of the rectangle, row by row. -/
def cells (r : Range) : List Position :=
  (List.range' r.topLeft.row (r.bottomRight.row + 1 - r.topLeft.row)).flatMap r.rowCells

/-- The part of the rectangle on a sheet, if there is one. -/
def clip (r : Range) (extent : Extent) : Option Range :=
  if extent.contains r.topLeft then
    some ⟨r.topLeft, ⟨min r.bottomRight.row (extent.rows - 1),
      min r.bottomRight.col (extent.columns - 1)⟩⟩
  else none

/-- The name of a range, such as `A1:B2`. -/
def name (r : Range) : String :=
  r.topLeft.name ++ ":" ++ r.bottomRight.name

/-- Reads two names joined by a colon as the rectangle that they span. -/
def ofName? (name : String) : Option Range := do
  let (a, b) ← Text.splitAt? ':' name
  let p ← Position.ofName? a
  let q ← Position.ofName? b
  some (spanning p q)

end Range

end Spreadsheet
