import Spreadsheet.Recalculation

namespace Spreadsheet

/-- Counts a value if it is a fault. -/
def Summary.count (summary : Summary) : Value → Summary
  | .fault .invalid => { summary with errors := summary.errors + 1 }
  | .fault .loop => { summary with loops := summary.loops + 1 }
  | _ => summary

namespace Grid

/-- The positions of the formulas among some cells, in their order. -/
def formulaCells (entries : List (Position × Cell)) : List Position :=
  ((entries.filter fun entry => entry.2.isFormula).map Prod.fst).mergeSort fun p q =>
    (compare p q).isLE

/-- Stores the value of a formula and counts it. -/
def storeValue (value : Position → Value) (stored : Grid × Summary) (p : Position) :
    Grid × Summary :=
  (stored.1.modify p fun cell => { cell with value := value p }, stored.2.count (value p))

/-- A recalculation that finds the cells of the grid in the order of a list. -/
def recalculateListed (grid : Grid) (extent : Extent) (entries : List (Position × Cell)) :
    Recalculation :=
  let cells := formulaCells entries
  let walk := (Walk.start grid cells).run grid extent
  let stored := cells.foldl (storeValue (walk.look grid)) (grid, ⟨cells.length, 0, 0⟩)
  ⟨stored.1, stored.2,
    walk.notices.reverse ++
      [.recalculated stored.2.formulas stored.2.errors stored.2.loops]⟩

end Grid

end Spreadsheet
