import Spreadsheet.Range
import Spreadsheet.Style

namespace Spreadsheet

/-- Which lines are drawn in a rectangle. -/
inductive BorderPreset where
  | none
  | all
  | outside
  | inside
  | top
  | bottom
  | left
  | right
deriving DecidableEq, Repr

namespace BorderPreset

def named : List (String × BorderPreset) :=
  [("none", .none), ("all", .all), ("outside", .outside), ("inside", .inside), ("top", .top),
    ("bottom", .bottom), ("left", .left), ("right", .right)]

def ofName? (name : String) : Option BorderPreset := Text.lookupName? named name

/-- The sides of a rectangle on which a cell lies. -/
def edges (region : Range) (p : Position) : Border where
  top := p.row == region.topLeft.row
  right := p.col == region.bottomRight.col
  bottom := p.row == region.bottomRight.row
  left := p.col == region.topLeft.col

/-- The lines of a cell in a rectangle. -/
def border (preset : BorderPreset) (region : Range) (p : Position) : Border :=
  let on := edges region p
  match preset with
  | .none => {}
  | .all => Border.all
  | .outside => on
  | .inside => ⟨!on.top, !on.right, !on.bottom, !on.left⟩
  | .top => { top := on.top }
  | .bottom => { bottom := on.bottom }
  | .left => { left := on.left }
  | .right => { right := on.right }

end BorderPreset

end Spreadsheet
