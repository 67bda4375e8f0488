import Spreadsheet.Range

namespace Spreadsheet

/-- The selected cells. -/
structure Selection where
  anchor : Option Position
  cells : Std.ExtTreeSet Position

namespace Selection

def empty : Selection := ⟨none, ∅⟩

/-- Selects one cell, which becomes the anchor. -/
def click (p : Position) : Selection := ⟨some p, Std.ExtTreeSet.ofList [p]⟩

/-- Selects the rectangle between the anchor and a cell. Without an anchor it is a click. -/
def extend (s : Selection) (p : Position) : Selection :=
  match s.anchor with
  | some anchor => { s with cells := Std.ExtTreeSet.ofList (Range.spanning anchor p).cells }
  | none => click p

/-- Selects one more cell, or one less if it is selected. The cell becomes the anchor. -/
def toggle (s : Selection) (p : Position) : Selection :=
  ⟨some p, if p ∈ s.cells then s.cells.erase p else s.cells.insert p⟩

/-- The smallest rectangle that holds all selected cells. -/
def bounds (s : Selection) : Option Range := Range.bounding? s.cells.toList

/-- Leaves out what does not lie on a sheet. -/
def prune (s : Selection) (extent : Extent) : Selection :=
  ⟨s.anchor.filter extent.contains, s.cells.filter extent.contains⟩

end Selection

end Spreadsheet
