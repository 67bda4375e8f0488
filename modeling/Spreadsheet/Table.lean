import Spreadsheet.Range

namespace Spreadsheet

/-- The colours of a table. -/
structure TableStyle where
  name : String
  headerColor : String
  bodyColor : String
deriving DecidableEq, Repr

namespace TableStyle

def presets : List TableStyle := [
  ⟨"Blue", "#4472c4", "#d0e2ff"⟩,
  ⟨"Green", "#70ad47", "#e2f0d9"⟩,
  ⟨"Orange", "#ed7d31", "#fce4d6"⟩,
  ⟨"Gray", "#5b9bd5", "#d9e2f3"⟩,
  ⟨"Purple", "#7030a0", "#e3d9f3"⟩,
  ⟨"Red", "#c00000", "#f4cccc"⟩]

/-- The preset of a name in any case. -/
def ofName? (name : String) : Option TableStyle :=
  Text.lookupName? (presets.map fun style => (style.name, style)) name

end TableStyle

/-- A table on a sheet. -/
structure Table where
  id : Nat
  range : Range
  headerColor : String
  bodyColor : String
  /-- Whether every other row is shaded. -/
  zebra : Bool
deriving DecidableEq, Repr

namespace Table

/-- The numbers of tables have to stay below this bound. -/
def idLimit : Nat := UInt64.size

/-- Whether a row is shaded: every second one below the header. -/
def isBanded (table : Table) (row : Nat) : Bool :=
  table.zebra && decide (table.range.topLeft.row < row)
    && decide (row ≤ table.range.bottomRight.row) && (row - table.range.topLeft.row) % 2 == 0

/-- The part of a table on a sheet, if there is one. -/
def clip (table : Table) (extent : Extent) : Option Table :=
  (table.range.clip extent).map fun range => { table with range := range }

end Table

end Spreadsheet
