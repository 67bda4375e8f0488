import Spreadsheet.Settings
import Spreadsheet.Toml

namespace Spreadsheet

namespace Toml

def toNat? : Toml → Option Nat
  | .scalar (.integer n) => if 0 ≤ n then some n.toNat else none
  | _ => none

def toFloat? : Toml → Option Float
  | .scalar (.integer n) => some (Float.ofInt n)
  | .scalar (.float x) => some x
  | _ => none

def toText? : Toml → Option String
  | .text value => some value
  | _ => none

/-- A named value that stands for a given one where it is left out. -/
def Entries.valueOr? {α : Type} (entries : Entries) (name : String) (read : Toml → Option α)
    (value : α) : Option α :=
  match entries.lookup name with
  | some toml => read toml
  | none => some value

end Toml

namespace Settings

def ofEntries? (entries : Toml.Entries) : Option Settings := do
  return {
    historyCapacity := ← entries.valueOr? "history_capacity" Toml.toNat? standard.historyCapacity
    defaultColumns := ← entries.valueOr? "default_columns" Toml.toNat? standard.defaultColumns
    defaultRows := ← entries.valueOr? "default_rows" Toml.toNat? standard.defaultRows
    maxColumns := ← entries.valueOr? "max_columns" Toml.toNat? standard.maxColumns
    maxRows := ← entries.valueOr? "max_rows" Toml.toNat? standard.maxRows
    minColumnWidth := ←
      entries.valueOr? "min_column_width" Toml.toFloat? standard.minColumnWidth
    minRowHeight := ← entries.valueOr? "min_row_height" Toml.toFloat? standard.minRowHeight
    maxDimensionSize := ←
      entries.valueOr? "max_dimension_size" Toml.toFloat? standard.maxDimensionSize
    logLevel := ← entries.valueOr? "log_level" Toml.toText? standard.logLevel }

def ofText? (text : String) : Option Settings := (Toml.ofText? text).bind ofEntries?

end Settings

end Spreadsheet
