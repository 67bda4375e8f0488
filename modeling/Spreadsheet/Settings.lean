
namespace Spreadsheet

/-- The settings of a document. -/
structure Settings where
  /-- The number of actions that can be undone. -/
  historyCapacity : Nat
  /-- The size of new sheets. -/
  defaultColumns : Nat
  defaultRows : Nat
  /-- The largest size of a sheet. -/
  maxColumns : Nat
  maxRows : Nat
  /-- The bounds of widths and heights, in pixels. -/
  minColumnWidth : Float
  minRowHeight : Float
  maxDimensionSize : Float
  /-- The name of the least weighty level of notices that is shown. -/
  logLevel : String

namespace Settings

/-- The settings where nothing else is said. -/
def standard : Settings where
  historyCapacity := 500
  defaultColumns := 10
  defaultRows := 40
  maxColumns := 26
  maxRows := 1000
  minColumnWidth := 36.0
  minRowHeight := 18.0
  maxDimensionSize := 2000.0
  logLevel := "warn"

/-- Whether a sheet may have this size. -/
def allows (settings : Settings) (columns rows : Nat) : Bool :=
  decide (1 ≤ columns) && decide (columns ≤ settings.maxColumns)
    && decide (1 ≤ rows) && decide (rows ≤ settings.maxRows)

/-- The number between two bounds that is nearest to a number. What is not a number stays. -/
def clamp (low high x : Float) : Float :=
  let raised := if x < low then low else x
  if high < raised then high else raised

/-- A column width within the bounds. -/
def clampColumnWidth (settings : Settings) (width : Float) : Float :=
  clamp settings.minColumnWidth settings.maxDimensionSize width

/-- A row height within the bounds. -/
def clampRowHeight (settings : Settings) (height : Float) : Float :=
  clamp settings.minRowHeight settings.maxDimensionSize height

end Settings

end Spreadsheet
