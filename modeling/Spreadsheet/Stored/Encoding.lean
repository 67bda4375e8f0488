import Spreadsheet.Json.Record
import Spreadsheet.Stored

namespace Spreadsheet

namespace Align

def toJson (align : Align) : Json := .ofString align.name

/-- Reads an alignment: its name, or an object whose one member has the name and no value. -/
def ofJson? : Json → Option Align
  | .string source => (Json.textKey? source).bind ofName?
  | .object [(source, .null)] => (Json.textKey? source).bind ofName?
  | _ => none

end Align

namespace Border

def toJson (border : Border) : Json :=
  .ofMembers [("top", .bool border.top), ("right", .bool border.right),
    ("bottom", .bool border.bottom), ("left", .bool border.left)]

/-- Reads a border. Sides that are left out carry no line. -/
def ofJson? (json : Json) : Option Border := do
  let fields ← json.toRecord? ["top", "right", "bottom", "left"]
  return {
    top := ← Json.fieldOr? fields "top" Json.toBool? false
    right := ← Json.fieldOr? fields "right" Json.toBool? false
    bottom := ← Json.fieldOr? fields "bottom" Json.toBool? false
    left := ← Json.fieldOr? fields "left" Json.toBool? false }

end Border

namespace Style

def toJson (style : Style) : Json :=
  .ofMembers [("bold", .bool style.bold), ("italic", .bool style.italic),
    ("underline", .bool style.underline), ("align", style.align.toJson),
    ("wrap", .bool style.wrap), ("fill", Json.ofOption Json.ofString style.fill),
    ("border", Json.ofOption Border.toJson style.border)]

/-- Reads a style. What is left out is as in a plain style. -/
def ofJson? (json : Json) : Option Style := do
  let fields ← json.toRecord?
    ["bold", "italic", "underline", "align", "wrap", "fill", "border"]
  return {
    bold := ← Json.fieldOr? fields "bold" Json.toBool? false
    italic := ← Json.fieldOr? fields "italic" Json.toBool? false
    underline := ← Json.fieldOr? fields "underline" Json.toBool? false
    align := ← Json.fieldOr? fields "align" Align.ofJson? .left
    wrap := ← Json.fieldOr? fields "wrap" Json.toBool? false
    fill := ← Json.fieldOr? fields "fill" (Json.toOption? Json.toText?) none
    border := ← Json.fieldOr? fields "border" (Json.toOption? Border.ofJson?) none }

end Style

namespace StoredCell

/-- A cell as JSON. A missing style is left out. -/
def toJson (cell : StoredCell) : Json :=
  .ofMembers <| ("rawInput", Json.ofString cell.input) ::
    (cell.style.map fun style => ("style", style.toJson)).toList

def ofJson? (json : Json) : Option StoredCell := do
  let fields ← json.toRecord? ["rawInput", "style"]
  return {
    input := ← Json.fieldOr? fields "rawInput" Json.toText? ""
    style := ← Json.fieldOr? fields "style" (Json.toOption? Style.ofJson?) none }

end StoredCell

namespace StoredTable

/-- A table as JSON. -/
def toJson (table : StoredTable) : Json :=
  .ofMembers [("id", .ofNat table.id), ("range", .ofString table.range),
    ("headerColor", .ofString table.headerColor), ("bodyColor", .ofString table.bodyColor),
    ("zebra", .bool table.zebra)]

def ofJson? (json : Json) : Option StoredTable := do
  let fields ← json.toRecord? ["id", "range", "headerColor", "bodyColor", "zebra"]
  return {
    id := ← Json.field? fields "id" Json.toNat?
    range := ← Json.field? fields "range" Json.toText?
    headerColor := ← Json.field? fields "headerColor" Json.toText?
    bodyColor := ← Json.field? fields "bodyColor" Json.toText?
    zebra := ← Json.fieldOr? fields "zebra" Json.toBool? false }

end StoredTable

namespace StoredSheet

/-- A member, unless it holds nothing. -/
def unlessEmpty (isEmpty : Bool) (name : String) (value : Json) : List (String × Json) :=
  if isEmpty then [] else [(name, value)]

def toJson (sheet : StoredSheet) : Json :=
  .ofMembers <|
    [("name", Json.ofString sheet.name), ("columnCount", Json.ofNat sheet.columns),
      ("rowCount", Json.ofNat sheet.rows),
      ("cells", Json.ofMap id StoredCell.toJson sheet.cells)]
    ++ unlessEmpty sheet.columnWidths.isEmpty "columnWidths"
      (Json.ofMap toString Json.ofFloat sheet.columnWidths)
    ++ unlessEmpty sheet.rowHeights.isEmpty "rowHeights"
      (Json.ofMap toString Json.ofFloat sheet.rowHeights)
    ++ unlessEmpty sheet.columnFilters.isEmpty "columnFilters"
      (Json.ofMap toString (fun texts => Json.ofList Json.ofString texts.toList)
        sheet.columnFilters)
    ++ unlessEmpty sheet.tables.isEmpty "tables" (Json.ofList StoredTable.toJson sheet.tables)

/-- Reads a set of texts. -/
def textsOfJson? (json : Json) : Option (Std.ExtTreeSet String) :=
  (json.toList? Json.toText?).map fun texts => Std.ExtTreeSet.ofList texts

def ofJson? (json : Json) : Option StoredSheet := do
  let fields ← json.toRecord? ["name", "columnCount", "rowCount", "cells", "columnWidths",
    "rowHeights", "columnFilters", "tables"]
  return {
    name := ← Json.field? fields "name" Json.toText?
    columns := ← Json.field? fields "columnCount" Json.toNat?
    rows := ← Json.field? fields "rowCount" Json.toNat?
    cells := ← Json.fieldOr? fields "cells" (Json.toMap? Json.textKey? StoredCell.ofJson?) ∅
    columnWidths := ← Json.fieldOr? fields "columnWidths"
      (Json.toMap? Json.natKey? Json.toFloat?) ∅
    rowHeights := ← Json.fieldOr? fields "rowHeights" (Json.toMap? Json.natKey? Json.toFloat?) ∅
    columnFilters := ← Json.fieldOr? fields "columnFilters"
      (Json.toMap? Json.natKey? textsOfJson?) ∅
    tables := ← Json.fieldOr? fields "tables" (Json.toList? StoredTable.ofJson?) [] }

end StoredSheet

namespace StoredWorkbook

def toJson (workbook : StoredWorkbook) : Json :=
  .ofMembers [("name", .ofString workbook.name),
    ("sheets", Json.ofList StoredSheet.toJson workbook.sheets),
    ("activeSheetIndex", .ofNat workbook.active)]

def ofJson? (json : Json) : Option StoredWorkbook := do
  let fields ← json.toRecord? ["name", "sheets", "activeSheetIndex"]
  return {
    name := ← Json.fieldOr? fields "name" Json.toText? Workbook.standardName
    sheets := ← Json.field? fields "sheets" (Json.toList? StoredSheet.ofJson?)
    active := ← Json.fieldOr? fields "activeSheetIndex" Json.toNat? 0 }

end StoredWorkbook

namespace Workbook

/-- The text in which a workbook is stored. -/
def toText (workbook : Workbook) : String := (StoredWorkbook.ofWorkbook workbook).toJson.text

/-- The workbook that is stored in a text, and what happened when it was recalculated. -/
def ofText (settings : Settings) (text : String) : Except Failure (Workbook × List Notice) :=
  match (Json.ofText? text).bind StoredWorkbook.ofJson? with
  | none => .error .json
  | some stored =>
    match stored.toWorkbook settings with
    | .ok workbook => .ok workbook.recalculation
    | .error fault => .error (.invalidWorkbook fault)

end Workbook

end Spreadsheet
