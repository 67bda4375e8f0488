import Spreadsheet.Number.Numeral
import Spreadsheet.Position
import Spreadsheet.Style
import Spreadsheet.Value

/-!
Cells. What the user enters is kept as it is and classified once: as a formula behind an equals
sign, as a number where all of it reads as one, and as a text otherwise.
-/

namespace Spreadsheet

/-- What was entered into a cell. -/
inductive Content where
  /-- Nothing; the cell only carries a style. -/
  | empty
  | number (value : Float)
  | text (value : String)
  /-- A formula, without the equals sign in front of it. -/
  | formula (body : String)
deriving DecidableEq

/-- A cell of a sheet. -/
structure Cell where
  /-- Exactly what the user entered. -/
  input : String
  content : Content
  /-- The value. That of a formula holds from a recalculation to the next change. -/
  value : Value
  style : Option Style
deriving DecidableEq

namespace Content

/-- Whether a character can stand in a number that is entered. -/
def isNumberChar (c : Char) : Bool :=
  c.isDigit || c == '+' || c == '-' || c == '.' || c == 'e' || c == 'E'

/-- Reads all characters but the white space around them as a number below all bounds. -/
def number? (cs : List Char) : Option Float :=
  let trimmed := Text.trimChars cs
  if trimmed.all isNumberChar then
    ((Numeral.ofChars? trimmed).map Numeral.toFloat).filter Float.isFinite
  else none

/-- The content that a text without line ends at its end stands for. -/
def ofChars : List Char → Content
  | [] => .empty
  | '=' :: body => .formula (String.ofList body)
  | cs =>
    match number? cs with
    | some n => .number n
    | none => .text (String.ofList cs)

/-- The value before any recalculation. -/
def initialValue : Content → Value
  | .number n => .number n
  | .text s => .text s
  | .empty => .empty
  | .formula _ => .empty

end Content

namespace Cell

/-- The cell that an input makes, with a style. Line ends at the end of the input do not count, and
an input without anything else makes none. -/
def ofInput? (input : String) (style : Option Style := none) : Option Cell :=
  match Content.ofChars (Text.dropRightWhile Text.isLineEnd input.toList) with
  | .empty => none
  | content => some ⟨input, content, content.initialValue, style⟩

/-- A cell that holds nothing and carries a style. -/
def ofStyle (style : Style) : Cell := ⟨"", .empty, .empty, some style⟩

/-- The formula in a cell, if it holds one. -/
def formula? (cell : Cell) : Option String :=
  match cell.content with
  | .formula body => some body
  | _ => none

def isFormula (cell : Cell) : Bool := cell.formula?.isSome

/-- The text that a cell shows: the value of a formula, and otherwise what was entered. -/
def display (cell : Cell) : String :=
  match cell.content with
  | .empty => ""
  | .formula _ => cell.value.display
  | _ => Text.dropLineEnds cell.input

end Cell

/-- The cells of a sheet by their positions. Positions without a cell are empty. -/
abbrev Grid := Std.ExtTreeMap Position Cell

end Spreadsheet
