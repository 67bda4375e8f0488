import Spreadsheet.Position

/-!
The names of positions: letters for the column, then the number of the row counted from one.
Columns count `A` to `Z`, `AA`, `AB` and so on, so letters are digits of a base of 26 without a
zero.
-/

namespace Spreadsheet

/-- Column letters and row numbers have to stay below this bound. -/
def coordinateLimit : Nat := UInt64.size

namespace Position

/-- The capital letter with the given place in the alphabet, counted from zero. -/
def letter (place : Nat) : Char :=
  Char.ofNat ('A'.toNat + place)

/-- The letters of a column counted from zero. -/
def columnLetters (col : Nat) : List Char :=
  if col < 26 then [letter col]
  else columnLetters (col / 26 - 1) ++ [letter (col % 26)]
termination_by col
decreasing_by omega

/-- The number of a column counted from one, read off its letters. -/
def columnNumber (letters : List Char) : Nat :=
  letters.foldl (fun number c => 26 * number + (c.toNat - 'A'.toNat + 1)) 0

/-- The name of a position, such as `B3`. -/
def name (p : Position) : String :=
  String.ofList (columnLetters p.col ++ Nat.toDigits 10 (p.row + 1))

/-- Reads a name: capital letters and then digits, neither of them missing, with both numbers
within the limit and the row not zero. -/
def ofName? (name : String) : Option Position :=
  let letters := name.toList.takeWhile Char.isUpper
  let digits := name.toList.dropWhile Char.isUpper
  let col := columnNumber letters
  let row := Nat.ofDigitChars 10 digits 0
  if !letters.isEmpty && !digits.isEmpty && digits.all Char.isDigit
      && decide (col < coordinateLimit) && decide (0 < row) && decide (row < coordinateLimit) then
    some ⟨row - 1, col - 1⟩
  else none

/-- The text for a name that is none of a position. -/
def invalidNameMessage (name : String) : String := "Invalid cell reference: " ++ name

end Position

end Spreadsheet
