
namespace Spreadsheet.Text

/-- Whether a character is white space. -/
def isBlank (c : Char) : Bool :=
  let code := c.toNat
  (decide (0x09 ≤ code) && decide (code ≤ 0x0D)) || code == 0x20 || code == 0x85 || code == 0xA0
    || code == 0x1680 || (decide (0x2000 ≤ code) && decide (code ≤ 0x200A)) || code == 0x2028
    || code == 0x2029 || code == 0x202F || code == 0x205F || code == 0x3000

def isLineEnd (c : Char) : Bool := c == '\n' || c == '\r'

/-- A list without its last elements that satisfy `p`. -/
def dropRightWhile {α : Type} (p : α → Bool) (xs : List α) : List α :=
  (xs.reverse.dropWhile p).reverse

/-- The characters of a text between the white space around it. -/
def trimChars (cs : List Char) : List Char :=
  dropRightWhile isBlank (cs.dropWhile isBlank)

/-- A text without the white space around it. -/
def trim (text : String) : String :=
  String.ofList (trimChars text.toList)

/-- A text without the line ends at its end. -/
def dropLineEnds (text : String) : String :=
  String.ofList (dropRightWhile isLineEnd text.toList)

end Spreadsheet.Text
