import Spreadsheet.Number.BinaryFraction
import Spreadsheet.Text.Blank

namespace Spreadsheet

/-- The quotient rounded to the nearest natural number, a half going to the even neighbour. -/
def roundDiv (numerator denominator : Nat) : Nat :=
  let quotient := numerator / denominator
  let twice := 2 * (numerator % denominator)
  if twice < denominator then quotient
  else if denominator < twice then quotient + 1
  else quotient + quotient % 2

namespace Display

/-- Decimal places kept for a number that is not whole. -/
def places : Nat := 10

/-- Whole numbers from here on are written like fractions, which changes nothing but their zero. -/
def wholeLimit : Nat := Nat.pow 10 15

def digits (n : Nat) : List Char := Nat.toDigits 10 n

/-- The last `width` digits of a number, with zeros in front. -/
def paddedDigits : Nat → Nat → List Char
  | 0, _ => []
  | width + 1, n => paddedDigits width (n / 10) ++ [Nat.digitChar (n % 10)]

/-- Writes a sign in front of digits. -/
def signed (negative : Bool) (text : List Char) : List Char :=
  if negative then '-' :: text else text

/-- The magnitude of a number rounded to `places` places, without zeros at the end of the
fraction. -/
def fixedDigits (x : BinaryFraction) : List Char :=
  let scaled := roundDiv (x.numerator * Nat.pow 10 places) x.denominator
  let fraction := Text.dropRightWhile (· == '0') (paddedDigits places (scaled % Nat.pow 10 places))
  digits (scaled / Nat.pow 10 places) ++ (if fraction.isEmpty then [] else '.' :: fraction)

/-- A number rounded to `places` places, with its sign and all of the places. -/
def fixedChars (x : BinaryFraction) : List Char :=
  let scaled := roundDiv (x.numerator * Nat.pow 10 places) x.denominator
  signed x.negative (digits (scaled / Nat.pow 10 places) ++
    '.' :: paddedDigits places (scaled % Nat.pow 10 places))

/-- A text without the zeros at its end and without points that come before them. -/
def trimmed (text : List Char) : List Char :=
  Text.dropRightWhile (· == '.') (Text.dropRightWhile (· == '0') text)

/-- The characters of a finite number. A negative zero keeps its sign, a negative number that rounds
to zero loses it. -/
def finiteChars (x : BinaryFraction) : List Char :=
  if x.isWhole && decide (x.numerator / x.denominator < wholeLimit) then
    signed x.negative (digits (x.numerator / x.denominator))
  else
    let magnitude := fixedDigits x
    signed (x.negative && magnitude != ['0']) magnitude

end Display

/-- The text of a number in a cell. -/
def displayNumber (x : Float) : String :=
  match BinaryFraction.ofFloat? x with
  | some fraction => String.ofList (Display.finiteChars fraction)
  | none => if x.isNaN then "#NAN!" else "#INF!"

end Spreadsheet
