
namespace Spreadsheet

/-- A signed whole number times a power of ten. -/
structure Numeral where
  negative : Bool
  digits : Nat
  scale : Int
deriving DecidableEq, Repr

namespace Numeral

/-- Splits off a sign; a numeral without one is positive. -/
def splitSign : List Char → Bool × List Char
  | '-' :: rest => (true, rest)
  | '+' :: rest => (false, rest)
  | rest => (false, rest)

/-- The number that digits stand for. -/
def ofDigits (digits : List Char) : Nat := Nat.ofDigitChars 10 digits 0

/-- Reads digits with an optional sign in front. -/
def exponent? (cs : List Char) : Option Int :=
  let (negative, digits) := splitSign cs
  if !digits.isEmpty && digits.all Char.isDigit then
    some (if negative then -(ofDigits digits : Int) else ofDigits digits)
  else none

/-- Reads a power of ten, which may be left out. -/
def power? : List Char → Option Int
  | [] => some 0
  | c :: rest => if c == 'e' || c == 'E' then exponent? rest else none

/-- The digits after a point, and what follows them. -/
def splitFraction : List Char → List Char × List Char
  | '.' :: rest => (rest.takeWhile Char.isDigit, rest.dropWhile Char.isDigit)
  | rest => ([], rest)

/-- Reads a numeral that is the whole text. There has to be a digit on one side of the point. -/
def ofChars? (cs : List Char) : Option Numeral :=
  let (negative, body) := splitSign cs
  let whole := body.takeWhile Char.isDigit
  let (fraction, rest) := splitFraction (body.dropWhile Char.isDigit)
  if whole.isEmpty && fraction.isEmpty then none
  else (power? rest).map fun power =>
    ⟨negative, ofDigits (whole ++ fraction), power - fraction.length⟩

def infinity : Float := Float.ofBits 0x7FF0000000000000

/-- The double nearest to the magnitude of a numeral. Numerals beyond every double are settled by
their number of digits alone. -/
def magnitude (n : Numeral) : Float :=
  if n.digits = 0 then 0.0
  else
    let point := ((Nat.toDigits 10 n.digits).length : Int) + n.scale
    if 310 < point then infinity
    else if point < -330 then 0.0
    else Float.ofScientific n.digits (decide (n.scale < 0)) n.scale.natAbs

/-- The double nearest to a numeral. -/
def toFloat (n : Numeral) : Float :=
  if n.negative then -n.magnitude else n.magnitude

end Numeral

def readNumber? (text : String) : Option Float :=
  (Numeral.ofChars? text.toList).map Numeral.toFloat

end Spreadsheet
