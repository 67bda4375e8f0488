
namespace Spreadsheet

/-- A sign, and a natural number times a power of two. -/
structure BinaryFraction where
  negative : Bool
  mantissa : Nat
  exponent : Int
deriving DecidableEq, Repr

namespace BinaryFraction

/-- The smallest exponent of a double. -/
def leastExponent : Int := -1074

/-- The value of a finite double, read off its bits. -/
def ofFloat? (x : Float) : Option BinaryFraction :=
  let bits := x.toBits.toNat
  let negative := decide (bits >>> 63 = 1)
  let fraction := bits % 1 <<< 52
  match bits >>> 52 % 1 <<< 11 with
  | 0 => some ⟨negative, fraction, leastExponent⟩
  | 2047 => none
  | biased => some ⟨negative, 1 <<< 52 + fraction, (biased : Int) - 1 + leastExponent⟩

/-- The numerator of the magnitude over `denominator`. -/
def numerator (x : BinaryFraction) : Nat := x.mantissa <<< x.exponent.toNat

/-- The power of two under the magnitude. -/
def denominator (x : BinaryFraction) : Nat := 1 <<< (-x.exponent).toNat

def isWhole (x : BinaryFraction) : Bool := x.numerator % x.denominator == 0

end BinaryFraction

end Spreadsheet
