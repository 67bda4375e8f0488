import Spreadsheet.Number.Numeral

namespace Spreadsheet.Json

/-- A number as it is written. -/
structure Number where
  negative : Bool
  whole : List Char
  /-- The digits behind the point. -/
  fraction : List Char
  power : Int
  /-- Whether there is neither a point nor a power of ten. -/
  isInteger : Bool

namespace Number

/-- The sign of a number, and what follows it. -/
def splitMinus : List Char → Bool × List Char
  | '-' :: rest => (true, rest)
  | rest => (false, rest)

/-- Whether the digits in front of the point are well formed. -/
def isWhole : List Char → Bool
  | [] => false
  | ['0'] => true
  | d :: _ => d != '0'

/-- Reads a number that is the whole text. -/
def ofChars? (cs : List Char) : Option Number :=
  let (negative, body) := splitMinus cs
  let whole := body.takeWhile Char.isDigit
  let behind := body.dropWhile Char.isDigit
  let (fraction, rest) := Numeral.splitFraction behind
  if isWhole whole && (behind.head? != some '.' || !fraction.isEmpty) then
    (Numeral.power? rest).map fun power => ⟨negative, whole, fraction, power, behind.isEmpty⟩
  else none

/-- Significands and natural numbers stay below this bound. -/
def limit : Nat := UInt64.size

/-- The natural number that a number is, if it is one and below the limit. -/
def toNat? (n : Number) : Option Nat :=
  let value := Numeral.ofDigits n.whole
  if n.isInteger && !n.negative && decide (value < limit) then some value else none

/-- Takes digits into a significand as long as it stays below the limit, and gives back the digits
that are left. -/
def absorb (significand : Nat) : List Char → Nat × List Char
  | [] => (significand, [])
  | d :: rest =>
    let next := 10 * significand + (d.toNat - '0'.toNat)
    if next < limit then absorb next rest else (significand, d :: rest)

/-- The largest power of ten that is a double. -/
def maxPower : Nat := 308

def powerOfTen (n : Nat) : Float := Float.ofScientific 1 false n

/-- Multiplies a double by a power of ten, unless the product is beyond all doubles. -/
def scale? (x : Float) (power : Int) : Option Float :=
  if power.natAbs ≤ maxPower then
    if 0 ≤ power then
      let product := x * powerOfTen power.natAbs
      if product.isInf then none else some product
    else some (x / powerOfTen power.natAbs)
  else if x == 0.0 then some x
  else if 0 ≤ power then none
  else scale? (x / powerOfTen maxPower) (power + maxPower)
termination_by power.natAbs
decreasing_by
  simp only [maxPower] at *
  omega

/-- The double that a number stands for, if it is not beyond all doubles. Digits of the whole part
that do not fit into the significand count as zeros, those of the fraction not at all. -/
def toFloat? (n : Number) : Option Float :=
  let (high, skipped) := absorb 0 n.whole
  let (significand, dropped) := absorb high n.fraction
  let taken := n.fraction.length - dropped.length
  (scale? (Float.ofNat significand) (skipped.length - taken + n.power)).map fun x =>
    if n.negative then -x else x

end Number

end Spreadsheet.Json
