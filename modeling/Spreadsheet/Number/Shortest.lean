import Spreadsheet.Number.BinaryFraction
import Spreadsheet.Text.Blank

/-!
Numbers with the fewest digits that read back as the same double. The decimals that do so form an
interval around the double; the answer is the multiple of the largest power of ten in it, and the
nearest one where there are two.
-/

namespace Spreadsheet

/-- A natural number times a power of ten. -/
structure Decimal where
  digits : Nat
  scale : Int
deriving DecidableEq, Repr

namespace Decimal

/-- The decimals nearest to a double, counted in quarters of its last place: from `lower` to
`upper`. The gap below a power of two is half as wide. -/
structure Neighbourhood where
  center : Nat
  lower : Nat
  upper : Nat
  /-- Whether the bounds belong to the neighbourhood, which they do for an even mantissa. -/
  closed : Bool
  /-- The power of two that a quarter of the last place stands for. -/
  exponent : Int

/-- The neighbourhood of the magnitude of a double. -/
def neighbourhood (x : BinaryFraction) : Neighbourhood where
  center := 4 * x.mantissa
  lower := 4 * x.mantissa -
    (if x.mantissa = 1 <<< 52 ∧ BinaryFraction.leastExponent < x.exponent then 1 else 2)
  upper := 4 * x.mantissa + 2
  closed := x.mantissa % 2 == 0
  exponent := x.exponent - 2

/-- Which of two equally near multiples of a power of ten stands for a double. -/
inductive Tie where
  | even
  | greater
deriving DecidableEq, Repr

/-- Whether a tie is for the smaller multiple. -/
def Tie.prefersBelow (tie : Tie) (below : Nat) : Bool :=
  match tie with
  | .even => below % 2 == 0
  | .greater => false

/-- The multiple of a power of ten in a neighbourhood that is nearest to its center, if there is
one. -/
def multiple? (tie : Tie) (n : Neighbourhood) (scale : Int) : Option Decimal :=
  let unit := Nat.pow 10 (-scale).toNat <<< n.exponent.toNat
  let step := Nat.pow 10 scale.toNat <<< (-n.exponent).toNat
  let inside (digits : Nat) : Bool :=
    decide (0 < digits) &&
      if n.closed then
        decide (n.lower * unit ≤ digits * step) && decide (digits * step ≤ n.upper * unit)
      else
        decide (n.lower * unit < digits * step) && decide (digits * step < n.upper * unit)
  let below := n.center * unit / step
  let above := below + 1
  let gapBelow := n.center * unit - below * step
  let gapAbove := above * step - n.center * unit
  let nearer :=
    if gapBelow < gapAbove || (gapBelow == gapAbove && tie.prefersBelow below) then below
    else above
  match inside below, inside above with
  | true, true => some ⟨nearer, scale⟩
  | true, false => some ⟨below, scale⟩
  | false, true => some ⟨above, scale⟩
  | false, false => none

/-- A power of ten above the magnitude of a double. -/
def scaleAbove (x : BinaryFraction) : Int :=
  ((Nat.log2 x.mantissa : Int) + 1 + x.exponent) * 30103 / 100000 + 1

/-- The decimal with the fewest digits that reads back as the magnitude of a double. Seventeen
digits always do, so the search looks at the powers of ten that give up to twenty. -/
def shortest (tie : Tie) (x : BinaryFraction) : Decimal :=
  let start := scaleAbove x
  ((List.range 24).findSome? fun (i : Nat) => multiple? tie (neighbourhood x) (start - i)).getD
    ⟨0, 0⟩

/-- How doubles are written. The point positions from above `lowest` up to `highest` need no power
of ten; the position counts the digits in front of the point. -/
structure Layout where
  lowest : Int
  highest : Int
  /-- What is written in front of a power of ten that is not negative. -/
  sign : List Char
  tie : Tie

/-- Writes the exponent of a power of ten. -/
def renderExponent (layout : Layout) (exponent : Int) : List Char :=
  (if exponent < 0 then [] else layout.sign) ++ (toString exponent).toList

/-- Writes a decimal. Without a power of ten there is at least one digit on both sides of the
point. -/
def render (layout : Layout) (d : Decimal) : String :=
  let digits := Nat.toDigits 10 d.digits
  let point : Int := digits.length + d.scale
  String.ofList <|
    if layout.lowest < point ∧ point ≤ layout.highest then
      if point ≤ 0 then '0' :: '.' :: (List.replicate (-point).toNat '0' ++ digits)
      else if 0 ≤ d.scale then digits ++ List.replicate d.scale.toNat '0' ++ ['.', '0']
      else digits.take point.toNat ++ '.' :: digits.drop point.toNat
    else
      let fraction := digits.drop 1
      digits.take 1 ++ (if fraction.isEmpty then [] else '.' :: fraction) ++
        'e' :: renderExponent layout (point - 1)

/-- Writes a finite double, a zero with its sign. -/
def renderFinite (layout : Layout) (x : BinaryFraction) : String :=
  (if x.negative then "-" else "") ++
    if x.mantissa = 0 then "0.0" else render layout (shortest layout.tie x)

end Decimal

end Spreadsheet
