import Spreadsheet.Number.Numeral
import Spreadsheet.Text.Hex

namespace Spreadsheet.Toml

/-- A value that is a single word. -/
inductive Scalar where
  | bool (value : Bool)
  | integer (value : Int)
  | float (value : Float)
  /-- A date, a time or both. -/
  | moment

namespace Scalar

/-- Digits without the underscores between them. -/
def ungroup? (isDigit : Char → Bool) : List Char → Option (List Char)
  | [] => none
  | [d] => if isDigit d then some [d] else none
  | d :: '_' :: rest => if isDigit d then (ungroup? isDigit rest).map (d :: ·) else none
  | d :: rest => if isDigit d then (ungroup? isDigit rest).map (d :: ·) else none

/-- Digits without a zero in front of others. -/
def whole? (cs : List Char) : Option (List Char) :=
  (ungroup? Char.isDigit cs).filter fun digits => digits.length == 1 || digits.head? != some '0'

/-- Whole numbers lie between the bounds of 64 bits with a sign. -/
def inRange (n : Int) : Bool :=
  decide (Int64.minValue.toInt ≤ n) && decide (n ≤ Int64.maxValue.toInt)

/-- Reads digits of a base other than ten. -/
def based? (base : Nat) (digits : List Char) : Option Int :=
  let isDigit (c : Char) : Bool := ((Text.hexValue? c).filter (decide <| · < base)).isSome
  (ungroup? isDigit digits).map fun digits => (Text.ofDigitsInBase base digits : Int)

/-- Reads a whole number. -/
def integer? (word : List Char) : Option Int :=
  let value := match word with
    | '0' :: 'x' :: digits => based? 16 digits
    | '0' :: 'o' :: digits => based? 8 digits
    | '0' :: 'b' :: digits => based? 2 digits
    | word =>
      let (negative, digits) := Numeral.splitSign word
      (whole? digits).map fun digits =>
        if negative then -(Numeral.ofDigits digits : Int) else Numeral.ofDigits digits
  value.filter inRange

/-- Whether a character belongs to grouped digits. -/
def isGrouped (c : Char) : Bool := c.isDigit || c == '_'

/-- Reads a power of ten. -/
def power? : List Char → Option Int
  | c :: rest =>
    if c == 'e' || c == 'E' then
      let (negative, digits) := Numeral.splitSign rest
      (ungroup? Char.isDigit digits).map fun digits =>
        if negative then -(Numeral.ofDigits digits : Int) else Numeral.ofDigits digits
    else none
  | [] => none

/-- Reads digits with a fraction, a power of ten, or both. -/
def numeral? (negative : Bool) (body : List Char) : Option Numeral := do
  let digits ← whole? (body.takeWhile isGrouped)
  match body.dropWhile isGrouped with
  | '.' :: rest =>
    let fraction ← ungroup? Char.isDigit (rest.takeWhile isGrouped)
    let rest := rest.dropWhile isGrouped
    let power ← if rest.isEmpty then some 0 else power? rest
    return ⟨negative, Numeral.ofDigits (digits ++ fraction), power - fraction.length⟩
  | rest => return ⟨negative, Numeral.ofDigits digits, ← power? rest⟩

/-- Reads a number with a fraction or a power of ten, or one of the words for what lies beyond all
numbers. A numeral that is too large is refused unless it is negative. -/
def float? (word : List Char) : Option Float :=
  let (negative, body) := Numeral.splitSign word
  if body = ['i', 'n', 'f'] then some (if negative then -Numeral.infinity else Numeral.infinity)
  else if body = ['n', 'a', 'n'] then some (0.0 / 0.0)
  else ((numeral? negative body).map Numeral.toFloat).filter (· != Numeral.infinity)

/-- The number of two digits. -/
def twoDigits? (a b : Char) : Option Nat :=
  if a.isDigit && b.isDigit then some (Numeral.ofDigits [a, b]) else none

/-- The number of days of a month. -/
def daysOfMonth (year month : Nat) : Nat :=
  if month = 2 then
    if year % 4 = 0 ∧ (year % 100 ≠ 0 ∨ year % 400 = 0) then 29 else 28
  else if month = 4 ∨ month = 6 ∨ month = 9 ∨ month = 11 then 30
  else 31

/-- What follows a date at the start. -/
def afterDate? : List Char → Option (List Char)
  | a :: b :: c :: d :: '-' :: e :: f :: '-' :: g :: h :: rest => do
    let century ← twoDigits? a b
    let year ← twoDigits? c d
    let month ← twoDigits? e f
    let day ← twoDigits? g h
    if 1 ≤ month ∧ month ≤ 12 ∧ 1 ≤ day ∧ day ≤ daysOfMonth (100 * century + year) month then
      some rest
    else none
  | _ => none

/-- What follows hours and minutes at the start. -/
def afterMinutes? : List Char → Option (List Char)
  | a :: b :: ':' :: c :: d :: rest => do
    let hour ← twoDigits? a b
    let minute ← twoDigits? c d
    if hour ≤ 23 ∧ minute ≤ 59 then some rest else none
  | _ => none

/-- What follows a time at the start. -/
def afterTime? (cs : List Char) : Option (List Char) := do
  match ← afterMinutes? cs with
  | ':' :: a :: b :: rest =>
    let second ← twoDigits? a b
    if second ≤ 60 then
      match rest with
      | '.' :: d :: rest => if d.isDigit then some (rest.dropWhile Char.isDigit) else none
      | rest => some rest
    else none
  | _ => none

/-- Whether the distance from universal time, if any, is well formed. -/
def isOffset : List Char → Bool
  | [] => true
  | ['Z'] => true
  | ['z'] => true
  | '+' :: rest => afterMinutes? rest == some []
  | '-' :: rest => afterMinutes? rest == some []
  | _ => false

/-- Whether a word is a time with or without a distance from universal time. -/
def isOffsetTime (word : List Char) : Bool := (afterTime? word).any isOffset

def isDate (word : List Char) : Bool := afterDate? word == some []

/-- Whether a word is a date, a time, or a date and a time. -/
def isMoment (word : List Char) : Bool :=
  afterTime? word == some [] ||
    match afterDate? word with
    | some [] => true
    | some ('T' :: rest) => isOffsetTime rest
    | some ('t' :: rest) => isOffsetTime rest
    | _ => false

/-- Whether a character can stand in a word. -/
def isWordChar (c : Char) : Bool :=
  c.isAlphanum || c == '_' || c == '+' || c == '-' || c == '.' || c == ':'

def ofWord? (word : List Char) : Option Scalar :=
  if word = ['t', 'r', 'u', 'e'] then some (.bool true)
  else if word = ['f', 'a', 'l', 's', 'e'] then some (.bool false)
  else if isMoment word then some .moment
  else ((float? word).map .float).or ((integer? word).map .integer)

/-- Reads the word at the start, and gives back what follows it. A single space may stand between a
date and a time. -/
def read? (cs : List Char) : Option (Scalar × List Char) :=
  let word := cs.takeWhile isWordChar
  let rest := cs.dropWhile isWordChar
  match isDate word, rest with
  | true, ' ' :: d :: after =>
    if d.isDigit then
      if isOffsetTime ((d :: after).takeWhile isWordChar) then
        some (.moment, (d :: after).dropWhile isWordChar)
      else none
    else some (.moment, rest)
  | _, _ => (ofWord? word).map fun scalar => (scalar, rest)

end Scalar

end Spreadsheet.Toml
