import Spreadsheet.Formula.Reference
import Spreadsheet.Number.Numeral
import Spreadsheet.Number.Shortest
import Spreadsheet.Text.Blank

/-!
The tokens of a formula, and the text of a formula as a list of tokens. White space separates
tokens and is otherwise without meaning. What a word stands for depends on the sheet, and for a word
of letters also on whether a parenthesis follows.
-/

namespace Spreadsheet

/-- A word or sign of a formula. -/
inductive Token where
  | number (value : Float)
  | cell (position : Position)
  | range (range : Range)
  | literal (text : String)
  /-- The name of a function, in upper case. -/
  | name (text : String)
  | plus
  | minus
  | star
  | slash
  | caret
  | leftParen
  | rightParen
  | comma
deriving DecidableEq

/-- Why a text is not a formula. -/
inductive FormulaError where
  | empty
  | unexpectedCharacter (c : Char)
  | invalidNumber (text : String)
  | unexpectedToken (token : Token)
  | unexpectedEnd
  | tooDeep
  | tooLong
deriving DecidableEq

/-- The deepest nesting of signs, parentheses, exponents and arguments in a formula. -/
def nestingLimit : Nat := 100

/-- The largest number of tokens in a formula. -/
def tokenLimit : Nat := 2048

namespace Token

/-- Numbers in messages are written without a power of ten from `0.0001` up to sixteen digits before
the point. A tie goes to the greater digit. -/
def numberLayout : Decimal.Layout := ⟨-4, 16, [], .greater⟩

def describeNumber (x : Float) : String :=
  match BinaryFraction.ofFloat? x with
  | some fraction => Decimal.renderFinite numberLayout fraction
  | none => if x.isNaN then "NaN" else if x < 0.0 then "-inf" else "inf"

def describePosition (p : Position) : String :=
  "CellRef \x7b row: " ++ toString p.row ++ ", col: " ++ toString p.col ++ " \x7d"

/-- A text as messages show it. Words of formulas hold no character that would need an escape. -/
def describeText (text : String) : String := "\"" ++ text ++ "\""

def describe : Token → String
  | .number x => "Number(" ++ describeNumber x ++ ")"
  | .cell p => "Ref(" ++ describePosition p ++ ")"
  | .range r => "Range(CellRange \x7b start: " ++ describePosition r.topLeft ++ ", end: "
      ++ describePosition r.bottomRight ++ " \x7d)"
  | .literal text => "Literal(" ++ describeText text ++ ")"
  | .name text => "Name(" ++ describeText text ++ ")"
  | .plus => "Plus"
  | .minus => "Minus"
  | .star => "Star"
  | .slash => "Slash"
  | .caret => "Caret"
  | .leftParen => "LParen"
  | .rightParen => "RParen"
  | .comma => "Comma"

/-- The token that a sign stands for. -/
def sign? : Char → Option Token
  | '+' => some .plus
  | '-' => some .minus
  | '*' => some .star
  | '/' => some .slash
  | '^' => some .caret
  | '(' => some .leftParen
  | ')' => some .rightParen
  | ',' => some .comma
  | _ => none

/-- Whether a character can stand in a numeral before its power of ten. -/
def isNumeralChar (c : Char) : Bool := c.isDigit || c == '.'

/-- The sign in front of the digits of a power of ten, and what follows it. -/
def splitPowerSign : List Char → List Char × List Char
  | '+' :: rest => (['+'], rest)
  | '-' :: rest => (['-'], rest)
  | rest => ([], rest)

/-- Splits off a power of ten. A letter `e` without digits behind it is not one. -/
def splitPower : List Char → List Char × List Char
  | c :: rest =>
    let sign := splitPowerSign rest
    let digits := sign.2.takeWhile Char.isDigit
    if (c == 'e' || c == 'E') && !digits.isEmpty then
      (c :: (sign.1 ++ digits), sign.2.dropWhile Char.isDigit)
    else ([], c :: rest)
  | [] => ([], [])

/-- Splits off the characters of a numeral. -/
def splitNumeral (cs : List Char) : List Char × List Char :=
  let power := splitPower (cs.dropWhile isNumeralChar)
  (cs.takeWhile isNumeralChar ++ power.1, power.2)

/-- Splits off a second word that a colon joins to the first one, colon included. -/
def splitJoined : List Char → List Char × List Char
  | ':' :: c :: rest =>
    if c.isAlpha then
      (':' :: (c :: rest).takeWhile Char.isAlphanum, (c :: rest).dropWhile Char.isAlphanum)
    else ([], ':' :: c :: rest)
  | rest => ([], rest)

/-- Splits off a word of letters and digits, or two of them joined by a colon. -/
def splitWord (cs : List Char) : List Char × List Char :=
  let joined := splitJoined (cs.dropWhile Char.isAlphanum)
  (cs.takeWhile Char.isAlphanum ++ joined.1, joined.2)

/-- The token of a word in front of the given characters. -/
def ofWord (extent : Extent) (word rest : List Char) : Token :=
  match Reference.ofText? extent (String.ofList word) with
  | some (.cell p) => .cell p
  | some (.range r) => .range r
  | none =>
    if (rest.dropWhile Text.isBlank).head? = some '(' ∧ word.all Char.isAlpha = true then
      .name (String.ofList (word.map Char.toUpper))
    else .literal (String.ofList word)

/-- The token at the start of a text that does not start with white space, and what follows it. -/
def next (extent : Extent) (c : Char) (rest : List Char) :
    Except FormulaError (Token × List Char) :=
  match sign? c with
  | some token => .ok (token, rest)
  | none =>
    if isNumeralChar c then
      let numeral := splitNumeral (c :: rest)
      match Numeral.ofChars? numeral.1 with
      | some n => .ok (.number n.toFloat, numeral.2)
      | none => .error (.invalidNumber (String.ofList numeral.1))
    else if c.isAlpha then
      let word := splitWord (c :: rest)
      .ok (ofWord extent word.1 word.2, word.2)
    else .error (.unexpectedCharacter c)

theorem length_splitPower (cs : List Char) : (splitPower cs).2.length ≤ cs.length := by
  unfold splitPower
  split
  · rename_i c rest
    have hsign : (splitPowerSign rest).2.length ≤ rest.length := by
      unfold splitPowerSign
      split <;> simp
    have hdrop := (List.dropWhile_sublist Char.isDigit (l := (splitPowerSign rest).2)).length_le
    dsimp only
    split
    · simp only [List.length_cons]
      omega
    · simp
  · simp

theorem length_splitJoined (cs : List Char) : (splitJoined cs).2.length ≤ cs.length := by
  unfold splitJoined
  split
  · rename_i c rest
    have hdrop := (List.dropWhile_sublist Char.isAlphanum (l := c :: rest)).length_le
    split
    · simp only [List.length_cons] at hdrop ⊢
      omega
    · simp
  · simp

theorem length_dropWhile_cons {p : Char → Bool} {c : Char} {rest : List Char} (h : p c = true) :
    ((c :: rest).dropWhile p).length < (c :: rest).length := by
  rw [List.dropWhile_cons_of_pos h]
  have := (List.dropWhile_sublist p (l := rest)).length_le
  simp only [List.length_cons]
  omega

theorem length_of_next {extent : Extent} {c : Char} {rest after : List Char} {token : Token}
    (h : next extent c rest = .ok (token, after)) : after.length < (c :: rest).length := by
  unfold next at h
  split at h
  · simp only [Except.ok.injEq, Prod.mk.injEq] at h
    simp [← h.2]
  · split at h
    · rename_i hnumeral
      dsimp only at h
      split at h
      · simp only [Except.ok.injEq, Prod.mk.injEq] at h
        rw [← h.2]
        exact Nat.lt_of_le_of_lt (length_splitPower _) (length_dropWhile_cons hnumeral)
      · simp at h
    · split at h
      · rename_i halpha
        simp only [Except.ok.injEq, Prod.mk.injEq] at h
        rw [← h.2]
        exact Nat.lt_of_le_of_lt (length_splitJoined _)
          (length_dropWhile_cons (by simp [Char.isAlphanum, halpha]))
      · simp at h

def tokenize (extent : Extent) (cs : List Char) : Except FormulaError (List Token) :=
  match cs with
  | [] => .ok []
  | c :: rest =>
    if Text.isBlank c then tokenize extent rest
    else
      match _h : next extent c rest with
      | .ok (token, after) => (tokenize extent after).map (token :: ·)
      | .error e => .error e
termination_by cs.length
decreasing_by
  · simp
  · exact length_of_next _h

end Token

namespace FormulaError

def message : FormulaError → String
  | .empty => "empty formula"
  | .unexpectedCharacter c => "unexpected character '" ++ c.toString ++ "'"
  | .invalidNumber text => "invalid number: " ++ text
  | .unexpectedToken token => "unexpected token: " ++ token.describe
  | .unexpectedEnd => "unexpected end of formula"
  | .tooDeep => "formula nests deeper than " ++ toString nestingLimit ++ " levels"
  | .tooLong => "formula has more than " ++ toString tokenLimit ++ " tokens"

end FormulaError

end Spreadsheet
