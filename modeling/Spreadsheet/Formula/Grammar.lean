import Spreadsheet.Formula.Expr
import Spreadsheet.Formula.Token

/-!
The grammar of formulas, read from a list of tokens:

* a sum is a chain of products, and a product a chain of signed operands, both grouped to the left;
* a signed operand is an operand behind any number of signs, where a plus leaves no trace;
* an operand is a primary with an optional exponent, which is a signed operand again;
* a primary is a number, a reference, a literal, a call, or a sum in parentheses.

Each reader takes the reader of the level below it as an argument. All nesting passes through
signed operands, so their reader alone counts the depth that is left.
-/

namespace Spreadsheet.Grammar

/-- Reads an expression from the start of a list of tokens and returns the tokens behind it. -/
abbrev Reader := List Token → Except FormulaError (Expr × List Token)

/-- The failure at the first token of a list where another one is needed. -/
def unexpected : List Token → FormulaError
  | [] => .unexpectedEnd
  | token :: _ => .unexpectedToken token

/-- The operator of a sum that a token stands for. -/
def sumOperator? : Token → Option Operator
  | .plus => some .add
  | .minus => some .subtract
  | _ => none

/-- The operator of a product that a token stands for. -/
def productOperator? : Token → Option Operator
  | .star => some .multiply
  | .slash => some .divide
  | _ => none

/-- Reads operators and operands behind a first operand, grouped to the left. Each round takes an
operator, so there are at most as many rounds as tokens. -/
def chain (operator? : Token → Option Operator) (operand : Reader) : Nat → Expr → Reader
  | rounds + 1, left, token :: rest =>
    match operator? token with
    | none => .ok (left, token :: rest)
    | some operator => do
      let (right, rest) ← operand rest
      chain operator? operand rounds (.binary operator left right) rest
  | _, left, tokens => .ok (left, tokens)

def chained (operator? : Token → Option Operator) (operand : Reader) : Reader := fun tokens => do
  let (left, rest) ← operand tokens
  chain operator? operand rest.length left rest

/-- Reads a sum, given the reader of signed operands. -/
def sum (signed : Reader) : Reader := chained sumOperator? (chained productOperator? signed)

/-- Reads arguments up to the parenthesis that closes them. Each round takes an argument and the
token behind it. -/
def arguments (argument : Reader) :
    Nat → List Token → Except FormulaError (List Expr × List Token)
  | 0, _ => .error .unexpectedEnd
  | rounds + 1, tokens => do
    let (first, rest) ← argument tokens
    match rest with
    | .comma :: rest => do
      let (others, rest) ← arguments argument rounds rest
      .ok (first :: others, rest)
    | .rightParen :: rest => .ok ([first], rest)
    | rest => .error (unexpected rest)

/-- Reads a primary, given the reader of sums. -/
def primary (sum : Reader) : Reader
  | .number x :: rest => .ok (.number x, rest)
  | .cell p :: rest => .ok (.cell p, rest)
  | .range r :: rest => .ok (.range r, rest)
  | .literal text :: rest => .ok (.literal text, rest)
  | .name name :: .leftParen :: .rightParen :: rest => .ok (.call name [], rest)
  | .name name :: .leftParen :: rest => do
    let (given, rest) ← arguments sum (rest.length + 1) rest
    .ok (.call name given, rest)
  | .name _ :: rest => .error (unexpected rest)
  | .leftParen :: rest => do
    let (inner, rest) ← sum rest
    match rest with
    | .rightParen :: rest => .ok (inner, rest)
    | rest => .error (unexpected rest)
  | tokens => .error (unexpected tokens)

/-- Reads a primary with an optional exponent, given the reader of signed operands. -/
def operand (signed : Reader) : Reader := fun tokens => do
  let (base, rest) ← primary (sum signed) tokens
  match rest with
  | .caret :: rest => do
    let (exponent, rest) ← signed rest
    .ok (.binary .power base exponent, rest)
  | rest => .ok (base, rest)

/-- Reads a signed operand in which no more than `depth` signed operands are open at once. -/
def signed : Nat → Reader
  | 0, _ => .error .tooDeep
  | depth + 1, .minus :: rest => do
    let (inner, rest) ← signed depth rest
    .ok (.negate inner, rest)
  | depth + 1, .plus :: rest => signed depth rest
  | depth + 1, tokens => operand (signed depth) tokens

/-- Reads a list of tokens as one formula. -/
def parseTokens (tokens : List Token) : Except FormulaError Expr :=
  if tokens.isEmpty then .error .empty
  else if tokenLimit < tokens.length then .error .tooLong
  else do
    let (expr, rest) ← sum (signed nestingLimit) tokens
    match rest with
    | [] => .ok expr
    | token :: _ => .error (.unexpectedToken token)

end Spreadsheet.Grammar

namespace Spreadsheet

/-- Reads the text of a formula on a sheet of the given extent. -/
def parseFormula (extent : Extent) (text : String) : Except FormulaError Expr := do
  let tokens ← Token.tokenize extent text.toList
  Grammar.parseTokens tokens

end Spreadsheet
