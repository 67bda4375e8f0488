import Spreadsheet.Json.Number
import Spreadsheet.Json.Quoted

namespace Spreadsheet.Json

inductive Token where
  | leftBracket
  | rightBracket
  | leftBrace
  | rightBrace
  | colon
  | comma
  | null
  | bool (value : Bool)
  | number (text : List Char)
  | string (source : List Char)
deriving DecidableEq

namespace Token

/-- Whether a character only separates tokens. -/
def isSpace (c : Char) : Bool := c == ' ' || c == '\n' || c == '\t' || c == '\r'

/-- Whether a character can stand in a number or one of the words. -/
def isWordChar (c : Char) : Bool := c.isAlphanum || c == '+' || c == '-' || c == '.'

/-- The token of a character that is one by itself. -/
def mark? : Char → Option Token
  | '[' => some .leftBracket
  | ']' => some .rightBracket
  | '{' => some .leftBrace
  | '}' => some .rightBrace
  | ':' => some .colon
  | ',' => some .comma
  | _ => none

/-- The token of a word. -/
def ofWord? (word : List Char) : Option Token :=
  if word = ['n', 'u', 'l', 'l'] then some .null
  else if word = ['t', 'r', 'u', 'e'] then some (.bool true)
  else if word = ['f', 'a', 'l', 's', 'e'] then some (.bool false)
  else (Number.ofChars? word).map fun _ => .number word

/-- What is being read. Characters are kept with the latest first. -/
inductive Mode where
  | idle
  | word (chars : List Char)
  | quoted (chars : List Char)
  /-- A backslash has been read, and the next character belongs to it. -/
  | escape (chars : List Char)

/-- How far the reading has come: the tokens so far, the latest first, and what is being read. -/
structure Scan where
  tokens : List Token
  mode : Mode

/-- Reads a character between tokens. -/
def start (tokens : List Token) (c : Char) : Option Scan :=
  if isSpace c then some ⟨tokens, .idle⟩
  else if c = '"' then some ⟨tokens, .quoted []⟩
  else if isWordChar c then some ⟨tokens, .word [c]⟩
  else (mark? c).map fun token => ⟨token :: tokens, .idle⟩

/-- Reads a character. -/
def scanChar (scan : Scan) (c : Char) : Option Scan :=
  match scan.mode with
  | .idle => start scan.tokens c
  | .word chars =>
    if isWordChar c then some ⟨scan.tokens, .word (c :: chars)⟩
    else (ofWord? chars.reverse).bind fun token => start (token :: scan.tokens) c
  | .quoted chars =>
    if c = '"' then
      if Quoted.isQuoted chars.reverse then
        some ⟨.string chars.reverse :: scan.tokens, .idle⟩
      else none
    else if c = '\\' then some ⟨scan.tokens, .escape (c :: chars)⟩
    else some ⟨scan.tokens, .quoted (c :: chars)⟩
  | .escape chars => some ⟨scan.tokens, .quoted (c :: chars)⟩

/-- The tokens once the text has ended. -/
def Scan.finish? (scan : Scan) : Option (List Token) :=
  match scan.mode with
  | .idle => some scan.tokens.reverse
  | .word chars => (ofWord? chars.reverse).map fun token => (token :: scan.tokens).reverse
  | .quoted _ => none
  | .escape _ => none

def ofChars? (cs : List Char) : Option (List Token) :=
  (cs.foldlM scanChar ⟨[], .idle⟩).bind Scan.finish?

end Token

end Spreadsheet.Json
