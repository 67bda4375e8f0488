import Spreadsheet.Text.Hex

namespace Spreadsheet.Toml

/-- A way to quote. -/
structure Quotation where
  quote : Char
  /-- Whether a backslash opens an escape. -/
  escapes : Bool
  /-- Whether the quotes are tripled. -/
  multiline : Bool

namespace Quotation

/-- What the next character belongs to. -/
inductive Mode where
  | plain
  | escape
  /-- Hexadecimal digits of which some are left. -/
  | hex (left value : Nat)
  /-- White space behind a backslash at the end of a line, which is left out. -/
  | fold (ended : Bool)
  /-- Quotes in a row. -/
  | quotes (count : Nat)
  | closed

/-- Whether a character only separates words. -/
def isSpace (c : Char) : Bool := c == ' ' || c == '\t'

/-- Whether a character can stand in texts and comments. -/
def isText (c : Char) : Bool :=
  c == '\t' || (decide (0x20 ≤ c.toNat) && decide (c.toNat ≠ 0x7F))

/-- The character that a short escape stands for. -/
def escaped? : Char → Option Char
  | '"' => some '"'
  | '\\' => some '\\'
  | 'b' => some '\x08'
  | 'f' => some '\x0C'
  | 'n' => some '\n'
  | 'r' => some '\r'
  | 't' => some '\t'
  | _ => none

/-- The character with a number, if there is one. -/
def char? (value : Nat) : Option Char :=
  if value.isValidChar then some (Char.ofNat value) else none

/-- Reads a character outside escapes. -/
def readPlain (q : Quotation) (chars : List Char) (c : Char) : Option (Mode × List Char) :=
  if c = q.quote then some (if q.multiline then .quotes 1 else .closed, chars)
  else if c = '\\' ∧ q.escapes = true then some (.escape, chars)
  else if isText c || (q.multiline && c == '\n') then some (.plain, c :: chars)
  else none

/-- Reads a character, given the characters of the text so far, the latest first. -/
def readChar (q : Quotation) (mode : Mode) (chars : List Char) (c : Char) :
    Option (Mode × List Char) :=
  match mode with
  | .plain => q.readPlain chars c
  | .escape =>
    if q.multiline && (isSpace c || c == '\n') then some (.fold (c == '\n'), chars)
    else if c = 'u' then some (.hex 4 0, chars)
    else if c = 'U' then some (.hex 8 0, chars)
    else (escaped? c).map fun meant => (.plain, meant :: chars)
  | .hex left value =>
    (Text.hexValue? c).bind fun digit =>
      let value := 16 * value + digit
      if left ≤ 1 then (char? value).map fun meant => (.plain, meant :: chars)
      else some (.hex (left - 1) value, chars)
  | .fold ended =>
    if c = '\n' then some (.fold true, chars)
    else if isSpace c then some (.fold ended, chars)
    else if ended then q.readPlain chars c
    else none
  | .quotes count =>
    if c = q.quote then some (.quotes (count + 1), chars)
    else q.readPlain (List.replicate count q.quote ++ chars) c
  | .closed => none

/-- The text, if it is over in front of the next character. -/
def over? (q : Quotation) (mode : Mode) (chars : List Char) (next : Option Char) :
    Option (List Char) :=
  match mode with
  | .closed => some chars.reverse
  | .quotes count =>
    if 3 ≤ count ∧ (count = 5 ∨ next ≠ some q.quote) then
      some (chars.reverse ++ List.replicate (count - 3) q.quote)
    else none
  | _ => none

/-- Reads a text to its end, and gives back what follows it. -/
def readFrom (q : Quotation) (mode : Mode) (chars : List Char) (cs : List Char) :
    Option (List Char × List Char) :=
  match q.over? mode chars cs.head?, cs with
  | some text, cs => some (text, cs)
  | none, [] => none
  | none, c :: rest =>
    (q.readChar mode chars c).bind fun (mode, chars) => readFrom q mode chars rest

/-- Reads a text behind its opening quotes. A line end directly behind tripled quotes does not
count. -/
def read (q : Quotation) (cs : List Char) : Option (String × List Char) :=
  let cs := match q.multiline, cs with
    | true, '\n' :: rest => rest
    | _, cs => cs
  (q.readFrom .plain [] cs).map fun (text, rest) => (String.ofList text, rest)

end Quotation

/-- Reads a text on one line, if there is one at the start. -/
def lineText? : List Char → Option (String × List Char)
  | '"' :: rest => Quotation.read ⟨'"', true, false⟩ rest
  | '\x27' :: rest => Quotation.read ⟨'\x27', false, false⟩ rest
  | _ => none

/-- Reads a text, if there is one at the start. -/
def text? : List Char → Option (String × List Char)
  | '"' :: '"' :: '"' :: rest => Quotation.read ⟨'"', true, true⟩ rest
  | '\x27' :: '\x27' :: '\x27' :: rest => Quotation.read ⟨'\x27', false, true⟩ rest
  | cs => lineText? cs

end Spreadsheet.Toml
