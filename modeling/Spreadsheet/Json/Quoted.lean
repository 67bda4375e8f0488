import Spreadsheet.Text.Hex

namespace Spreadsheet.Json.Quoted

/-- Whether a character has to be escaped as a control character. -/
def isControl (c : Char) : Bool := decide (c.toNat < 0x20)

/-- A control character without a short escape, as four hexadecimal digits. -/
def encodeControl (c : Char) : List Char :=
  ['\\', 'u', '0', '0', Nat.digitChar (c.toNat / 16), Nat.digitChar (c.toNat % 16)]

/-- Writes a character between quotes. -/
def encodeChar (c : Char) : List Char :=
  match c with
  | '"' => ['\\', '"']
  | '\\' => ['\\', '\\']
  | '\x08' => ['\\', 'b']
  | '\x0C' => ['\\', 'f']
  | '\n' => ['\\', 'n']
  | '\r' => ['\\', 'r']
  | '\t' => ['\\', 't']
  | c => if isControl c then encodeControl c else [c]

def encode (text : List Char) : List Char := text.flatMap encodeChar

/-- A part of a text between quotes. -/
inductive Piece where
  | char (c : Char)
  /-- A unit of UTF-16, given by an escape. -/
  | unit (value : Nat)
deriving DecidableEq, Repr

/-- The character that a short escape stands for. -/
def escaped? : Char → Option Char
  | '"' => some '"'
  | '\\' => some '\\'
  | '/' => some '/'
  | 'b' => some '\x08'
  | 'f' => some '\x0C'
  | 'n' => some '\n'
  | 'r' => some '\r'
  | 't' => some '\t'
  | _ => none

/-- The value of four hexadecimal digits. -/
def unit? (a b c d : Char) : Option Nat := do
  return 0x1000 * (← Text.hexValue? a) + 0x100 * (← Text.hexValue? b) + 0x10 * (← Text.hexValue? c)
    + (← Text.hexValue? d)

/-- The parts of a text between quotes, unless it is malformed. -/
def pieces? : List Char → Option (List Piece)
  | [] => some []
  | '\\' :: 'u' :: a :: b :: c :: d :: rest => do
    let value ← unit? a b c d
    return .unit value :: (← pieces? rest)
  | '\\' :: c :: rest => do
    let meant ← escaped? c
    return .char meant :: (← pieces? rest)
  | c :: rest =>
    if c = '\\' ∨ c = '"' ∨ isControl c = true then none
    else (pieces? rest).map (.char c :: ·)

/-- Whether a unit opens a pair. -/
def isHigh (value : Nat) : Bool := decide (0xD800 ≤ value) && decide (value ≤ 0xDBFF)

/-- Whether a unit closes a pair. -/
def isLow (value : Nat) : Bool := decide (0xDC00 ≤ value) && decide (value ≤ 0xDFFF)

/-- The text that parts make. A unit of a pair that stands alone makes none. -/
def join? : List Piece → Option (List Char)
  | [] => some []
  | .char c :: rest => (join? rest).map (c :: ·)
  | .unit high :: .unit low :: rest =>
    if isHigh high then
      if isLow low then
        (join? rest).map (Char.ofNat (0x10000 + 0x400 * (high - 0xD800) + (low - 0xDC00)) :: ·)
      else none
    else if isLow high then none
    else (join? (.unit low :: rest)).map (Char.ofNat high :: ·)
  | .unit value :: rest =>
    if isHigh value || isLow value then none else (join? rest).map (Char.ofNat value :: ·)

/-- Whether a text between quotes is well formed, its units apart. -/
def isQuoted (source : List Char) : Bool := (pieces? source).isSome

/-- Reads a text between quotes. -/
def decode? (source : List Char) : Option (List Char) := (pieces? source).bind join?

end Spreadsheet.Json.Quoted
