import Spreadsheet.Json.Token

namespace Spreadsheet

inductive Json where
  | null
  | bool (value : Bool)
  | number (text : List Char)
  | string (source : List Char)
  | array (items : List Json)
  | object (members : List (List Char × Json))
deriving Inhabited

namespace Json

/-- An array or object that is still open. What is complete in it comes with the latest first. -/
inductive Frame where
  | array (items : List Json)
  /-- An object that waits for the value of a member. -/
  | object (members : List (List Char × Json)) (key : List Char)

/-- What has been read, and with it what may come next. -/
inductive Reading where
  /-- A value has to come. -/
  | expectValue (frames : List Frame)
  /-- An array has just been opened. -/
  | firstItem (frames : List Frame)
  /-- An object has just been opened. -/
  | firstKey (frames : List Frame)
  /-- The name of a member has to come. -/
  | expectKey (members : List (List Char × Json)) (frames : List Frame)
  /-- A colon has to come. -/
  | expectColon (members : List (List Char × Json)) (key : List Char) (frames : List Frame)
  /-- A value is complete. -/
  | complete (value : Json) (frames : List Frame)

namespace Reading

/-- Reads the first token of a value. -/
def openValue (frames : List Frame) : Token → Option Reading
  | .null => some (.complete .null frames)
  | .bool value => some (.complete (.bool value) frames)
  | .number text => some (.complete (.number text) frames)
  | .string source => some (.complete (.string source) frames)
  | .leftBracket => some (.firstItem frames)
  | .leftBrace => some (.firstKey frames)
  | _ => none

/-- Reads the token behind a value that is complete. -/
def close (value : Json) : List Frame → Token → Option Reading
  | .array items :: frames, .comma => some (.expectValue (.array (value :: items) :: frames))
  | .array items :: frames, .rightBracket =>
    some (.complete (.array (value :: items).reverse) frames)
  | .object members key :: frames, .comma => some (.expectKey ((key, value) :: members) frames)
  | .object members key :: frames, .rightBrace =>
    some (.complete (.object ((key, value) :: members).reverse) frames)
  | _, _ => none

/-- Reads a token. -/
def next (reading : Reading) (token : Token) : Option Reading :=
  match reading, token with
  | .expectValue frames, token => openValue frames token
  | .firstItem frames, .rightBracket => some (.complete (.array []) frames)
  | .firstItem frames, token => openValue (.array [] :: frames) token
  | .firstKey frames, .rightBrace => some (.complete (.object []) frames)
  | .firstKey frames, .string key => some (.expectColon [] key frames)
  | .expectKey members frames, .string key => some (.expectColon members key frames)
  | .expectColon members key frames, .colon => some (.expectValue (.object members key :: frames))
  | .complete value frames, token => close value frames token
  | _, _ => none

/-- The value, if one has been read and nothing is open any more. -/
def result? : Reading → Option Json
  | .complete value [] => some value
  | _ => none

end Reading

def ofTokens? (tokens : List Token) : Option Json :=
  (tokens.foldlM Reading.next (.expectValue [])).bind Reading.result?

def ofText? (text : String) : Option Json := (Token.ofChars? text.toList).bind ofTokens?

def ofString (text : String) : Json := .string (Quoted.encode text.toList)

def ofNat (n : Nat) : Json := .number (Nat.toDigits 10 n)

/-- An object with members in a given order. -/
def ofMembers (members : List (String × Json)) : Json :=
  .object (members.map fun (name, value) => (Quoted.encode name.toList, value))

/-- A new line at a depth of nesting. -/
def newLine (depth : Nat) : List Char := '\n' :: List.replicate (2 * depth) ' '

/-- A text between its quotes. -/
def inQuotes (source : List Char) : List Char := '"' :: (source ++ ['"'])

mutual

/-- Writes a value at a depth of nesting. Each item and member has a line of its own. -/
def chars (depth : Nat) : Json → List Char
  | .null => ['n', 'u', 'l', 'l']
  | .bool true => ['t', 'r', 'u', 'e']
  | .bool false => ['f', 'a', 'l', 's', 'e']
  | .number text => text
  | .string source => inQuotes source
  | .array [] => ['[', ']']
  | .array (item :: items) =>
    '[' :: (newLine (depth + 1) ++ chars (depth + 1) item ++ itemChars (depth + 1) items
      ++ newLine depth ++ [']'])
  | .object [] => ['{', '}']
  | .object ((key, value) :: members) =>
    '{' :: (newLine (depth + 1) ++ inQuotes key ++ [':', ' '] ++ chars (depth + 1) value
      ++ memberChars (depth + 1) members ++ newLine depth ++ ['}'])

/-- Writes the items of an array behind the first. -/
def itemChars (depth : Nat) : List Json → List Char
  | [] => []
  | item :: items => ',' :: (newLine depth ++ chars depth item ++ itemChars depth items)

/-- Writes the members of an object behind the first. -/
def memberChars (depth : Nat) : List (List Char × Json) → List Char
  | [] => []
  | (key, value) :: members =>
    ',' :: (newLine depth ++ inQuotes key ++ [':', ' '] ++ chars depth value
      ++ memberChars depth members)

end

def text (value : Json) : String := String.ofList (value.chars 0)

end Json

end Spreadsheet
