import Spreadsheet.Text.Blank

/-!
Records of fields separated by commas. A field in quotes may hold commas, line ends and, written
twice, quotes; any other field is read without the white space around it.
-/

namespace Spreadsheet.Csv

/-- A field that is being read. -/
structure Field where
  /-- The characters so far, the latest first. -/
  chars : List Char
  /-- Whether any part of the field was in quotes. -/
  quoted : Bool

namespace Field

/-- A field of which nothing has been read. -/
def start : Field := ⟨[], false⟩

def push (field : Field) (c : Char) : Field := { field with chars := c :: field.chars }

def text (field : Field) : String :=
  let chars := field.chars.reverse
  String.ofList (if field.quoted then chars else Text.trimChars chars)

end Field

/-- Reads records, given whether a quote is open, the field that is being read and the fields before
it in its record, the latest first. The last record needs no line end, and a text that ends with one
has no record behind it. -/
def readFrom (inQuotes : Bool) (field : Field) (before : List String) :
    List Char → List (List String)
  | [] =>
    if field.chars.isEmpty && !field.quoted && before.isEmpty then []
    else [(field.text :: before).reverse]
  | c :: rest =>
    if inQuotes then
      match c, rest with
      | '"', '"' :: rest => readFrom true (field.push '"') before rest
      | '"', rest => readFrom false field before rest
      | c, rest => readFrom true (field.push c) before rest
    else
      match c, rest with
      | '"', rest => readFrom true { field with quoted := true } before rest
      | ',', rest => readFrom false .start (field.text :: before) rest
      | '\r', '\n' :: rest => (field.text :: before).reverse :: readFrom false .start [] rest
      | '\n', rest => (field.text :: before).reverse :: readFrom false .start [] rest
      | c, rest => readFrom false (field.push c) before rest
termination_by cs => cs.length

/-- The records of a text. -/
def records (text : String) : List (List String) := readFrom false .start [] text.toList

/-- Whether a field can only be written in quotes. -/
def needsQuotes (field : List Char) : Bool :=
  field.any (fun c => c == ',' || c == '"' || Text.isLineEnd c) || Text.trimChars field != field

/-- Writes each quote twice. -/
def doubleQuotes (field : List Char) : List Char :=
  field.flatMap fun c => if c = '"' then ['"', '"'] else [c]

def escape (field : String) : String :=
  if needsQuotes field.toList then
    String.ofList ('"' :: (doubleQuotes field.toList ++ ['"']))
  else field

def writeFields (fields : List String) : String := ",".intercalate (fields.map escape)

/-- Writes records, each on a line of its own unless a field holds line ends. -/
def write (records : List (List String)) : String :=
  String.join (records.map fun fields => writeFields fields ++ "\n")

end Spreadsheet.Csv
