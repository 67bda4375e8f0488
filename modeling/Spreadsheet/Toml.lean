import Spreadsheet.Toml.Entries

namespace Spreadsheet.Toml

/-- Whether a character only separates words. -/
def isSpace (c : Char) : Bool := Quotation.isSpace c

def skipSpace (cs : List Char) : List Char := cs.dropWhile isSpace

/-- What follows a comment, which reaches to the end of its line. -/
def skipComment? : List Char → Option (List Char)
  | [] => some []
  | '\n' :: rest => some ('\n' :: rest)
  | c :: rest => if Quotation.isText c then skipComment? rest else none

/-- What follows the end of a line, in front of which there may be a comment. -/
def lineEnd? (cs : List Char) : Option (List Char) := do
  let rest ← match skipSpace cs with
    | '#' :: comment => skipComment? comment
    | rest => some rest
  match rest with
  | [] => some []
  | '\n' :: rest => some rest
  | _ => none

/-- What follows white space, line ends and comments, given whether a comment is being read. -/
def skipFiller? (inComment : Bool) : List Char → Option (List Char)
  | [] => some []
  | c :: rest =>
    if c = '\n' then skipFiller? false rest
    else if inComment then if Quotation.isText c then skipFiller? true rest else none
    else if c = '#' then skipFiller? true rest
    else if isSpace c then skipFiller? false rest
    else some (c :: rest)

/-- Names and values are nested less deep than this. -/
def depthLimit : Nat := 80

/-- Whether a character can stand in a name without quotes. -/
def isNameChar (c : Char) : Bool := c.isAlphanum || c == '_' || c == '-'

/-- Reads one part of a dotted name. -/
def namePart? (cs : List Char) : Option (String × List Char) :=
  match cs.takeWhile isNameChar with
  | [] => lineText? cs
  | name => some (String.ofList name, cs.dropWhile isNameChar)

/-- Reads a dotted name with white space around it, given how many parts it may have. -/
def name? : Nat → List Char → Option (List String × List Char)
  | 0, _ => none
  | parts + 1, cs => do
    let (part, rest) ← namePart? (skipSpace cs)
    match skipSpace rest with
    | '.' :: rest => do
      let (path, rest) ← name? parts rest
      return (part :: path, rest)
    | rest => some ([part], rest)

/-- Reads a dotted name as the names of the tables on the way and the name in the last one. -/
def path? (cs : List Char) : Option (List String × String × List Char) := do
  let (parts, rest) ← name? (depthLimit - 1) cs
  return (parts.dropLast, ← parts.getLast?, rest)

/-- Reads a value at the start, and gives back what follows it. -/
abbrev Reader := List Char → Option (Toml × List Char)

/-- Reads the items of an array behind its opening bracket or a comma. There are no more items than
characters. -/
def items? (value : Reader) : Nat → List Toml → Reader
  | 0, _, _ => none
  | limit + 1, items, cs => do
    match ← skipFiller? false cs with
    | ']' :: rest => some (.array items.reverse, rest)
    | cs =>
      let (item, rest) ← value cs
      match ← skipFiller? false rest with
      | ',' :: rest => items? value limit (item :: items) rest
      | ']' :: rest => some (.array (item :: items).reverse, rest)
      | _ => none

/-- Reads the entries of a table in braces behind its opening brace or a comma. -/
def entries? (value : Reader) : Nat → Entries → Reader
  | 0, _, _ => none
  | limit + 1, entries, cs => do
    let (path, name, rest) ← path? cs
    match rest with
    | '=' :: rest =>
      let (item, rest) ← value (skipSpace rest)
      let entries ← entries.assign path name item
      match skipSpace rest with
      | ',' :: rest => entries? value limit entries rest
      | '}' :: rest => some (.inline entries, rest)
      | _ => none
    | _ => none

/-- Reads a value, given how deep arrays and tables in it may be nested. -/
def value? : Nat → Reader
  | 0, cs => scalarOrText cs
  | depth + 1, cs =>
    match cs with
    | '[' :: rest => items? (value? depth) cs.length [] rest
    | '{' :: rest =>
      match skipSpace rest with
      | '}' :: rest => some (.inline [], rest)
      | rest => entries? (value? depth) cs.length [] rest
    | cs => scalarOrText cs
where
  /-- Reads a value that holds no others. -/
  scalarOrText (cs : List Char) : Option (Toml × List Char) :=
    match cs.head? with
    | some '"' => (text? cs).map fun (found, rest) => (.text found, rest)
    | some '\x27' => (text? cs).map fun (found, rest) => (.text found, rest)
    | _ => (Scalar.read? cs).map fun (found, rest) => (.scalar found, rest)

/-- Reads a line, or several if a value takes them, into the table of the latest header. -/
def line? (entries : Entries) (header : List String) (cs : List Char) :
    Option (Entries × List String × List Char) :=
  match cs with
  | '[' :: '[' :: rest => do
    let (path, name, rest) ← path? rest
    match rest with
    | ']' :: ']' :: rest =>
      let entries ← entries.within (Entries.openElement name) path
      return (entries, path ++ [name], ← lineEnd? rest)
    | _ => none
  | '[' :: rest => do
    let (path, name, rest) ← path? rest
    match rest with
    | ']' :: rest =>
      let entries ← entries.within (Entries.openTable name) path
      return (entries, path ++ [name], ← lineEnd? rest)
    | _ => none
  | cs => do
    let (path, name, rest) ← path? cs
    match rest with
    | '=' :: rest =>
      let (item, rest) ← value? (depthLimit - 1) (skipSpace rest)
      let entries ← entries.within (·.assign path name item) header
      return (entries, header, ← lineEnd? rest)
    | _ => none

/-- Reads lines. There are no more lines than characters. -/
def lines? : Nat → Entries → List String → List Char → Option Entries
  | 0, _, _, _ => none
  | limit + 1, entries, header, cs => do
    match ← skipFiller? false cs with
    | [] => some entries
    | cs =>
      let (entries, header, rest) ← line? entries header cs
      lines? limit entries header rest

/-- A text with plain line ends. -/
def plainLines : List Char → List Char
  | '\r' :: '\n' :: rest => '\n' :: plainLines rest
  | c :: rest => c :: plainLines rest
  | [] => []

/-- A text without a mark of byte order in front of it. -/
def dropByteOrderMark : List Char → List Char
  | '\uFEFF' :: rest => rest
  | cs => cs

def ofText? (text : String) : Option Entries :=
  let cs := plainLines (dropByteOrderMark text.toList)
  lines? (cs.length + 1) [] [] cs

end Spreadsheet.Toml
