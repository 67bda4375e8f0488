
namespace Spreadsheet.Text

/-- Splits a text at the first occurrence of a character, which belongs to neither part. -/
def splitAt? (separator : Char) (text : String) : Option (String × String) :=
  match text.toList.span (· != separator) with
  | (before, _ :: after) => some (String.ofList before, String.ofList after)
  | (_, []) => none

/-- A text with its ASCII letters in upper case. -/
def upperCase (text : String) : String :=
  String.ofList (text.toList.map Char.toUpper)

/-- A text with its ASCII letters in lower case. -/
def lowerCase (text : String) : String :=
  String.ofList (text.toList.map Char.toLower)

/-- The entry of a list whose name is the given one, up to the case of ASCII letters. -/
def lookupName? {α : Type} (entries : List (String × α)) (name : String) : Option α :=
  (entries.find? fun entry => lowerCase entry.1 == lowerCase name).map Prod.snd

end Spreadsheet.Text
