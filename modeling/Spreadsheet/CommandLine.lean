import Spreadsheet.CommandLine.Options
import Spreadsheet.Document.Operation
import Spreadsheet.Settings.Configuration

namespace Spreadsheet

namespace Level

/-- The rank of the least weighty level that a name asks to be shown. Numbers name levels by their
ranks, and nothing is shown for zero. -/
def threshold? (name : String) : Option Nat :=
  let digits := (Numeral.splitSign name.toList).2
  if name.startsWith "-" = false ∧ digits.isEmpty = false ∧ digits.all Char.isDigit = true
      ∧ Numeral.ofDigits digits ≤ 5 then
    some (Numeral.ofDigits digits)
  else if name.isEmpty then some Level.error.rank
  else Text.lookupName? [("off", 0), ("error", Level.error.rank), ("warn", Level.warn.rank),
    ("info", Level.info.rank), ("debug", Level.debug.rank), ("trace", Level.trace.rank)] name

end Level

namespace Notice

/-- A character of a notice. Those that could steer a terminal are shown by their numbers. -/
def shownChar (c : Char) : List Char :=
  let code := c.toNat
  let hex := Nat.toDigits 16 code
  if c = '\x1B' ∨ c = '\x7F' then '\\' :: 'x' :: hex
  else if c = '\x07' ∨ c = '\x08' ∨ c = '\x0C' then '\\' :: 'x' :: '0' :: hex
  else if 0x80 ≤ code ∧ code ≤ 0x9F then '\\' :: 'u' :: '\x7B' :: (hex ++ ['\x7D'])
  else [c]

/-- The line that shows a notice. -/
def line (notice : Notice) : String :=
  notice.level.label ++ " " ++ String.ofList (notice.message.toList.flatMap shownChar)

end Notice

namespace CommandLine

/-- What a run has printed so far, and the files as it has left them. -/
structure Console where
  output : String
  /-- The lines of the error output, the latest first. -/
  errors : List String
  files : Files
  /-- The rank of the least weighty level of notices that is shown. -/
  threshold : Nat

/-- A part of a run, which can end the run with a message. -/
abbrev Task (α : Type) := ExceptT String (StateM Console) α

def print (text : String) : Task Unit :=
  modify fun console => { console with output := console.output ++ text }

def printError (line : String) : Task Unit :=
  modify fun console => { console with errors := line :: console.errors }

/-- Shows those notices that are weighty enough. -/
def notify (notices : List Notice) : Task Unit := do
  for notice in notices do
    if notice.level.rank ≤ (← get).threshold then printError notice.line

/-- Ends the run if an operation has failed. -/
def attempt {α : Type} (context : String) (result : Except Failure α) : Task α :=
  match result with
  | .ok value => return value
  | .error failure => throw (context ++ failure.message)

/-- Shows the notices of an operation and ends the run if it has failed. -/
def follow {α : Type} (context : String) (result : Except Failure (Document.Done α)) :
    Task (Document.Done α) := do
  let done ← attempt context result
  notify done.notices
  return done

/-- The settings in a file, and a warning if they cannot be read. Only a file that was asked for has
to be there. -/
def settingsFrom (files : Files) (path : String) (asked : Bool) : Settings × List String :=
  match files.read? path with
  | some text =>
    match Settings.ofText? text with
    | some settings => (settings, [])
    | none => (.standard, ["Failed to parse " ++ path ++ ": TOML parse error"])
  | none =>
    if files.exists? path then
      (.standard, ["Failed to read " ++ path ++ ": Is a directory (os error 21)"])
    else (.standard, if asked then ["Config file not found: " ++ path] else [])

/-- The settings for a run, and warnings about them. -/
def settingsFor (options : Options) (files : Files) (userConfig : Option String) :
    Settings × List String :=
  if options.ignoreConfig then (.standard, [])
  else
    match options.configFile, userConfig with
    | some path, _ => settingsFrom files path true
    | none, some path => settingsFrom files path false
    | none, none => (.standard, [])

def openDocument (settings : Settings) (path : Option String) : Task Document := do
  match Document.ofPath settings (← get).files path, path with
  | .error failure, some path => do
    notify [.workbookRejected path failure.message]
    throw ("failed to open " ++ path ++ ": " ++ failure.message)
  | result, _ => return (← follow "failed to create workbook: " result).document

def importFile (d : Document) (path : String) : Task Document := do
  let result := d.importFile (← get).files path
  match result with
  | .error (.csvOutside line cell extent) =>
    notify [.importRejected (Failure.csvOutside line cell extent).message]
  | _ => pure ()
  let done ← follow ("failed to import " ++ path ++ ": ") result
  notify [.imported done.value path]
  return done.document

/-- Enters an input that is given with the name of its cell. -/
def assign (d : Document) (assignment : String) : Task Document := do
  match Text.splitAt? '=' assignment with
  | some (name, input) =>
    let name := Text.trim name
    let done ← follow ("failed to set " ++ name ++ ": ") (d.writeNamed name input)
    return done.document
  | none => throw ("--set expects REF=INPUT, got '" ++ assignment ++ "'")

/-- Prints the value of a formula. The result is whether it is a fault. -/
def evaluate (d : Document) (formula : String) : Task Bool := do
  let (value, notices) := d.evaluate formula
  notify notices
  print (value.display ++ "\n")
  return value.isFault

def exportFile (d : Document) (path : String) : Task Unit := do
  let files ← attempt ("failed to write " ++ path ++ ": ") (d.exportFile (← get).files path)
  modify fun console => { console with files := files }
  printError ("Exported to " ++ path)

def saveFile (d : Document) (path : String) : Task Document := do
  let (d, files) ← attempt ("failed to save " ++ path ++ ": ") (d.saveAs (← get).files path)
  modify fun console => { console with files := files }
  printError ("Saved to " ++ path)
  return d

/-- Runs what is asked for. Where nothing else is printed or saved, the active sheet is printed
as it is shown. The result is the exit code. -/
def runOptions (options : Options) (userConfig : Option String) : Task Nat := do
  let (settings, warnings) := settingsFor options (← get).files userConfig
  for warning in warnings do printError ("Warning: " ++ warning)
  let threshold := if options.verbose then Level.debug.rank
    else (Level.threshold? (Text.trim settings.logLevel)).getD Level.warn.rank
  modify fun console => { console with threshold := threshold }
  let mut d ← openDocument settings options.file
  if let some name := options.sheet then
    d := (← follow "" (d.activateNamed name)).document
  if let some path := options.importFile then
    d ← importFile d path
  for assignment in options.assignments do
    d ← assign d assignment
  let looped := d.sheetsWithLoops
  unless looped.isEmpty do notify [.circularSheets looped]
  let mut code := 0
  if let some formula := options.command then
    if ← evaluate d formula then code := 1
  if let some path := options.exportFile then
    exportFile d path
  if let some path := options.saveFile then
    d ← saveFile d path
  if options.command.isNone && options.exportFile.isNone && options.saveFile.isNone then
    print d.activeSheet.visibleText
  return code

/-- What a run has led to. -/
structure Result where
  code : Nat
  output : String
  errors : List String
  files : Files

def run (arguments : List String) (files : Files) (userConfig : Option String) : Result :=
  match Options.read {} arguments with
  | .error misuse => ⟨1, "", misuse.lines, files⟩
  | .ok .help => ⟨0, "", usage, files⟩
  | .ok (.run options) =>
    let (result, console) := (runOptions options userConfig).run.run ⟨"", [], files, 0⟩
    match result with
    | .ok code => ⟨code, console.output, console.errors.reverse, console.files⟩
    | .error message =>
      ⟨1, console.output, (("Error: " ++ message) :: console.errors).reverse, console.files⟩

end CommandLine

end Spreadsheet
