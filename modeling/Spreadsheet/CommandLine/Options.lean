
namespace Spreadsheet.CommandLine

/-- What is asked for. -/
structure Options where
  /-- The workbook to open. -/
  file : Option String := none
  /-- Inputs to enter, each with the name of its cell. -/
  assignments : List String := []
  /-- A formula to evaluate. -/
  command : Option String := none
  sheet : Option String := none
  exportFile : Option String := none
  importFile : Option String := none
  saveFile : Option String := none
  configFile : Option String := none
  /-- Whether the configuration of the user is passed over. -/
  ignoreConfig : Bool := false
  verbose : Bool := false

/-- What the arguments ask for. -/
inductive Request where
  | help
  | run (options : Options)

/-- What is wrong with the arguments. -/
inductive Misuse where
  | missingValue (flag what : String)
  | unknownOption (argument : String)
  | unexpectedArgument (argument : String)

/-- An option that takes a value. -/
inductive ValueOption where
  | set
  | command
  | sheet
  | csv
  | importing
  | save
  | config

namespace ValueOption

/-- The option of an argument. -/
def ofArgument? : String → Option ValueOption
  | "-s" => some .set
  | "--set" => some .set
  | "-c" => some .command
  | "--command" => some .command
  | "--sheet" => some .sheet
  | "--csv" => some .csv
  | "--import" => some .importing
  | "--save" => some .save
  | "--config" => some .config
  | _ => none

def missing : ValueOption → Misuse
  | .set => .missingValue "--set" "REF=INPUT"
  | .command => .missingValue "--command" "a formula"
  | .sheet => .missingValue "--sheet" "a sheet name"
  | .csv => .missingValue "--csv" "a file path"
  | .importing => .missingValue "--import" "a file path"
  | .save => .missingValue "--save" "a file path"
  | .config => .missingValue "--config" "a file path"

/-- Adds the value of an option. Assignments add up, and of all others the last one counts. -/
def apply (option : ValueOption) (value : String) (options : Options) : Options :=
  match option with
  | .set => { options with assignments := options.assignments ++ [value] }
  | .command => { options with command := some value }
  | .sheet => { options with sheet := some value }
  | .csv => { options with exportFile := some value }
  | .importing => { options with importFile := some value }
  | .save => { options with saveFile := some value }
  | .config => { options with configFile := some value }

end ValueOption

/-- Reads arguments from left to right, up to the first fault or request for help. -/
def Options.read (options : Options) : List String → Except Misuse Request
  | [] => .ok (.run options)
  | argument :: rest =>
    if argument = "-h" ∨ argument = "--help" then .ok .help
    else
      match ValueOption.ofArgument? argument, rest with
      | some option, value :: rest => read (option.apply value options) rest
      | some option, [] => .error option.missing
      | none, rest =>
        if argument = "--no-config" then read { options with ignoreConfig := true } rest
        else if argument = "-v" ∨ argument = "--verbose" then
          read { options with verbose := true } rest
        else if argument.startsWith "-" then .error (.unknownOption argument)
        else if options.file.isSome then .error (.unexpectedArgument argument)
        else read { options with file := some argument } rest

def usage : List String := [
  "Usage: cellbook [OPTIONS] [FILE]",
  "",
  "Arguments:",
  "  [FILE]                    Workbook file to open (.json)",
  "",
  "Options:",
  "  -s, --set <REF=INPUT>     Write a cell before output (can be repeated)",
  "  -c, --command <FORMULA>   Evaluate a formula against the active sheet",
  "  --sheet <NAME>            Make the named sheet active",
  "  --csv <FILE>              Export the active sheet's raw input as CSV",
  "  --import <FILE>           Import a CSV file at A1 of the active sheet",
  "  --save <FILE>             Save the workbook as JSON",
  "  --config <FILE>           Load settings from a TOML file",
  "  --no-config               Ignore the user config file",
  "  -v, --verbose             Log debug output to stderr",
  "  -h, --help                Print help"]

/-- The lines that say what is wrong with the arguments. -/
def Misuse.lines : Misuse → List String
  | .missingValue flag what => ["Error: " ++ flag ++ " requires " ++ what]
  | .unknownOption argument => ("Error: Unknown option: " ++ argument) :: usage
  | .unexpectedArgument argument => ("Error: Unexpected argument: " ++ argument) :: usage

end Spreadsheet.CommandLine
