import Spreadsheet.CommandLine

namespace Spreadsheet.Program

def isDirectory (path : String) : IO Bool := do
  try
    let _ ← IO.FS.Handle.mk (path ++ "/.") .read
    return true
  catch _ => return false

/-- Adds what there is at a path, and the directories on the way to it. -/
def look (files : Files) (path : String) : IO Files := do
  let parts := Path.parts path
  let mut files := files
  for (place, count) in (Path.trail path).zipIdx do
    if ← isDirectory ("/".intercalate (parts.take count)) then
      files := { files with directories := files.directories.insert place }
  match files.placeOf? path with
  | none => return files
  | some place =>
    try
      let text ← IO.FS.readFile path
      return { files with texts := files.texts.insert place text }
    catch _ => return files

/-- The path of the configuration of the user. -/
def userConfig : IO (Option String) := do
  let home := (← IO.getEnv "HOME").map (· ++ "/.config")
  let directory := ((← IO.getEnv "XDG_CONFIG_HOME").filter (·.startsWith "/")).or home
  return directory.map (· ++ "/cellbook/cellbook.toml")

/-- The paths that a run may look at. -/
def paths (arguments : List String) (config : Option String) : List String :=
  match CommandLine.Options.read {} arguments with
  | .ok (.run options) =>
    [options.file, options.importFile, options.exportFile, options.saveFile, options.configFile,
      config].filterMap id
  | _ => []

def run (arguments : List String) : IO UInt32 := do
  let config ← userConfig
  let paths := paths arguments config
  let files ← paths.foldlM look Files.empty
  let result := CommandLine.run arguments files config
  for path in paths do
    if let some text := result.files.read? path then
      unless files.read? path == some text do IO.FS.writeFile path text
  IO.print result.output
  for line in result.errors do IO.eprintln line
  return UInt32.ofNat result.code

end Spreadsheet.Program

def main (arguments : List String) : IO UInt32 := Spreadsheet.Program.run arguments
