import Std.Data.ExtTreeMap
import Std.Data.ExtTreeSet

namespace Spreadsheet

/-- Where a file or a directory is: the names on the way to it, the last one first. The way to a
place above the current directory is made of double dots, and the root has an empty name. -/
abbrev Place := List String

namespace Place

def current : Place := []

def root : Place := [""]

/-- Goes one directory up. Nothing is above the root. -/
def up : Place → Place
  | [] => [".."]
  | ".." :: rest => ".." :: ".." :: rest
  | [""] => root
  | _ :: rest => rest

/-- The place that a part of a path leads to. Empty parts and single dots stay. -/
def enter (place : Place) (part : String) : Place :=
  if part.isEmpty || part == "." then place else if part == ".." then place.up else part :: place

/-- Whether a place is the current directory, one above it or the root. -/
def isGiven (place : Place) : Bool := place.all fun name => name.isEmpty || name == ".."

end Place

namespace Path

def parts (path : String) : List String := path.splitOn "/"

/-- The place that a path starts from. -/
def start (path : String) : Place := if path.startsWith "/" then .root else .current

/-- The places that a path goes through, from its start on. -/
def trail (path : String) : List Place := (parts path).scanl Place.enter (start path)

/-- Whether a path can name something. Names have at most 255 bytes and paths at most 4095, neither
of them zero. -/
def isNameable (path : String) : Bool :=
  !path.isEmpty && decide (path.utf8ByteSize ≤ 4095) && !path.contains '\x00' &&
    (parts path).all fun part => decide (part.utf8ByteSize ≤ 255)

end Path

/-- Files and directories by their places. -/
structure Files where
  texts : Std.ExtTreeMap Place String
  directories : Std.ExtTreeSet Place

namespace Files

/-- No files, and no directories but those that are always there. -/
def empty : Files := ⟨∅, ∅⟩

def isDirectory (files : Files) (place : Place) : Bool :=
  place.isGiven || files.directories.contains place

/-- The place that a path names, if all places on the way to it are directories. -/
def placeOf? (files : Files) (path : String) : Option Place :=
  let trail := Path.trail path
  if Path.isNameable path && trail.dropLast.all files.isDirectory then trail.getLast? else none

/-- The text of the file at a path. -/
def read? (files : Files) (path : String) : Option String := do
  files.texts[← files.placeOf? path]?

def exists? (files : Files) (path : String) : Bool :=
  (files.placeOf? path).any fun place => files.isDirectory place || files.texts.contains place

/-- Adds a file together with the directories on the way to it. -/
def add (files : Files) (path text : String) : Files :=
  let trail := Path.trail path
  { texts := files.texts.insert (trail.getLast?.getD .current) text
    directories := files.directories.insertMany trail.dropLast }

/-- Files with their texts. -/
def ofList (files : List (String × String)) : Files :=
  files.foldl (fun known (path, text) => known.add path text) empty

/-- Writes a text into the file at a path. There must not be a directory in its place. -/
def write? (files : Files) (path text : String) : Option Files := do
  let place ← files.placeOf? path
  if files.isDirectory place then none
  else some { files with texts := files.texts.insert place text }

end Files

end Spreadsheet
