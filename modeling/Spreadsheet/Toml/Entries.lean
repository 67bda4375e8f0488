import Spreadsheet.Toml.Quoted
import Spreadsheet.Toml.Scalar

namespace Spreadsheet

namespace Toml

/-- How a table came about. -/
inductive Origin where
  /-- It has a header of its own. -/
  | header
  /-- A header for one of its parts named it on the way. -/
  | path
  /-- A dotted name of a value named it on the way. -/
  | dotted
deriving DecidableEq

end Toml

/-- A value in TOML. -/
inductive Toml where
  | scalar (value : Toml.Scalar)
  | text (value : String)
  | array (items : List Toml)
  /-- A table in braces, which is complete. -/
  | inline (entries : List (String × Toml))
  | table (origin : Toml.Origin) (entries : List (String × Toml))
  /-- Tables under one header, the latest first. -/
  | tables (elements : List (List (String × Toml)))

namespace Toml

/-- The entries of a table in the order of their appearance. -/
abbrev Entries := List (String × Toml)

namespace Entries

/-- Puts a value in place of the one with the same name, or behind all others. -/
def set (entries : Entries) (name : String) (value : Toml) : Entries :=
  if (entries.lookup name).isSome then
    entries.map fun entry => if entry.1 == name then (name, value) else entry
  else entries ++ [(name, value)]

/-- Adds a value with a dotted name. The tables on the way must not have headers, and the last one
must have come about by dotted names alone. -/
def assign (entries : Entries) (path : List String) (name : String) (value : Toml) :
    Option Entries :=
  match path with
  | [] => if (entries.lookup name).isSome then none else some (entries ++ [(name, value)])
  | step :: path =>
    match entries.lookup step with
    | none => do
      let inner ← assign [] path name value
      return entries.set step (.table .dotted inner)
    | some (.table origin inner) =>
      if origin = .header ∨ (path.isEmpty = true ∧ origin ≠ .dotted) then none
      else do
        let inner ← assign inner path name value
        return entries.set step (.table origin inner)
    | some (.tables (last :: earlier)) =>
      if path.isEmpty then none
      else do
        let last ← assign last path name value
        return entries.set step (.tables (last :: earlier))
    | some _ => none

/-- Changes the table that a header names. Tables on the way are opened where they are missing, and
of several tables under one header the last one counts. -/
def within (change : Entries → Option Entries) (entries : Entries) (path : List String) :
    Option Entries :=
  match path with
  | [] => change entries
  | step :: path =>
    match entries.lookup step with
    | none => do
      let inner ← within change [] path
      return entries.set step (.table .path inner)
    | some (.table origin inner) => do
      let inner ← within change inner path
      return entries.set step (.table origin inner)
    | some (.tables (last :: earlier)) => do
      let last ← within change last path
      return entries.set step (.tables (last :: earlier))
    | some _ => none

/-- Opens the table of a header. It may only have been named on the way to others so far. -/
def openTable (name : String) (entries : Entries) : Option Entries :=
  match entries.lookup name with
  | none => some (entries.set name (.table .header []))
  | some (.table .path inner) => some (entries.set name (.table .header inner))
  | some _ => none

/-- Opens one more table under a doubled header. -/
def openElement (name : String) (entries : Entries) : Option Entries :=
  match entries.lookup name with
  | none => some (entries.set name (.tables [[]]))
  | some (.tables elements) => some (entries.set name (.tables ([] :: elements)))
  | some _ => none

end Entries

end Toml

end Spreadsheet
