import Spreadsheet.Json
import Spreadsheet.Number.Shortest
import Std.Data.ExtTreeMap

namespace Spreadsheet.Json

/-- A text between quotes as the name of a member. -/
def textKey? (source : List Char) : Option String :=
  (Quoted.decode? source).map String.ofList

/-- A number between quotes as the name of a member. Nothing in it can be escaped. -/
def natKey? (source : List Char) : Option Nat := (Number.ofChars? source).bind Number.toNat?

def toText? : Json → Option String
  | .string source => textKey? source
  | _ => none

def toBool? : Json → Option Bool
  | .bool value => some value
  | _ => none

def toNat? : Json → Option Nat
  | .number text => (Number.ofChars? text).bind Number.toNat?
  | _ => none

def toFloat? : Json → Option Float
  | .number text => (Number.ofChars? text).bind Number.toFloat?
  | _ => none

/-- Reads a value that may be missing. -/
def toOption? {α : Type} (read : Json → Option α) : Json → Option (Option α)
  | .null => some none
  | value => (read value).map some

def toList? {α : Type} (read : Json → Option α) : Json → Option (List α)
  | .array items => items.mapM read
  | _ => none

/-- Reads a map. Of several members with one name the last counts. -/
def toMap? {κ α : Type} [Ord κ] [Std.TransOrd κ] (key : List Char → Option κ)
    (read : Json → Option α) : Json → Option (Std.ExtTreeMap κ α)
  | .object members => do
    let entries ← members.mapM fun (source, value) => do return (← key source, ← read value)
    return Std.ExtTreeMap.ofList entries
  | _ => none

/-- The fields of a record by their names. Members of an object with other names are passed over,
and no field may occur twice. An array may leave out fields at the end. -/
def toRecord? (fields : List String) : Json → Option (List (String × Json))
  | .object members => do
    let named ← members.mapM fun (source, value) => do return (← textKey? source, value)
    let known := named.filter fun (name, _) => fields.contains name
    if (known.map Prod.fst).Nodup then some known else none
  | .array items => if items.length ≤ fields.length then some (fields.zip items) else none
  | _ => none

/-- A field that has to be there. -/
def field? {α : Type} (record : List (String × Json)) (name : String) (read : Json → Option α) :
    Option α :=
  (record.lookup name).bind read

/-- A field that stands for a given value where it is left out. -/
def fieldOr? {α : Type} (record : List (String × Json)) (name : String) (read : Json → Option α)
    (value : α) : Option α :=
  match record.lookup name with
  | some json => read json
  | none => some value

/-- Numbers are written with the fewest digits that read back, in full from 1e-5 up to 1e16. A power
of ten has its sign, and a tie goes to the even digit. -/
def layout : Decimal.Layout := ⟨-5, 16, ['+'], .even⟩

/-- A number as a value. What is not a finite number is left out. -/
def ofFloat (x : Float) : Json :=
  match BinaryFraction.ofFloat? x with
  | some fraction => .number (Decimal.renderFinite layout fraction).toList
  | none => .null

/-- A value that may be missing. -/
def ofOption {α : Type} (write : α → Json) : Option α → Json
  | some value => write value
  | none => .null

def ofList {α : Type} (write : α → Json) (items : List α) : Json := .array (items.map write)

/-- A map as a value, in the order of its keys. -/
def ofMap {κ α : Type} [Ord κ] [Std.TransOrd κ] (key : κ → String) (write : α → Json)
    (entries : Std.ExtTreeMap κ α) : Json :=
  ofMembers (entries.toList.map fun (k, value) => (key k, write value))

end Spreadsheet.Json
