import Spreadsheet.Cell
import Spreadsheet.Table

/-!
The history of changes. Each action is recorded with the cells before and after it; undoing moves
the latest record to the actions that can be redone, and a new record makes these void. The number
of actions that can be undone is bounded, and the oldest ones give way.
-/

namespace Spreadsheet

/-- The change of one cell of a sheet. -/
structure Change where
  sheet : Nat
  cell : Position
  previous : Option Cell
  next : Option Cell
deriving DecidableEq

/-- An action that can be undone. -/
inductive Record where
  | single (change : Change)
  | batch (changes : List Change)
  /-- A table put on a sheet together with the changes to its header. -/
  | table (sheet : Nat) (inserted : Table) (changes : List Change)
deriving DecidableEq

namespace Record

/-- The changes of cells in a record. -/
def changes : Record → List Change
  | .single change => [change]
  | .batch changes => changes
  | .table _ _ changes => changes

/-- The part of a record whose places are kept. A table is kept as a whole or not at all. -/
def retain? (keep : Nat → Position → Bool) : Record → Option Record
  | .single change => if keep change.sheet change.cell then some (.single change) else none
  | .batch changes =>
    let kept := changes.filter fun change => keep change.sheet change.cell
    if kept.isEmpty then none else some (.batch kept)
  | .table sheet inserted changes =>
    if keep sheet inserted.range.topLeft && keep sheet inserted.range.bottomRight
        && changes.all (fun change => keep change.sheet change.cell) then
      some (.table sheet inserted changes)
    else none

end Record

/-- The recorded actions, the latest first. -/
structure History where
  undoable : List Record
  redoable : List Record
  capacity : Nat

namespace History

def empty (capacity : Nat) : History := ⟨[], [], capacity⟩

/-- The capacity where nothing else is said. -/
def standardCapacity : Nat := 500

/-- The number of records that the next one pushes out. -/
def excess (h : History) : Nat := h.undoable.length + 1 - h.capacity

def push (h : History) (record : Record) : History :=
  { h with undoable := (record :: h.undoable).take h.capacity, redoable := [] }

def setCapacity (h : History) (capacity : Nat) : History :=
  { h with undoable := h.undoable.take capacity, capacity := capacity }

/-- Records one change. -/
def record (h : History) (change : Change) : History := h.push (.single change)

/-- Records changes as one action; no changes are none. -/
def recordBatch (h : History) : List Change → History
  | [] => h
  | [change] => h.record change
  | changes => h.push (.batch changes)

/-- Records a new table with the changes to its header. -/
def recordTable (h : History) (sheet : Nat) (table : Table) (changes : List Change) : History :=
  h.push (.table sheet table changes)

/-- Takes the latest record, which can be redone from now on. -/
def undo? (h : History) : Option (Record × History) :=
  match h.undoable with
  | [] => none
  | record :: rest => some (record, { h with undoable := rest, redoable := record :: h.redoable })

/-- Takes the latest undone record, which can be undone from now on. -/
def redo? (h : History) : Option (Record × History) :=
  match h.redoable with
  | [] => none
  | record :: rest => some (record, { h with undoable := record :: h.undoable, redoable := rest })

def changeCount (h : History) : Nat :=
  ((h.undoable ++ h.redoable).flatMap Record.changes).length

/-- Leaves out the changes at places that are not kept. -/
def retain (h : History) (keep : Nat → Position → Bool) : History :=
  { h with
    undoable := h.undoable.filterMap (Record.retain? keep)
    redoable := h.redoable.filterMap (Record.retain? keep) }

/-- The places that are not on a sheet. -/
def elsewhere (sheet : Nat) : Nat → Position → Bool := fun id _ => id != sheet

/-- The places that are not on a sheet or within its extent. -/
def elsewhereOrInside (sheet : Nat) (extent : Extent) : Nat → Position → Bool :=
  fun id p => id != sheet || extent.contains p

def dropSheet (h : History) (sheet : Nat) : History := h.retain (elsewhere sheet)

/-- Forgets the changes outside a sheet that has shrunk. -/
def dropOutside (h : History) (sheet : Nat) (extent : Extent) : History :=
  h.retain (elsewhereOrInside sheet extent)

/-- The number of changes that are in one history and not in a later one. -/
def droppedSince (earlier later : History) : Nat := earlier.changeCount - later.changeCount

def clear (h : History) : History := { h with undoable := [], redoable := [] }

end History

end Spreadsheet
