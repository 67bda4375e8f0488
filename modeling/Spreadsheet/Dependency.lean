import Spreadsheet.Cell
import Spreadsheet.Formula.Reference

/-!
Dependencies between the cells of a grid: the precedents of a formula are the cells that it
mentions, the dependents of a cell are the formulas that mention it, directly or through other
formulas. A search from a cell along precedents finds a loop if there is one to be reached.
-/

namespace Spreadsheet

/-- The formulas of a grid with the cells that each mentions, and the same seen from these cells. -/
structure DependencyGraph where
  precedents : Std.ExtTreeMap Position (Std.ExtTreeSet Position)
  dependents : Std.ExtTreeMap Position (Std.ExtTreeSet Position)

namespace DependencyGraph

/-- The cells that each formula of a grid mentions. -/
def precedentsOf (grid : Grid) (extent : Extent) :
    Std.ExtTreeMap Position (Std.ExtTreeSet Position) :=
  grid.filterMap fun _ cell => cell.formula?.map fun body => (Mentions.ofText extent body).allCells

/-- Adds a formula to the dependents of a cell. -/
def addDependent (dependents : Std.ExtTreeMap Position (Std.ExtTreeSet Position))
    (formula precedent : Position) : Std.ExtTreeMap Position (Std.ExtTreeSet Position) :=
  dependents.alter precedent fun formulas => some ((formulas.getD ∅).insert formula)

/-- The formulas that mention each cell. -/
def reverse (precedents : Std.ExtTreeMap Position (Std.ExtTreeSet Position)) :
    Std.ExtTreeMap Position (Std.ExtTreeSet Position) :=
  precedents.foldl (fun dependents formula cells =>
    cells.foldl (fun dependents cell => addDependent dependents formula cell) dependents) ∅

def ofGrid (grid : Grid) (extent : Extent) : DependencyGraph :=
  let precedents := precedentsOf grid extent
  ⟨precedents, reverse precedents⟩

/-- The cells that the formula in a cell mentions. -/
def precedentsAt (graph : DependencyGraph) (p : Position) : Std.ExtTreeSet Position :=
  graph.precedents.getD p ∅

/-- The formulas that mention a cell. -/
def directDependents (graph : DependencyGraph) (p : Position) : Std.ExtTreeSet Position :=
  graph.dependents.getD p ∅

/-- Collects all formulas that can be reached from the pending ones along direct dependents.
Formulas that are not unseen any more have been collected before. -/
def collect (graph : DependencyGraph) (unseen : Std.ExtTreeMap Position (Std.ExtTreeSet Position))
    (pending : List Position) (seen : Std.ExtTreeSet Position) : Std.ExtTreeSet Position :=
  match pending with
  | [] => seen
  | p :: rest =>
    if _h : p ∈ unseen then
      collect graph (unseen.erase p) ((graph.directDependents p).toList ++ rest) (seen.insert p)
    else collect graph unseen rest seen
termination_by (unseen.size, pending.length)
decreasing_by
  · exact Prod.Lex.left _ _ (Position.size_erase_lt _h)
  · exact Prod.Lex.right _ (by simp)

/-- The formulas that depend on a cell. The cell is among them exactly when it is on a loop. -/
def allDependents (graph : DependencyGraph) (p : Position) : Std.ExtTreeSet Position :=
  graph.collect graph.precedents (graph.directDependents p).toList ∅

end DependencyGraph

/-- A cell on the way of a search, with the precedents that are still to be looked at. -/
structure Visit where
  cell : Position
  pending : List Position

namespace Visit

/-- What is left to do: a step for each precedent, and one for each cell on the way. -/
def work (way : List Visit) : Nat :=
  (way.flatMap Visit.pending).length + way.length

end Visit

namespace DependencyGraph

/-- Where a search stands: a cell is on the way, or done without a loop. -/
inductive Mark where
  | onWay
  | done
deriving DecidableEq

/-- Searches for a loop depth first. The cells of formulas that have not been reached are `unseen`;
cells without a formula have no precedents and lead nowhere. -/
def search (graph : DependencyGraph) (unseen : Std.ExtTreeMap Position (Std.ExtTreeSet Position))
    (marks : Std.ExtTreeMap Position Mark) (way : List Visit) : Option (List Position) :=
  match way with
  | [] => none
  | ⟨cell, []⟩ :: below => search graph unseen (marks.insert cell .done) below
  | ⟨cell, p :: pending⟩ :: below =>
    if marks[p]? = some .onWay then
      some ((way.map Visit.cell).reverse ++ [p])
    else if h : p ∈ unseen then
      search graph (unseen.erase p) (marks.insert p .onWay)
        (⟨p, unseen[p].toList⟩ :: ⟨cell, pending⟩ :: below)
    else search graph unseen marks (⟨cell, pending⟩ :: below)
termination_by (unseen.size, Visit.work way)
decreasing_by
  · exact Prod.Lex.right _ (by simp [Visit.work])
  · exact Prod.Lex.left _ _ (Position.size_erase_lt h)
  · exact Prod.Lex.right _ (by simp [Visit.work])

/-- The way from a cell into a loop, if there is one: each cell is followed by one of its
precedents, and the last one has come before. -/
def loopFrom (graph : DependencyGraph) (p : Position) : Option (List Position) :=
  graph.search (graph.precedents.erase p) (Std.ExtTreeMap.ofList [(p, Mark.onWay)])
    [⟨p, (graph.precedentsAt p).toList⟩]

end DependencyGraph

end Spreadsheet
