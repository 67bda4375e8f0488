import Spreadsheet.Dependency

namespace Spreadsheet

/-- Repeating a step from a state comes to an end, and this is the result. -/
inductive Yields {State Result : Type} (step : State → State ⊕ Result) :
    State → Result → Prop where
  | now {state : State} {result : Result} (h : step state = .inr result) :
      Yields step state result
  | later {state next : State} {result : Result} (h : step state = .inl next)
      (hrest : Yields step next result) : Yields step state result

namespace DependencyGraph

/-- Adds a cell of a grid. If it holds a formula, the cells that the formula mentions become its
precedents, and it becomes a dependent of each of them. -/
def add (extent : Extent) (graph : DependencyGraph) (entry : Position × Cell) : DependencyGraph :=
  match entry.2.formula? with
  | none => graph
  | some body =>
    let cells := (Mentions.ofText extent body).allCells
    ⟨graph.precedents.insert entry.1 cells,
      cells.foldl (fun dependents cell => addDependent dependents entry.1 cell) graph.dependents⟩

/-- The graph of cells that are found in the order of a list. -/
def ofListed (extent : Extent) (entries : List (Position × Cell)) : DependencyGraph :=
  entries.foldl (add extent) ⟨∅, ∅⟩

/-- What a search for dependents has noted. -/
structure Collecting where
  seen : Std.ExtTreeSet Position
  /-- The cells that are still to be looked at, the next one first. -/
  pending : List Position

/-- Looks at the next pending cell. The latest dependents that were noted are looked at first. -/
def collectNext (graph : DependencyGraph) (state : Collecting) :
    Collecting ⊕ Std.ExtTreeSet Position :=
  match state.pending with
  | [] => .inr state.seen
  | p :: rest =>
    if p ∈ state.seen then .inl ⟨state.seen, rest⟩
    else .inl ⟨state.seen.insert p, (graph.directDependents p).toList.reverse ++ rest⟩

/-- A search for dependents at its beginning. -/
def collecting (graph : DependencyGraph) (p : Position) : Collecting :=
  ⟨∅, (graph.directDependents p).toList.reverse⟩

/-- What a search for a loop has noted. -/
structure Exploring where
  visiting : Std.ExtTreeSet Position
  finished : Std.ExtTreeSet Position
  /-- The cells on the way, the latest first. -/
  way : List Visit

/-- Goes on from the latest cell on the way to its next precedent, or takes the cell off the way. -/
def exploreNext (graph : DependencyGraph) (state : Exploring) :
    Exploring ⊕ Option (List Position) :=
  match state.way with
  | [] => .inr none
  | ⟨cell, []⟩ :: below =>
    .inl ⟨state.visiting.erase cell, state.finished.insert cell, below⟩
  | ⟨cell, p :: pending⟩ :: below =>
    if p ∈ state.visiting then .inr (some ((state.way.map Visit.cell).reverse ++ [p]))
    else if p ∈ state.finished then
      .inl ⟨state.visiting, state.finished, ⟨cell, pending⟩ :: below⟩
    else
      .inl ⟨state.visiting.insert p, state.finished,
        ⟨p, (graph.precedentsAt p).toList⟩ :: ⟨cell, pending⟩ :: below⟩

/-- A search for a loop at its beginning. -/
def exploring (graph : DependencyGraph) (start : Position) : Exploring :=
  ⟨(∅ : Std.ExtTreeSet Position).insert start, ∅, [⟨start, (graph.precedentsAt start).toList⟩]⟩

end DependencyGraph

end Spreadsheet
