import Spreadsheet.Cell
import Spreadsheet.Evaluation
import Spreadsheet.Formula.Grammar
import Spreadsheet.Notice

/-!
Recalculation of a grid. A walk goes depth first from each formula to the formulas that it reads and
evaluates a formula once all of them have a value. A formula that is read while it is itself under
way closes a loop: it and all formulas opened since are on the loop.

The walk keeps the formulas under way on a stack of its own. Each step opens a formula for the first
time, or takes away one of the reads and formulas that are still to be looked at, so the walk ends.
-/

namespace Spreadsheet

/-- A formula under way: its cells are being walked one after the other. -/
structure Frame where
  cell : Position
  /-- The formula, if it can be read. -/
  formula : Option Expr
  /-- The cells that it reads and that are still to be looked at. -/
  pending : List Position

/-- How far a formula has come. -/
inductive Progress where
  /-- It is on the stack. -/
  | underWay
  /-- It is on the stack and on a loop. -/
  | looped
  | done (value : Value)

/-- A walk over the formulas of a grid. -/
structure Walk where
  /-- The formulas that have not been reached yet. -/
  fresh : Std.ExtTreeMap Position String
  /-- The formulas that have been reached. -/
  progress : Std.ExtTreeMap Position Progress
  /-- The formulas under way, the latest first. -/
  stack : List Frame
  /-- The cells from which the walk is still to start. -/
  roots : List Position
  /-- What happened, the latest first. -/
  notices : List Notice

namespace Grid

/-- The value of a cell that needs no recalculation. -/
def settledValue (grid : Grid) (p : Position) : Value :=
  match grid[p]? with
  | none => .empty
  | some cell => if cell.isFormula then .fault .invalid else cell.value

def formulas (grid : Grid) : Std.ExtTreeMap Position String :=
  grid.filterMap fun _ cell => cell.formula?

end Grid

namespace Frame

/-- The frame of a formula that is opened. -/
def ofExpr (cell : Position) (formula : Option Expr) : Frame :=
  ⟨cell, formula, (formula.map Expr.reads).getD []⟩

/-- What is left to do for frames: a step for each read, and one for each formula. -/
def work (frames : List Frame) : Nat :=
  (frames.flatMap Frame.pending).length + frames.length

end Frame

namespace Walk

/-- A walk that starts from the given cells in their order. -/
def start (grid : Grid) (roots : List Position) : Walk :=
  ⟨grid.formulas, ∅, [], roots, []⟩

/-- The value of a cell as far as the walk has come. -/
def look (grid : Grid) (walk : Walk) (p : Position) : Value :=
  match walk.progress[p]? with
  | some (.done value) => value
  | some .looped => .fault .loop
  | some .underWay => .fault .invalid
  | none => grid.settledValue p

/-- Marks the formulas from the top of the stack down to the one that closes the loop. -/
def closeLoop (closing : Position) (progress : Std.ExtTreeMap Position Progress) :
    List Frame → Std.ExtTreeMap Position Progress
  | [] => progress
  | frame :: below =>
    let marked := progress.insert frame.cell .looped
    if frame.cell = closing then marked else closeLoop closing marked below

def openFormula (extent : Extent) (walk : Walk) (p : Position) (body : String) : Walk :=
  let parsed := parseFormula extent body
  { walk with
    fresh := walk.fresh.erase p
    progress := walk.progress.insert p .underWay
    stack := Frame.ofExpr p parsed.toOption :: walk.stack
    notices := match parsed with
      | .ok _ => walk.notices
      | .error reason => .unreadableFormula body reason :: walk.notices }

/-- Looks at a cell: opens a formula that has not been reached, closes a loop at a formula that is
under way, and passes over all other cells. -/
def visit (extent : Extent) (walk : Walk) (p : Position) : Walk :=
  match walk.fresh[p]? with
  | some body => openFormula extent walk p body
  | none =>
    match walk.progress[p]? with
    | some .underWay => { walk with progress := closeLoop p walk.progress walk.stack }
    | some .looped => { walk with progress := closeLoop p walk.progress walk.stack }
    | some (.done _) => walk
    | none => walk

/-- Ends the formula on top of the stack, whose reads have all been looked at. -/
def close (grid : Grid) (walk : Walk) (frame : Frame) (below : List Frame) : Walk :=
  match walk.progress[frame.cell]?, frame.formula with
  | some .looped, _ =>
    { walk with
      stack := below
      progress := walk.progress.insert frame.cell (.done (.fault .loop)) }
  | _, some e =>
    { walk with
      stack := below
      progress := walk.progress.insert frame.cell (.done (e.value (walk.look grid)))
      notices := (e.unknownFunctions.map Notice.unknownFunction).reverse ++ walk.notices }
  | _, none =>
    { walk with
      stack := below
      progress := walk.progress.insert frame.cell (.done (.fault .invalid)) }

/-- One step of a walk, until nothing is left to do. -/
def step? (grid : Grid) (extent : Extent) (walk : Walk) : Option Walk :=
  match walk.stack, walk.roots with
  | ⟨cell, formula, p :: pending⟩ :: below, _ =>
    some (visit extent { walk with stack := ⟨cell, formula, pending⟩ :: below } p)
  | ⟨cell, formula, []⟩ :: below, _ => some (close grid walk ⟨cell, formula, []⟩ below)
  | [], p :: roots => some (visit extent { walk with roots := roots } p)
  | [], [] => none

/-- What is left to do besides the formulas that have not been reached. -/
def work (walk : Walk) : Nat := Frame.work walk.stack + walk.roots.length

theorem visit_decreases (extent : Extent) (walk : Walk) (p : Position) :
    (visit extent walk p).fresh.size < walk.fresh.size ∨
      (visit extent walk p).fresh = walk.fresh ∧ (visit extent walk p).work = walk.work := by
  unfold visit
  split
  · rename_i body h
    left
    have hmem : p ∈ walk.fresh := by
      rw [Std.ExtTreeMap.mem_iff_isSome_getElem?, h]
      rfl
    exact Position.size_erase_lt hmem
  · right
    split <;> exact ⟨rfl, rfl⟩

theorem step?_decreases {grid : Grid} {extent : Extent} {walk next : Walk}
    (h : walk.step? grid extent = some next) :
    next.fresh.size < walk.fresh.size ∨
      (next.fresh.size = walk.fresh.size ∧ next.work < walk.work) := by
  unfold step? at h
  split at h
  · rename_i cell formula p pending below hstack
    obtain rfl := Option.some.inj h
    rcases visit_decreases extent { walk with stack := ⟨cell, formula, pending⟩ :: below } p with
      hfresh | ⟨hfresh, hwork⟩
    · exact .inl hfresh
    · refine .inr ⟨congrArg Std.ExtTreeMap.size hfresh, ?_⟩
      rw [hwork]
      simp only [work, Frame.work, hstack, List.flatMap_cons, List.length_append,
        List.length_cons]
      omega
  · rename_i cell formula below hstack
    obtain rfl := Option.some.inj h
    right
    unfold close
    split <;> simp [work, Frame.work, hstack]
  · rename_i p roots hstack hroots
    obtain rfl := Option.some.inj h
    rcases visit_decreases extent { walk with roots := roots } p with hfresh | ⟨hfresh, hwork⟩
    · exact .inl hfresh
    · refine .inr ⟨congrArg Std.ExtTreeMap.size hfresh, ?_⟩
      rw [hwork]
      simp [work, hroots]
  · simp at h

/-- Takes a walk to its end. -/
def run (grid : Grid) (extent : Extent) (walk : Walk) : Walk :=
  match _h : walk.step? grid extent with
  | some next => run grid extent next
  | none => walk
termination_by (walk.fresh.size, walk.work)
decreasing_by
  rcases step?_decreases _h with hfresh | ⟨hfresh, hwork⟩
  · exact Prod.Lex.left _ _ hfresh
  · rw [hfresh]
    exact Prod.Lex.right _ hwork

end Walk

/-- How a recalculation ended. -/
structure Summary where
  formulas : Nat
  errors : Nat
  loops : Nat
deriving DecidableEq, Repr

/-- A recalculated grid. -/
structure Recalculation where
  grid : Grid
  summary : Summary
  notices : List Notice

namespace Grid

/-- Stores new values in the cells with formulas. -/
def storeValues (grid : Grid) (value : Position → Value) : Grid :=
  grid.map fun p cell => if cell.isFormula then { cell with value := value p } else cell

/-- Counts the formulas by the faults that they hold. -/
def summary (grid : Grid) : Summary :=
  let values := (grid.toList.map Prod.snd).filter Cell.isFormula |>.map Cell.value
  ⟨values.length, values.count (.fault .invalid), values.count (.fault .loop)⟩

/-- Gives each formula of a grid its value. -/
def recalculate (grid : Grid) (extent : Extent) : Recalculation :=
  let walk := (Walk.start grid grid.formulas.keys).run grid extent
  let stored := grid.storeValues (walk.look grid)
  let summary := stored.summary
  ⟨stored, summary,
    walk.notices.reverse ++ [.recalculated summary.formulas summary.errors summary.loops]⟩

/-- The value of a formula on a grid, which stays as it is. -/
def evaluate (grid : Grid) (extent : Extent) (body : String) : Value × List Notice :=
  match parseFormula extent body with
  | .error reason => (.fault .invalid, [.unreadableFormula body reason])
  | .ok e =>
    let walk := (Walk.start grid e.reads).run grid extent
    (e.value (walk.look grid),
      walk.notices.reverse ++ e.unknownFunctions.map Notice.unknownFunction)

/-- The value of a formula with or without an equals sign in front of it. -/
def evaluateInput (grid : Grid) (extent : Extent) (text : String) : Value × List Notice :=
  match text.toList with
  | '=' :: body => grid.evaluate extent (String.ofList body)
  | _ => grid.evaluate extent text

end Grid

end Spreadsheet
