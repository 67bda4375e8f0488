import Mathlib.Data.List.Chain
import Mathlib.Logic.Relation
import Spreadsheet.Recalculation

/-!
Which cells the formulas of a grid read, the loops that these reads form, and what a formula is
worth. A value depends on nothing but the values of the cells that are read.
-/

namespace Spreadsheet

theorem transGen_of_isChain {α : Type} {r : α → α → Prop} {a x : α} {l : List α}
    (h : (a :: l).IsChain r) (hback : r ((a :: l).getLast (List.cons_ne_nil a l)) a)
    (hx : x ∈ a :: l) : Relation.TransGen r x x := by
  have hfrom : ∀ y ∈ a :: l, Relation.ReflTransGen r a y :=
    h.induction (Relation.ReflTransGen r a ·) _ (fun _ _ hyz hay => hay.tail hyz)
      fun _ => .refl
  have hto : ∀ y ∈ a :: l,
      Relation.ReflTransGen r y ((a :: l).getLast (List.cons_ne_nil a l)) :=
    h.backwards_induction (Relation.ReflTransGen r · _) _ (fun _ _ hyz hz => hz.head hyz)
      fun _ => .refl
  exact (Relation.TransGen.tail' (hto x hx) hback).trans_left (hfrom x hx)

namespace Expr

variable {look look' : Position → Value}

mutual

theorem eval_congr {e : Expr} (h : ∀ p ∈ e.reads, look p = look' p) :
    e.eval look = e.eval look' := by
  match e with
  | .number n => simp only [eval]
  | .cell p => simpa only [eval] using h p (by simp [reads])
  | .range r => simp only [eval]
  | .literal text => simp only [eval]
  | .negate operand =>
      have hoperand : operand.eval look = operand.eval look' :=
        eval_congr fun p hp => h p (by simpa only [reads] using hp)
      simp only [eval, hoperand]
  | .binary operator left right =>
      have hleft : left.eval look = left.eval look' :=
        eval_congr fun p hp => h p (by simp only [reads, List.mem_append, hp, true_or])
      have hright : right.eval look = right.eval look' :=
        eval_congr fun p hp => h p (by simp only [reads, List.mem_append, hp, or_true])
      simp only [eval, hleft, hright]
  | .call name given =>
      have hgiven : gather look given = gather look' given :=
        gather_congr fun p hp => h p (by simpa only [reads] using hp)
      simp only [eval, hgiven]

theorem gather_congr {given : List Expr} (h : ∀ p ∈ readsOfArguments given, look p = look' p) :
    gather look given = gather look' given := by
  match given with
  | [] => simp only [gather]
  | e :: rest =>
      have hrest : gather look rest = gather look' rest :=
        gather_congr fun p hp => h p (by cases e <;> simp [readsOfArguments, hp])
      cases e with
      | range r =>
          have hmembers : r.cells.filterMap (fun p => (look p).number?) =
              r.cells.filterMap (fun p => (look' p).number?) :=
            List.filterMap_congr fun p hp => by
              rw [h p (by simp [readsOfArguments, hp])]
          simp only [gather, hmembers, hrest]
      | cell p =>
          have hcell : look p = look' p := h p (by simp [readsOfArguments, reads])
          simp only [gather, hcell, hrest]
      | literal text => simpa only [gather] using hrest
      | number n => simp only [gather, eval, hrest]
      | negate operand =>
          have he : (Expr.negate operand).eval look = (Expr.negate operand).eval look' :=
            eval_congr fun p hp => h p (by simp [readsOfArguments, hp])
          simp only [gather, he, hrest]
      | binary operator left right =>
          have he : (Expr.binary operator left right).eval look =
              (Expr.binary operator left right).eval look' :=
            eval_congr fun p hp => h p (by simp [readsOfArguments, hp])
          simp only [gather, he, hrest]
      | call name inner =>
          have he : (Expr.call name inner).eval look = (Expr.call name inner).eval look' :=
            eval_congr fun p hp => h p (by simp [readsOfArguments, hp])
          simp only [gather, he, hrest]

end

theorem value_congr {e : Expr} (h : ∀ p ∈ e.reads, look p = look' p) :
    e.value look = e.value look' := by
  rw [value, value, eval_congr h]

end Expr

namespace Grid

variable {grid : Grid} {extent : Extent} {p q : Position}

/-- The value that is stored in a cell. Positions without a cell are empty. -/
def valueAt (grid : Grid) (p : Position) : Value := (grid[p]?.map Cell.value).getD .empty

/-- A grid with another cell at a position, or none. -/
def replace (grid : Grid) (p : Position) (cell : Option Cell) : Grid := grid.alter p fun _ => cell

/-- The formula in a cell, if there is one that can be read. -/
def exprAt? (grid : Grid) (extent : Extent) (p : Position) : Option Expr :=
  grid.formulas[p]?.bind fun body => (parseFormula extent body).toOption

/-- The cells that the formula in a cell reads. A formula that cannot be read reads none. -/
def readsAt (grid : Grid) (extent : Extent) (p : Position) : List Position :=
  ((grid.exprAt? extent p).map Expr.reads).getD []

/-- The formula in the first cell reads the second cell. -/
def Reads (grid : Grid) (extent : Extent) (p q : Position) : Prop := q ∈ grid.readsAt extent p

/-- A cell lies on a loop if reads lead from it over other formulas back to it. -/
def OnLoop (grid : Grid) (extent : Extent) (p : Position) : Prop :=
  Relation.TransGen (grid.Reads extent) p p

/-- No reads lead from a cell to a loop. -/
def LeadsToNoLoop (grid : Grid) (extent : Extent) (p : Position) : Prop :=
  ∀ q, Relation.ReflTransGen (grid.Reads extent) p q → ¬ grid.OnLoop extent q

/-- What the formula in a cell is worth, given the values of the cells. -/
def formulaValue (grid : Grid) (extent : Extent) (look : Position → Value) (p : Position) :
    Value :=
  ((grid.exprAt? extent p).map (Expr.value look)).getD (.fault .invalid)

theorem getElem?_formulas : grid.formulas[p]? = grid[p]?.bind Cell.formula? := by
  rw [formulas, Std.ExtTreeMap.getElem?_filterMap']

theorem mem_formulas_iff :
    p ∈ grid.formulas ↔ ∃ cell, grid[p]? = some cell ∧ cell.isFormula = true := by
  rw [Std.ExtTreeMap.mem_iff_isSome_getElem?, getElem?_formulas, Option.isSome_bind]
  cases hcell : grid[p]? with
  | none => simp
  | some cell => simp [Cell.isFormula]

theorem settledValue_eq :
    grid.settledValue p = if p ∈ grid.formulas then .fault .invalid else grid.valueAt p := by
  unfold settledValue valueAt
  cases hcell : grid[p]? with
  | none => simp [mem_formulas_iff, hcell]
  | some cell => simp [mem_formulas_iff, hcell]

theorem mem_formulas_of_reads (h : grid.Reads extent p q) : p ∈ grid.formulas := by
  rw [Std.ExtTreeMap.mem_iff_isSome_getElem?]
  cases hbody : grid.formulas[p]? with
  | none => simp [Reads, readsAt, exprAt?, hbody] at h
  | some body => rfl

theorem OnLoop.mem_formulas (h : grid.OnLoop extent p) : p ∈ grid.formulas := by
  obtain ⟨q, hreads, -⟩ := Relation.TransGen.head'_iff.mp h
  exact mem_formulas_of_reads hreads

theorem formulaValue_congr {look look' : Position → Value}
    (h : ∀ q ∈ grid.readsAt extent p, look q = look' q) :
    grid.formulaValue extent look p = grid.formulaValue extent look' p := by
  unfold formulaValue
  cases he : grid.exprAt? extent p with
  | none => rfl
  | some e =>
      simp only [Option.map_some, Option.getD_some]
      exact Expr.value_congr fun q hq => h q (by simpa [readsAt, he] using hq)

variable {value : Position → Value}

theorem getElem?_storeValues :
    (grid.storeValues value)[p]? =
      grid[p]?.map fun cell => if cell.isFormula then { cell with value := value p } else cell := by
  rw [storeValues, Std.ExtTreeMap.getElem?_map]

theorem formulas_storeValues : (grid.storeValues value).formulas = grid.formulas := by
  apply Std.ExtTreeMap.ext_getElem?
  intro p
  rw [getElem?_formulas, getElem?_formulas, getElem?_storeValues]
  cases grid[p]? with
  | none => rfl
  | some cell =>
      simp only [Option.map_some, Option.bind_some]
      split <;> rfl

theorem valueAt_storeValues :
    (grid.storeValues value).valueAt p =
      if p ∈ grid.formulas then value p else grid.valueAt p := by
  unfold valueAt
  rw [getElem?_storeValues]
  cases hcell : grid[p]? with
  | none => simp [mem_formulas_iff, hcell]
  | some cell =>
      by_cases hformula : cell.isFormula = true <;> simp [mem_formulas_iff, hcell, hformula]

end Grid

end Spreadsheet
