import Spreadsheet.Proofs.Recalculation
import Spreadsheet.Sheet

namespace Spreadsheet

namespace Walk

variable {grid other : Grid} {extent : Extent}

theorem look_congr (h : grid.settledValue = other.settledValue) : look grid = look other := by
  funext walk p
  simp only [look, h]

theorem step?_congr (h : grid.settledValue = other.settledValue) (walk : Walk) :
    walk.step? grid extent = walk.step? other extent := by
  unfold step? close
  rw [look_congr h]

theorem run_congr (h : grid.settledValue = other.settledValue) (walk : Walk) :
    walk.run grid extent = walk.run other extent := by
  fun_induction run grid extent walk with
  | case1 walk next hstep ih =>
      rw [step?_congr h] at hstep
      rw [run_of_step hstep, ih]
  | case2 walk hend =>
      rw [step?_congr h] at hend
      rw [run_of_end hend]

end Walk

namespace Grid

variable {grid other : Grid} {extent : Extent} {p : Position} {cell : Option Cell}

/-- Two grids with the same formulas, whose other cells have the same values. -/
structure SameSource (grid other : Grid) : Prop where
  formulas_eq : grid.formulas = other.formulas
  valueAt_eq : ∀ p ∉ grid.formulas, grid.valueAt p = other.valueAt p

/-- Two grids with the same formulas and the same values everywhere. -/
structure SameContents (grid other : Grid) : Prop where
  formulas_eq : grid.formulas = other.formulas
  valueAt_eq : grid.valueAt = other.valueAt

/-- A recalculation changes nothing. -/
def IsSettled (grid : Grid) (extent : Extent) : Prop := (grid.recalculate extent).grid = grid

theorem SameContents.sameSource (h : SameContents grid other) : SameSource grid other where
  formulas_eq := h.formulas_eq
  valueAt_eq := fun p _ => congrFun h.valueAt_eq p

theorem SameSource.settledValue_eq (h : SameSource grid other) :
    grid.settledValue = other.settledValue := by
  funext p
  rw [Grid.settledValue_eq, Grid.settledValue_eq, ← h.formulas_eq]
  split
  · rfl
  · rename_i hp
    exact h.valueAt_eq p hp

theorem SameSource.valueAt_recalculate (h : SameSource grid other) (extent : Extent) :
    (grid.recalculate extent).grid.valueAt = (other.recalculate extent).grid.valueAt := by
  have hsettled := h.settledValue_eq
  rw [Grid.valueAt_recalculate, Grid.valueAt_recalculate, finalWalk, finalWalk, Walk.start,
    Walk.start, h.formulas_eq, Walk.run_congr hsettled, Walk.look_congr hsettled]

theorem sameSource_recalculate (grid : Grid) (extent : Extent) :
    SameSource (grid.recalculate extent).grid grid where
  formulas_eq := formulas_recalculate
  valueAt_eq := by
    intro p hp
    rw [formulas_recalculate] at hp
    rw [recalculate_grid, valueAt_storeValues, if_neg hp]

theorem isSettled_iff :
    grid.IsSettled extent ↔ (grid.recalculate extent).grid.valueAt = grid.valueAt := by
  constructor
  · intro h
    exact congrArg valueAt h
  · intro h
    apply Std.ExtTreeMap.ext_getElem?
    intro p
    rw [getElem?_recalculate, h]
    cases hcell : grid[p]? with
    | none => rfl
    | some cell =>
        have hvalue : grid.valueAt p = cell.value := by simp [valueAt, hcell]
        rw [Option.map_some, hvalue]
        split <;> rfl

theorem IsSettled.valueAt_eq_formulaValue (h : grid.IsSettled extent) (hp : p ∈ grid.formulas)
    (hloop : ¬ grid.OnLoop extent p) :
    grid.valueAt p = grid.formulaValue extent grid.valueAt p := by
  have hcases := valueAt_recalculate_cases (finalWalk_valued grid extent) hp
  rw [h] at hcases
  exact hcases.resolve_left fun hloop' => hloop hloop'.2

/-- A second recalculation changes nothing. -/
theorem isSettled_recalculate (grid : Grid) (extent : Extent) :
    (grid.recalculate extent).grid.IsSettled extent := by
  rw [isSettled_iff]
  exact (sameSource_recalculate grid extent).valueAt_recalculate extent

theorem IsSettled.of_sameContents (h : grid.IsSettled extent) (hsame : SameContents other grid) :
    other.IsSettled extent := by
  rw [isSettled_iff] at h ⊢
  rw [hsame.sameSource.valueAt_recalculate, h, hsame.valueAt_eq]

theorem isSettled_empty (extent : Extent) : (∅ : Grid).IsSettled extent := by
  apply Std.ExtTreeMap.ext_getElem?
  intro p
  simp [getElem?_recalculate]

theorem SameContents.alter (h : SameContents other grid)
    (hformula : cell.bind Cell.formula? = grid[p]?.bind Cell.formula?)
    (hvalue : (cell.map Cell.value).getD .empty = grid.valueAt p) :
    SameContents (other.alter p fun _ => cell) grid where
  formulas_eq := by
    apply Std.ExtTreeMap.ext_getElem?
    intro q
    rw [getElem?_formulas, Std.ExtTreeMap.getElem?_alter]
    by_cases hq : p = q
    · subst hq
      rw [if_pos (by simp), hformula, getElem?_formulas]
    · rw [if_neg (by simpa using hq), ← getElem?_formulas, h.formulas_eq]
  valueAt_eq := by
    funext q
    rw [valueAt, Std.ExtTreeMap.getElem?_alter]
    by_cases hq : p = q
    · subst hq
      rw [if_pos (by simp), hvalue]
    · rw [if_neg (by simpa using hq), ← h.valueAt_eq, valueAt]

end Grid

end Spreadsheet
