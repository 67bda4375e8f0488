import Spreadsheet.Proofs.Settled
import Spreadsheet.Stored

namespace Spreadsheet

namespace Cell

variable {cell : Cell} {input : String} {style : Option Style}

/-- The cell without what a recalculation has made of it. -/
def entered (cell : Cell) : Cell := { cell with value := cell.content.initialValue }

/-- A cell that its input and its style make, up to the value of a formula. -/
structure IsProper (cell : Cell) : Prop where
  toCell?_eq : (StoredCell.ofCell cell).toCell? = some cell.entered
  value_eq : cell.isFormula = false → cell.value = cell.content.initialValue

theorem ofInput?_eq_map : ofInput? input style =
    (ofInput? input).map fun cell => { cell with style := style } := by
  unfold ofInput?
  split <;> rfl

theorem entered_of_ofInput? (h : ofInput? input style = some cell) :
    cell.input = input ∧ cell.style = style ∧ cell.entered = cell ∧ cell.content ≠ .empty := by
  unfold ofInput? at h
  split at h
  · cases h
  · rename_i hcontent
    obtain rfl := Option.some.inj h
    exact ⟨rfl, rfl, rfl, hcontent⟩

theorem isProper_of_ofInput? (h : ofInput? input style = some cell) : cell.IsProper := by
  obtain ⟨rfl, rfl, hentered, -⟩ := entered_of_ofInput? h
  constructor
  · rw [hentered]
    simp [StoredCell.toCell?, StoredCell.ofCell, h]
  · intro _
    exact congrArg Cell.value hentered.symm

theorem isProper_ofStyle (style : Style) : (ofStyle style).IsProper where
  toCell?_eq := rfl
  value_eq := fun _ => rfl

theorem IsProper.cases (h : cell.IsProper) :
    (∃ style, cell.entered = ofStyle style) ∨ (cell.content ≠ .empty ∧
      ∀ style, ofInput? cell.input style = some { cell.entered with style := style }) := by
  have hcell := h.toCell?_eq
  simp only [StoredCell.toCell?, StoredCell.ofCell] at hcell
  rw [ofInput?_eq_map] at hcell
  cases hinput : ofInput? cell.input with
  | none =>
      rw [hinput] at hcell
      obtain ⟨style, -, hentered⟩ := Option.map_eq_some_iff.mp (by simpa using hcell)
      exact .inl ⟨style, hentered.symm⟩
  | some fresh =>
      obtain ⟨-, -, hfresh, hcontent⟩ := entered_of_ofInput? hinput
      rw [hinput] at hcell
      have hentered : { fresh with style := cell.style } = cell.entered :=
        Option.some.inj (by simpa using hcell)
      refine .inr ⟨fun hempty => hcontent ?_, fun style => ?_⟩
      · exact (congrArg Cell.content hentered).trans hempty
      · rw [ofInput?_eq_map, hinput, ← hentered]
        rfl

theorem IsProper.restyle (h : cell.IsProper) (style : Style) :
    IsProper { cell with style := some style } := by
  refine ⟨?_, h.value_eq⟩
  rcases h.cases with ⟨old, hentered⟩ | ⟨-, hinput⟩
  · simp only [entered, ofStyle, Cell.mk.injEq] at hentered
    obtain ⟨hinput, hcontent, -, -⟩ := hentered
    simp [StoredCell.toCell?, StoredCell.ofCell, entered, hinput, hcontent]
    rfl
  · simp [StoredCell.toCell?, StoredCell.ofCell, hinput, entered]

end Cell

namespace Grid

variable {grid other : Grid} {extent : Extent} {p : Position} {cell : Option Cell}

/-- The grid without what a recalculation has made of it. -/
def entered (grid : Grid) : Grid := grid.map fun _ => Cell.entered

def IsProper (grid : Grid) : Prop :=
  ∀ (p : Position) (cell : Cell), grid[p]? = some cell → cell.IsProper

theorem getElem?_entered : grid.entered[p]? = grid[p]?.map Cell.entered := by
  rw [entered, Std.ExtTreeMap.getElem?_map]

theorem entered_eq_iff :
    grid.entered = other.entered ↔
      ∀ p : Position, grid[p]?.map Cell.entered = other[p]?.map Cell.entered := by
  constructor
  · intro h p
    rw [← getElem?_entered, h, getElem?_entered]
  · intro h
    apply Std.ExtTreeMap.ext_getElem?
    intro p
    rw [getElem?_entered, getElem?_entered, h]

theorem entered_recalculate : (grid.recalculate extent).grid.entered = grid.entered := by
  rw [entered_eq_iff]
  intro p
  rw [getElem?_recalculate, Option.map_map]
  congr 1
  funext cell
  dsimp only [Function.comp_apply]
  split <;> rfl

theorem IsProper.recalculate (h : grid.IsProper) : (grid.recalculate extent).grid.IsProper := by
  intro p cell hcell
  rw [getElem?_recalculate] at hcell
  obtain ⟨before, hbefore, rfl⟩ := Option.map_eq_some_iff.mp hcell
  split
  · rename_i hformula
    refine ⟨(h p before hbefore).toCell?_eq, ?_⟩
    intro hno
    exact absurd hformula (by simpa [Cell.isFormula, Cell.formula?] using hno)
  · exact h p before hbefore

theorem IsProper.alter (h : grid.IsProper) (hcell : ∀ cell' ∈ cell, cell'.IsProper) :
    IsProper (grid.alter p fun _ => cell) := by
  intro q found hfound
  rw [Std.ExtTreeMap.getElem?_alter] at hfound
  split at hfound
  · exact hcell found hfound
  · exact h q found hfound

theorem contents_eq_of_entered (h : grid.entered = other.entered) (p : Position) :
    grid[p]?.map Cell.content = other[p]?.map Cell.content := by
  have hcontent : ∀ cell : Option Cell,
      cell.map Cell.content = (cell.map Cell.entered).map Cell.content := by
    intro cell
    cases cell <;> rfl
  rw [hcontent, entered_eq_iff.mp h p, ← hcontent]

theorem formulas_eq_of_contents
    (h : ∀ p : Position, grid[p]?.map Cell.content = other[p]?.map Cell.content) :
    grid.formulas = other.formulas := by
  have hformula : ∀ cell : Option Cell,
      cell.bind Cell.formula? = (cell.map Cell.content).bind fun content =>
        Cell.formula? ⟨"", content, .empty, none⟩ := by
    intro cell
    cases cell <;> rfl
  apply Std.ExtTreeMap.ext_getElem?
  intro p
  rw [getElem?_formulas, getElem?_formulas, hformula, h p, ← hformula]

theorem valueAt_of_not_mem_formulas (h : grid.IsProper) (hp : p ∉ grid.formulas) :
    grid.valueAt p = (grid[p]?.map fun cell => cell.content.initialValue).getD .empty := by
  unfold valueAt
  cases hcell : grid[p]? with
  | none => rfl
  | some cell =>
      have hformula : cell.isFormula = false := by
        by_contra hformula
        exact hp (mem_formulas_iff.mpr ⟨cell, hcell, by simpa using hformula⟩)
      simp [(h p cell hcell).value_eq hformula]

theorem sameSource_of_contents (h : grid.IsProper) (h' : other.IsProper)
    (hcontents : ∀ p : Position, grid[p]?.map Cell.content = other[p]?.map Cell.content) :
    SameSource grid other where
  formulas_eq := formulas_eq_of_contents hcontents
  valueAt_eq := by
    intro p hp
    have hvalue : ∀ cell : Option Cell, (cell.map fun cell => cell.content.initialValue) =
        (cell.map Cell.content).map Content.initialValue := by
      intro cell
      cases cell <;> rfl
    rw [valueAt_of_not_mem_formulas h hp,
      valueAt_of_not_mem_formulas h' (formulas_eq_of_contents hcontents ▸ hp), hvalue, hvalue,
      hcontents p]

theorem sameSource_of_entered (h : grid.IsProper) (h' : other.IsProper)
    (hentered : grid.entered = other.entered) : SameSource grid other :=
  sameSource_of_contents h h' (contents_eq_of_entered hentered)

theorem IsSettled.eq_of_entered (hsettled : grid.IsSettled extent)
    (hsettled' : other.IsSettled extent) (h : grid.IsProper) (h' : other.IsProper)
    (hentered : grid.entered = other.entered) : grid = other := by
  have hvalue : grid.valueAt = other.valueAt := by
    rw [← isSettled_iff.mp hsettled, ← isSettled_iff.mp hsettled']
    exact (sameSource_of_entered h h' hentered).valueAt_recalculate extent
  apply Std.ExtTreeMap.ext_getElem?
  intro p
  have hcell := entered_eq_iff.mp hentered p
  have hvalueAt := congrFun hvalue p
  unfold valueAt at hvalueAt
  cases hp : grid[p]? with
  | none =>
      rw [hp] at hcell
      exact (Option.map_eq_none_iff.mp hcell.symm).symm
  | some cell =>
      rw [hp] at hcell hvalueAt
      obtain ⟨cell', hp', hentered'⟩ := Option.map_eq_some_iff.mp hcell.symm
      rw [hp'] at hvalueAt ⊢
      cases cell
      cases cell'
      simp_all [Cell.entered]

theorem entered_alter (h : grid.entered = other.entered) {cell' : Option Cell}
    (hcell : cell.map Cell.entered = cell'.map Cell.entered) :
    entered (grid.alter p fun _ => cell) = entered (other.alter p fun _ => cell') := by
  rw [entered_eq_iff]
  intro q
  rw [Std.ExtTreeMap.getElem?_alter, Std.ExtTreeMap.getElem?_alter]
  split
  · exact hcell
  · exact entered_eq_iff.mp h q

end Grid

end Spreadsheet
