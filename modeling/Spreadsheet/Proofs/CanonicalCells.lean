import Spreadsheet.Proofs.Reachable

namespace Spreadsheet

/-- A value that a formula can have. -/
structure Value.IsResult (value : Value) : Prop where
  ne_empty : value ≠ .empty
  isFinite : ∀ n, value = .number n → n.isFinite = true

namespace Value

theorem isResult_fault (f : Fault) : (Value.fault f).IsResult := by
  constructor <;> simp

theorem isResult_text (s : String) : (Value.text s).IsResult := by
  constructor <;> simp

theorem isResult_number {n : Float} (h : n.isFinite = true) : (Value.number n).IsResult := by
  constructor <;> simp [h]

theorem isResult_ofNumber (n : Float) : (ofNumber n).IsResult := by
  unfold ofNumber
  split
  · rename_i hfinite
    exact isResult_number hfinite
  · exact isResult_fault .invalid

end Value

/-- The parts of a formula may be empty or beyond all bounds, but not the whole of it. -/
theorem Expr.isResult_value (look : Position → Value) (e : Expr) : (e.value look).IsResult := by
  unfold Expr.value
  cases e.eval look with
  | empty => exact Value.isResult_number (by decide)
  | number n => exact Value.isResult_ofNumber n
  | text s => exact Value.isResult_text s
  | fault f => exact Value.isResult_fault f

namespace Grid

variable {grid : Grid} {extent : Extent} {p : Position}

theorem isResult_formulaValue (look : Position → Value) :
    (grid.formulaValue extent look p).IsResult := by
  unfold formulaValue
  cases grid.exprAt? extent p with
  | none => exact Value.isResult_fault .invalid
  | some e => exact e.isResult_value look

theorem isResult_recalculate (hp : p ∈ grid.formulas) :
    ((grid.recalculate extent).grid.valueAt p).IsResult := by
  rcases valueAt_recalculate_cases (finalWalk_valued grid extent) hp with ⟨hloop, -⟩ | hvalue
  · rw [hloop]
    exact Value.isResult_fault .loop
  · rw [hvalue]
    exact isResult_formulaValue _

end Grid

theorem Content.isFinite_of_ofChars {cs : List Char} {n : Float} (h : ofChars cs = .number n) :
    n.isFinite = true := by
  unfold ofChars at h
  split at h
  · cases h
  · cases h
  · split at h
    · rename_i m hnumber
      obtain rfl := Content.number.inj h
      unfold number? at hnumber
      dsimp only at hnumber
      split at hnumber
      · exact (Option.filter_eq_some_iff.mp hnumber).2
      · cases hnumber
    · cases h

namespace Cell

variable {cell : Cell}

/-- A cell that can be stored. -/
structure IsCanonical (cell : Cell) : Prop where
  classified : (∃ style, cell = ofStyle style) ∨ ∃ made, ofInput? cell.input = some made ∧
    made.content = cell.content ∧ (cell.isFormula = false → made.value = cell.value)
  holds_something : cell.content ≠ .empty ∨ cell.style.isSome = true
  content_finite : ∀ n, cell.content = .number n → n.isFinite = true
  value_finite : ∀ n, cell.value = .number n → n.isFinite = true
  formula_value : cell.isFormula = true → cell.value ≠ .empty

theorem isCanonical_ofStyle (style : Style) : (ofStyle style).IsCanonical where
  classified := .inl ⟨style, rfl⟩
  holds_something := .inr rfl
  content_finite := by simp [ofStyle]
  value_finite := by simp [ofStyle]
  formula_value := by simp [ofStyle, isFormula, formula?]

theorem content_finite_of_ofInput? {input : String} {n : Float} (h : ofInput? input = some cell)
    (hnumber : cell.content = .number n) : n.isFinite = true := by
  unfold ofInput? at h
  split at h
  · cases h
  · obtain rfl := Option.some.inj h
    exact Content.isFinite_of_ofChars hnumber

theorem IsProper.isCanonical_of_isResult (h : cell.IsProper)
    (hvalue : cell.isFormula = true → cell.value.IsResult) : cell.IsCanonical := by
  rcases h.cases with ⟨style, hentered⟩ | ⟨hcontent, hinput⟩
  · have hempty : cell.content = .empty := congrArg Cell.content hentered
    have hsame : cell = cell.entered := by
      have hstored := h.value_eq (by simp [isFormula, formula?, hempty])
      unfold entered
      rw [← hstored]
    rw [hsame, hentered]
    exact isCanonical_ofStyle style
  · have hfinite : ∀ n, cell.content = .number n → n.isFinite = true :=
      fun n hnumber => content_finite_of_ofInput? (hinput none) hnumber
    refine ⟨.inr ⟨_, hinput none, rfl, fun hno => (h.value_eq hno).symm⟩, .inl hcontent, hfinite,
      ?_, fun hformula => (hvalue hformula).ne_empty⟩
    intro n hnumber
    by_cases hformula : cell.isFormula = true
    · exact (hvalue hformula).isFinite n hnumber
    · rw [h.value_eq (by simpa using hformula)] at hnumber
      cases hcell : cell.content with
      | number m =>
          rw [hcell] at hnumber
          obtain rfl := Value.number.inj hnumber
          exact hfinite m hcell
      | empty | text _ | formula _ =>
          rw [hcell] at hnumber
          cases hnumber

end Cell

theorem Grid.IsSettled.isCanonical_of_getElem? {grid : Grid} {extent : Extent} {p : Position}
    {cell : Cell} (h : grid.IsSettled extent) (hproper : grid.IsProper)
    (hcell : grid[p]? = some cell) : cell.IsCanonical := by
  refine (hproper p cell hcell).isCanonical_of_isResult fun hformula => ?_
  have hvalue : ((grid.recalculate extent).grid.valueAt p).IsResult :=
    isResult_recalculate (mem_formulas_iff.mpr ⟨cell, hcell, hformula⟩)
  rw [h] at hvalue
  simpa [valueAt, hcell] using hvalue

namespace Document

/-- Whatever has been done, the sheets hold nothing but cells that can be stored. -/
theorem Reachable.isCanonical {settings : Settings} {d : Document} (h : Reachable settings d) :
    ∀ sheet ∈ d.workbook.sheets, ∀ (p : Position) (cell : Cell), sheet.cells[p]? = some cell →
      cell.IsCanonical := by
  intro sheet hsheet p cell hcell
  have hproper := (h.wellFormed.workbook.sheets sheet hsheet).isProper
  exact (h.isSettled sheet hsheet).isCanonical_of_getElem? hproper hcell

/-- Numbers beyond all bounds as an input and in formulas, a formula over an empty cell that is
taken back and redone behind another sheet, and a cell that keeps only its style. -/
def boundlessInputs : List Operation :=
  [.write ⟨0, 0⟩ "1e999", .write ⟨0, 1⟩ "=1e999", .write ⟨0, 2⟩ "=MIN(-1e999,A1)",
    .write ⟨1, 0⟩ "=C3", .write ⟨1, 1⟩ "x", .click ⟨1, 1⟩, .toggleStyle .bold,
    .clearContent ⟨1, 1⟩, .undo, .undo, .undo, .undo, .addSheet none, .redo, .redo, .redo, .redo]

theorem isCanonical_boundlessInputs :
    let d := (Session.run ⟨.new .standard, .empty⟩ boundlessInputs).document
    d.workbook.sheets.map (fun sheet =>
      sheet.cells.toList.map fun (p, cell) => (p, cell.content, cell.style.isSome)) =
        [[(⟨0, 0⟩, .text "1e999", false), (⟨0, 1⟩, .formula "1e999", false),
          (⟨0, 2⟩, .formula "MIN(-1e999,A1)", false), (⟨1, 0⟩, .formula "C3", false),
          (⟨1, 1⟩, .empty, true)], []] ∧
      ∃ sheet ∈ d.workbook.sheets, ∃ cell, sheet.cells[(⟨0, 2⟩ : Position)]? = some cell ∧
        cell.content = .formula "MIN(-1e999,A1)" ∧ cell.IsCanonical := by
  intro d
  have h : Reachable .standard d := reachable_run .new boundlessInputs
  have hformula : (d.workbook.sheets[0]?.bind fun sheet =>
      sheet.cells[(⟨0, 2⟩ : Position)]?).map Cell.content = some (.formula "MIN(-1e999,A1)") := by
    decide +kernel
  obtain ⟨cell, hfound, hcontent⟩ := Option.map_eq_some_iff.mp hformula
  obtain ⟨sheet, hsheet, hcell⟩ := Option.bind_eq_some_iff.mp hfound
  have hmem : sheet ∈ d.workbook.sheets := List.mem_of_getElem? hsheet
  exact ⟨by decide +kernel, sheet, hmem, cell, hcell, hcontent, h.isCanonical sheet hmem _ _ hcell⟩

end Document

end Spreadsheet
