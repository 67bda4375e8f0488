import Spreadsheet.Proofs.CsvText
import Spreadsheet.Proofs.Reachable

namespace Spreadsheet

theorem Cell.IsProper.content_ne_empty_iff {cell : Cell} (h : cell.IsProper) :
    cell.content ≠ .empty ↔ cell.input ≠ "" := by
  rcases h.cases with ⟨style, hentered⟩ | ⟨hcontent, hinput⟩
  · have hinput : cell.input = "" := congrArg Cell.input hentered
    have hcontent : cell.content = .empty := congrArg Cell.content hentered
    simp [hinput, hcontent]
  · refine ⟨fun _ hempty => ?_, fun _ => hcontent⟩
    have hcell := hinput none
    rw [hempty] at hcell
    cases hcell

namespace Sheet

variable {sheet : Sheet} {p : Position} {cell : Cell} {used : Range}

/-- The cells of a sheet that hold something, without their styles. -/
def contents (sheet : Sheet) : Grid :=
  (sheet.cells.filter fun _ cell => decide (cell.content ≠ .empty)).map fun _ cell =>
    { cell with style := none }

theorem getElem?_contents_eq_some {bare : Cell} : sheet.contents[p]? = some bare ↔
    ∃ cell, sheet.cells[p]? = some cell ∧ cell.content ≠ .empty ∧
      { cell with style := none } = bare := by
  unfold contents
  rw [Std.ExtTreeMap.getElem?_map, Option.map_eq_some_iff]
  simp only [SortedMap.getElem?_filter_eq_some, decide_eq_true_eq, and_assoc]

theorem isProper_contents (hproper : sheet.cells.IsProper) : sheet.contents.IsProper := by
  intro p bare hbare
  obtain ⟨cell, hcell, hcontent, rfl⟩ := Sheet.getElem?_contents_eq_some.mp hbare
  rcases (hproper p cell hcell).cases with ⟨style, hentered⟩ | ⟨-, hinput⟩
  · exact absurd (congrArg Cell.content hentered) hcontent
  · refine ⟨?_, (hproper p cell hcell).value_eq⟩
    simp [StoredCell.toCell?, StoredCell.ofCell, hinput, Cell.entered]

theorem isSettled_contents (hsettled : sheet.IsSettled) (hproper : sheet.cells.IsProper) :
    sheet.contents.IsSettled sheet.extent := by
  have hcell : ∀ p, sheet.contents[p]?.bind Cell.formula? = sheet.cells[p]?.bind Cell.formula? ∧
      sheet.contents.valueAt p = sheet.cells.valueAt p := by
    intro p
    unfold Grid.valueAt
    have hbare : sheet.contents[p]? = (sheet.cells[p]?.filter fun cell =>
        decide (cell.content ≠ .empty)).map fun cell => { cell with style := none } := by
      rw [Sheet.contents, Std.ExtTreeMap.getElem?_map, Std.ExtTreeMap.getElem?_filter']
    rw [hbare]
    cases hcell : sheet.cells[p]? with
    | none => exact ⟨rfl, rfl⟩
    | some cell =>
        by_cases hcontent : cell.content = .empty
        · have hvalue : cell.value = .empty := by
            rw [(hproper p cell hcell).value_eq (by simp [Cell.isFormula, Cell.formula?, hcontent]),
              hcontent]
            rfl
          simp [Option.filter_some, hcontent, hvalue, Cell.formula?]
        · simp [Option.filter_some, hcontent, Cell.formula?]
  refine Grid.IsSettled.of_sameContents hsettled ⟨?_, funext fun p => (hcell p).2⟩
  apply Std.ExtTreeMap.ext_getElem?
  intro p
  rw [Grid.getElem?_formulas, Grid.getElem?_formulas]
  exact (hcell p).1

theorem mem_keys_used : p ∈ (sheet.cells.filter fun _ cell => !cell.input.isEmpty).keys ↔
    ∃ cell, sheet.cells[p]? = some cell ∧ cell.input ≠ "" := by
  rw [Std.ExtTreeMap.mem_keys, Std.ExtTreeMap.mem_iff_isSome_getElem?, Option.isSome_iff_exists]
  simp

theorem isBounding_usedRange (hused : sheet.usedRange = some used) : used.IsBounding
    (⟨0, 0⟩ :: (sheet.cells.filter fun _ cell => !cell.input.isEmpty).keys) := by
  unfold usedRange at hused
  dsimp only at hused
  split at hused
  · cases hused
  · exact Range.isBounding_of_bounding? hused

theorem usedRange_spec (hused : sheet.usedRange = some used) :
    used.topLeft = ⟨0, 0⟩ ∧ ∀ (p : Position) (cell : Cell), sheet.cells[p]? = some cell →
      cell.input ≠ "" → p.row ≤ used.bottomRight.row ∧ p.col ≤ used.bottomRight.col := by
  have hbounding := isBounding_usedRange hused
  have hfirst := Range.contains_iff.mp (hbounding.holds _ List.mem_cons_self)
  constructor
  · calc used.topLeft = ⟨used.topLeft.row, used.topLeft.col⟩ := rfl
      _ = ⟨0, 0⟩ := by rw [Nat.le_zero.mp hfirst.1.1, Nat.le_zero.mp hfirst.2.1]
  · intro p cell hcell hinput
    have hp := mem_keys_used.mpr ⟨cell, hcell, hinput⟩
    have hheld := Range.contains_iff.mp (hbounding.holds p (List.mem_cons_of_mem _ hp))
    exact ⟨hheld.1.2, hheld.2.2⟩

theorem exists_usedRange (hcell : sheet.cells[p]? = some cell) (hinput : cell.input ≠ "") :
    ∃ used, sheet.usedRange = some used := by
  have hne := List.ne_nil_of_mem (mem_keys_used.mpr ⟨cell, hcell, hinput⟩)
  unfold usedRange
  dsimp only
  rw [if_neg (by simpa using hne)]
  exact ⟨_, rfl⟩

theorem getElem?_rowCells {row col : Nat} (htop : used.topLeft = ⟨0, 0⟩) :
    (used.rowCells row)[col]? = if col ≤ used.bottomRight.col then some ⟨row, col⟩ else none := by
  unfold Range.rowCells
  rw [htop, List.getElem?_map]
  dsimp only
  by_cases hcol : col ≤ used.bottomRight.col
  · rw [if_pos hcol, List.getElem?_range' (by omega)]
    simp
  · rw [if_neg hcol, List.getElem?_eq_none (by rw [List.length_range']; omega)]
    rfl

/-- The chosen rows come back, each with one field for each column up to the last one in use. -/
theorem records_usedText (hused : sheet.usedRange = some used) (htop : used.topLeft = ⟨0, 0⟩)
    (row : Nat → Bool) (text : Position → String) : Csv.records (sheet.usedText row text) =
      ((List.range (used.bottomRight.row + 1)).filter row).map fun r =>
        (used.rowCells r).map text := by
  unfold usedText
  rw [hused]
  refine Csv.records_write fun fields hfields => ?_
  obtain ⟨r, -, rfl⟩ := List.mem_map.mp hfields
  intro hempty
  have hfirst : (used.rowCells r)[0]? = some ⟨r, 0⟩ := by
    rw [getElem?_rowCells htop, if_pos (Nat.zero_le _)]
  rw [List.map_eq_nil_iff.mp hempty] at hfirst
  cases hfirst

theorem records_inputText (hused : sheet.usedRange = some used) (htop : used.topLeft = ⟨0, 0⟩) :
    Csv.records sheet.inputText = (List.range (used.bottomRight.row + 1)).map fun row =>
      (used.rowCells row).map sheet.input := by
  unfold inputText
  rw [records_usedText hused htop, List.filter_eq_self.mpr fun _ _ => rfl]

end Sheet

namespace Document

variable {sheet : Sheet} {p : Position} {input : String}

theorem mem_recordInputs {records : List (List String)} : (p, input) ∈ recordInputs records ↔
    input ≠ "" ∧ ∃ fields, records[p.row]? = some fields ∧ fields[p.col]? = some input := by
  unfold recordInputs
  simp only [List.mem_flatMap, List.mem_filterMap, Prod.exists, List.mem_zipIdx_iff_getElem?,
    Option.ite_none_left_eq_some, Option.some.injEq, Prod.mk.injEq]
  constructor
  · rintro ⟨fields, row, hrow, field, col, hcol, hne, rfl, rfl⟩
    exact ⟨by simpa using hne, fields, hrow, hcol⟩
  · rintro ⟨hne, fields, hrow, hcol⟩
    exact ⟨fields, p.row, hrow, input, p.col, hcol, by simpa using hne, rfl, rfl⟩

theorem mem_recordInputs_inputText (hproper : sheet.cells.IsProper)
    (hcontent : sheet.contents ≠ ∅) :
    (p, input) ∈ recordInputs (Csv.records sheet.inputText) ↔
      ∃ bare, sheet.contents[p]? = some bare ∧ bare.input = input := by
  have hholds : ∀ {p : Position} {bare : Cell}, sheet.contents[p]? = some bare →
      ∃ cell, sheet.cells[p]? = some cell ∧ cell.input ≠ "" ∧ bare.input = cell.input := by
    intro p bare hbare
    obtain ⟨cell, hcell, hne, rfl⟩ := Sheet.getElem?_contents_eq_some.mp hbare
    exact ⟨cell, hcell, (hproper p cell hcell).content_ne_empty_iff.mp hne, rfl⟩
  obtain ⟨used, hused⟩ : ∃ used, sheet.usedRange = some used := by
    by_contra hnone
    refine hcontent (Std.ExtTreeMap.ext_getElem? fun p => ?_)
    rw [Std.ExtTreeMap.getElem?_empty]
    cases hbare : sheet.contents[p]? with
    | none => rfl
    | some bare =>
        obtain ⟨cell, hcell, hinput, -⟩ := hholds hbare
        exact absurd (Sheet.exists_usedRange hcell hinput) hnone
  obtain ⟨htop, hinside⟩ := Sheet.usedRange_spec hused
  rw [mem_recordInputs, Sheet.records_inputText hused htop]
  constructor
  · rintro ⟨hne, fields, hrow, hcol⟩
    rw [List.getElem?_map, Option.map_eq_some_iff] at hrow
    obtain ⟨row, hrow, rfl⟩ := hrow
    obtain rfl : row = p.row := by
      obtain ⟨hlt, hget⟩ := List.getElem?_eq_some_iff.mp hrow
      rw [← hget, List.getElem_range]
    rw [List.getElem?_map, Sheet.getElem?_rowCells htop] at hcol
    split at hcol
    · obtain rfl := Option.some.inj hcol
      have hcell : ∃ cell, sheet.cells[p]? = some cell ∧ sheet.input p = cell.input := by
        unfold Sheet.input at hne ⊢
        cases hcell : sheet.cells[p]? with
        | none => simp [hcell] at hne
        | some cell => exact ⟨cell, rfl, rfl⟩
      obtain ⟨cell, hcell, hinput⟩ := hcell
      have hcontent := (hproper p cell hcell).content_ne_empty_iff.mpr (hinput ▸ hne)
      exact ⟨{ cell with style := none },
        Sheet.getElem?_contents_eq_some.mpr ⟨cell, hcell, hcontent, rfl⟩, hinput.symm⟩
    · cases hcol
  · rintro ⟨bare, hbare, rfl⟩
    obtain ⟨cell, hcell, hinput, hsame⟩ := hholds hbare
    obtain ⟨hrow, hcol⟩ := hinside p cell hcell hinput
    refine ⟨hsame ▸ hinput, (used.rowCells p.row).map sheet.input, ?_, ?_⟩
    · rw [List.getElem?_map, List.getElem?_range (Nat.lt_succ_of_le hrow)]
      rfl
    · rw [List.getElem?_map, Sheet.getElem?_rowCells htop, if_pos hcol, Option.map_some]
      simp [Sheet.input, hcell, hsame]

theorem next_enterAll {inputs : List (Position × String)}
    (hnodup : (inputs.map Prod.fst).Nodup)
    (hinside : ∀ entry ∈ inputs, sheet.extent.contains entry.1 = true) :
    ∀ change ∈ (enterAll sheet inputs).2, ∃ input, (change.cell, input) ∈ inputs ∧
      change.next = Cell.ofInput? input (sheet.style? change.cell) := by
  induction inputs generalizing sheet with
  | nil => simp [enterAll]
  | cons entry rest ih =>
      obtain ⟨p, input⟩ := entry
      rw [List.map_cons, List.nodup_cons] at hnodup
      have hrest : ∀ entry ∈ rest, sheet.extent.contains entry.1 = true :=
        fun entry hentry => hinside entry (List.mem_cons_of_mem _ hentry)
      intro change hchange
      rcases List.mem_cons.mp hchange with rfl | hchange
      · exact ⟨input, List.mem_cons_self, rfl⟩
      · obtain ⟨other, hother, hnext⟩ :=
          @ih (sheet.put p (sheet.entered p input)) hnodup.2 hrest change hchange
        refine ⟨other, List.mem_cons_of_mem _ hother, hnext.trans ?_⟩
        have hne : p ≠ change.cell := by
          rintro rfl
          exact hnodup.1 (List.mem_map.mpr ⟨(change.cell, other), hother, rfl⟩)
        simp [Sheet.style?, Sheet.put, Std.ExtTreeMap.getElem?_alter, hne]

theorem entered_import {target : Sheet} (hproper : sheet.cells.IsProper)
    (hcontent : sheet.contents ≠ ∅) (hempty : target.cells = ∅)
    (hinside : ∀ entry ∈ recordInputs (Csv.records sheet.inputText),
      target.extent.contains entry.1 = true) :
    (target.cells.applied .redoing (enterAll target
      (recordInputs (Csv.records sheet.inputText))).2).entered = sheet.contents.entered := by
  have hnodup := nodup_recordInputs (Csv.records sheet.inputText)
  obtain ⟨-, hchanges, hcells⟩ := enterAll_spec hnodup hinside
  have hnext := next_enterAll hnodup hinside
  have hmem := @mem_recordInputs_inputText sheet
  generalize recordInputs (Csv.records sheet.inputText) = inputs at *
  rw [Grid.entered_eq_iff]
  intro p
  by_cases hp : p ∈ inputs.map Prod.fst
  · rw [← hcells] at hp
    obtain ⟨change, hchange, rfl⟩ := List.mem_map.mp hp
    obtain ⟨input, hinput, hnext⟩ := hnext change hchange
    obtain ⟨bare, hbare, rfl⟩ := (hmem hproper hcontent).mp hinput
    have hstyle : target.style? change.cell = none := by
      simp [Sheet.style?, hempty]
    obtain ⟨cell, hcell, hne, hsame⟩ := Sheet.getElem?_contents_eq_some.mp hbare
    rw [Grid.getElem?_applied_of_mem hchanges.nodup hchange, hbare]
    rcases (Sheet.isProper_contents hproper _ bare hbare).cases with ⟨style, hentered⟩ | ⟨-, hread⟩
    · have hbareEmpty : bare.content = .empty := congrArg Cell.content hentered
      rw [← hsame] at hbareEmpty
      exact absurd hbareEmpty hne
    · change change.next.map Cell.entered = _
      rw [hnext, hstyle, hread none, ← hsame]
      rfl
  · rw [Grid.getElem?_applied_of_not_mem (hcells ▸ hp), hempty, Std.ExtTreeMap.getElem?_empty]
    cases hbare : sheet.contents[p]? with
    | none => rfl
    | some bare =>
        exact absurd (List.mem_map_of_mem ((hmem hproper hcontent).mpr ⟨bare, hbare, rfl⟩)) hp

theorem length_recordInputs_inputText (hproper : sheet.cells.IsProper)
    (hcontent : sheet.contents ≠ ∅) :
    (recordInputs (Csv.records sheet.inputText)).length = sheet.contents.size := by
  have hnodup := nodup_recordInputs (Csv.records sheet.inputText)
  rw [← List.length_map Prod.fst, ← Std.ExtTreeMap.length_keys]
  refine ((List.perm_ext_iff_of_nodup hnodup Std.ExtTreeMap.nodup_keys).mpr fun p => ?_).length_eq
  rw [Std.ExtTreeMap.mem_keys, Std.ExtTreeMap.mem_iff_isSome_getElem?, Option.isSome_iff_exists]
  constructor
  · intro hp
    obtain ⟨⟨q, input⟩, hentry, rfl⟩ := List.mem_map.mp hp
    obtain ⟨bare, hbare, -⟩ := (mem_recordInputs_inputText hproper hcontent).mp hentry
    exact ⟨bare, hbare⟩
  · rintro ⟨bare, hbare⟩
    refine List.mem_map.mpr ⟨(p, bare.input), ?_, rfl⟩
    exact (mem_recordInputs_inputText hproper hcontent).mpr ⟨bare, hbare, rfl⟩

theorem exists_importText {settings : Settings} {d : Document} {text : String}
    (h : d.WellFormed settings)
    (hinside : ∀ entry ∈ recordInputs (Csv.records text),
      d.activeSheet.extent.contains entry.1 = true)
    (hne : recordInputs (Csv.records text) ≠ []) :
    ∃ result, d.importText text = .ok result ∧
      result.value = (recordInputs (Csv.records text)).length ∧
      result.document.activeSheet = Sheet.recalculated { d.activeSheet with
        cells := d.activeSheet.cells.applied .redoing
          (enterAll d.activeSheet (recordInputs (Csv.records text))).2 } := by
  obtain ⟨hfilled, -, hcells⟩ := enterAll_spec (nodup_recordInputs (Csv.records text)) hinside
  have houtside : (recordInputs (Csv.records text)).find?
      (fun entry => !d.activeSheet.extent.contains entry.1) = none := by
    simpa using hinside
  simp only [Document.importText, importRecords]
  simp only [houtside, if_neg (show (recordInputs (Csv.records text)).isEmpty ≠ true by
    simpa using hne)]
  generalize recordInputs (Csv.records text) = inputs at *
  have hlength : (enterAll d.activeSheet inputs).2.length = inputs.length := by
    rw [← List.length_map Change.cell, hcells, List.length_map]
  have hchanged : (enterAll d.activeSheet inputs).2.isEmpty ≠ true := by
    have hpositive := List.length_pos_of_ne_nil hne
    rw [← hlength] at hpositive
    simpa using List.ne_nil_of_length_pos hpositive
  refine ⟨_, rfl, hlength, ?_⟩
  unfold Document.commit
  rw [if_neg hchanged, hfilled]
  exact h.activeSheet_setActiveSheet _

/-- Importing what a sheet exports into an empty one of the same size succeeds and gives the cells
that hold something, each at its place and with its value. -/
theorem exists_importText_inputText {settings other : Settings} {d target : Document}
    (h : Reachable settings d) (hsheet : sheet ∈ d.workbook.sheets)
    (hsome : 0 < sheet.contents.size) (htarget : Reachable other target)
    (hempty : target.activeSheet.cells = ∅) (hextent : target.activeSheet.extent = sheet.extent) :
    ∃ result, target.importText sheet.inputText = .ok result ∧
      result.value = sheet.contents.size ∧
      result.document.activeSheet.cells = sheet.contents := by
  have hwellFormed := h.wellFormed.workbook.sheets sheet hsheet
  have hproper := hwellFormed.isProper
  have hcontent : sheet.contents ≠ ∅ := by
    intro hnone
    simp [hnone] at hsome
  have hlength := length_recordInputs_inputText hproper hcontent
  have hinside : ∀ entry ∈ recordInputs (Csv.records sheet.inputText),
      target.activeSheet.extent.contains entry.1 = true := by
    rintro ⟨p, input⟩ hentry
    obtain ⟨bare, hbare, -⟩ := (mem_recordInputs_inputText hproper hcontent).mp hentry
    obtain ⟨cell, hcell, -⟩ := Sheet.getElem?_contents_eq_some.mp hbare
    rw [hextent]
    refine hwellFormed.contains p ?_
    rw [Std.ExtTreeMap.mem_iff_isSome_getElem?, hcell]
    rfl
  obtain ⟨result, hresult, hvalue, hactive⟩ := exists_importText htarget.wellFormed hinside
    (List.ne_nil_of_length_pos (hlength ▸ hsome))
  refine ⟨result, hresult, hvalue.trans hlength, ?_⟩
  -- both grids are settled, and their cells were entered alike
  have hsettled : result.document.activeSheet.cells.IsSettled sheet.extent := by
    rw [hactive]
    exact hextent ▸ Sheet.isSettled_recalculation _
  have hchanges := (enterAll_spec (nodup_recordInputs (Csv.records sheet.inputText)) hinside).2.1
  have hfits : ∀ change ∈ (enterAll target.activeSheet
      (recordInputs (Csv.records sheet.inputText))).2, change.IsProper := by
    refine fun change hchange => ⟨?_, hchanges.isProper change hchange⟩
    rw [hchanges.previous_eq change hchange]
    exact fun cell hcell => htarget.wellFormed.activeSheet.isProper change.cell cell hcell
  refine hsettled.eq_of_entered (Sheet.isSettled_contents (h.isSettled sheet hsheet) hproper) ?_
    (Sheet.isProper_contents hproper) ?_
  · rw [hactive]
    exact (htarget.wellFormed.activeSheet.isProper.applied hfits).recalculate
  · rw [hactive]
    exact Grid.entered_recalculate.trans (entered_import hproper hcontent hempty hinside)

/-- Fields that need quotes, a formula, and a style without an input. -/
def quotedFields : List Operation :=
  [.write ⟨0, 1⟩ " a,\"b\"\n", .write ⟨2, 0⟩ "=B1", .click ⟨4, 4⟩, .toggleStyle .bold]

theorem importText_quotedFields :
    let sheet := (Session.run ⟨.new .standard, .empty⟩ quotedFields).document.activeSheet
    ∃ result, (Document.new .standard).importText sheet.inputText = .ok result ∧
      result.value = 2 ∧ result.document.activeSheet.cells = sheet.contents := by
  intro sheet
  have h : Reachable .standard (Session.run ⟨.new .standard, .empty⟩ quotedFields).document :=
    reachable_run .new quotedFields
  have hsize : sheet.contents.size = 2 := by decide +kernel
  have hsome : 0 < sheet.contents.size := by
    rw [hsize]
    decide
  have hsheet : sheet ∈ _ := h.wellFormed.workbook.activeSheet_mem
  have hextent : (Document.new .standard).activeSheet.extent = sheet.extent := by decide +kernel
  have himport := exists_importText_inputText h hsheet hsome
    (Reachable.new : Reachable .standard _) rfl hextent
  rwa [hsize] at himport

end Document

end Spreadsheet
