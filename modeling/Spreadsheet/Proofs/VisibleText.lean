import Mathlib.Data.List.Sort
import Spreadsheet.Proofs.CsvExchange

namespace Spreadsheet

namespace Sheet

variable {sheet : Sheet} {p : Position} {used : Range} {row col : Nat}

/-- A row passes the filters if it shows one of the allowed texts in each filtered column. -/
def Passes (sheet : Sheet) (row : Nat) : Prop :=
  ∀ col texts, sheet.columnFilters[col]? = some texts → sheet.shown ⟨row, col⟩ ∈ texts

theorem isRowVisible_iff : sheet.isRowVisible row = true ↔ sheet.Passes row := by
  unfold isRowVisible Passes
  rw [SortedMap.all_eq_true_iff]
  rfl

theorem mem_visibleRows : row ∈ sheet.visibleRows ↔ row < sheet.extent.rows ∧ sheet.Passes row := by
  rw [visibleRows, List.mem_filter, List.mem_range, isRowVisible_iff]

theorem pairwise_visibleRows (sheet : Sheet) : sheet.visibleRows.Pairwise (· < ·) :=
  List.pairwise_lt_range.filter _

theorem filter_visibleRows {last : Nat} (hlast : last < sheet.extent.rows) :
    sheet.visibleRows.filter (· ≤ last) = (List.range (last + 1)).filter sheet.isRowVisible := by
  refine ((pairwise_visibleRows sheet).filter _).eq_of_mem_iff
    (List.pairwise_lt_range.filter _) fun row => ?_
  rw [List.mem_filter, List.mem_filter, mem_visibleRows, List.mem_range, isRowVisible_iff,
    decide_eq_true_eq]
  constructor
  · rintro ⟨⟨-, hpasses⟩, hle⟩
    exact ⟨Nat.lt_succ_of_le hle, hpasses⟩
  · rintro ⟨hlt, hpasses⟩
    have hle := Nat.le_of_lt_succ hlt
    exact ⟨⟨Nat.lt_of_le_of_lt hle hlast, hpasses⟩, hle⟩

/-- The last row and the last column into which anything was entered. -/
structure EndsAt (sheet : Sheet) (row col : Nat) : Prop where
  le : ∀ p, sheet.input p ≠ "" → p.row ≤ row ∧ p.col ≤ col
  exists_row : ∃ p, sheet.input p ≠ "" ∧ p.row = row
  exists_col : ∃ p, sheet.input p ≠ "" ∧ p.col = col

theorem input_ne_empty_iff : sheet.input p ≠ "" ↔
    ∃ cell, sheet.cells[p]? = some cell ∧ cell.input ≠ "" := by
  unfold input
  cases sheet.cells[p]? <;> simp

theorem exists_used_of_side {side : Position → Nat} {last : Nat} (hzero : side ⟨0, 0⟩ = 0)
    (hle : side p ≤ last) (hp : sheet.input p ≠ "")
    (hside : ∃ p ∈ ⟨0, 0⟩ :: (sheet.cells.filter fun _ cell => !cell.input.isEmpty).keys,
      side p = last) : ∃ p, sheet.input p ≠ "" ∧ side p = last := by
  obtain ⟨q, hq, rfl⟩ := hside
  rcases List.mem_cons.mp hq with rfl | hq
  -- the first cell may be unused, but then no used cell is farther out
  · exact ⟨p, hp, by omega⟩
  · exact ⟨q, input_ne_empty_iff.mpr (mem_keys_used.mp hq), rfl⟩

theorem endsAt_usedRange (hused : sheet.usedRange = some used) (hp : sheet.input p ≠ "") :
    sheet.EndsAt used.bottomRight.row used.bottomRight.col := by
  have hbounding := isBounding_usedRange hused
  have hle : ∀ p, sheet.input p ≠ "" →
      p.row ≤ used.bottomRight.row ∧ p.col ≤ used.bottomRight.col := by
    intro p hp
    obtain ⟨cell, hcell, hinput⟩ := input_ne_empty_iff.mp hp
    exact (usedRange_spec hused).2 p cell hcell hinput
  exact {
    le := hle
    exists_row := exists_used_of_side rfl (hle p hp).1 hp hbounding.bottom
    exists_col := exists_used_of_side rfl (hle p hp).2 hp hbounding.right }

end Sheet

namespace Document

variable {settings : Settings} {d : Document} {sheet : Sheet} {p : Position}

/-- The visible rows up to the last one in use come back in their order, with what their cells up to
the last column in use show. -/
theorem Reachable.records_visibleText (h : Reachable settings d)
    (hsheet : sheet ∈ d.workbook.sheets) (hp : sheet.input p ≠ "") :
    ∃ lastRow lastCol, sheet.EndsAt lastRow lastCol ∧
      ∃ rows : List Nat, rows = sheet.visibleRows.filter (· ≤ lastRow) ∧
        rows.Pairwise (· < ·) ∧ (∀ row, row ∈ rows ↔ row ≤ lastRow ∧ sheet.Passes row) ∧
        Csv.records sheet.visibleText = rows.map fun row =>
          (List.range (lastCol + 1)).map fun col => sheet.shown ⟨row, col⟩ := by
  obtain ⟨cell, hcell, hinput⟩ := Sheet.input_ne_empty_iff.mp hp
  obtain ⟨used, hused⟩ := Sheet.exists_usedRange hcell hinput
  have htop := (Sheet.usedRange_spec hused).1
  have hends := Sheet.endsAt_usedRange hused hp
  have hlast : used.bottomRight.row < sheet.extent.rows := by
    obtain ⟨q, hq, hrow⟩ := hends.exists_row
    obtain ⟨cell, hcell, -⟩ := Sheet.input_ne_empty_iff.mp hq
    have hinside := (h.wellFormed.workbook.sheets sheet hsheet).contains_of_getElem? hcell
    exact hrow ▸ (Extent.contains_iff.mp hinside).2
  refine ⟨_, _, hends, _, rfl, (Sheet.pairwise_visibleRows sheet).filter _, fun row => ?_, ?_⟩
  · rw [Sheet.filter_visibleRows hlast, List.mem_filter, List.mem_range, Nat.lt_succ_iff,
      Sheet.isRowVisible_iff]
  · rw [Sheet.filter_visibleRows hlast, Sheet.visibleText, Sheet.records_usedText hused htop]
    refine List.map_congr_left fun row _ => ?_
    unfold Range.rowCells
    rw [htop, List.map_map, Nat.sub_zero, List.range_eq_range']
    rfl

/-- Two rows that are hidden, one between the others and one behind them. -/
def hiddenRows : List Operation :=
  [.write ⟨0, 0⟩ "keep", .write ⟨0, 1⟩ " a,\n\"b\"", .write ⟨1, 0⟩ "hide", .write ⟨2, 1⟩ "two",
    .write ⟨3, 0⟩ "hide", .setColumnFilter 0 (Std.ExtTreeSet.ofList ["keep", ""])]

theorem records_visibleText_hiddenRows :
    let sheet := (Session.run ⟨.new .standard, .empty⟩ hiddenRows).document.activeSheet
    sheet.visibleText = "keep,\" a,\n\"\"b\"\"\"\n,two\n" ∧
    ∃ lastRow lastCol, sheet.EndsAt lastRow lastCol ∧
      ∃ rows : List Nat, rows = sheet.visibleRows.filter (· ≤ lastRow) ∧
        rows.Pairwise (· < ·) ∧ (∀ row, row ∈ rows ↔ row ≤ lastRow ∧ sheet.Passes row) ∧
        Csv.records sheet.visibleText = rows.map fun row =>
          (List.range (lastCol + 1)).map fun col => sheet.shown ⟨row, col⟩ := by
  intro sheet
  have h : Reachable .standard (Session.run ⟨.new .standard, .empty⟩ hiddenRows).document :=
    reachable_run .new hiddenRows
  have hsheet : sheet ∈ _ := h.wellFormed.workbook.activeSheet_mem
  have hinput : sheet.input ⟨0, 0⟩ ≠ "" := by decide +kernel
  exact ⟨by decide +kernel, h.records_visibleText hsheet hinput⟩

end Document

end Spreadsheet
