import Spreadsheet.Proofs.Applied
import Spreadsheet.Proofs.Rectangles
import Spreadsheet.Proofs.SheetNumbers
import Spreadsheet.Proofs.SortedMaps

/-!
Sheets and workbooks as operations leave them. All that a sheet holds lies within its size and could
have been entered, and a workbook has an active sheet and no number twice.
-/

namespace Spreadsheet

open Document (Direction)

theorem Settings.clamp_clamp (low high x : Float) :
    clamp low high (clamp low high x) = clamp low high x := by
  unfold clamp
  by_cases hlow : x < low <;> by_cases hhigh : high < x <;> by_cases hcross : high < low <;>
    simp_all

namespace Sheet

variable {settings : Settings} {sheet other next : Sheet} {direction : Direction} {record : Record}

/-- A sheet whose parts all lie within its size, whose cells could have been entered and whose
widths and heights have been moved within the bounds. -/
structure WellFormed (settings : Settings) (sheet : Sheet) : Prop where
  columns_pos : 1 ≤ sheet.extent.columns
  rows_pos : 1 ≤ sheet.extent.rows
  contains : ∀ p ∈ sheet.cells, sheet.extent.contains p = true
  isProper : sheet.cells.IsProper
  columnWidths : ∀ (col : Nat) (width : Float), sheet.columnWidths[col]? = some width →
    col < sheet.extent.columns ∧ settings.clampColumnWidth width = width
  rowHeights : ∀ (row : Nat) (height : Float), sheet.rowHeights[row]? = some height →
    row < sheet.extent.rows ∧ settings.clampRowHeight height = height
  columnFilters : ∀ (col : Nat) (texts : Std.ExtTreeSet String),
    sheet.columnFilters[col]? = some texts → col < sheet.extent.columns ∧ texts.isEmpty = false
  tables : ∀ table ∈ sheet.tables, table.range.IsWithin sheet.extent

theorem WellFormed.contains_of_getElem? {settings : Settings} {sheet : Sheet} {p : Position}
    {cell : Cell} (h : sheet.WellFormed settings) (hcell : sheet.cells[p]? = some cell) :
    sheet.extent.contains p = true :=
  h.contains p (SortedMap.mem_of_getElem?_eq_some hcell)

theorem wellFormed_empty (settings : Settings) (id : Nat) (name : String) (extent : Extent) :
    (empty id name extent).WellFormed settings where
  columns_pos := Nat.le_max_right _ _
  rows_pos := Nat.le_max_right _ _
  contains := fun p hp => absurd hp Std.ExtTreeMap.not_mem_empty
  isProper := by simp [Grid.IsProper, empty]
  columnWidths := by simp [empty]
  rowHeights := by simp [empty]
  columnFilters := by simp [empty]
  tables := by simp [empty]

theorem WellFormed.rename (h : sheet.WellFormed settings) (id : Nat) (name : String) :
    WellFormed settings { sheet with id := id, name := name } :=
  ⟨h.columns_pos, h.rows_pos, h.contains, h.isProper, h.columnWidths, h.rowHeights,
    h.columnFilters, h.tables⟩

/-- A sheet with a column and a row on which everything lies that it holds. -/
structure IsBounded (sheet : Sheet) : Prop where
  columns_pos : 1 ≤ sheet.extent.columns
  rows_pos : 1 ≤ sheet.extent.rows
  cells : ∀ p ∈ sheet.cells, p.col < sheet.extent.columns ∧ p.row < sheet.extent.rows
  columnWidths : ∀ col ∈ sheet.columnWidths, col < sheet.extent.columns
  rowHeights : ∀ row ∈ sheet.rowHeights, row < sheet.extent.rows
  columnFilters : ∀ (col : Nat) (texts : Std.ExtTreeSet String),
    sheet.columnFilters[col]? = some texts → col < sheet.extent.columns ∧ texts ≠ ∅
  ordered : ∀ table ∈ sheet.tables, table.range.topLeft.row ≤ table.range.bottomRight.row ∧
    table.range.topLeft.col ≤ table.range.bottomRight.col
  tables : ∀ table ∈ sheet.tables, ∀ p ∈ table.range.cells,
    p.col < sheet.extent.columns ∧ p.row < sheet.extent.rows

theorem WellFormed.bounded (h : sheet.WellFormed settings) : sheet.IsBounded where
  columns_pos := h.columns_pos
  rows_pos := h.rows_pos
  cells := fun p hp => Extent.contains_iff.mp (h.contains p hp)
  columnWidths := by
    intro col hcol
    obtain ⟨width, hwidth⟩ := Option.isSome_iff_exists.mp
      (Std.ExtTreeMap.mem_iff_isSome_getElem?.mp hcol)
    exact (h.columnWidths col width hwidth).1
  rowHeights := by
    intro row hrow
    obtain ⟨height, hheight⟩ := Option.isSome_iff_exists.mp
      (Std.ExtTreeMap.mem_iff_isSome_getElem?.mp hrow)
    exact (h.rowHeights row height hheight).1
  columnFilters := by
    intro col texts htexts
    obtain ⟨hcol, hne⟩ := h.columnFilters col texts htexts
    refine ⟨hcol, ?_⟩
    rintro rfl
    simp at hne
  ordered := fun table htable => ⟨(h.tables table htable).row_le, (h.tables table htable).col_le⟩
  tables := by
    intro table htable p hp
    have hcorner := Extent.contains_iff.mp (h.tables table htable).contains
    rw [Range.mem_cells] at hp
    omega

theorem WellFormed.replace (h : sheet.WellFormed settings)
    (hframe : next = { sheet with cells := next.cells, tables := next.tables })
    (hcontains : ∀ p ∈ next.cells, sheet.extent.contains p = true)
    (hproper : next.cells.IsProper)
    (htables : ∀ table ∈ next.tables, table.range.IsWithin sheet.extent) :
    next.WellFormed settings := by
  rw [hframe]
  exact ⟨h.columns_pos, h.rows_pos, hcontains, hproper, h.columnWidths, h.rowHeights,
    h.columnFilters, htables⟩

theorem mem_of_entered {grid other : Grid} (h : grid.entered = other.entered) {p : Position}
    (hp : p ∈ grid) : p ∈ other := by
  rw [Std.ExtTreeMap.mem_iff_isSome_getElem?] at hp ⊢
  have hcell := congrArg Option.isSome (Grid.entered_eq_iff.mp h p)
  rw [Option.isSome_map, Option.isSome_map] at hcell
  rw [← hcell, hp]

theorem WellFormed.recalculated (h : sheet.WellFormed settings) :
    sheet.recalculated.WellFormed settings :=
  h.replace rfl (fun p hp => h.contains p (mem_of_entered Grid.entered_recalculate hp))
    h.isProper.recalculate h.tables

theorem mem_tablesAfter {tables : List Table} {table : Table}
    (htable : table ∈ tablesAfter direction record tables) :
    table ∈ tables ∨ record.inserted? = some table := by
  unfold tablesAfter at htable
  split at htable
  · exact .inl (List.mem_of_mem_eraseP htable)
  · rename_i inserted hinserted
    rcases List.mem_append.mp htable with htable | htable
    · exact .inl htable
    · exact .inr (by rw [hinserted, List.mem_singleton.mp htable])
  · exact .inl htable

theorem WellFormed.applied (h : sheet.WellFormed settings) (hfits : record.FitsOn sheet) :
    (sheet.applied direction record).WellFormed settings := by
  refine h.replace rfl ?_ (h.isProper.applied hfits.isProper) ?_
  · intro p hp
    by_cases hchanged : p ∈ record.changes.map Change.cell
    · obtain ⟨change, hchange, rfl⟩ := List.mem_map.mp hchanged
      exact hfits.contains change hchange
    · rw [Std.ExtTreeMap.mem_iff_isSome_getElem?, Sheet.applied,
        Grid.getElem?_applied_of_not_mem hchanged, ← Std.ExtTreeMap.mem_iff_isSome_getElem?] at hp
      exact h.contains p hp
  · intro table htable
    rcases mem_tablesAfter htable with htable | hinserted
    · exact h.tables table htable
    · exact hfits.isWithin table hinserted

theorem isWithin_of_clip {table clipped : Table} {extent : Extent}
    (hwithin : table.range.IsWithin sheet.extent) (hpos : 1 ≤ extent.columns ∧ 1 ≤ extent.rows)
    (hclip : table.clip extent = some clipped) : clipped.range.IsWithin extent := by
  unfold Table.clip Range.clip at hclip
  split at hclip
  · rename_i htop
    rw [Extent.contains_iff] at htop
    obtain rfl := Option.some.inj hclip
    have hrow := hwithin.row_le
    have hcol := hwithin.col_le
    refine ⟨?_, ?_, ?_⟩
    · dsimp only
      omega
    · dsimp only
      omega
    · rw [Extent.contains_iff]
      dsimp only
      omega
  · cases hclip

theorem WellFormed.resize (h : sheet.WellFormed settings) (extent : Extent) :
    (sheet.resize extent).WellFormed settings where
  columns_pos := Nat.le_max_right _ _
  rows_pos := Nat.le_max_right _ _
  contains := by
    intro p hp
    have hkept : (sheet.cells.filter fun p _ => extent.raised.contains p)[p]?.isSome = true :=
      Std.ExtTreeMap.mem_iff_isSome_getElem?.mp hp
    obtain ⟨cell, hcell⟩ := Option.isSome_iff_exists.mp hkept
    exact (SortedMap.getElem?_filter_eq_some.mp hcell).2
  isProper := fun p cell hcell => h.isProper p cell (SortedMap.getElem?_filter_eq_some.mp hcell).1
  columnWidths := by
    intro col width hwidth
    obtain ⟨hwidth, hcol⟩ := SortedMap.getElem?_filter_eq_some.mp hwidth
    exact ⟨of_decide_eq_true hcol, (h.columnWidths col width hwidth).2⟩
  rowHeights := by
    intro row height hheight
    obtain ⟨hheight, hrow⟩ := SortedMap.getElem?_filter_eq_some.mp hheight
    exact ⟨of_decide_eq_true hrow, (h.rowHeights row height hheight).2⟩
  columnFilters := by
    intro col texts htexts
    obtain ⟨htexts, hcol⟩ := SortedMap.getElem?_filter_eq_some.mp htexts
    exact ⟨of_decide_eq_true hcol, (h.columnFilters col texts htexts).2⟩
  tables := by
    intro table htable
    obtain ⟨before, hbefore, hclip⟩ := List.mem_filterMap.mp htable
    exact isWithin_of_clip (h.tables before hbefore)
      ⟨Nat.le_max_right _ _, Nat.le_max_right _ _⟩ hclip

/-- A sheet that differs from another one at most in its name, its layout and its filters. -/
structure SameBody (sheet other : Sheet) : Prop where
  id_eq : other.id = sheet.id
  extent_eq : other.extent = sheet.extent
  cells_eq : other.cells = sheet.cells
  tables_eq : other.tables = sheet.tables

theorem sameBody_setColumnWidth {col : Nat} {width : Float}
    (hset : sheet.setColumnWidth col width = .ok next) : sheet.SameBody next := by
  obtain ⟨-, rfl⟩ := setColumnWidth_eq_ok hset
  exact ⟨rfl, rfl, rfl, rfl⟩

theorem sameBody_setRowHeight {row : Nat} {height : Float}
    (hset : sheet.setRowHeight row height = .ok next) : sheet.SameBody next := by
  obtain ⟨-, rfl⟩ := setRowHeight_eq_ok hset
  exact ⟨rfl, rfl, rfl, rfl⟩

theorem sameBody_setColumnFilter {col : Nat} {texts : Std.ExtTreeSet String}
    (hset : sheet.setColumnFilter col texts = .ok next) : sheet.SameBody next := by
  obtain ⟨-, rfl⟩ := setColumnFilter_eq_ok hset
  split <;> exact ⟨rfl, rfl, rfl, rfl⟩

theorem WellFormed.setColumnWidth {col : Nat} {width : Float} (h : sheet.WellFormed settings)
    (hset : sheet.setColumnWidth col (settings.clampColumnWidth width) = .ok next) :
    next.WellFormed settings := by
  obtain ⟨hcol, rfl⟩ := setColumnWidth_eq_ok hset
  refine { h with columnWidths := ?_ }
  intro other size hsize
  rw [Std.ExtTreeMap.getElem?_insert] at hsize
  split at hsize
  · rename_i heq
    obtain rfl := Std.LawfulEqCmp.compare_eq_iff_eq.mp heq
    obtain rfl := Option.some.inj hsize
    exact ⟨hcol, Settings.clamp_clamp _ _ _⟩
  · exact h.columnWidths other size hsize

theorem WellFormed.setRowHeight {row : Nat} {height : Float} (h : sheet.WellFormed settings)
    (hset : sheet.setRowHeight row (settings.clampRowHeight height) = .ok next) :
    next.WellFormed settings := by
  obtain ⟨hrow, rfl⟩ := setRowHeight_eq_ok hset
  refine { h with rowHeights := ?_ }
  intro other size hsize
  rw [Std.ExtTreeMap.getElem?_insert] at hsize
  split at hsize
  · rename_i heq
    obtain rfl := Std.LawfulEqCmp.compare_eq_iff_eq.mp heq
    obtain rfl := Option.some.inj hsize
    exact ⟨hrow, Settings.clamp_clamp _ _ _⟩
  · exact h.rowHeights other size hsize

theorem WellFormed.clearColumnFilter (h : sheet.WellFormed settings) (col : Nat) :
    (sheet.clearColumnFilter col).WellFormed settings := by
  refine { h with columnFilters := ?_ }
  intro other texts htexts
  simp only [Sheet.clearColumnFilter, Std.ExtTreeMap.getElem?_erase] at htexts
  split at htexts
  · cases htexts
  · exact h.columnFilters other texts htexts

theorem WellFormed.setColumnFilter {col : Nat} {texts : Std.ExtTreeSet String}
    (h : sheet.WellFormed settings) (hset : sheet.setColumnFilter col texts = .ok next) :
    next.WellFormed settings := by
  obtain ⟨hcol, rfl⟩ := setColumnFilter_eq_ok hset
  split
  · exact h.clearColumnFilter col
  · rename_i hempty
    refine { h with columnFilters := ?_ }
    intro other chosen hchosen
    rw [Std.ExtTreeMap.getElem?_insert] at hchosen
    split at hchosen
    · rename_i heq
      obtain rfl := Std.LawfulEqCmp.compare_eq_iff_eq.mp heq
      obtain rfl := Option.some.inj hchosen
      exact ⟨hcol, by simpa using hempty⟩
    · exact h.columnFilters other chosen hchosen

end Sheet

namespace Workbook

variable {settings : Settings} {workbook next : Workbook} {sheet : Sheet} {index : Nat}

/-- A workbook with an active sheet, whose sheets have different numbers below the next one. -/
structure WellFormed (settings : Settings) (workbook : Workbook) : Prop where
  active_lt : workbook.active < workbook.sheets.length
  nodup : (workbook.sheets.map Sheet.id).Nodup
  id_lt : ∀ sheet ∈ workbook.sheets, sheet.id < workbook.nextId
  sheets : ∀ sheet ∈ workbook.sheets, sheet.WellFormed settings

theorem WellFormed.numbered (h : workbook.WellFormed settings) : workbook.Numbered :=
  ⟨h.active_lt, h.nodup, h.id_lt⟩

theorem Numbered.wellFormed (h : workbook.Numbered)
    (hsheets : ∀ sheet ∈ workbook.sheets, sheet.WellFormed settings) :
    workbook.WellFormed settings :=
  ⟨h.active_lt, h.nodup, h.id_lt, hsheets⟩

theorem wellFormed_new (settings : Settings) (extent : Extent) :
    (new extent).WellFormed settings := by
  refine (numbered_new extent).wellFormed fun sheet hsheet => ?_
  rw [List.mem_singleton.mp hsheet]
  exact Sheet.wellFormed_empty settings 1 "Sheet1" extent

theorem WellFormed.getElem?_active (h : workbook.WellFormed settings) :
    workbook.sheets[workbook.active]? = some workbook.activeSheet := h.numbered.getElem?_active

theorem WellFormed.activeSheet_mem (h : workbook.WellFormed settings) :
    workbook.activeSheet ∈ workbook.sheets := List.mem_of_getElem? h.getElem?_active

theorem WellFormed.activeSheet (h : workbook.WellFormed settings) :
    workbook.activeSheet.WellFormed settings := h.sheets _ h.activeSheet_mem

theorem WellFormed.activeSheet_setActiveSheet (h : workbook.WellFormed settings) (sheet : Sheet) :
    (workbook.setActiveSheet sheet).activeSheet = sheet := by
  unfold Workbook.activeSheet setActiveSheet setSheet
  rw [List.getD_eq_getElem?_getD, List.getElem?_set_self h.active_lt, Option.getD_some]

theorem WellFormed.setActiveSheet_activeSheet (h : workbook.WellFormed settings) :
    workbook.setActiveSheet workbook.activeSheet = workbook := by
  obtain ⟨hlt, hactive⟩ := List.getElem?_eq_some_iff.mp h.getElem?_active
  unfold setActiveSheet setSheet
  rw [← hactive, List.set_getElem_self]

theorem setActiveSheet_setActiveSheet (workbook : Workbook) (sheet other : Sheet) :
    (workbook.setActiveSheet sheet).setActiveSheet other = workbook.setActiveSheet other := by
  simp [setActiveSheet, setSheet]

theorem WellFormed.setSheet {before : Sheet} (h : workbook.WellFormed settings)
    (hbefore : workbook.sheets[index]? = some before) (hid : sheet.id = before.id)
    (hsheet : sheet.WellFormed settings) : (workbook.setSheet index sheet).WellFormed settings where
  active_lt := by simpa [Workbook.setSheet] using h.active_lt
  nodup := by
    rw [Workbook.setSheet, Sheet.map_id_set hbefore hid]
    exact h.nodup
  id_lt := by
    intro other hother
    rcases List.mem_or_eq_of_mem_set hother with hother | rfl
    · exact h.id_lt other hother
    · rw [hid]
      exact h.id_lt before (List.mem_of_getElem? hbefore)
  sheets := by
    intro other hother
    rcases List.mem_or_eq_of_mem_set hother with hother | rfl
    · exact h.sheets other hother
    · exact hsheet

theorem WellFormed.setActiveSheet (h : workbook.WellFormed settings)
    (hid : sheet.id = workbook.activeSheet.id) (hsheet : sheet.WellFormed settings) :
    (workbook.setActiveSheet sheet).WellFormed settings :=
  h.setSheet h.getElem?_active hid hsheet

theorem WellFormed.perform (h : workbook.WellFormed settings) (operation : SheetOperation)
    (hnext : workbook.perform operation = .ok next)
    (hsheets : ∀ sheet ∈ next.sheets, sheet.WellFormed settings) : next.WellFormed settings :=
  Numbered.wellFormed (h.numbered.perform hnext) hsheets

theorem WellFormed.activate (h : workbook.WellFormed settings)
    (hactivate : workbook.activate index = .ok next) : next.WellFormed settings := by
  refine h.perform (.activate index) hactivate fun sheet hsheet => ?_
  obtain ⟨-, rfl⟩ := activate_eq_ok hactivate
  exact h.sheets sheet hsheet

theorem WellFormed.addSheet {name : Option String} {extent : Extent}
    (h : workbook.WellFormed settings) (hadd : workbook.addSheet name extent = .ok next) :
    next.WellFormed settings := by
  refine h.perform (.add name extent) hadd fun sheet hsheet => ?_
  obtain ⟨name, rfl⟩ := addSheet_eq_ok hadd
  rcases List.mem_append.mp hsheet with hsheet | hsheet
  · exact h.sheets sheet hsheet
  · rw [List.mem_singleton.mp hsheet]
    exact Sheet.wellFormed_empty _ _ _ _

theorem WellFormed.renameSheet {name : String} (h : workbook.WellFormed settings)
    (hrename : workbook.renameSheet index name = .ok next) : next.WellFormed settings := by
  obtain ⟨sheet, hfound, rfl⟩ := renameSheet_eq_ok hrename
  exact h.setSheet hfound rfl ((h.sheets sheet (List.mem_of_getElem? hfound)).rename _ _)

theorem WellFormed.deleteSheet (h : workbook.WellFormed settings)
    (hdelete : workbook.deleteSheet index = .ok next) : next.WellFormed settings := by
  refine h.perform (.delete index) hdelete fun other hother => ?_
  obtain ⟨-, -, rfl⟩ := deleteSheet_eq_ok hdelete
  exact h.sheets other (List.mem_of_mem_eraseIdx hother)

theorem WellFormed.duplicateSheet (h : workbook.WellFormed settings)
    (hduplicate : workbook.duplicateSheet index = .ok next) : next.WellFormed settings := by
  refine h.perform (.duplicate index) hduplicate fun other hother => ?_
  obtain ⟨sheet, hfound, rfl⟩ := duplicateSheet_eq_ok hduplicate
  obtain ⟨hindex, -⟩ := List.getElem?_eq_some_iff.mp hfound
  rcases (List.mem_insertIdx hindex).mp hother with rfl | hother
  · exact (h.sheets sheet (List.mem_of_getElem? hfound)).rename _ _
  · exact h.sheets other hother

theorem WellFormed.recalculation (h : workbook.WellFormed settings) :
    workbook.recalculation.1.WellFormed settings := by
  have hsheets : workbook.recalculation.1.sheets = workbook.sheets.map Sheet.recalculated := by
    simp only [Workbook.recalculation, List.map_map]
    rfl
  constructor
  · rw [hsheets, List.length_map]
    exact h.active_lt
  · rw [hsheets, List.map_map]
    exact h.nodup
  · intro sheet hsheet
    rw [hsheets] at hsheet
    obtain ⟨before, hbefore, rfl⟩ := List.mem_map.mp hsheet
    exact h.id_lt before hbefore
  · intro sheet hsheet
    rw [hsheets] at hsheet
    obtain ⟨before, hbefore, rfl⟩ := List.mem_map.mp hsheet
    exact (h.sheets before hbefore).recalculated

theorem wellFormed_ofSheets {name : String} {sheets : List Sheet} {active : Nat}
    (hsheets : ∀ sheet ∈ sheets, sheet.WellFormed settings)
    (hof : ofSheets name sheets active = .ok workbook) : workbook.WellFormed settings := by
  refine (numbered_ofSheets hof).wellFormed fun sheet hsheet => ?_
  unfold ofSheets at hof
  split at hof
  · cases hof
  · split at hof
    · obtain rfl := Except.ok.inj hof
      obtain ⟨index, hindex, rfl⟩ := List.mem_mapIdx.mp hsheet
      exact (hsheets _ (List.getElem_mem hindex)).rename _ _
    · cases hof

end Workbook

end Spreadsheet
