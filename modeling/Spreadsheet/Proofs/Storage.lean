import Spreadsheet.Proofs.JsonRecords
import Spreadsheet.Proofs.Reachable

/-!
Workbooks that are stored and loaded again. Of the cells only inputs and styles are stored, under
names in the order of texts; contents come from the inputs and values from a recalculation, which
finds those that were there before. Widths and heights are moved within the bounds once more after
they have been read.
-/

namespace Spreadsheet

theorem foldlM_insert {κ α σ ε : Type} [Ord κ] [Std.TransOrd κ] [Std.LawfulEqOrd κ] [DecidableEq κ]
    {step : σ → κ × α → Except ε σ} {m : Std.ExtTreeMap κ α} {start : σ}
    (place : Std.ExtTreeMap κ α → σ) (hstart : place ∅ = start)
    (h : ∀ (filled : Std.ExtTreeMap κ α) (k : κ) (v : α), m[k]? = some v →
      step (place filled) (k, v) = .ok (place (filled.insert k v))) :
    m.toList.foldlM step start = .ok (place m) := by
  have hlist : ∀ (entries : List (κ × α)) (filled : Std.ExtTreeMap κ α),
      (∀ entry ∈ entries, m[entry.1]? = some entry.2) →
        entries.foldlM step (place filled) = .ok (place (filled.insertMany entries)) := by
    intro entries
    induction entries with
    | nil =>
        intro filled _
        rw [Std.ExtTreeMap.insertMany_nil]
        rfl
    | cons entry entries ih =>
        intro filled hentries
        obtain ⟨hentry, hentries⟩ := List.forall_mem_cons.mp hentries
        rw [List.foldlM_cons, h filled entry.1 entry.2 hentry, Std.ExtTreeMap.insertMany_cons]
        exact ih _ hentries
  rw [← hstart, hlist m.toList ∅ fun entry hentry =>
      Std.ExtTreeMap.mem_toList_iff_getElem?_eq_some.mp hentry,
    ← Std.ExtTreeMap.ofList_eq_insertMany_empty, SortedMap.ofList_toList]

theorem map_insert {κ α β : Type} [Ord κ] [Std.TransOrd κ] [Std.LawfulEqOrd κ]
    (m : Std.ExtTreeMap κ α) (k : κ) (v : α) (f : α → β) :
    ((m.insert k v).map fun _ => f) = (m.map fun _ => f).insert k (f v) := by
  apply Std.ExtTreeMap.ext_getElem?
  intro other
  rw [Std.ExtTreeMap.getElem?_map, Std.ExtTreeMap.getElem?_insert, Std.ExtTreeMap.getElem?_insert,
    Std.ExtTreeMap.getElem?_map]
  split <;> rfl

theorem map_eq_self {κ α : Type} [Ord κ] [Std.TransOrd κ] [Std.LawfulEqOrd κ]
    {m : Std.ExtTreeMap κ α} {f : α → α} (h : ∀ (k : κ) (v : α), m[k]? = some v → f v = v) :
    (m.map fun _ => f) = m := by
  apply Std.ExtTreeMap.ext_getElem?
  intro k
  rw [Std.ExtTreeMap.getElem?_map]
  cases hk : m[k]? with
  | none => rfl
  | some v => rw [Option.map_some, h k v hk]

/-- A sheet whose counts and numbers fit into words of 64 bits. -/
structure Sheet.InWords (sheet : Sheet) : Prop where
  columns_lt : sheet.extent.columns < UInt64.size
  rows_lt : sheet.extent.rows < UInt64.size
  tables_lt : ∀ table ∈ sheet.tables, table.id < UInt64.size

instance (sheet : Sheet) : Decidable sheet.InWords :=
  decidable_of_iff (sheet.extent.columns < UInt64.size ∧ sheet.extent.rows < UInt64.size ∧
      ∀ table ∈ sheet.tables, table.id < UInt64.size)
    ⟨fun ⟨hcolumns, hrows, htables⟩ => ⟨hcolumns, hrows, htables⟩,
      fun h => ⟨h.columns_lt, h.rows_lt, h.tables_lt⟩⟩

/-- A workbook whose counts and numbers fit into words of 64 bits. -/
structure Workbook.InWords (workbook : Workbook) : Prop where
  active_lt : workbook.active < UInt64.size
  sheets : ∀ sheet ∈ workbook.sheets, sheet.InWords

instance (workbook : Workbook) : Decidable workbook.InWords :=
  decidable_of_iff (workbook.active < UInt64.size ∧ ∀ sheet ∈ workbook.sheets, sheet.InWords)
    ⟨fun ⟨hactive, hsheets⟩ => ⟨hactive, hsheets⟩, fun h => ⟨h.active_lt, h.sheets⟩⟩

/-- A sheet whose widths and heights are read back from what is written for them. -/
structure Sheet.SizesReadBack (sheet : Sheet) : Prop where
  columnWidths : ∀ (col : Nat) (width : Float), sheet.columnWidths[col]? = some width →
    (Json.ofFloat width).toFloat? = some width
  rowHeights : ∀ (row : Nat) (height : Float), sheet.rowHeights[row]? = some height →
    (Json.ofFloat height).toFloat? = some height

/-- The sheet with its widths and heights as they are read and moved within the bounds. -/
def Sheet.resized (settings : Settings) (sheet : Sheet) : Sheet :=
  { sheet with
    columnWidths := sheet.columnWidths.map fun _ width =>
      settings.clampColumnWidth (Json.reread width)
    rowHeights := sheet.rowHeights.map fun _ height => settings.clampRowHeight (Json.reread height) }

theorem Sheet.SizesReadBack.resized_eq {settings : Settings} {sheet : Sheet}
    (hsizes : sheet.SizesReadBack) (h : sheet.WellFormed settings) :
    sheet.resized settings = sheet := by
  rw [Sheet.resized, map_eq_self, map_eq_self]
  · intro row height hheight
    rw [Json.reread_eq (hsizes.rowHeights row height hheight)]
    exact (h.rowHeights row height hheight).2
  · intro col width hwidth
    rw [Json.reread_eq (hsizes.columnWidths col width hwidth)]
    exact (h.columnWidths col width hwidth).2

theorem Sheet.SizesReadBack.allFinite {sheet : Sheet} (hsizes : sheet.SizesReadBack) :
    AllFinite sheet.columnWidths ∧ AllFinite sheet.rowHeights := by
  constructor
  · intro col width hwidth
    rw [← Json.isSome_toFloat?_ofFloat, hsizes.columnWidths col width hwidth]
    rfl
  · intro row height hheight
    rw [← Json.isSome_toFloat?_ofFloat, hsizes.rowHeights row height hheight]
    rfl

namespace StoredSheet

variable {settings : Settings} {sheet : Sheet} {p : Position} {cell : Cell}

theorem isPrintable_ofSheet (h : sheet.WellFormed settings) (hwords : sheet.InWords) :
    (ofSheet sheet).IsPrintable where
  columns_lt := hwords.columns_lt
  rows_lt := hwords.rows_lt
  columnWidths := fun col width hwidth =>
    (h.columnWidths col width hwidth).1.trans hwords.columns_lt
  rowHeights := fun row height hheight => (h.rowHeights row height hheight).1.trans hwords.rows_lt
  columnFilters := fun col texts htexts =>
    (h.columnFilters col texts htexts).1.trans hwords.columns_lt
  tables := by
    intro stored hstored
    obtain ⟨table, htable, rfl⟩ := List.mem_map.mp hstored
    exact hwords.tables_lt table htable

theorem ofName?_name (hwords : sheet.InWords) (hp : sheet.extent.contains p = true) :
    Position.ofName? p.name = some p := by
  obtain ⟨hcol, hrow⟩ := Extent.contains_iff.mp hp
  exact Position.ofName?_name (Nat.lt_of_le_of_lt hcol hwords.columns_lt)
    (Nat.lt_of_le_of_lt hrow hwords.rows_lt)

theorem distinct_names (h : sheet.WellFormed settings) (hwords : sheet.InWords) :
    (sheet.cells.toList.map fun (p, cell) => (p.name, StoredCell.ofCell cell)).Pairwise
      fun a b => ¬ compare a.1 b.1 = .eq := by
  rw [List.pairwise_map]
  refine Std.ExtTreeMap.distinct_keys_toList.imp_of_mem ?_
  rintro ⟨p, cell⟩ ⟨q, other⟩ hp hq hdistinct hname
  dsimp only at hname
  rw [Std.ExtTreeMap.mem_toList_iff_getElem?_eq_some] at hp hq
  have hread := ofName?_name hwords (h.contains_of_getElem? hp)
  have hread' := ofName?_name hwords (h.contains_of_getElem? hq)
  rw [Std.LawfulEqCmp.compare_eq_iff_eq.mp hname, hread'] at hread
  exact hdistinct (Std.LawfulEqCmp.compare_eq_iff_eq.mpr (Option.some.inj hread).symm)

theorem mem_cells_ofSheet (h : sheet.WellFormed settings) (hwords : sheet.InWords)
    (hcell : sheet.cells[p]? = some cell) :
    (p.name, StoredCell.ofCell cell) ∈ (ofSheet sheet).cells.toList := by
  rw [Std.ExtTreeMap.mem_toList_iff_getElem?_eq_some]
  refine Std.ExtTreeMap.getElem?_ofList_of_mem Std.ReflCmp.compare_self
    (distinct_names h hwords) ?_
  exact List.mem_map.mpr
    ⟨(p, cell), Std.ExtTreeMap.mem_toList_iff_getElem?_eq_some.mpr hcell, rfl⟩

theorem exists_of_mem_cells (h : sheet.WellFormed settings) (hwords : sheet.InWords)
    {entry : String × StoredCell} (hentry : entry ∈ (ofSheet sheet).cells.toList) :
    ∃ (p : Position) (cell : Cell), sheet.cells[p]? = some cell ∧
      entry = (p.name, StoredCell.ofCell cell) := by
  have hstored := Std.ExtTreeMap.mem_toList_iff_getElem?_eq_some.mp hentry
  have hkey : entry.1 ∈ (ofSheet sheet).cells := SortedMap.mem_of_getElem?_eq_some hstored
  rw [ofSheet, Std.ExtTreeMap.mem_ofList, List.contains_iff_mem, List.map_map] at hkey
  obtain ⟨⟨p, cell⟩, hmem, hname⟩ := List.mem_map.mp hkey
  have hcell := Std.ExtTreeMap.mem_toList_iff_getElem?_eq_some.mp hmem
  have hfound := Std.ExtTreeMap.mem_toList_iff_getElem?_eq_some.mp
    (mem_cells_ofSheet h hwords hcell)
  refine ⟨p, cell, hcell, Prod.ext hname.symm ?_⟩
  rw [show p.name = entry.1 from hname, hstored] at hfound
  exact Option.some.inj hfound

theorem addCell_ofCell (h : sheet.WellFormed settings) (hwords : sheet.InWords)
    (hcell : sheet.cells[p]? = some cell) {start : Sheet} (hextent : start.extent = sheet.extent) :
    addCell start p.name (StoredCell.ofCell cell) = .ok (start.put p (some cell.entered)) := by
  have hcontains := h.contains_of_getElem? hcell
  unfold addCell
  rw [ofName?_name hwords hcontains, hextent, Option.filter_some_pos hcontains,
    (h.isProper p cell hcell).toCell?_eq]

theorem foldlM_addCell (h : sheet.WellFormed settings) (hwords : sheet.InWords)
    {entries : List (String × StoredCell)}
    (hentries : ∀ entry ∈ entries, ∃ (p : Position) (cell : Cell),
      sheet.cells[p]? = some cell ∧ entry = (p.name, StoredCell.ofCell cell))
    {start : Sheet} (hextent : start.extent = sheet.extent) :
    ∃ grid : Grid,
      entries.foldlM (fun sheet (name, cell) => addCell sheet name cell) start =
        .ok { start with cells := grid } ∧
      ∀ q : Position, grid[q]? = sheet.cells.entered[q]? ∨
        (grid[q]? = start.cells[q]? ∧ ∀ cell, sheet.cells[q]? = some cell →
          (q.name, StoredCell.ofCell cell) ∉ entries) := by
  induction entries generalizing start with
  | nil => exact ⟨start.cells, rfl, fun q => .inr ⟨rfl, fun _ _ => List.not_mem_nil⟩⟩
  | cons entry entries ih =>
      obtain ⟨⟨p, cell, hcell, rfl⟩, htail⟩ := List.forall_mem_cons.mp hentries
      obtain ⟨grid, hgrid, hfound⟩ := @ih htail (start.put p (some cell.entered)) hextent
      refine ⟨grid, ?_, fun q => ?_⟩
      · rw [List.foldlM_cons]
        dsimp only
        rw [addCell_ofCell h hwords hcell hextent]
        exact hgrid
      · rcases hfound q with hq | ⟨hq, hleft⟩
        · exact .inl hq
        · simp only [Sheet.put, Std.ExtTreeMap.getElem?_alter] at hq
          by_cases hpq : p = q
          · subst hpq
            left
            rw [hq, Grid.getElem?_entered, hcell]
            simp
          · right
            rw [if_neg (by simpa using hpq)] at hq
            refine ⟨hq, fun other hother hmem => ?_⟩
            rcases List.mem_cons.mp hmem with heq | hmem
            · have hname := congrArg (Position.ofName? ·.1) heq
              dsimp only at hname
              rw [ofName?_name hwords (h.contains_of_getElem? hother),
                ofName?_name hwords (h.contains_of_getElem? hcell)] at hname
              exact hpq (Option.some.inj hname).symm
            · exact hleft other hother hmem

theorem foldlM_addCell_ofSheet (h : sheet.WellFormed settings) (hwords : sheet.InWords)
    {start : Sheet} (hextent : start.extent = sheet.extent) (hempty : start.cells = ∅) :
    (ofSheet sheet).cells.toList.foldlM (fun sheet (name, cell) => addCell sheet name cell) start =
      .ok { start with cells := sheet.cells.entered } := by
  obtain ⟨grid, hgrid, hfound⟩ := foldlM_addCell h hwords
    (fun entry hentry => exists_of_mem_cells h hwords hentry) hextent
  have hentered : grid = sheet.cells.entered := by
    apply Std.ExtTreeMap.ext_getElem?
    intro q
    rcases hfound q with hq | ⟨hq, hleft⟩
    · exact hq
    · cases hcell : sheet.cells[q]? with
      | some cell => exact absurd (mem_cells_ofSheet h hwords hcell) (hleft cell hcell)
      | none => rw [hq, hempty, Grid.getElem?_entered, hcell, Std.ExtTreeMap.getElem?_empty]; rfl
  rw [hgrid, hentered]

section Layout

variable {start : Sheet} {error : LayoutFailure → WorkbookFault}

theorem foldlM_setColumnWidth {widths : Std.ExtTreeMap Nat Float}
    (h : ∀ (col : Nat) (width : Float), widths[col]? = some width → col < start.extent.columns)
    (hempty : start.columnWidths = ∅) :
    widths.toList.foldlM (fun sheet (col, width) =>
        (sheet.setColumnWidth col (settings.clampColumnWidth width)).mapError error) start =
      .ok { start with columnWidths := widths.map fun _ => settings.clampColumnWidth } := by
  refine foldlM_insert (fun filled => { start with
      columnWidths := filled.map fun _ => settings.clampColumnWidth }) ?_
    fun filled col width hwidth => ?_
  · rw [Std.ExtTreeMap.map_eq_empty_iff.mpr rfl, ← hempty]
  · simp only [Sheet.setColumnWidth, Sheet.checkColumn, map_insert]
    rw [if_pos (h col width hwidth)]
    rfl

theorem foldlM_setRowHeight {heights : Std.ExtTreeMap Nat Float}
    (h : ∀ (row : Nat) (height : Float), heights[row]? = some height → row < start.extent.rows)
    (hempty : start.rowHeights = ∅) :
    heights.toList.foldlM (fun sheet (row, height) =>
        (sheet.setRowHeight row (settings.clampRowHeight height)).mapError error) start =
      .ok { start with rowHeights := heights.map fun _ => settings.clampRowHeight } := by
  refine foldlM_insert (fun filled => { start with
      rowHeights := filled.map fun _ => settings.clampRowHeight }) ?_
    fun filled row height hheight => ?_
  · rw [Std.ExtTreeMap.map_eq_empty_iff.mpr rfl, ← hempty]
  · simp only [Sheet.setRowHeight, Sheet.checkRow, map_insert]
    rw [if_pos (h row height hheight)]
    rfl

theorem foldlM_setColumnFilter {filters : Std.ExtTreeMap Nat (Std.ExtTreeSet String)}
    (h : ∀ (col : Nat) (texts : Std.ExtTreeSet String), filters[col]? = some texts →
      col < start.extent.columns ∧ texts.isEmpty = false)
    (hempty : start.columnFilters = ∅) :
    filters.toList.foldlM (fun sheet (col, texts) =>
        (sheet.setColumnFilter col texts).mapError error) start =
      .ok { start with columnFilters := filters } := by
  refine foldlM_insert (fun filled => { start with columnFilters := filled }) (by rw [← hempty])
    fun filled col texts htexts => ?_
  obtain ⟨hcol, hsome⟩ := h col texts htexts
  simp only [hsome, Sheet.setColumnFilter, Sheet.checkColumn]
  rw [if_pos hcol]
  rfl

end Layout

theorem toTable_ofTable {table : Table} {extent : Extent} (name : String)
    (hwithin : table.range.IsWithin extent) (hcolumns : extent.columns < UInt64.size)
    (hrows : extent.rows < UInt64.size) :
    (StoredTable.ofTable table).toTable name extent = .ok table := by
  obtain ⟨hcol, hrow⟩ := Extent.contains_iff.mp hwithin.contains
  have hrange : Range.ofName? table.range.name = some table.range :=
    Range.ofName?_name hwithin.row_le hwithin.col_le (Nat.lt_of_le_of_lt hrow hrows)
      (Nat.lt_of_le_of_lt hcol hcolumns)
  have hkept : (some table.range).filter (fun range => extent.contains range.bottomRight) =
      some table.range := Option.filter_some_pos hwithin.contains
  simp only [StoredTable.toTable, StoredTable.ofTable, hrange, hkept]

theorem lt_of_getElem?_map {sizes : Std.ExtTreeMap Nat Float} {bound : Nat} {f : Float → Float}
    (h : ∀ (place : Nat) (size : Float), sizes[place]? = some size → place < bound) (place : Nat)
    (size : Float) (hsize : (sizes.map fun _ => f)[place]? = some size) : place < bound := by
  rw [Std.ExtTreeMap.getElem?_map] at hsize
  obtain ⟨before, hbefore, -⟩ := Option.map_eq_some_iff.mp hsize
  exact h place before hbefore

/-- A sheet of an allowed size is had back from what is read of it, up to its number, with the
values that formulas have before any recalculation. -/
theorem toSheet_reread (h : sheet.WellFormed settings) (hwords : sheet.InWords)
    (hallows : settings.allows sheet.extent.columns sheet.extent.rows = true) :
    (ofSheet sheet).reread.toSheet settings =
      .ok { sheet.resized settings with id := 0, cells := sheet.cells.entered } := by
  have hstart : Sheet.empty 0 sheet.name sheet.extent =
      ⟨0, sheet.name, sheet.extent, ∅, ∅, ∅, ∅, []⟩ := by
    have hraised : sheet.extent.raised = sheet.extent := by
      simp [Extent.raised, Nat.max_eq_left h.columns_pos, Nat.max_eq_left h.rows_pos]
    rw [Sheet.empty, hraised]
  have hcells : (ofSheet sheet).cells.toList.foldlM
      (fun sheet (name, cell) => addCell sheet name cell)
      (Sheet.empty 0 sheet.name sheet.extent) =
        .ok ⟨0, sheet.name, sheet.extent, sheet.cells.entered, ∅, ∅, ∅, []⟩ := by
    rw [hstart]
    exact foldlM_addCell_ofSheet h hwords rfl rfl
  have htables : (ofSheet sheet).tables.mapM
      (fun table => table.toTable sheet.name sheet.extent) = .ok sheet.tables :=
    mapM_map_eq fun table htable =>
      toTable_ofTable sheet.name (h.tables table htable) hwords.columns_lt hwords.rows_lt
  unfold toSheet
  refine (if_pos hallows).trans ?_
  refine (bind_of_eq_ok hcells).trans ?_
  refine (bind_of_eq_ok (foldlM_setColumnWidth ?_ rfl)).trans ?_
  · exact lt_of_getElem?_map fun col width hwidth => (h.columnWidths col width hwidth).1
  refine (bind_of_eq_ok (foldlM_setRowHeight ?_ rfl)).trans ?_
  · exact lt_of_getElem?_map fun row height hheight => (h.rowHeights row height hheight).1
  refine (bind_of_eq_ok (foldlM_setColumnFilter ?_ rfl)).trans ?_
  · exact h.columnFilters
  refine (bind_of_eq_ok htables).trans (congrArg Except.ok ?_)
  simp only [reread, ofSheet, Std.ExtTreeMap.map_map]
  rfl

end StoredSheet

namespace Grid

variable {grid : Grid}

theorem entered_entered : grid.entered.entered = grid.entered := by
  rw [entered_eq_iff]
  intro p
  rw [getElem?_entered, Option.map_map]
  rfl

theorem IsProper.entered (h : grid.IsProper) : grid.entered.IsProper := by
  intro p cell hcell
  rw [getElem?_entered] at hcell
  obtain ⟨before, hbefore, rfl⟩ := Option.map_eq_some_iff.mp hcell
  exact ⟨(h p before hbefore).toCell?_eq, fun _ => rfl⟩

end Grid

namespace Workbook

variable {settings : Settings} {workbook : Workbook}

/-- The workbook with its sheets numbered by their places and its cells as they were entered. -/
def reentered (workbook : Workbook) : Workbook where
  name := workbook.name
  sheets := workbook.sheets.mapIdx fun index sheet =>
    { sheet with id := index + 1, cells := sheet.cells.entered }
  active := workbook.active
  nextId := workbook.sheets.length + 1

/-- The workbook with widths and heights as they are read and moved within the bounds. -/
def resized (settings : Settings) (workbook : Workbook) : Workbook :=
  { workbook with sheets := workbook.sheets.map (Sheet.resized settings) }

theorem ofJson?_toText (h : workbook.WellFormed settings) (hwords : workbook.InWords)
    (hfinite : ∀ sheet ∈ workbook.sheets,
      AllFinite sheet.columnWidths ∧ AllFinite sheet.rowHeights) :
    (Json.ofText? workbook.toText).bind StoredWorkbook.ofJson? =
      some { StoredWorkbook.ofWorkbook workbook with
        sheets := workbook.sheets.map fun sheet => (StoredSheet.ofSheet sheet).reread } := by
  have hsheets : (StoredWorkbook.ofWorkbook workbook).sheets.mapM
      (fun sheet => StoredSheet.ofJson? sheet.toJson) =
        some (workbook.sheets.map fun sheet => (StoredSheet.ofSheet sheet).reread) :=
    mapM_map_eq_map fun sheet hsheet => StoredSheet.ofJson?_toJson_of_allFinite
      (StoredSheet.isPrintable_ofSheet (h.sheets sheet hsheet) (hwords.sheets sheet hsheet))
      (hfinite sheet hsheet).1 (hfinite sheet hsheet).2
  rw [toText, StoredWorkbook.ofJson?_text hwords.active_lt, hsheets, Option.bind_some]

theorem toWorkbook_reread (h : workbook.WellFormed settings)
    (hwords : ∀ sheet ∈ workbook.sheets, sheet.InWords)
    (hallows : ∀ sheet ∈ workbook.sheets,
      settings.allows sheet.extent.columns sheet.extent.rows = true) :
    StoredWorkbook.toWorkbook { StoredWorkbook.ofWorkbook workbook with
        sheets := workbook.sheets.map fun sheet => (StoredSheet.ofSheet sheet).reread } settings =
      .ok (workbook.resized settings).reentered := by
  have hsheets : (workbook.sheets.map fun sheet => (StoredSheet.ofSheet sheet).reread).mapM
      (fun sheet => sheet.toSheet settings) =
        .ok (workbook.sheets.map fun sheet =>
          { sheet.resized settings with id := 0, cells := sheet.cells.entered }) :=
    mapM_map_eq_map fun sheet hsheet =>
      StoredSheet.toSheet_reread (h.sheets sheet hsheet) (hwords sheet hsheet)
        (hallows sheet hsheet)
  have hne : workbook.sheets ≠ [] := List.ne_nil_of_length_pos (Nat.zero_lt_of_lt h.active_lt)
  unfold StoredWorkbook.toWorkbook
  refine (if_neg ?_).trans ((bind_of_eq_ok hsheets).trans ?_)
  · simpa using hne
  · have hactive : workbook.active < (workbook.sheets.map fun sheet =>
        { sheet.resized settings with id := 0, cells := sheet.cells.entered }).length := by
      simpa using h.active_lt
    rw [ofSheets, if_neg (by simpa using hne)]
    refine (if_pos hactive).trans (congrArg Except.ok ?_)
    rw [reentered, resized, mk.injEq, List.length_map, List.length_map]
    refine ⟨rfl, List.ext_getElem? fun index => ?_, rfl, rfl⟩
    simp only [List.getElem?_mapIdx, List.getElem?_map, Option.map_map]
    rfl

theorem ofText_toText (h : workbook.WellFormed settings) (hwords : workbook.InWords)
    (hallows : ∀ sheet ∈ workbook.sheets,
      settings.allows sheet.extent.columns sheet.extent.rows = true)
    (hfinite : ∀ sheet ∈ workbook.sheets,
      AllFinite sheet.columnWidths ∧ AllFinite sheet.rowHeights) :
    ofText settings workbook.toText = .ok (workbook.resized settings).reentered.recalculation := by
  rw [ofText, ofJson?_toText h hwords hfinite]
  dsimp only
  rw [toWorkbook_reread h hwords.sheets hallows]

theorem sheets_recalculation_reentered (h : workbook.WellFormed settings)
    (hsettled : workbook.IsSettled) :
    workbook.reentered.recalculation.1.sheets =
      workbook.sheets.mapIdx fun index sheet => { sheet with id := index + 1 } := by
  have hcells : ∀ sheet ∈ workbook.sheets,
      (sheet.cells.entered.recalculate sheet.extent).grid = sheet.cells := fun sheet hsheet =>
    Grid.IsSettled.eq_of_entered (Grid.isSettled_recalculate _ _) (hsettled sheet hsheet)
      (h.sheets sheet hsheet).isProper.entered.recalculate (h.sheets sheet hsheet).isProper
      (Grid.entered_recalculate.trans Grid.entered_entered)
  apply List.ext_getElem?
  intro index
  simp only [recalculation, reentered, List.map_map, List.getElem?_map, List.getElem?_mapIdx,
    Option.map_map]
  cases hindex : workbook.sheets[index]? with
  | none => rfl
  | some sheet =>
      have hsheet := hcells sheet (List.mem_of_getElem? hindex)
      simp [Sheet.recalculation, hsheet]

end Workbook

namespace Document

variable {settings : Settings} {d target : Document}

/-- A document whose sheets are allowed is had back from the text in which it is stored. Only the
numbers of the sheets can be others: they follow the order of the sheets. -/
theorem Reachable.load_storedText (h : Reachable settings d) (htarget : target.settings = settings)
    (hwords : d.workbook.InWords)
    (hallows : ∀ sheet ∈ d.workbook.sheets,
      settings.allows sheet.extent.columns sheet.extent.rows = true)
    (hsizes : ∀ sheet ∈ d.workbook.sheets, sheet.SizesReadBack) :
    ∃ result, target.load d.storedText = .ok result ∧
      result.document.workbook.name = d.workbook.name ∧
      result.document.workbook.active = d.workbook.active ∧
      result.document.workbook.sheets =
        d.workbook.sheets.mapIdx fun index sheet => { sheet with id := index + 1 } := by
  have hworkbook := h.wellFormed.workbook
  have hresized : d.workbook.resized settings = d.workbook := by
    have hsame : d.workbook.sheets.map (Sheet.resized settings) = d.workbook.sheets :=
      (List.map_congr_left fun sheet hsheet =>
        (hsizes sheet hsheet).resized_eq (hworkbook.sheets sheet hsheet)).trans (List.map_id _)
    rw [Workbook.resized, hsame]
  have htext : Workbook.ofText target.settings d.storedText =
      .ok d.workbook.reentered.recalculation := by
    rw [htarget, storedText, Workbook.ofText_toText hworkbook hwords hallows
      fun sheet hsheet => (hsizes sheet hsheet).allFinite, hresized]
  exact ⟨_, bind_of_eq_ok htext, rfl, rfl,
    Workbook.sheets_recalculation_reentered hworkbook h.isSettled⟩

/-- Two sheets with a text that has to be escaped, a formula, a style without an input, a table and
a filter. -/
def twoSheets : List Operation :=
  [.write ⟨0, 0⟩ "say \"hi\"\n", .write ⟨3, 1⟩ "=A1", .click ⟨1, 2⟩, .extendSelection ⟨2, 3⟩,
    .insertTable "Blue", .setColumnFilter 0 (Std.ExtTreeSet.ofList ["\t"]), .addSheet none,
    .write ⟨39, 9⟩ "last"]

theorem load_storedText_twoSheets :
    let d := (Session.run ⟨.new .standard, .empty⟩ twoSheets).document
    ∃ result, (Document.new .standard).load d.storedText = .ok result ∧
      result.document.workbook.name = d.workbook.name ∧
      result.document.workbook.active = d.workbook.active ∧
      result.document.workbook.sheets =
        d.workbook.sheets.mapIdx fun index sheet => { sheet with id := index + 1 } := by
  intro d
  have h : Reachable .standard d := reachable_run .new twoSheets
  have hactive : d.workbook.active < UInt64.size := by decide +kernel
  have hsheets : ∀ sheet ∈ d.workbook.sheets, sheet.extent.columns < UInt64.size ∧
      sheet.extent.rows < UInt64.size ∧ ∀ table ∈ sheet.tables, table.id < UInt64.size := by
    decide +kernel
  have hallows : ∀ sheet ∈ d.workbook.sheets,
      Settings.standard.allows sheet.extent.columns sheet.extent.rows = true := by
    decide +kernel
  have hsizes : ∀ sheet ∈ d.workbook.sheets,
      sheet.columnWidths.isEmpty = true ∧ sheet.rowHeights.isEmpty = true := by
    decide +kernel
  refine h.load_storedText rfl ⟨hactive, fun sheet hsheet => ?_⟩ hallows fun sheet hsheet => ?_
  · obtain ⟨hcolumns, hrows, htables⟩ := hsheets sheet hsheet
    exact ⟨hcolumns, hrows, htables⟩
  · obtain ⟨hwidths, hheights⟩ := hsizes sheet hsheet
    rw [Std.ExtTreeMap.isEmpty_iff] at hwidths hheights
    exact ⟨by simp [hwidths], by simp [hheights]⟩

end Document

end Spreadsheet
