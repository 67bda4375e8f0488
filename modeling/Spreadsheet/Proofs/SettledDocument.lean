import Spreadsheet.Proofs.SettledWorkbook

namespace Spreadsheet.Document

variable {d next : Document} {sheet : Sheet} {p : Position}

/-- A recalculation changes nothing on any sheet. -/
def IsSettled (d : Document) : Prop := d.workbook.IsSettled

theorem isSettled_new (settings : Settings) : (new settings).IsSettled :=
  Workbook.isSettled_new _

theorem IsSettled.activeSheet (h : d.IsSettled) : d.activeSheet.IsSettled :=
  Workbook.IsSettled.activeSheet h

theorem IsSettled.setActiveSheet (h : d.IsSettled) (hsheet : sheet.IsSettled) :
    (d.setActiveSheet sheet).IsSettled := Workbook.IsSettled.setSheet h hsheet _

theorem IsSettled.commit (h : d.IsSettled) (sheet : Sheet) (changes : List Change) :
    (d.commit sheet changes).document.IsSettled := by
  unfold Document.commit
  split
  · exact h
  · exact h.setActiveSheet sheet.isSettled_recalculation

/-- A change that keeps the formula and the value that were there. -/
def KeepsContents (grid : Grid) (change : Change) : Prop :=
  change.next.bind Cell.formula? = grid[change.cell]?.bind Cell.formula? ∧
    (change.next.map Cell.value).getD .empty = grid.valueAt change.cell

theorem keepsContents_styleChange? {update : Position → Style → Style} {change : Change}
    (h : styleChange? sheet update p = some change) : KeepsContents sheet.cells change := by
  unfold styleChange? at h
  split at h
  · dsimp only at h
    split at h
    · cases h
    · obtain rfl := Option.some.inj h
      unfold KeepsContents Grid.valueAt
      cases hcell : sheet.cells[p]? with
      | none => simp [Cell.ofStyle, Cell.formula?]
      | some cell => simp [Cell.formula?]
  · cases h

theorem sameContents_foldl_put (sheet current : Sheet) (changes : List Change)
    (hchanges : ∀ change ∈ changes, KeepsContents sheet.cells change)
    (hcurrent : Grid.SameContents current.cells sheet.cells) :
    let last := changes.foldl (fun sheet change => sheet.put change.cell change.next) current
    last.extent = current.extent ∧ Grid.SameContents last.cells sheet.cells := by
  induction changes generalizing current with
  | nil => exact ⟨rfl, hcurrent⟩
  | cons change changes ih =>
      obtain ⟨hformula, hvalue⟩ := hchanges change List.mem_cons_self
      refine ih (current.put change.cell change.next) ?_ (hcurrent.alter hformula hvalue)
      exact fun other hother => hchanges other (List.mem_cons_of_mem _ hother)

theorem isSettled_restyle (h : sheet.IsSettled) (cells : List Position)
    (update : Position → Style → Style) : (restyle sheet cells update).1.IsSettled := by
  have hchanges : ∀ change ∈ cells.filterMap (styleChange? sheet update),
      KeepsContents sheet.cells change := by
    intro change hchange
    obtain ⟨q, -, hq⟩ := List.mem_filterMap.mp hchange
    exact keepsContents_styleChange? hq
  have hfold := sameContents_foldl_put sheet sheet _ hchanges ⟨rfl, rfl⟩
  unfold Sheet.IsSettled restyle
  rw [hfold.1]
  exact Grid.IsSettled.of_sameContents h hfold.2

theorem IsSettled.commits (h : d.IsSettled) (hnext : d.Commits next) : next.IsSettled := by
  obtain ⟨sheet, changes, rfl⟩ := hnext
  exact h.commit sheet changes

theorem IsSettled.tabled (h : d.IsSettled) (region : Range) (style : TableStyle) (id : Nat) :
    (d.tabled region style id).IsSettled :=
  h.setActiveSheet ((isSettled_restyle h.activeSheet _ _).congr rfl rfl)

/-- Every operation leaves all formulas at their values. -/
theorem IsSettled.performs {operation : Operation} (h : d.IsSettled)
    (hperforms : d.Performs operation next) : next.IsSettled := by
  cases hperforms with
  | edited _ hnext => exact h.commits hnext
  | tabled _ region style id => exact h.tabled region style id
  | recalculated => exact h.setActiveSheet d.activeSheet.isSettled_recalculation
  | undone _ | redone _ => exact isSettled_applyRecord _ h
  | clicked _ | extended _ | toggled _ | unselected | renamedWorkbook _ | saved _ _ | exported _ =>
      exact h
  | resized extent _ => exact h.setActiveSheet (Sheet.isSettled_recalculation _)
  | widened hset =>
      obtain ⟨-, rfl⟩ := Sheet.setColumnWidth_eq_ok hset
      exact h.setActiveSheet (h.activeSheet.congr rfl rfl)
  | heightened hset =>
      obtain ⟨-, rfl⟩ := Sheet.setRowHeight_eq_ok hset
      exact h.setActiveSheet (h.activeSheet.congr rfl rfl)
  | filtered hset =>
      obtain ⟨-, rfl⟩ := Sheet.setColumnFilter_eq_ok hset
      refine h.setActiveSheet ?_
      split <;> exact h.activeSheet.congr rfl rfl
  | unfiltered col => exact h.setActiveSheet (h.activeSheet.congr rfl rfl)
  | added hadd => exact Workbook.IsSettled.addSheet h hadd
  | renamed hrename => exact Workbook.IsSettled.renameSheet h hrename
  | deleted _ hdelete => exact Workbook.IsSettled.deleteSheet h hdelete
  | duplicated hduplicate => exact Workbook.IsSettled.duplicateSheet h hduplicate
  | activated hactivate | activatedNamed _ hactivate =>
      exact Workbook.IsSettled.activate h hactivate
  -- whatever was edited before, a workbook that is opened is recalculated
  | @opened _ _ workbook => exact workbook.isSettled_recalculation

theorem isSettled_ofPath {settings : Settings} {files : Files} {path : Option String}
    {result : Done Unit} (hdone : ofPath settings files path = .ok result) :
    result.document.IsSettled := by
  obtain ⟨file, hresult⟩ | ⟨path, hopen⟩ := ofPath_eq_ok hdone
  · rw [hresult]
    exact isSettled_new settings
  · obtain ⟨stored, opened, -, hresult⟩ := openFile_eq_ok hopen
    rw [hresult]
    exact opened.isSettled_recalculation

theorem Reachable.isSettled {settings : Settings} (h : Reachable settings d) : d.IsSettled := by
  induction h with
  | new => exact isSettled_new settings
  | ofPath h => exact isSettled_ofPath h
  | perform start hperform ih => exact ih.performs (performs_of_perform hperform)

theorem reachable_run {settings : Settings} {session : Session}
    (h : Reachable settings session.document) (operations : List Operation) :
    Reachable settings (session.run operations).document := by
  unfold Session.run
  induction operations generalizing session with
  | nil => exact h
  | cons operation operations ih =>
      rw [List.foldl_cons]
      apply ih
      unfold Session.after
      cases hperform : session.perform operation with
      | ok next => exact h.perform hperform
      | error reason => exact h

/-- No document ever shows a value that is out of date, not on sheets behind the active one
either. -/
theorem Reachable.recalculation_grid {settings : Settings} (h : Reachable settings d) :
    ∀ sheet ∈ d.workbook.sheets, sheet.recalculation.grid = sheet.cells :=
  h.isSettled

/-- A formula on a sheet that is not active any more when the cell that it reads is restored. -/
def undoBehind : List Operation :=
  [.write ⟨0, 0⟩ "2", .write ⟨0, 1⟩ "=A1*3", .write ⟨0, 0⟩ "5", .addSheet none, .undo]

theorem recalculation_grid_undoBehind :
    let d := (Session.run ⟨.new .standard, .empty⟩ undoBehind).document
    Reachable .standard d ∧ ∀ sheet ∈ d.workbook.sheets, sheet.recalculation.grid = sheet.cells := by
  intro d
  have h : Reachable .standard d := reachable_run .new undoBehind
  exact ⟨h, h.recalculation_grid⟩

end Spreadsheet.Document
