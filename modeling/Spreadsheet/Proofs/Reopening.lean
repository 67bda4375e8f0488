import Spreadsheet.Proofs.Storage

namespace Spreadsheet

/-- A sheet that loading accepts once it is stored. -/
structure Sheet.CanReopen (settings : Settings) (sheet : Sheet) : Prop where
  allows : settings.allows sheet.extent.columns sheet.extent.rows = true
  columnWidths : AllFinite sheet.columnWidths
  rowHeights : AllFinite sheet.rowHeights

instance (settings : Settings) (sheet : Sheet) : Decidable (sheet.CanReopen settings) :=
  decidable_of_iff (settings.allows sheet.extent.columns sheet.extent.rows = true ∧
      AllFinite sheet.columnWidths ∧ AllFinite sheet.rowHeights)
    ⟨fun ⟨hallows, hwidths, hheights⟩ => ⟨hallows, hwidths, hheights⟩,
      fun h => ⟨h.allows, h.columnWidths, h.rowHeights⟩⟩

theorem StoredSheet.allows_of_toSheet {settings : Settings} {stored : StoredSheet} {sheet : Sheet}
    (h : stored.toSheet settings = .ok sheet) :
    settings.allows stored.columns stored.rows = true := by
  unfold toSheet at h
  split at h
  · assumption
  · cases h

theorem StoredWorkbook.exists_toSheet_of_toWorkbook {settings : Settings} {stored : StoredWorkbook}
    {workbook : Workbook} (h : stored.toWorkbook settings = .ok workbook) :
    ∀ file ∈ stored.sheets, ∃ sheet, file.toSheet settings = .ok sheet := by
  unfold toWorkbook at h
  split at h
  · cases h
  · obtain ⟨sheets, hsheets, -⟩ := bind_eq_ok h
    exact exists_of_mapM_eq_ok hsheets

namespace Workbook

variable {settings : Settings} {workbook : Workbook}

theorem allFinite_of_ofText {result : Workbook × List Notice} (h : workbook.WellFormed settings)
    (hwords : workbook.InWords) (hload : ofText settings workbook.toText = .ok result) :
    ∀ sheet ∈ workbook.sheets, AllFinite sheet.columnWidths ∧ AllFinite sheet.rowHeights := by
  intro sheet hsheet
  unfold ofText at hload
  split at hload
  · cases hload
  · rename_i stored hstored
    rw [toText, StoredWorkbook.ofJson?_text hwords.active_lt] at hstored
    obtain ⟨sheets, hsheets, -⟩ := Option.bind_eq_some_iff.mp hstored
    obtain ⟨read, hread⟩ := exists_of_mapM_eq_some hsheets _ (List.mem_map_of_mem hsheet)
    exact StoredSheet.allFinite_of_ofJson?
      (StoredSheet.isPrintable_ofSheet (h.sheets sheet hsheet) (hwords.sheets sheet hsheet)) hread

theorem allows_of_ofText {result : Workbook × List Notice} (h : workbook.WellFormed settings)
    (hwords : workbook.InWords) (hload : ofText settings workbook.toText = .ok result) :
    ∀ sheet ∈ workbook.sheets,
      settings.allows sheet.extent.columns sheet.extent.rows = true := by
  intro sheet hsheet
  have hread := ofJson?_toText h hwords (allFinite_of_ofText h hwords hload)
  unfold ofText at hload
  rw [hread] at hload
  dsimp only at hload
  split at hload
  · rename_i opened hopened
    have hstored : (StoredSheet.ofSheet sheet).reread ∈
        workbook.sheets.map fun sheet => (StoredSheet.ofSheet sheet).reread :=
      List.mem_map_of_mem hsheet
    obtain ⟨loaded, hloaded⟩ :=
      StoredWorkbook.exists_toSheet_of_toWorkbook hopened _ hstored
    exact StoredSheet.allows_of_toSheet hloaded
  · cases hload

/-- A workbook is had back from its text exactly if each of its sheets is of an allowed size and has
finite widths and heights. -/
theorem exists_ofText_toText_iff (h : workbook.WellFormed settings) (hwords : workbook.InWords) :
    (∃ result, ofText settings workbook.toText = .ok result) ↔
      ∀ sheet ∈ workbook.sheets, sheet.CanReopen settings := by
  constructor
  · rintro ⟨result, hload⟩ sheet hsheet
    obtain ⟨hwidths, hheights⟩ := allFinite_of_ofText h hwords hload sheet hsheet
    exact ⟨allows_of_ofText h hwords hload sheet hsheet, hwidths, hheights⟩
  · intro hsheets
    exact ⟨_, ofText_toText h hwords (fun sheet hsheet => (hsheets sheet hsheet).allows)
      fun sheet hsheet => ⟨(hsheets sheet hsheet).columnWidths, (hsheets sheet hsheet).rowHeights⟩⟩

end Workbook

namespace Document

variable {settings : Settings} {d target : Document}

/-- What is saved can be opened again exactly if each sheet is of an allowed size and has finite
widths and heights. -/
theorem Reachable.exists_load_storedText_iff (h : Reachable settings d)
    (htarget : target.settings = settings) (hwords : d.workbook.InWords) :
    (∃ result, target.load d.storedText = .ok result) ↔
      ∀ sheet ∈ d.workbook.sheets, sheet.CanReopen settings := by
  rw [← Workbook.exists_ofText_toText_iff h.wellFormed.workbook hwords]
  constructor
  · rintro ⟨result, hload⟩
    obtain ⟨opened, hopened, -⟩ := bind_eq_ok hload
    exact ⟨opened, htarget ▸ hopened⟩
  · rintro ⟨opened, hopened⟩
    exact ⟨_, bind_of_eq_ok (htarget ▸ hopened)⟩

/-- Settings without an upper bound for widths and heights. -/
def boundless : Settings :=
  { Settings.standard with maxDimensionSize := Float.ofBits 0x7FF0000000000000 }

/-- The largest double as a width, which is not read as it was, and an ordinary height. -/
def largestWidth : List Operation :=
  [.setColumnWidth 3 (Float.ofBits 0x7FEFFFFFFFFFFFFF), .setRowHeight 0 20.5]

theorem exists_load_storedText_iff_largestWidth :
    let d := (Session.run ⟨.new boundless, .empty⟩ largestWidth).document
    d.workbook.InWords ∧ (∀ sheet ∈ d.workbook.sheets, sheet.CanReopen boundless) ∧
      ∃ result, (Document.new boundless).load d.storedText = .ok result := by
  intro d
  have h : Reachable boundless d := reachable_run .new largestWidth
  have hwords : d.workbook.InWords := by decide +kernel
  have hsheets : ∀ sheet ∈ d.workbook.sheets, sheet.CanReopen boundless := by decide +kernel
  exact ⟨hwords, hsheets, (h.exists_load_storedText_iff rfl hwords).mpr hsheets⟩

/-- A width that is not a number. -/
def widthNaN : List Operation := [.setColumnWidth 0 (Float.ofBits 0x7FF8000000000000)]

theorem exists_not_load_storedText :
    ¬ ∀ (settings : Settings) (d : Document), settings.minColumnWidth ≤ settings.maxDimensionSize →
      settings.minRowHeight ≤ settings.maxDimensionSize → Reachable settings d →
        d.workbook.InWords → ∃ result, d.load d.storedText = .ok result := by
  intro hall
  obtain ⟨d, hd⟩ : ∃ d, d = (Session.run ⟨.new .standard, .empty⟩ widthNaN).document := ⟨_, rfl⟩
  have h : Reachable .standard d := hd ▸ reachable_run .new widthNaN
  have hwords : d.workbook.InWords := by
    rw [hd]
    decide +kernel
  have hwidth : ¬ ∀ sheet ∈ d.workbook.sheets, AllFinite sheet.columnWidths := by
    rw [hd]
    decide +kernel
  have hsettings : d.settings = .standard := by
    rw [hd]
    rfl
  obtain ⟨result, hload⟩ := hall .standard d (by decide +kernel) (by decide +kernel) h hwords
  obtain ⟨opened, hopened, -⟩ := bind_eq_ok hload
  exact hwidth fun sheet hsheet => (Workbook.allFinite_of_ofText h.wellFormed.workbook hwords
    (hsettings ▸ hopened) sheet hsheet).1

end Document

end Spreadsheet
