import Spreadsheet.Proofs.Performing
import Spreadsheet.Proofs.Settled

namespace Spreadsheet

namespace Sheet

variable {sheet other : Sheet}

/-- A recalculation of the sheet changes nothing. -/
def IsSettled (sheet : Sheet) : Prop := sheet.cells.IsSettled sheet.extent

theorem isSettled_empty (id : Nat) (name : String) (extent : Extent) :
    (empty id name extent).IsSettled := Grid.isSettled_empty extent.raised

theorem isSettled_recalculation (sheet : Sheet) :
    IsSettled { sheet with cells := sheet.recalculation.grid } :=
  Grid.isSettled_recalculate sheet.cells sheet.extent

theorem IsSettled.recalculated_eq (h : sheet.IsSettled) : sheet.recalculated = sheet := by
  unfold recalculated recalculation
  rw [h]

theorem IsSettled.congr (h : sheet.IsSettled) (hextent : other.extent = sheet.extent)
    (hcells : other.cells = sheet.cells) : other.IsSettled := by
  unfold IsSettled at h ⊢
  rw [hextent, hcells]
  exact h

end Sheet

namespace Workbook

variable {workbook next : Workbook} {sheet : Sheet} {index id other : Nat} {ids : List Nat}
  {update : Sheet → Sheet}

/-- A recalculation changes nothing on any sheet. -/
def IsSettled (workbook : Workbook) : Prop := ∀ sheet ∈ workbook.sheets, sheet.IsSettled

theorem isSettled_new (extent : Extent) : (new extent).IsSettled := by
  intro sheet hsheet
  rw [List.mem_singleton.mp hsheet]
  exact Sheet.isSettled_empty 1 "Sheet1" extent

theorem isSettled_recalculation (workbook : Workbook) : workbook.recalculation.1.IsSettled := by
  intro sheet hsheet
  simp only [recalculation, List.map_map, List.mem_map] at hsheet
  obtain ⟨before, -, rfl⟩ := hsheet
  exact Sheet.isSettled_recalculation before

theorem IsSettled.activeSheet (h : workbook.IsSettled) : workbook.activeSheet.IsSettled := by
  unfold Workbook.activeSheet
  rw [List.getD_eq_getElem?_getD]
  cases hactive : workbook.sheets[workbook.active]? with
  | none => exact Sheet.isSettled_empty 0 "" ⟨1, 1⟩
  | some sheet => exact h sheet (List.mem_of_getElem? hactive)

theorem IsSettled.setSheet (h : workbook.IsSettled) (hsheet : sheet.IsSettled) (index : Nat) :
    (workbook.setSheet index sheet).IsSettled := by
  intro other hother
  rcases List.mem_or_eq_of_mem_set hother with hother | rfl
  · exact h other hother
  · exact hsheet

theorem IsSettled.addSheet {name : Option String} {extent : Extent} (h : workbook.IsSettled)
    (hadd : workbook.addSheet name extent = .ok next) : next.IsSettled := by
  obtain ⟨name, rfl⟩ := addSheet_eq_ok hadd
  intro sheet hsheet
  rcases List.mem_append.mp hsheet with hsheet | hsheet
  · exact h sheet hsheet
  · rw [List.mem_singleton.mp hsheet]
    exact Sheet.isSettled_empty _ _ _

theorem IsSettled.renameSheet {name : String} (h : workbook.IsSettled)
    (hrename : workbook.renameSheet index name = .ok next) : next.IsSettled := by
  obtain ⟨sheet, hsheet, rfl⟩ := renameSheet_eq_ok hrename
  refine h.setSheet ?_ index
  exact (h sheet (List.mem_of_getElem? hsheet)).congr rfl rfl

theorem IsSettled.deleteSheet (h : workbook.IsSettled)
    (hdelete : workbook.deleteSheet index = .ok next) : next.IsSettled := by
  obtain ⟨-, -, rfl⟩ := deleteSheet_eq_ok hdelete
  intro sheet hsheet
  exact h sheet (List.mem_of_mem_eraseIdx hsheet)

theorem IsSettled.duplicateSheet (h : workbook.IsSettled)
    (hduplicate : workbook.duplicateSheet index = .ok next) : next.IsSettled := by
  obtain ⟨sheet, hfound, rfl⟩ := duplicateSheet_eq_ok hduplicate
  obtain ⟨hindex, -⟩ := List.getElem?_eq_some_iff.mp hfound
  intro other hother
  rcases (List.mem_insertIdx hindex).mp hother with rfl | hother
  · exact (h sheet (List.mem_of_getElem? hfound)).congr rfl rfl
  · exact h other hother

theorem IsSettled.activate (h : workbook.IsSettled) (hactivate : workbook.activate index = .ok next) :
    next.IsSettled := by
  obtain ⟨-, rfl⟩ := activate_eq_ok hactivate
  exact h

/-- Only the sheets that the given numbers stand for can be out of date. -/
def SettledExcept (workbook : Workbook) (ids : List Nat) : Prop :=
  ∀ index sheet, workbook.sheets[index]? = some sheet →
    sheet.IsSettled ∨ ∃ id ∈ ids, workbook.findId id = some index

theorem settledExcept_nil : workbook.SettledExcept [] ↔ workbook.IsSettled := by
  constructor
  · intro h sheet hsheet
    obtain ⟨index, hindex⟩ := List.mem_iff_getElem?.mp hsheet
    simpa using h index sheet hindex
  · intro h index sheet hindex
    exact .inl (h sheet (List.mem_of_getElem? hindex))

theorem getElem?_updateId :
    (workbook.updateId id update).sheets[index]? =
      if workbook.findId id = some index then workbook.sheets[index]?.map update
      else workbook.sheets[index]? := by
  unfold updateId
  cases hfind : workbook.findId id with
  | none => simp
  | some found =>
      simp only [List.getElem?_modify, Option.some.injEq]
      split <;> simp

theorem findId_updateId (hid : ∀ sheet, (update sheet).id = sheet.id) :
    (workbook.updateId id update).findId other = workbook.findId other := by
  have hids : (workbook.updateId id update).sheets.map Sheet.id = workbook.sheets.map Sheet.id := by
    apply List.ext_getElem?
    intro index
    rw [List.getElem?_map, List.getElem?_map, getElem?_updateId]
    split
    · rw [Option.map_map]
      congr 1
      funext sheet
      exact hid sheet
    · rfl
  have hfind : ∀ workbook : Workbook,
      workbook.findId other = (workbook.sheets.map Sheet.id).findIdx? (· == other) := by
    intro workbook
    rw [List.findIdx?_map]
    rfl
  rw [hfind, hfind, hids]

theorem sheetById?_eq : workbook.sheetById? id =
    (workbook.findId id).bind fun index => workbook.sheets[index]? := by
  unfold sheetById? findId
  rw [List.find?_eq_bind_findIdx?_getElem?]

theorem SettledExcept.updateId (h : workbook.SettledExcept (id :: ids))
    (hid : ∀ sheet, (update sheet).id = sheet.id)
    (hupdate : id ∈ ids ∨ ∀ sheet, workbook.sheetById? id = some sheet →
      (update sheet).IsSettled) : (workbook.updateId id update).SettledExcept ids := by
  intro index sheet hsheet
  rw [getElem?_updateId] at hsheet
  simp only [findId_updateId hid]
  split at hsheet
  · rename_i hfind
    rcases hupdate with hmem | hsettled
    · exact .inr ⟨id, hmem, hfind⟩
    · obtain ⟨before, hbefore, rfl⟩ := Option.map_eq_some_iff.mp hsheet
      refine .inl (hsettled before ?_)
      rw [sheetById?_eq, hfind, Option.bind_some, hbefore]
  · rename_i hfind
    rcases h index sheet hsheet with hsettled | ⟨other, hother, hindex⟩
    · exact .inl hsettled
    · rcases List.mem_cons.mp hother with rfl | hother
      · exact absurd hindex hfind
      · exact .inr ⟨other, hother, hindex⟩

theorem SettledExcept.updateId_of_keeps (h : workbook.SettledExcept ids)
    (hid : ∀ sheet, (update sheet).id = sheet.id)
    (hkeeps : ∀ sheet, sheet.IsSettled → (update sheet).IsSettled) :
    (workbook.updateId id update).SettledExcept ids := by
  intro index sheet hsheet
  rw [getElem?_updateId] at hsheet
  simp only [findId_updateId hid]
  split at hsheet
  · obtain ⟨before, hbefore, rfl⟩ := Option.map_eq_some_iff.mp hsheet
    exact (h index before hbefore).imp_left (hkeeps before)
  · exact h index sheet hsheet

theorem SettledExcept.of_sheetById?_eq_none (h : workbook.SettledExcept (id :: ids))
    (hnone : workbook.sheetById? id = none) : workbook.SettledExcept ids := by
  intro index sheet hsheet
  rcases h index sheet hsheet with hsettled | ⟨other, hother, hindex⟩
  · exact .inl hsettled
  · rcases List.mem_cons.mp hother with rfl | hother
    · simp [sheetById?_eq, hindex, hsheet] at hnone
    · exact .inr ⟨other, hother, hindex⟩

theorem SettledExcept.mono {others : List Nat} (h : workbook.SettledExcept ids)
    (hids : ∀ id ∈ ids, id ∈ others) : workbook.SettledExcept others := by
  intro index sheet hsheet
  rcases h index sheet hsheet with hsettled | ⟨id, hid, hindex⟩
  · exact .inl hsettled
  · exact .inr ⟨id, hids id hid, hindex⟩

end Workbook

namespace Document

variable {workbook : Workbook} {ids : List Nat} {direction : Direction}

theorem settledExcept_applyChanges (changes : List Change) (h : workbook.SettledExcept ids)
    (hids : ∀ change ∈ changes, change.sheet ∈ ids) :
    (applyChanges direction workbook changes).SettledExcept ids := by
  unfold applyChanges
  induction changes generalizing workbook with
  | nil => exact h
  | cons change changes ih =>
      rw [List.foldl_cons]
      refine ih ?_ fun other hother => hids other (List.mem_cons_of_mem _ hother)
      apply Workbook.SettledExcept.updateId
      · exact h.mono fun id hid => List.mem_cons_of_mem _ hid
      · exact fun sheet => rfl
      · exact .inl (hids change List.mem_cons_self)

theorem settledExcept_applyTable (record : Record) (h : workbook.SettledExcept ids) :
    (applyTable direction workbook record).SettledExcept ids := by
  unfold applyTable
  split
  · cases direction with
    | undoing => exact h.updateId_of_keeps (fun sheet => rfl) fun sheet h => h.congr rfl rfl
    | redoing => exact h.updateId_of_keeps (fun sheet => rfl) fun sheet h => h.congr rfl rfl
  · exact h

theorem isSettled_recalculateSheets (h : workbook.SettledExcept ids) :
    (recalculateSheets workbook ids).1.IsSettled := by
  unfold recalculateSheets
  generalize ([] : List Notice) = notices
  induction ids generalizing workbook notices with
  | nil => exact Workbook.settledExcept_nil.mp h
  | cons id ids ih =>
      rw [List.foldl_cons]
      dsimp only
      cases hfound : workbook.sheetById? id with
      | none => exact ih (h.of_sheetById?_eq_none hfound) notices
      | some found =>
          refine ih ?_ _
          apply h.updateId
          · exact fun sheet => rfl
          · refine .inr ?_
            intro sheet hsheet
            obtain rfl : found = sheet := Option.some.inj (hfound.symm.trans hsheet)
            exact Sheet.isSettled_recalculation found

theorem isSettled_applyRecord (record : Record) (h : workbook.IsSettled) :
    (applyRecord direction workbook record).1.IsSettled := by
  unfold applyRecord
  apply isSettled_recalculateSheets
  apply settledExcept_applyTable
  apply settledExcept_applyChanges
  · exact (Workbook.settledExcept_nil.mpr h).mono (by simp)
  · intro change hchange
    rw [List.mem_eraseDups]
    exact List.mem_map_of_mem hchange

end Document

end Spreadsheet
