import Spreadsheet.Proofs.Steps

namespace Spreadsheet

namespace Record

variable {record kept : Record} {keep : Nat → Position → Bool} {sheet next : Sheet}

theorem retain?_eq_some (h : record.retain? keep = some kept) :
    kept.changes = record.changes.filter (fun change => keep change.sheet change.cell) ∧
      kept.inserted? = record.inserted? ∧
      ∀ table ∈ record.inserted?, keep record.sheet table.range.topLeft = true ∧
        keep record.sheet table.range.bottomRight = true ∧ kept = record := by
  cases record with
  | single change =>
      simp only [retain?, Option.ite_none_right_eq_some, Option.some.injEq] at h
      obtain ⟨hkeep, rfl⟩ := h
      simp [changes, inserted?, hkeep]
  | batch changes =>
      simp only [retain?, Option.ite_none_left_eq_some, Option.some.injEq] at h
      obtain ⟨-, rfl⟩ := h
      simp [Record.changes, inserted?]
  | table id inserted changes =>
      simp only [retain?, Option.ite_none_right_eq_some, Option.some.injEq, Bool.and_eq_true,
        List.all_eq_true] at h
      obtain ⟨⟨hcorners, hkeep⟩, rfl⟩ := h
      refine ⟨(List.filter_eq_self.mpr hkeep).symm, rfl, ?_⟩
      intro table htable
      obtain rfl : inserted = table := Option.some.inj htable
      exact ⟨hcorners.1, hcorners.2, rfl⟩

theorem FitsOn.exists_keep (h : record.FitsOn sheet) (hkept : record.retain? keep = some kept) :
    kept.sheet = sheet.id ∧ ∃ p, keep sheet.id p = true := by
  have hsheet := h.sheet_eq
  have hchanges := h.change_sheet
  cases record with
  | single change =>
      simp only [retain?, Option.ite_none_right_eq_some, Option.some.injEq] at hkept
      obtain ⟨hkeep, rfl⟩ := hkept
      rw [hchanges change List.mem_cons_self] at hkeep
      exact ⟨hsheet, change.cell, hkeep⟩
  | batch changes =>
      simp only [retain?, Option.ite_none_left_eq_some, Option.some.injEq] at hkept
      obtain ⟨hne, rfl⟩ := hkept
      cases hfilter : changes.filter fun change => keep change.sheet change.cell with
      | nil =>
          rw [hfilter] at hne
          exact absurd rfl hne
      | cons change rest =>
          have hmem : change ∈ changes.filter fun change => keep change.sheet change.cell := by
            rw [hfilter]
            exact List.mem_cons_self
          obtain ⟨hchange, hkeep⟩ := List.mem_filter.mp hmem
          rw [hchanges change hchange] at hkeep
          exact ⟨hchanges change hchange, change.cell, hkeep⟩
  | table id inserted changes =>
      obtain ⟨-, -, htable⟩ := retain?_eq_some hkept
      obtain ⟨hkeep, -, rfl⟩ := htable inserted rfl
      rw [hsheet] at hkeep
      exact ⟨hsheet, inserted.range.topLeft, hkeep⟩

theorem FitsOn.retain? (h : record.FitsOn sheet) (hkept : record.retain? keep = some kept)
    (hid : next.id = sheet.id)
    (hcontains : ∀ p, sheet.extent.contains p = true → keep sheet.id p = true →
      next.extent.contains p = true) : kept.FitsOn next := by
  obtain ⟨hchanges, hinserted, htable⟩ := retain?_eq_some hkept
  have hmem : ∀ change ∈ kept.changes,
      change ∈ record.changes ∧ keep sheet.id change.cell = true := by
    intro change hchange
    rw [hchanges, List.mem_filter] at hchange
    rw [← h.change_sheet change hchange.1]
    exact hchange
  constructor
  · exact (h.exists_keep hkept).1.trans hid.symm
  · exact fun change hchange => (h.change_sheet change (hmem change hchange).1).trans hid.symm
  · intro change hchange
    exact hcontains _ (h.contains change (hmem change hchange).1) (hmem change hchange).2
  · exact fun change hchange => h.isProper change (hmem change hchange).1
  · rw [hchanges]
    exact (List.filter_sublist.map Change.cell).nodup h.nodup
  · intro table hmem
    rw [hinserted] at hmem
    obtain ⟨-, hkeep, -⟩ := htable table hmem
    rw [h.sheet_eq] at hkeep
    have hwithin := h.isWithin table hmem
    exact ⟨hwithin.row_le, hwithin.col_le, hcontains _ hwithin.contains hkeep⟩

theorem FitsOn.set {sheets : List Sheet} {index : Nat} (h : ∃ sheet ∈ sheets, record.FitsOn sheet)
    (hbefore : sheets[index]? = some sheet) (hid : next.id = sheet.id)
    (hextent : next.extent = sheet.extent) :
    ∃ sheet ∈ sheets.set index next, record.FitsOn sheet := by
  obtain ⟨other, hother, hfits⟩ := h
  obtain ⟨place, hplace⟩ := List.mem_iff_getElem?.mp hother
  by_cases heq : index = place
  · subst heq
    obtain rfl : sheet = other := Option.some.inj (hbefore.symm.trans hplace)
    obtain ⟨hlt, -⟩ := List.getElem?_eq_some_iff.mp hbefore
    exact ⟨next, List.mem_of_getElem? (List.getElem?_set_self hlt), hfits.congr hid hextent⟩
  · exact ⟨other, List.mem_of_getElem? ((List.getElem?_set_ne heq).trans hplace), hfits⟩

end Record

namespace Document

variable {settings : Settings} {operation : Operation} {d next : Document} {sheet : Sheet}
  {index : Nat}

theorem WellFormed.replaced {before : Sheet} (h : d.WellFormed settings)
    (hbefore : d.workbook.sheets[index]? = some before)
    (hworkbook : next.workbook = d.workbook.setSheet index sheet)
    (hid : sheet.id = before.id) (hextent : sheet.extent = before.extent)
    (hsheet : sheet.WellFormed settings) (hsettings : next.settings = d.settings)
    (hselection : next.selection = d.selection)
    (hrecords : ∀ record ∈ next.history.undoable ++ next.history.redoable,
      ∃ sheet ∈ d.workbook.sheets, record.FitsOn sheet) : next.WellFormed settings := by
  have hactive : next.activeSheet.extent = d.activeSheet.extent := by
    have hfound := h.workbook.getElem?_active
    unfold Document.activeSheet Workbook.activeSheet
    rw [hworkbook]
    simp only [Workbook.setSheet, List.getD_eq_getElem?_getD, List.getElem?_set]
    split
    · rename_i heq
      subst heq
      obtain ⟨hlt, -⟩ := List.getElem?_eq_some_iff.mp hbefore
      rw [if_pos hlt, hbefore, Option.getD_some, Option.getD_some, hextent]
    · rfl
  constructor
  · exact hsettings.trans h.settings_eq
  · rw [hworkbook]
    exact h.workbook.setSheet hbefore hid hsheet
  · rw [hactive, hselection]
    exact h.selected
  · rw [hactive, hselection]
    exact h.anchored
  · intro record hrecord
    rw [hworkbook]
    exact Record.FitsOn.set (hrecords record hrecord) hbefore hid hextent

theorem WellFormed.applyRecord (direction : Direction) (record : Record)
    (h : d.WellFormed settings) (hsettled : d.IsSettled)
    (hrecord : record ∈ d.history.undoable ++ d.history.redoable)
    (hworkbook : next.workbook = (Document.applyRecord direction d.workbook record).1)
    (hsettings : next.settings = d.settings) (hselection : next.selection = d.selection)
    (hrecords : ∀ record ∈ next.history.undoable ++ next.history.redoable,
      record ∈ d.history.undoable ++ d.history.redoable) : next.WellFormed settings := by
  obtain ⟨sheet, hsheet, hfits⟩ := h.records record hrecord
  obtain ⟨index, hindex⟩ := List.mem_iff_getElem?.mp hsheet
  rw [applyRecord_eq direction h.workbook.nodup (hsettled sheet hsheet) hindex hfits] at hworkbook
  refine h.replaced hindex hworkbook rfl rfl ?_ hsettings hselection ?_
  · exact ((h.workbook.sheets sheet hsheet).applied hfits).recalculated
  · exact fun other hother => h.records other (hrecords other hother)

theorem contains_of_mem_prune {selection : Selection} {extent : Extent} {p : Position}
    (hp : p ∈ (selection.prune extent).cells) : extent.contains p = true := by
  simpa using (Std.ExtTreeSet.mem_filter.mp hp).2

theorem WellFormed.exists_fitsOn_retain {keep : Nat → Position → Bool} (h : d.WellFormed settings)
    (hid : sheet.id = d.activeSheet.id)
    (hkeep : ∀ p, keep d.activeSheet.id p = true → sheet.extent.contains p = true) :
    ∀ kept ∈ (d.history.retain keep).undoable ++ (d.history.retain keep).redoable,
      ∃ other ∈ d.workbook.sheets.set d.workbook.active sheet, kept.FitsOn other := by
  intro kept hkept
  dsimp only [History.retain] at hkept
  rw [← List.filterMap_append] at hkept
  obtain ⟨record, hrecord, hkept⟩ := List.mem_filterMap.mp hkept
  obtain ⟨other, hother, hfits⟩ := h.records record hrecord
  by_cases hactive : other.id = d.activeSheet.id
  · refine ⟨sheet, List.mem_set h.workbook.active_lt _,
      hfits.retain? hkept (hid.trans hactive.symm) ?_⟩
    intro p _ hp
    exact hkeep p (hactive ▸ hp)
  · have hkept : kept.FitsOn other := hfits.retain? hkept rfl fun p hp _ => hp
    obtain ⟨place, hplace⟩ := List.mem_iff_getElem?.mp hother
    have hne : d.workbook.active ≠ place := by
      rintro rfl
      exact hactive (congrArg Sheet.id (Workbook.activeSheet_of_getElem? hplace).symm)
    exact ⟨other, List.mem_of_getElem? ((List.getElem?_set_ne hne).trans hplace), hkept⟩

theorem WellFormed.resized (h : d.WellFormed settings) (extent : Extent) :
    (d.resized extent).document.WellFormed settings := by
  have hactive : (d.resized extent).document.activeSheet =
      (d.activeSheet.resize extent).recalculated :=
    h.activeSheet_setActiveSheet _
  refine ⟨h.settings_eq,
    h.workbook.setActiveSheet rfl (h.activeSheet.resize extent).recalculated, ?_, ?_, ?_⟩
  · intro p hp
    rw [hactive]
    exact contains_of_mem_prune hp
  · intro p hp
    rw [hactive]
    exact (Option.filter_eq_some_iff.mp hp).2
  · intro kept hkept
    have hid : (d.activeSheet.resize extent).recalculated.id = d.activeSheet.id := rfl
    dsimp only [Document.resized] at hkept
    split at hkept
    · refine h.exists_fitsOn_retain hid ?_ kept hkept
      simp only [History.elsewhereOrInside, bne_self_eq_false, Bool.false_or]
      exact fun p hp => hp
    · exact h.exists_fitsOn_retain hid (by simp [History.elsewhere]) kept hkept

theorem WellFormed.of_sheets (h : d.WellFormed settings)
    (hworkbook : next.workbook.WellFormed settings)
    (hsettings : next.settings = d.settings)
    (hselection : next.selection = Selection.empty ∨
      next.selection = d.selection ∧ next.activeSheet = d.activeSheet)
    (hrecords : ∀ record ∈ next.history.undoable ++ next.history.redoable,
      ∃ sheet ∈ next.workbook.sheets, record.FitsOn sheet) : next.WellFormed settings := by
  refine ⟨hsettings.trans h.settings_eq, hworkbook, ?_, ?_, hrecords⟩
  · rcases hselection with hempty | ⟨hsame, hactive⟩
    · simp [hempty, Selection.empty]
    · rw [hsame, hactive]
      exact h.selected
  · rcases hselection with hempty | ⟨hsame, hactive⟩
    · simp [hempty, Selection.empty]
    · rw [hsame, hactive]
      exact h.anchored

theorem WellFormed.deleteSheet (h : d.WellFormed settings)
    (hsheet : d.workbook.sheet index = .ok sheet)
    (hdelete : d.workbook.deleteSheet index = .ok next.workbook)
    (hhistory : next.history = d.history.dropSheet sheet.id)
    (hselection : next.selection =
      if index = d.workbook.active then Selection.empty else d.selection)
    (hsettings : next.settings = d.settings) : next.WellFormed settings := by
  refine h.of_sheets (h.workbook.deleteSheet hdelete) hsettings ?_ ?_
  · by_cases hactive : index = d.workbook.active
    · exact .inl (hselection.trans (if_pos hactive))
    · exact .inr ⟨hselection.trans (if_neg hactive),
        h.workbook.numbered.activeSheet_deleteSheet hdelete hactive⟩
  · intro kept hkept
    rw [hhistory] at hkept
    dsimp only [History.dropSheet, History.retain] at hkept
    rw [← List.filterMap_append] at hkept
    obtain ⟨record, hrecord, hkept⟩ := List.mem_filterMap.mp hkept
    obtain ⟨other, hother, hfits⟩ := h.records record hrecord
    obtain ⟨_, _, hne⟩ := hfits.exists_keep hkept
    have hstays := (h.workbook.numbered.mem_deleteSheet hsheet hdelete).mpr
      ⟨hother, by simpa [History.elsewhere] using hne⟩
    exact ⟨other, hstays, hfits.retain? hkept rfl fun p hp _ => hp⟩

theorem WellFormed.duplicateSheet (h : d.WellFormed settings)
    (hduplicate : d.workbook.duplicateSheet index = .ok next.workbook)
    (hhistory : next.history = d.history) (hselection : next.selection = d.selection)
    (hsettings : next.settings = d.settings) : next.WellFormed settings := by
  refine h.of_sheets (h.workbook.duplicateSheet hduplicate) hsettings
    (.inr ⟨hselection, h.workbook.numbered.activeSheet_duplicateSheet hduplicate⟩) ?_
  obtain ⟨sheet, hsheet, hnext⟩ := Workbook.duplicateSheet_eq_ok hduplicate
  obtain ⟨hindex, -⟩ := List.getElem?_eq_some_iff.mp hsheet
  intro record hrecord
  rw [hhistory] at hrecord
  obtain ⟨other, hother, hfits⟩ := h.records record hrecord
  refine ⟨other, ?_, hfits⟩
  rw [hnext]
  exact (List.mem_insertIdx hindex).mpr (.inr hother)

theorem WellFormed.step (h : d.WellFormed settings) (hsettled : d.IsSettled)
    (hsettings : next.settings = d.settings) (hstep : Step operation d next) :
    next.WellFormed settings := by
  cases hstep with
  | selected hworkbook hhistory hselected hanchored =>
      have hactive : next.activeSheet = d.activeSheet := congrArg Workbook.activeSheet hworkbook
      refine ⟨hsettings.trans h.settings_eq, hworkbook ▸ h.workbook, ?_, ?_, ?_⟩
      · rwa [hactive]
      · rwa [hactive]
      · rw [hhistory, hworkbook]
        exact h.records
  | laidOut sheet hbody hwellFormed hworkbook hhistory hselection =>
      refine h.replaced h.workbook.getElem?_active hworkbook hbody.id_eq hbody.extent_eq
        (h.settings_eq ▸ hwellFormed) hsettings hselection ?_
      rw [hhistory]
      exact h.records
  | edited sheet record hedited hnext =>
      rw [hnext]
      refine h.replaced h.workbook.getElem?_active rfl
        hedited.id_eq hedited.extent_eq (hedited.wellFormed h.activeSheet) rfl rfl ?_
      intro other hother
      dsimp only [recorded, History.push] at hother
      rw [List.append_nil] at hother
      rcases List.mem_cons.mp (List.mem_of_mem_take hother) with rfl | hother
      · exact ⟨d.activeSheet, h.workbook.activeSheet_mem, hedited.fits⟩
      · exact h.records other (List.mem_append_left _ hother)
  | applied direction record rest hrecord hrest hback hworkbook hselection =>
      have hmem : record ∈ d.history.undoable ++ d.history.redoable :=
        mem_of_awaiting (hrecord ▸ List.mem_cons_self)
      refine h.applyRecord direction record hsettled hmem hworkbook hsettings hselection ?_
      intro other hother
      cases direction <;>
        · simp only [History.awaiting, Direction.opposite] at hrecord hrest hback
          rw [hrest, hback] at hother
          rw [hrecord]
          simpa [or_assoc, or_left_comm] using hother
  | resized extent confirm _ hnext =>
      rw [hnext]
      exact h.resized extent
  | activated index hactivate hhistory hselection =>
      have hworkbook := h.workbook.activate hactivate
      refine h.of_sheets hworkbook hsettings (.inl hselection) ?_
      rw [hhistory, (Workbook.activate_eq_ok hactivate).2]
      exact h.records
  | renamedWorkbook name hworkbook hhistory hselection =>
      refine h.of_sheets (hworkbook ▸ ⟨h.workbook.active_lt, h.workbook.nodup, h.workbook.id_lt,
        h.workbook.sheets⟩) hsettings (.inr ⟨hselection, ?_⟩) ?_
      · unfold Document.activeSheet
        rw [hworkbook]
        rfl
      · rw [hhistory, hworkbook]
        exact h.records
  | renamed index name hrename hhistory hselection =>
      obtain ⟨sheet, hfound, hnext⟩ := Workbook.renameSheet_eq_ok hrename
      refine h.replaced hfound hnext rfl rfl
        ((h.workbook.sheets sheet (List.mem_of_getElem? hfound)).rename _ _) hsettings hselection ?_
      rw [hhistory]
      exact h.records
  | added name extent hadd hhistory hselection =>
      have hworkbook := h.workbook.addSheet hadd
      obtain ⟨name, hnext⟩ := Workbook.addSheet_eq_ok hadd
      refine h.of_sheets hworkbook hsettings (.inl hselection) ?_
      intro record hrecord
      rw [hhistory] at hrecord
      obtain ⟨sheet, hsheet, hfits⟩ := h.records record hrecord
      refine ⟨sheet, ?_, hfits⟩
      rw [hnext]
      exact List.mem_append_left _ hsheet
  | deleted index sheet hsheet hdelete hhistory hselection =>
      exact h.deleteSheet hsheet hdelete hhistory hselection hsettings
  | duplicated index hduplicate hhistory hselection =>
      exact h.duplicateSheet hduplicate hhistory hselection hsettings
  | loaded stored opened hopened hworkbook hhistory hselection =>
      refine h.of_sheets ?_ hsettings (.inl hselection) ?_
      · rw [hworkbook, ← h.settings_eq]
        exact (StoredWorkbook.wellFormed_toWorkbook hopened).recalculation
      · simp [hhistory, History.clear]

theorem wellFormed_new (settings : Settings) : (new settings).WellFormed settings where
  settings_eq := rfl
  workbook := Workbook.wellFormed_new settings _
  selected := by simp [new, Selection.empty]
  anchored := by simp [new, Selection.empty]
  records := by simp [new, History.empty]

theorem wellFormed_ofPath {files : Files} {path : Option String} {result : Done Unit}
    (hdone : ofPath settings files path = .ok result) : result.document.WellFormed settings := by
  have hnew := wellFormed_new settings
  obtain ⟨file, hresult⟩ | ⟨path, hopen⟩ := ofPath_eq_ok hdone
  · rw [hresult]
    exact ⟨rfl, hnew.workbook, hnew.selected, hnew.anchored, hnew.records⟩
  · obtain ⟨stored, opened, hopened, hresult⟩ := openFile_eq_ok hopen
    have hstep : Step (.openFile path) (new settings) result.document :=
      .loaded stored opened hopened (congrArg Document.workbook hresult)
        (congrArg Document.history hresult) (congrArg Document.selection hresult)
    refine hnew.step (isSettled_new settings) ?_ hstep
    rw [hresult]
    rfl

/-- Every document that comes about is well formed. -/
theorem Reachable.wellFormed (h : Reachable settings d) : d.WellFormed settings := by
  induction h with
  | new => exact wellFormed_new settings
  | ofPath hdone => exact wellFormed_ofPath hdone
  | perform start hperform ih =>
      obtain ⟨hsettings, hstep⟩ := ih.step_perform start.isSettled hperform
      exact ih.step start.isSettled hsettings hstep

/-- On all sheets of all documents that come about, nothing lies outside. -/
theorem Reachable.isBounded (h : Reachable settings d) :
    ∀ sheet ∈ d.workbook.sheets, sheet.IsBounded :=
  fun sheet hsheet => (h.wellFormed.workbook.sheets sheet hsheet).bounded

/-- A table that is cut at the new edge of its sheet, with a filter beyond that edge, and an undo
that finds nothing left on the sheet. -/
def shrunkTable : List Operation :=
  [.click ⟨1, 1⟩, .extendSelection ⟨6, 6⟩, .insertTable "Blue",
    .setColumnFilter 5 (Std.ExtTreeSet.ofList ["x"]),
    .setColumnFilter 2 (Std.ExtTreeSet.ofList ["y"]), .resize ⟨4, 4⟩ fun _ => true, .undo]

theorem isBounded_shrunkTable :
    let d := (Session.run ⟨.new .standard, .empty⟩ shrunkTable).document
    d.activeSheet.extent = ⟨4, 4⟩ ∧ d.activeSheet.cells.keys = [⟨1, 1⟩, ⟨1, 2⟩, ⟨1, 3⟩] ∧
      d.activeSheet.columnFilters.keys = [2] ∧
      d.activeSheet.tables.map Table.range = [⟨⟨1, 1⟩, ⟨3, 3⟩⟩] ∧
      ∀ sheet ∈ d.workbook.sheets, sheet.IsBounded := by
  intro d
  have h : Reachable .standard d := reachable_run .new shrunkTable
  refine ⟨?_, ?_, ?_, ?_, h.isBounded⟩ <;> decide +kernel

end Document

end Spreadsheet
