import Spreadsheet.Proofs.WellFormed

namespace Spreadsheet

namespace StoredCell

theorem isProper_toCell? {stored : StoredCell} {cell : Cell} (h : stored.toCell? = some cell) :
    cell.IsProper := by
  unfold toCell? at h
  rcases Option.or_eq_some_iff.mp h with hinput | ⟨-, hstyle⟩
  · exact Cell.isProper_of_ofInput? hinput
  · obtain ⟨style, -, rfl⟩ := Option.map_eq_some_iff.mp hstyle
    exact Cell.isProper_ofStyle style

end StoredCell

namespace StoredTable

theorem isWithin_toTable {stored : StoredTable} {sheet : String} {extent : Extent} {table : Table}
    (h : stored.toTable sheet extent = .ok table) : table.range.IsWithin extent := by
  unfold toTable at h
  split at h
  · rename_i range hrange
    obtain ⟨hname, hcontains⟩ := Option.filter_eq_some_iff.mp hrange
    obtain rfl := Except.ok.inj h
    obtain ⟨⟨a, b⟩, -, hname⟩ := Option.bind_eq_some_iff.mp hname
    obtain ⟨p, -, hname⟩ := Option.bind_eq_some_iff.mp hname
    obtain ⟨q, -, hname⟩ := Option.bind_eq_some_iff.mp hname
    obtain rfl := Option.some.inj hname
    refine ⟨?_, ?_, hcontains⟩
    · dsimp only [Range.spanning]
      omega
    · dsimp only [Range.spanning]
      omega
  · cases h

end StoredTable

namespace StoredSheet

variable {settings : Settings} {sheet next : Sheet}

theorem wellFormed_addCell {name : String} {cell : StoredCell} (h : sheet.WellFormed settings)
    (hadd : addCell sheet name cell = .ok next) :
    next.WellFormed settings ∧ next.extent = sheet.extent := by
  unfold addCell at hadd
  split at hadd
  · rename_i p hp
    obtain ⟨-, hcontains⟩ := Option.filter_eq_some_iff.mp hp
    obtain rfl := Except.ok.inj hadd
    refine ⟨h.replace rfl ?_ ?_ h.tables, rfl⟩
    · intro q hq
      rw [Std.ExtTreeMap.mem_iff_isSome_getElem?] at hq
      simp only [Sheet.put, Std.ExtTreeMap.getElem?_alter] at hq
      split at hq
      · rename_i heq
        obtain rfl := Std.LawfulEqCmp.compare_eq_iff_eq.mp heq
        exact hcontains
      · exact h.contains q (Std.ExtTreeMap.mem_iff_isSome_getElem?.mpr hq)
    · exact h.isProper.alter fun stored hstored => StoredCell.isProper_toCell? hstored
  · cases hadd

/-- What holds of a sheet of a given size while the parts of a stored one are added to it. -/
structure IsFilling (settings : Settings) (extent : Extent) (sheet : Sheet) : Prop where
  wellFormed : sheet.WellFormed settings
  extent_eq : sheet.extent = extent

theorem wellFormed_toSheet {stored : StoredSheet} (h : stored.toSheet settings = .ok sheet) :
    sheet.WellFormed settings := by
  unfold toSheet at h
  split at h
  · rename_i hallows
    dsimp only at h
    obtain ⟨filled, hfilled, h⟩ := bind_eq_ok h
    obtain ⟨wide, hwide, h⟩ := bind_eq_ok h
    obtain ⟨high, hhigh, h⟩ := bind_eq_ok h
    obtain ⟨filtered, hfiltered, h⟩ := bind_eq_ok h
    obtain ⟨tables, htables, h⟩ := bind_eq_ok h
    obtain rfl := Except.ok.inj h
    simp only [Settings.allows, Bool.and_eq_true, decide_eq_true_eq] at hallows
    have hstart : IsFilling settings ⟨stored.columns, stored.rows⟩
        (Sheet.empty 0 stored.name ⟨stored.columns, stored.rows⟩) := by
      refine ⟨Sheet.wellFormed_empty _ _ _ _, ?_⟩
      simp only [Sheet.empty, Extent.raised, Extent.mk.injEq]
      omega
    have hcells := foldlM_eq_ok hfilled hstart fun sheet entry _ next hsheet hadd =>
      have hadded := wellFormed_addCell hsheet.wellFormed hadd
      ⟨hadded.1, hadded.2.trans hsheet.extent_eq⟩
    have hwidths := foldlM_eq_ok hwide hcells fun sheet entry _ next hsheet hset =>
      ⟨hsheet.wellFormed.setColumnWidth (mapError_eq_ok hset),
        (Sheet.sameBody_setColumnWidth (mapError_eq_ok hset)).extent_eq.trans hsheet.extent_eq⟩
    have hheights := foldlM_eq_ok hhigh hwidths fun sheet entry _ next hsheet hset =>
      ⟨hsheet.wellFormed.setRowHeight (mapError_eq_ok hset),
        (Sheet.sameBody_setRowHeight (mapError_eq_ok hset)).extent_eq.trans hsheet.extent_eq⟩
    have hfilters := foldlM_eq_ok hfiltered hheights fun sheet entry _ next hsheet hset =>
      ⟨hsheet.wellFormed.setColumnFilter (mapError_eq_ok hset),
        (Sheet.sameBody_setColumnFilter (mapError_eq_ok hset)).extent_eq.trans hsheet.extent_eq⟩
    refine hfilters.wellFormed.replace rfl hfilters.wellFormed.contains
      hfilters.wellFormed.isProper ?_
    intro table htable
    obtain ⟨before, -, hbefore⟩ := mapM_eq_ok htables table htable
    rw [hfilters.extent_eq]
    exact StoredTable.isWithin_toTable hbefore
  · cases h

end StoredSheet

theorem StoredWorkbook.wellFormed_toWorkbook {settings : Settings} {stored : StoredWorkbook}
    {workbook : Workbook} (h : stored.toWorkbook settings = .ok workbook) :
    workbook.WellFormed settings := by
  unfold toWorkbook at h
  split at h
  · cases h
  · obtain ⟨sheets, hsheets, h⟩ := bind_eq_ok h
    refine Workbook.wellFormed_ofSheets ?_ h
    intro sheet hsheet
    obtain ⟨before, -, hbefore⟩ := mapM_eq_ok hsheets sheet hsheet
    exact StoredSheet.wellFormed_toSheet hbefore

end Spreadsheet
