import Spreadsheet.Proofs.Steps

namespace Spreadsheet

namespace Operation

/-- The number of the sheet whose cells, size, layout, filters or tables an operation is about. -/
def edited? (d : Document) (operation : Operation) : Option Nat :=
  match operation with
  | .undo => d.history.undoable.head?.map Record.sheet
  | .redo => d.history.redoable.head?.map Record.sheet
  | .resize _ _ | .setColumnWidth _ _ | .setRowHeight _ _ | .setColumnFilter _ _
  | .clearColumnFilter _ => some d.activeSheet.id
  | _ => if operation.isEdit then some d.activeSheet.id else none

theorem edited?_of_isEdit {d : Document} {operation : Operation} (h : operation.isEdit = true) :
    operation.edited? d = some d.activeSheet.id := by
  cases operation <;> first | rfl | cases h

end Operation

namespace Document

variable {settings : Settings} {operation : Operation} {d next : Document}

/-- What an operation that is done does to the workbook and to the mark of unsaved changes. -/
inductive Effect (operation : Operation) (d next : Document) : Prop where
  | kept (hworkbook : next.workbook = { d.workbook with active := next.workbook.active })
      (hmodified : operation.saves = false → next.modified = d.modified)
  | edited (index : Nat) (before sheet : Sheet)
      (hbefore : d.workbook.sheets[index]? = some before)
      (hedited : operation.edited? d = some before.id)
      (hid : sheet.id = before.id) (hname : sheet.name = before.name)
      (hworkbook : next.workbook = d.workbook.setSheet index sheet)
      (hmodified : next.modified = true)
  | renamedWorkbook (name : String) (hworkbook : next.workbook = { d.workbook with name := name })
      (hmodified : next.modified = true)
  | renamed (index : Nat) (before : Sheet) (name : String)
      (hbefore : d.workbook.sheets[index]? = some before)
      (hoperation : operation = .renameSheet index name)
      (hworkbook : next.workbook = d.workbook.setSheet index { before with name := name })
      (hmodified : next.modified = true)
  | added (place : Nat) (sheet : Sheet) (hplace : place ≤ d.workbook.sheets.length)
      (hid : sheet.id = d.workbook.nextId)
      (hsheets : next.workbook.sheets = d.workbook.sheets.insertIdx place sheet)
      (hmodified : next.modified = true)
  | deleted (index : Nat) (hoperation : operation = .deleteSheet index)
      (hsheets : next.workbook.sheets = d.workbook.sheets.eraseIdx index)
      (hmodified : next.modified = true)
  | opened (hoperation : operation.opens = true)

theorem WellFormed.effect_edited {sheet : Sheet} (h : d.WellFormed settings)
    (hworkbook : next.workbook = d.workbook.setActiveSheet sheet)
    (hedited : operation.edited? d = some d.activeSheet.id) (hid : sheet.id = d.activeSheet.id)
    (hname : sheet.name = d.activeSheet.name) (hmodified : next.modified = true) :
    Effect operation d next :=
  .edited d.workbook.active d.activeSheet sheet h.workbook.getElem?_active hedited hid hname
    hworkbook hmodified

theorem WellFormed.effect_of_editing {f : Document → Except Failure Document}
    (h : d.WellFormed settings) (hediting : Editing d f) (hnext : f d = .ok next)
    (hedit : operation.isEdit = true) : Effect operation d next := by
  cases hediting with
  | refused reason hf =>
      rw [show f d = _ from hf d.history] at hnext
      cases hnext
  | unchanged hf =>
      rw [show f d = _ from hf d.history] at hnext
      obtain rfl := Except.ok.inj hnext
      exact .kept rfl fun _ => rfl
  | recorded sheet record hedited hf =>
      rw [show f d = _ from hf d.history] at hnext
      obtain rfl := Except.ok.inj hnext
      refine h.effect_edited rfl (Operation.edited?_of_isEdit hedit) hedited.id_eq ?_ rfl
      rw [hedited.frame]

theorem WellFormed.effect_applied {direction : Direction} {record : Record}
    (h : d.WellFormed settings) (hsettled : d.IsSettled)
    (hrecord : record ∈ d.history.undoable ++ d.history.redoable)
    (hedited : operation.edited? d = some record.sheet)
    (hworkbook : next.workbook = (applyRecord direction d.workbook record).1)
    (hmodified : next.modified = true) : Effect operation d next := by
  obtain ⟨sheet, hsheet, hfits⟩ := h.records record hrecord
  obtain ⟨index, hindex⟩ := List.mem_iff_getElem?.mp hsheet
  rw [applyRecord_eq direction h.workbook.nodup (hsettled sheet hsheet) hindex hfits] at hworkbook
  rw [hfits.sheet_eq] at hedited
  exact .edited index sheet (sheet.applied direction record).recalculated hindex hedited rfl rfl
    hworkbook hmodified

theorem WellFormed.effect_recalculated (h : d.WellFormed settings) (hsettled : d.IsSettled) :
    Effect operation d d.recalculate.document := by
  refine .kept ?_ fun _ => rfl
  change d.workbook.setActiveSheet d.activeSheet.recalculated = _
  rw [hsettled.activeSheet.recalculated_eq]
  exact h.workbook.setActiveSheet_activeSheet

theorem WellFormed.effect_performs (h : d.WellFormed settings) (hsettled : d.IsSettled)
    (hedit : ¬ operation.isEdit = true) (hperforms : d.Performs operation next) :
    Effect operation d next := by
  cases hperforms with
  | edited hedited _ | tabled hedited _ _ _ => exact absurd hedited hedit
  | recalculated => exact h.effect_recalculated hsettled
  | undone hundoable =>
      refine h.effect_applied hsettled (List.mem_append_left _ (hundoable ▸ List.mem_cons_self)) ?_
        rfl rfl
      simp [Operation.edited?, hundoable]
  | redone hredoable =>
      refine h.effect_applied hsettled (List.mem_append_right _ (hredoable ▸ List.mem_cons_self)) ?_
        rfl rfl
      simp [Operation.edited?, hredoable]
  | clicked _ | extended _ | toggled _ | unselected | exported _ => exact .kept rfl fun _ => rfl
  | widened hset =>
      obtain ⟨-, rfl⟩ := Sheet.setColumnWidth_eq_ok hset
      exact h.effect_edited rfl rfl rfl rfl rfl
  | heightened hset =>
      obtain ⟨-, rfl⟩ := Sheet.setRowHeight_eq_ok hset
      exact h.effect_edited rfl rfl rfl rfl rfl
  | filtered hset =>
      obtain ⟨-, rfl⟩ := Sheet.setColumnFilter_eq_ok hset
      refine h.effect_edited rfl rfl ?_ ?_ rfl <;> split <;> rfl
  | resized extent _ | unfiltered col => exact h.effect_edited rfl rfl rfl rfl rfl
  | renamedWorkbook name => exact .renamedWorkbook name rfl rfl
  | added hadd =>
      obtain ⟨name, rfl⟩ := Workbook.addSheet_eq_ok hadd
      exact .added _ _ le_rfl rfl (List.insertIdx_length_self).symm rfl
  | renamed hrename =>
      obtain ⟨sheet, hsheet, rfl⟩ := Workbook.renameSheet_eq_ok hrename
      exact .renamed _ sheet _ hsheet rfl rfl rfl
  | deleted _ hdelete =>
      obtain ⟨-, -, rfl⟩ := Workbook.deleteSheet_eq_ok hdelete
      exact .deleted _ rfl rfl rfl
  | duplicated hduplicate =>
      obtain ⟨sheet, hsheet, rfl⟩ := Workbook.duplicateSheet_eq_ok hduplicate
      obtain ⟨hindex, -⟩ := List.getElem?_eq_some_iff.mp hsheet
      exact .added _ _ hindex rfl rfl rfl
  | activated hactivate | activatedNamed _ hactivate =>
      obtain ⟨-, rfl⟩ := Workbook.activate_eq_ok hactivate
      exact .kept rfl fun _ => rfl
  | opened hopens => exact .opened hopens
  | saved hsaves path =>
      exact .kept rfl fun hno => absurd (hno.symm.trans hsaves) Bool.false_ne_true

/-- Every operation that is done has one of the effects. -/
theorem WellFormed.effect_perform {session after : Session} {operation : Operation}
    (h : session.document.WellFormed settings) (hsettled : session.document.IsSettled)
    (hperform : session.perform operation = .ok after) :
    Effect operation session.document after.document := by
  by_cases hedit : operation.isEdit = true
  · refine h.effect_of_editing (editing_performed h hsettled session.files hedit) ?_ hedit
    unfold performed
    rw [hperform]
    rfl
  · exact h.effect_performs hsettled hedit (performs_of_perform hperform)

end Document

end Spreadsheet
