import Spreadsheet.Proofs.Edits
import Spreadsheet.Proofs.Loading

namespace Spreadsheet

/-- The records that wait for being applied in a direction. -/
def History.awaiting (direction : Document.Direction) (history : History) : List Record :=
  match direction with
  | .undoing => history.undoable
  | .redoing => history.redoable

namespace Document

variable {settings : Settings} {operation : Operation} {d next : Document} {p : Position}

/-- A document whose workbook is well formed, whose selection lies on the active sheet and whose
records belong to sheets that are there. -/
structure WellFormed (settings : Settings) (d : Document) : Prop where
  settings_eq : d.settings = settings
  workbook : d.workbook.WellFormed settings
  selected : ∀ p ∈ d.selection.cells, d.activeSheet.extent.contains p = true
  anchored : ∀ p ∈ d.selection.anchor, d.activeSheet.extent.contains p = true
  records : ∀ record ∈ d.history.undoable ++ d.history.redoable,
    ∃ sheet ∈ d.workbook.sheets, record.FitsOn sheet

theorem WellFormed.activeSheet (h : d.WellFormed settings) :
    d.activeSheet.WellFormed settings := h.workbook.activeSheet

theorem WellFormed.activeSheet_setActiveSheet (h : d.WellFormed settings) (sheet : Sheet) :
    (d.setActiveSheet sheet).activeSheet = sheet := h.workbook.activeSheet_setActiveSheet sheet

theorem WellFormed.activeSheet_of_workbook {sheet : Sheet} (h : d.WellFormed settings)
    (hworkbook : next.workbook = d.workbook.setActiveSheet sheet) : next.activeSheet = sheet :=
  (congrArg Workbook.activeSheet hworkbook).trans (h.activeSheet_setActiveSheet sheet)

/-- What an operation does to the workbook, the selection and the history of a document. -/
inductive Step (operation : Operation) (d next : Document) : Prop where
  | selected (hworkbook : next.workbook = d.workbook) (hhistory : next.history = d.history)
      (hselected : ∀ p ∈ next.selection.cells, d.activeSheet.extent.contains p = true)
      (hanchored : ∀ p ∈ next.selection.anchor, d.activeSheet.extent.contains p = true)
  | laidOut (sheet : Sheet) (hbody : d.activeSheet.SameBody sheet)
      (hwellFormed : sheet.WellFormed d.settings)
      (hworkbook : next.workbook = d.workbook.setActiveSheet sheet)
      (hhistory : next.history = d.history) (hselection : next.selection = d.selection)
  | edited (sheet : Sheet) (record : Record) (hedited : d.activeSheet.Edited sheet record)
      (hnext : next = d.recorded sheet record)
  | applied (direction : Direction) (record : Record) (rest : List Record)
      (hrecord : d.history.awaiting direction = record :: rest)
      (hrest : next.history.awaiting direction = rest)
      (hback : next.history.awaiting direction.opposite =
        record :: d.history.awaiting direction.opposite)
      (hworkbook : next.workbook = (applyRecord direction d.workbook record).1)
      (hselection : next.selection = d.selection)
  | resized (extent : Extent) (confirm : List Position → Bool)
      (hoperation : operation = .resize extent confirm) (hnext : next = (d.resized extent).document)
  | activated (index : Nat) (hactivate : d.workbook.activate index = .ok next.workbook)
      (hhistory : next.history = d.history) (hselection : next.selection = Selection.empty)
  | renamedWorkbook (name : String) (hworkbook : next.workbook = { d.workbook with name := name })
      (hhistory : next.history = d.history) (hselection : next.selection = d.selection)
  | renamed (index : Nat) (name : String)
      (hrename : d.workbook.renameSheet index name = .ok next.workbook)
      (hhistory : next.history = d.history) (hselection : next.selection = d.selection)
  | added (name : Option String) (extent : Extent)
      (hadd : d.workbook.addSheet name extent = .ok next.workbook)
      (hhistory : next.history = d.history) (hselection : next.selection = Selection.empty)
  | deleted (index : Nat) (sheet : Sheet) (hsheet : d.workbook.sheet index = .ok sheet)
      (hdelete : d.workbook.deleteSheet index = .ok next.workbook)
      (hhistory : next.history = d.history.dropSheet sheet.id)
      (hselection : next.selection =
        if index = d.workbook.active then Selection.empty else d.selection)
  | duplicated (index : Nat) (hduplicate : d.workbook.duplicateSheet index = .ok next.workbook)
      (hhistory : next.history = d.history) (hselection : next.selection = d.selection)
  | loaded (stored : StoredWorkbook) (opened : Workbook)
      (hopened : stored.toWorkbook d.settings = .ok opened)
      (hworkbook : next.workbook = opened.recalculation.1)
      (hhistory : next.history = d.history.clear) (hselection : next.selection = Selection.empty)

theorem mem_of_awaiting {direction : Direction} {record : Record}
    (h : record ∈ d.history.awaiting direction) :
    record ∈ d.history.undoable ++ d.history.redoable := by
  cases direction with
  | undoing => exact List.mem_append_left _ h
  | redoing => exact List.mem_append_right _ h

theorem WellFormed.still (h : d.WellFormed settings) : Step operation d d :=
  .selected rfl rfl h.selected h.anchored

theorem step_of_editing {f : Document → Except Failure Document} (h : d.WellFormed settings)
    (hediting : Editing d f) (hnext : f d = .ok next) : next.settings = d.settings ∧
      Step operation d next := by
  cases hediting with
  | refused reason hf =>
      rw [show f d = _ from hf d.history] at hnext
      cases hnext
  | unchanged hf =>
      rw [show f d = _ from hf d.history] at hnext
      obtain rfl := Except.ok.inj hnext
      exact ⟨rfl, h.still⟩
  | recorded sheet record hedited hf =>
      rw [show f d = _ from hf d.history] at hnext
      obtain rfl := Except.ok.inj hnext
      exact ⟨rfl, .edited sheet record hedited rfl⟩

theorem Step.clicked (hp : d.activeSheet.extent.contains p = true) :
    Step operation d { d with selection := Selection.click p } := by
  refine .selected rfl rfl ?_ ?_
  · intro q hq
    rw [← show p = q by simpa [Selection.click] using hq]
    exact hp
  · intro q hq
    rw [← show p = q by simpa [Selection.click] using hq]
    exact hp

theorem WellFormed.step_extended (h : d.WellFormed settings)
    (hp : d.activeSheet.extent.contains p = true) :
    Step operation d { d with selection := d.selection.extend p } := by
  unfold Selection.extend
  cases hanchor : d.selection.anchor with
  | none => exact .clicked hp
  | some anchor =>
      have hanchored := Extent.contains_iff.mp (h.anchored anchor (by simp [hanchor]))
      rw [Extent.contains_iff] at hp
      refine .selected rfl rfl ?_ ?_
      · intro q hq
        have hq : q ∈ (Range.spanning anchor p).cells := by simpa [hanchor] using hq
        rw [Range.mem_cells] at hq
        dsimp only [Range.spanning] at hq
        rw [Extent.contains_iff]
        omega
      · intro q hq
        exact h.anchored q (by simpa [hanchor] using hq)

theorem WellFormed.step_toggled (h : d.WellFormed settings)
    (hp : d.activeSheet.extent.contains p = true) :
    Step operation d { d with selection := d.selection.toggle p } := by
  refine .selected rfl rfl ?_ ?_
  · intro q hq
    simp only [Selection.toggle] at hq
    split at hq
    · exact h.selected q (Std.ExtTreeSet.mem_of_mem_erase hq)
    · rcases Std.ExtTreeSet.mem_insert.mp hq with heq | hq
      · rw [← show p = q by simpa using heq]
        exact hp
      · exact h.selected q hq
  · intro q hq
    rw [← show p = q by simpa [Selection.toggle] using hq]
    exact hp

theorem WellFormed.step_recalculated (h : d.WellFormed settings) (hsettled : d.IsSettled) :
    Step operation d d.recalculate.document := by
  have hactive := hsettled.activeSheet.recalculated_eq
  refine .laidOut d.activeSheet.recalculated ?_ ?_ rfl rfl rfl
  · rw [hactive]
    exact ⟨rfl, rfl, rfl, rfl⟩
  · rw [hactive, h.settings_eq]
    exact h.activeSheet

/-- An operation on a document next to some files, as far as the document is concerned. -/
def performed (files : Files) (operation : Operation) (d : Document) : Except Failure Document :=
  (Session.perform ⟨d, files⟩ operation).map Session.document

theorem Editing.of_perform {α : Type} {f : Document → Except Failure (Done α)} {files : Files}
    {operation : Operation} (h : Editing d fun d => (f d).map Done.document)
    (hf : ∀ d, Session.perform ⟨d, files⟩ operation = (f d).map (Session.follow ⟨d, files⟩)) :
    Editing d (performed files operation) := by
  have hperformed : performed files operation = fun d => (f d).map Done.document := by
    funext d
    unfold performed
    rw [hf]
    cases f d <;> rfl
  rwa [hperformed]

theorem editing_performed (h : d.WellFormed settings) (hsettled : d.IsSettled) (files : Files)
    {operation : Operation} (hedit : operation.isEdit = true) :
    Editing d (performed files operation) := by
  have hproper := h.activeSheet.isProper
  have hsettled := hsettled.activeSheet
  cases operation with
  | write cell input => exact (editing_write hproper input).of_perform fun d => rfl
  | writeNamed name input => exact (editing_writeNamed hproper name input).of_perform fun d => rfl
  | clearContent cell => exact (editing_clearContent hproper cell).of_perform fun d => rfl
  | toggleStyle flag => exact editing_restyleSelection hproper _
  | cycleAlign => exact editing_restyleSelection hproper _
  | applyFill color => exact editing_restyleSelection hproper _
  | applyBorders preset => exact (editing_applyBorders hproper preset).of_perform fun d => rfl
  | insertTable style =>
      exact (editing_insertTableNamed hproper hsettled h.selected style).of_perform fun d => rfl
  | insertStyledTable style =>
      exact (editing_insertTable hproper hsettled h.selected style).of_perform fun d => rfl
  | importText text => exact (editing_importText hproper text).of_perform fun d => rfl
  | importFile path =>
      cases htext : textOf files path with
      | error reason =>
          refine .refused reason fun history => ?_
          simp only [performed, Session.perform, Document.importFile, htext]
          rfl
      | ok text =>
          refine (editing_importText hproper text).of_perform fun d => ?_
          simp only [Session.perform, Document.importFile, htext]
          rfl
  | _ => cases hedit

theorem WellFormed.step_performs (h : d.WellFormed settings) (hsettled : d.IsSettled)
    (hedit : ¬ operation.isEdit = true) (hperforms : d.Performs operation next) :
    next.settings = d.settings ∧ Step operation d next := by
  cases hperforms with
  | edited hedited _ | tabled hedited _ _ _ => exact absurd hedited hedit
  | recalculated => exact ⟨rfl, h.step_recalculated hsettled⟩
  | undone hundoable => exact ⟨rfl, .applied .undoing _ _ hundoable rfl rfl rfl rfl⟩
  | redone hredoable => exact ⟨rfl, .applied .redoing _ _ hredoable rfl rfl rfl rfl⟩
  | clicked hp => exact ⟨rfl, .clicked hp⟩
  | extended hp => exact ⟨rfl, h.step_extended hp⟩
  | toggled hp => exact ⟨rfl, h.step_toggled hp⟩
  | unselected =>
      exact ⟨rfl, .selected rfl rfl (by simp [clearSelection, Selection.empty])
        (by simp [clearSelection, Selection.empty])⟩
  | resized extent confirm => exact ⟨rfl, .resized extent confirm rfl rfl⟩
  | @widened col width sheet hset =>
      refine ⟨rfl, .laidOut sheet (Sheet.sameBody_setColumnWidth hset) ?_ rfl rfl rfl⟩
      exact (h.settings_eq ▸ h.activeSheet).setColumnWidth hset
  | @heightened row height sheet hset =>
      refine ⟨rfl, .laidOut sheet (Sheet.sameBody_setRowHeight hset) ?_ rfl rfl rfl⟩
      exact (h.settings_eq ▸ h.activeSheet).setRowHeight hset
  | @filtered col texts sheet hset =>
      refine ⟨rfl, .laidOut sheet (Sheet.sameBody_setColumnFilter hset) ?_ rfl rfl rfl⟩
      exact (h.settings_eq ▸ h.activeSheet).setColumnFilter hset
  | unfiltered col =>
      refine ⟨rfl, .laidOut (d.activeSheet.clearColumnFilter col) ⟨rfl, rfl, rfl, rfl⟩ ?_
        rfl rfl rfl⟩
      exact (h.settings_eq ▸ h.activeSheet).clearColumnFilter col
  | renamedWorkbook name => exact ⟨rfl, .renamedWorkbook name rfl rfl rfl⟩
  | added hadd => exact ⟨rfl, .added _ _ hadd rfl rfl⟩
  | renamed hrename => exact ⟨rfl, .renamed _ _ hrename rfl rfl⟩
  | deleted hsheet hdelete => exact ⟨rfl, .deleted _ _ hsheet hdelete rfl rfl⟩
  | duplicated hduplicate => exact ⟨rfl, .duplicated _ hduplicate rfl rfl⟩
  | activated hactivate | activatedNamed _ hactivate =>
      exact ⟨rfl, .activated _ hactivate rfl rfl⟩
  | opened _ hopened => exact ⟨rfl, .loaded _ _ hopened rfl rfl rfl⟩
  | saved _ path => exact ⟨rfl, .selected rfl rfl h.selected h.anchored⟩
  | exported path => exact ⟨rfl, h.still⟩

/-- Every operation on a well formed document is one of the steps. -/
theorem WellFormed.step_perform {session after : Session} {operation : Operation}
    (h : session.document.WellFormed settings) (hsettled : session.document.IsSettled)
    (hperform : session.perform operation = .ok after) :
    after.document.settings = session.document.settings ∧
      Step operation session.document after.document := by
  by_cases hedit : operation.isEdit = true
  · refine step_of_editing h (editing_performed h hsettled session.files hedit) ?_
    unfold performed
    rw [hperform]
    rfl
  · exact h.step_performs hsettled hedit (performs_of_perform hperform)

end Document

end Spreadsheet
