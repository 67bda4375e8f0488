import Spreadsheet.Document.Operation
import Spreadsheet.Proofs.Outcome

/-!
What an operation makes of a document where it is done. What holds of all operations is shown for the
cases listed here, and only the lemmas of this module open the definitions of the operations.
-/

namespace Spreadsheet

namespace Workbook

variable {workbook next : Workbook} {sheet : Sheet} {index : Nat} {name : String}

theorem getElem?_of_sheet (h : workbook.sheet index = .ok sheet) :
    workbook.sheets[index]? = some sheet := by
  unfold Workbook.sheet at h
  split at h
  · rename_i found hfound
    rw [hfound, Except.ok.inj h]
  · cases h

theorem activate_eq_ok (h : workbook.activate index = .ok next) :
    index < workbook.sheets.length ∧ next = { workbook with active := index } := by
  obtain ⟨sheet, hsheet, h⟩ := bind_eq_ok h
  exact ⟨(List.getElem?_eq_some_iff.mp (getElem?_of_sheet hsheet)).1, (Except.ok.inj h).symm⟩

theorem addSheet_eq_ok {name : Option String} {extent : Extent}
    (h : workbook.addSheet name extent = .ok next) : ∃ name, next = { workbook with
      sheets := workbook.sheets ++ [Sheet.empty workbook.nextId name extent]
      active := workbook.sheets.length
      nextId := workbook.nextId + 1 } := by
  obtain ⟨-, -, h⟩ := bind_eq_ok h
  exact ⟨_, (Except.ok.inj h).symm⟩

theorem renameSheet_eq_ok (h : workbook.renameSheet index name = .ok next) :
    ∃ sheet, workbook.sheets[index]? = some sheet ∧
      next = workbook.setSheet index { sheet with name := name } := by
  obtain ⟨-, -, h⟩ := bind_eq_ok h
  obtain ⟨sheet, hsheet, h⟩ := bind_eq_ok h
  exact ⟨sheet, getElem?_of_sheet hsheet, (Except.ok.inj h).symm⟩

theorem deleteSheet_eq_ok (h : workbook.deleteSheet index = .ok next) :
    index < workbook.sheets.length ∧ workbook.sheets.length ≠ 1 ∧ next = { workbook with
      sheets := workbook.sheets.eraseIdx index
      active := if index ≤ workbook.active then workbook.active - 1 else workbook.active } := by
  obtain ⟨sheet, hsheet, h⟩ := bind_eq_ok h
  obtain ⟨hindex, -⟩ := List.getElem?_eq_some_iff.mp (getElem?_of_sheet hsheet)
  split at h
  · cases h
  · rename_i hlast
    exact ⟨hindex, hlast, (Except.ok.inj h).symm⟩

theorem duplicateSheet_eq_ok (h : workbook.duplicateSheet index = .ok next) :
    ∃ sheet, workbook.sheets[index]? = some sheet ∧ next = { workbook with
      sheets := workbook.sheets.insertIdx (index + 1)
        { sheet with id := workbook.nextId, name := sheet.name ++ " (copy)" }
      active := if index < workbook.active then workbook.active + 1 else workbook.active
      nextId := workbook.nextId + 1 } := by
  obtain ⟨sheet, hsheet, h⟩ := bind_eq_ok h
  exact ⟨sheet, getElem?_of_sheet hsheet, (Except.ok.inj h).symm⟩

end Workbook

namespace Sheet

variable {sheet next : Sheet} {p : Position} {size : Float} {index : Nat}

theorem check_of_contains (hp : sheet.extent.contains p = true) : sheet.check p = .ok () := if_pos hp

theorem check_of_not_contains (hp : sheet.extent.contains p ≠ true) :
    sheet.check p = .error (.outside p sheet.extent) := if_neg hp

theorem check_eq_ok (h : sheet.check p = .ok ()) : sheet.extent.contains p = true := by
  unfold check at h
  split at h
  · assumption
  · cases h

theorem checkColumn_eq_ok (h : sheet.checkColumn index = .ok ()) : index < sheet.extent.columns := by
  unfold checkColumn at h
  split at h
  · assumption
  · cases h

theorem checkRow_eq_ok (h : sheet.checkRow index = .ok ()) : index < sheet.extent.rows := by
  unfold checkRow at h
  split at h
  · assumption
  · cases h

theorem setColumnWidth_eq_ok (h : sheet.setColumnWidth index size = .ok next) :
    index < sheet.extent.columns ∧
      next = { sheet with columnWidths := sheet.columnWidths.insert index size } := by
  obtain ⟨_, hcheck, h⟩ := bind_eq_ok h
  exact ⟨checkColumn_eq_ok hcheck, (Except.ok.inj h).symm⟩

theorem setRowHeight_eq_ok (h : sheet.setRowHeight index size = .ok next) :
    index < sheet.extent.rows ∧
      next = { sheet with rowHeights := sheet.rowHeights.insert index size } := by
  obtain ⟨_, hcheck, h⟩ := bind_eq_ok h
  exact ⟨checkRow_eq_ok hcheck, (Except.ok.inj h).symm⟩

theorem setColumnFilter_eq_ok {texts : Std.ExtTreeSet String}
    (h : sheet.setColumnFilter index texts = .ok next) : index < sheet.extent.columns ∧
      next = if texts.isEmpty then sheet.clearColumnFilter index
        else { sheet with columnFilters := sheet.columnFilters.insert index texts } := by
  obtain ⟨_, hcheck, h⟩ := bind_eq_ok h
  exact ⟨checkColumn_eq_ok hcheck, (Except.ok.inj h).symm⟩

end Sheet

@[simp]
theorem Session.document_follow {α : Type} (session : Session) (result : Document.Done α) :
    (session.follow result).document = result.document := rfl

/-- Whether an operation edits cells, styles or tables of the active sheet. -/
def Operation.isEdit : Operation → Bool
  | .write _ _ | .writeNamed _ _ | .clearContent _ | .toggleStyle _ | .cycleAlign | .applyFill _
  | .applyBorders _ | .insertTable _ | .insertStyledTable _ | .importText _ | .importFile _ => true
  | _ => false

/-- Whether an operation puts a workbook that was stored in place of the one that is edited. -/
def Operation.opens : Operation → Bool
  | .load _ | .openFile _ => true
  | _ => false

/-- Whether an operation stores the workbook. -/
def Operation.saves : Operation → Bool
  | .save | .saveAs _ => true
  | _ => false

namespace Document

variable {d next : Document} {p : Position} {index : Nat} {name text : String}

/-- A document in which changes of a sheet have been put together as one action, if there are any. -/
def Commits (d next : Document) : Prop :=
  ∃ sheet changes, next = (d.commit sheet changes).document

theorem commits_self (d : Document) : d.Commits d := ⟨d.activeSheet, [], rfl⟩

theorem write_eq_ok {input : String} {result : Done Unit} (h : d.write p input = .ok result) :
    d.Commits result.document := by
  obtain ⟨sheet, -, h⟩ := bind_eq_ok h
  obtain rfl := Except.ok.inj h
  exact ⟨_, _, rfl⟩

theorem writeNamed_eq_ok {input : String} {result : Done Unit}
    (h : d.writeNamed name input = .ok result) : d.Commits result.document := by
  obtain ⟨p, -, h⟩ := bind_eq_ok h
  exact write_eq_ok h

theorem clearContent_eq_ok {result : Done Unit} (h : d.clearContent p = .ok result) :
    d.Commits result.document := by
  obtain ⟨-, -, h⟩ := bind_eq_ok h
  split at h
  · obtain rfl := Except.ok.inj h
    exact d.commits_self
  · dsimp only at h
    split at h
    · obtain rfl := Except.ok.inj h
      exact d.commits_self
    · obtain rfl := Except.ok.inj h
      exact ⟨_, _, rfl⟩

theorem commits_restyleSelection (d : Document) (update : Position → Style → Style) :
    d.Commits (d.restyleSelection update).document := ⟨_, _, rfl⟩

theorem selectedRange_eq_ok {region : Range} (h : d.selectedRange = .ok region) :
    d.selection.bounds = some region := by
  unfold selectedRange at h
  split at h
  · rename_i found hfound
    rw [hfound, Except.ok.inj h]
  · cases h

theorem applyBorders_eq_ok {preset : BorderPreset} {result : Done Nat}
    (h : d.applyBorders preset = .ok result) : ∃ region, d.selection.bounds = some region ∧
      result = d.restyleSelection fun p style =>
        { style with border := (preset.border region p).nonempty? } := by
  obtain ⟨region, hregion, h⟩ := bind_eq_ok h
  exact ⟨region, selectedRange_eq_ok hregion, (Except.ok.inj h).symm⟩

theorem importText_eq_ok {result : Done Nat} (h : d.importText text = .ok result) :
    d.Commits result.document := by
  unfold Document.importText Document.importRecords at h
  dsimp only at h
  split at h
  · cases h
  · split at h
    · cases h
    · obtain rfl := Except.ok.inj h
      exact ⟨_, _, rfl⟩

theorem importFile_eq_ok {files : Files} {path : String} {result : Done Nat}
    (h : d.importFile files path = .ok result) : d.Commits result.document := by
  obtain ⟨text, -, h⟩ := bind_eq_ok h
  exact importText_eq_ok h

/-- The document with a new table, whose header is restyled. -/
def tabled (d : Document) (region : Range) (style : TableStyle) (id : Nat) : Document :=
  let restyled := restyle d.activeSheet (region.rowCells region.topLeft.row)
    fun _ cellStyle => { cellStyle with fill := some style.headerColor, bold := true }
  let table : Table := ⟨id, region, style.headerColor, style.bodyColor, true⟩
  { (d.setActiveSheet (restyled.1.addTable table)).touched with
    history := d.history.recordTable restyled.1.id table restyled.2 }

theorem insertTable_eq_ok {style : TableStyle} {result : Done Nat}
    (h : d.insertTable style = .ok result) : ∃ region id, d.selection.bounds = some region ∧
      d.activeSheet.nextTableId = .ok id ∧ result.document = d.tabled region style id := by
  obtain ⟨region, hregion, h⟩ := bind_eq_ok h
  obtain ⟨id, hid, h⟩ := bind_eq_ok h
  obtain rfl := Except.ok.inj h
  exact ⟨region, id, selectedRange_eq_ok hregion, hid, rfl⟩

theorem insertTableNamed_eq_ok {result : Done Nat} (h : d.insertTableNamed name = .ok result) :
    ∃ style, d.insertTable style = .ok result := by
  unfold Document.insertTableNamed at h
  split at h
  · exact ⟨_, h⟩
  · cases h

theorem undo_eq_ok {result : Done Unit} (h : d.undo = .ok result) :
    ∃ record older, d.history.undoable = record :: older ∧ result.document = { d.touched with
      workbook := (applyRecord .undoing d.workbook record).1
      history := ⟨older, record :: d.history.redoable, d.history.capacity⟩ } := by
  unfold Document.undo History.undo? at h
  cases hundoable : d.history.undoable with
  | nil =>
      rw [hundoable] at h
      cases h
  | cons record older =>
      rw [hundoable] at h
      obtain rfl := Except.ok.inj h
      exact ⟨record, older, rfl, rfl⟩

theorem redo_eq_ok {result : Done Unit} (h : d.redo = .ok result) :
    ∃ record later, d.history.redoable = record :: later ∧ result.document = { d.touched with
      workbook := (applyRecord .redoing d.workbook record).1
      history := ⟨record :: d.history.undoable, later, d.history.capacity⟩ } := by
  unfold Document.redo History.redo? at h
  cases hredoable : d.history.redoable with
  | nil =>
      rw [hredoable] at h
      cases h
  | cons record later =>
      rw [hredoable] at h
      obtain rfl := Except.ok.inj h
      exact ⟨record, later, rfl, rfl⟩

theorem click_eq_ok {result : Done Unit} (h : d.click p = .ok result) :
    d.activeSheet.extent.contains p = true ∧
      result.document = { d with selection := Selection.click p } := by
  obtain ⟨_, hp, h⟩ := bind_eq_ok h
  obtain rfl := Except.ok.inj h
  exact ⟨Sheet.check_eq_ok hp, rfl⟩

theorem extendSelection_eq_ok {result : Done Unit} (h : d.extendSelection p = .ok result) :
    d.activeSheet.extent.contains p = true ∧
      result.document = { d with selection := d.selection.extend p } := by
  obtain ⟨_, hp, h⟩ := bind_eq_ok h
  obtain rfl := Except.ok.inj h
  exact ⟨Sheet.check_eq_ok hp, rfl⟩

theorem toggleSelection_eq_ok {result : Done Unit} (h : d.toggleSelection p = .ok result) :
    d.activeSheet.extent.contains p = true ∧
      result.document = { d with selection := d.selection.toggle p } := by
  obtain ⟨_, hp, h⟩ := bind_eq_ok h
  obtain rfl := Except.ok.inj h
  exact ⟨Sheet.check_eq_ok hp, rfl⟩

section Resizing

variable {extent : Extent} {confirm : List Position → Bool}

theorem resize_eq (d : Document) (extent : Extent) (confirm : List Position → Bool) :
    d.resize extent confirm =
      if d.settings.allows extent.columns extent.rows then
        if (d.activeSheet.outside extent).isEmpty || confirm (d.activeSheet.outside extent) then
          .ok (d.resized extent)
        else .error .resizeDeclined
      else .error (.invalidSize extent.columns extent.rows d.settings.maxColumns
        d.settings.maxRows) := by
  unfold resize resizeAsking
  dsimp only
  split
  · cases (d.activeSheet.outside extent).isEmpty <;> rfl
  · rfl

theorem resize_eq_ok {result : Done (List Position)} (h : d.resize extent confirm = .ok result) :
    result = d.resized extent := by
  rw [resize_eq] at h
  split at h
  · split at h
    · exact (Except.ok.inj h).symm
    · cases h
  · cases h

end Resizing

theorem setColumnWidth_eq_ok {width : Float} {result : Done Float}
    (h : d.setColumnWidth index width = .ok result) : ∃ sheet,
      d.activeSheet.setColumnWidth index (d.settings.clampColumnWidth width) = .ok sheet ∧
        result.document = (d.setActiveSheet sheet).touched := by
  obtain ⟨sheet, hsheet, h⟩ := bind_eq_ok h
  obtain rfl := Except.ok.inj h
  exact ⟨sheet, mapError_eq_ok hsheet, rfl⟩

theorem setRowHeight_eq_ok {height : Float} {result : Done Float}
    (h : d.setRowHeight index height = .ok result) : ∃ sheet,
      d.activeSheet.setRowHeight index (d.settings.clampRowHeight height) = .ok sheet ∧
        result.document = (d.setActiveSheet sheet).touched := by
  obtain ⟨sheet, hsheet, h⟩ := bind_eq_ok h
  obtain rfl := Except.ok.inj h
  exact ⟨sheet, mapError_eq_ok hsheet, rfl⟩

theorem setColumnFilter_eq_ok {texts : Std.ExtTreeSet String} {result : Done Unit}
    (h : d.setColumnFilter index texts = .ok result) : ∃ sheet,
      d.activeSheet.setColumnFilter index texts = .ok sheet ∧
        result.document = (d.setActiveSheet sheet).touched := by
  obtain ⟨sheet, hsheet, h⟩ := bind_eq_ok h
  obtain rfl := Except.ok.inj h
  exact ⟨sheet, mapError_eq_ok hsheet, rfl⟩

theorem addSheet_eq_ok {name : Option String} {result : Done Nat}
    (h : d.addSheet name = .ok result) : ∃ workbook,
      d.workbook.addSheet name ⟨d.settings.defaultColumns, d.settings.defaultRows⟩ = .ok workbook ∧
        result.document = { d with workbook := workbook }.clearSelection.touched := by
  obtain ⟨workbook, hworkbook, h⟩ := bind_eq_ok h
  obtain rfl := Except.ok.inj h
  exact ⟨workbook, hworkbook, rfl⟩

theorem renameSheet_eq_ok {result : Done Unit} (h : d.renameSheet index name = .ok result) :
    ∃ workbook, d.workbook.renameSheet index name = .ok workbook ∧
      result.document = { d with workbook := workbook }.touched := by
  obtain ⟨workbook, hworkbook, h⟩ := bind_eq_ok h
  obtain rfl := Except.ok.inj h
  exact ⟨workbook, hworkbook, rfl⟩

theorem deleteSheet_eq_ok {result : Done Unit} (h : d.deleteSheet index = .ok result) :
    ∃ sheet workbook, d.workbook.sheet index = .ok sheet ∧
      d.workbook.deleteSheet index = .ok workbook ∧ result.document = { d with
        workbook := workbook
        history := d.history.dropSheet sheet.id
        selection := if index = d.workbook.active then Selection.empty else d.selection
        }.touched := by
  obtain ⟨sheet, hsheet, h⟩ := bind_eq_ok h
  obtain ⟨workbook, hworkbook, h⟩ := bind_eq_ok h
  obtain rfl := Except.ok.inj h
  exact ⟨sheet, workbook, hsheet, hworkbook, rfl⟩

theorem duplicateSheet_eq_ok {result : Done Nat} (h : d.duplicateSheet index = .ok result) :
    ∃ workbook, d.workbook.duplicateSheet index = .ok workbook ∧
      result.document = { d with workbook := workbook }.touched := by
  obtain ⟨workbook, hworkbook, h⟩ := bind_eq_ok h
  obtain rfl := Except.ok.inj h
  exact ⟨workbook, hworkbook, rfl⟩

theorem activate_eq_ok {result : Done Unit} (h : d.activate index = .ok result) :
    ∃ workbook, d.workbook.activate index = .ok workbook ∧
      result.document = { d with workbook := workbook }.clearSelection := by
  obtain ⟨workbook, hworkbook, h⟩ := bind_eq_ok h
  obtain rfl := Except.ok.inj h
  exact ⟨workbook, hworkbook, rfl⟩

theorem activateNamed_eq_ok {result : Done Unit} (h : d.activateNamed name = .ok result) :
    ∃ index, d.workbook.findSheet name = some index ∧ d.activate index = .ok result := by
  unfold Document.activateNamed at h
  split at h
  · rename_i index hindex
    exact ⟨index, hindex, h⟩
  · cases h

theorem load_eq_ok {result : Done Unit} (h : d.load text = .ok result) :
    ∃ stored opened, StoredWorkbook.toWorkbook stored d.settings = .ok opened ∧
      result.document = d.replaceWorkbook opened.recalculation.1 := by
  obtain ⟨⟨workbook, notices⟩, hworkbook, h⟩ := bind_eq_ok h
  obtain rfl := Except.ok.inj h
  unfold Workbook.ofText at hworkbook
  split at hworkbook
  · cases hworkbook
  · rename_i stored _
    split at hworkbook
    · rename_i opened hopened
      have hrecalculated : opened.recalculation.1 = workbook :=
        congrArg Prod.fst (Except.ok.inj hworkbook)
      exact ⟨stored, opened, hopened, by rw [hrecalculated]⟩
    · cases hworkbook

theorem openFile_eq_ok {files : Files} {path : String} {result : Done Unit}
    (h : d.openFile files path = .ok result) :
    ∃ stored opened, StoredWorkbook.toWorkbook stored d.settings = .ok opened ∧
      result.document =
        { d.replaceWorkbook opened.recalculation.1 with file := some path } := by
  obtain ⟨text, -, h⟩ := bind_eq_ok h
  obtain ⟨loaded, hloaded, h⟩ := bind_eq_ok h
  obtain ⟨stored, opened, hopened, hresult⟩ := load_eq_ok hloaded
  refine ⟨stored, opened, hopened, ?_⟩
  rw [← Except.ok.inj h, hresult]

theorem ofPath_eq_ok {settings : Settings} {files : Files} {path : Option String}
    {result : Done Unit} (h : ofPath settings files path = .ok result) :
    (∃ file, result.document = { new settings with file := file }) ∨
      ∃ path, (new settings).openFile files path = .ok result := by
  unfold ofPath at h
  dsimp only at h
  split at h
  · exact .inl ⟨none, by rw [← Except.ok.inj h]; rfl⟩
  · split at h
    · exact .inr ⟨_, h⟩
    · exact .inl ⟨_, by rw [← Except.ok.inj h]⟩

theorem saveAs_eq_ok {files files' : Files} {path : String}
    (h : d.saveAs files path = .ok (next, files')) :
    next = { d with file := some path, modified := false } := by
  obtain ⟨written, -, h⟩ := bind_eq_ok h
  exact (Prod.mk.inj (Except.ok.inj h)).1.symm

theorem save_eq_ok {files files' : Files} (h : d.save files = .ok (next, files')) :
    ∃ path, d.saveAs files path = .ok (next, files') := by
  unfold Document.save at h
  split at h
  · exact ⟨_, h⟩
  · cases h

/-- What an operation that is done makes of a document. -/
inductive Performs (d : Document) : Operation → Document → Prop where
  | edited {operation : Operation} {next : Document} (hedit : operation.isEdit = true)
      (hnext : d.Commits next) : Performs d operation next
  | tabled {operation : Operation} (hedit : operation.isEdit = true) (region : Range)
      (style : TableStyle) (id : Nat) : Performs d operation (d.tabled region style id)
  | recalculated : Performs d .recalculate d.recalculate.document
  | undone {record : Record} {older : List Record} (h : d.history.undoable = record :: older) :
      Performs d .undo { d.touched with
        workbook := (applyRecord .undoing d.workbook record).1
        history := ⟨older, record :: d.history.redoable, d.history.capacity⟩ }
  | redone {record : Record} {later : List Record} (h : d.history.redoable = record :: later) :
      Performs d .redo { d.touched with
        workbook := (applyRecord .redoing d.workbook record).1
        history := ⟨record :: d.history.undoable, later, d.history.capacity⟩ }
  | clicked {p : Position} (hp : d.activeSheet.extent.contains p = true) :
      Performs d (.click p) { d with selection := Selection.click p }
  | extended {p : Position} (hp : d.activeSheet.extent.contains p = true) :
      Performs d (.extendSelection p) { d with selection := d.selection.extend p }
  | toggled {p : Position} (hp : d.activeSheet.extent.contains p = true) :
      Performs d (.toggleSelection p) { d with selection := d.selection.toggle p }
  | unselected : Performs d .clearSelection d.clearSelection
  | resized (extent : Extent) (confirm : List Position → Bool) :
      Performs d (.resize extent confirm) (d.resized extent).document
  | widened {col : Nat} {width : Float} {sheet : Sheet}
      (h : d.activeSheet.setColumnWidth col (d.settings.clampColumnWidth width) = .ok sheet) :
      Performs d (.setColumnWidth col width) (d.setActiveSheet sheet).touched
  | heightened {row : Nat} {height : Float} {sheet : Sheet}
      (h : d.activeSheet.setRowHeight row (d.settings.clampRowHeight height) = .ok sheet) :
      Performs d (.setRowHeight row height) (d.setActiveSheet sheet).touched
  | filtered {col : Nat} {texts : Std.ExtTreeSet String} {sheet : Sheet}
      (h : d.activeSheet.setColumnFilter col texts = .ok sheet) :
      Performs d (.setColumnFilter col texts) (d.setActiveSheet sheet).touched
  | unfiltered (col : Nat) : Performs d (.clearColumnFilter col) (d.clearColumnFilter col)
  | renamedWorkbook (name : String) : Performs d (.renameWorkbook name) (d.renameWorkbook name)
  | added {name : Option String} {workbook : Workbook}
      (h : d.workbook.addSheet name ⟨d.settings.defaultColumns, d.settings.defaultRows⟩ =
        .ok workbook) :
      Performs d (.addSheet name) { d with workbook := workbook }.clearSelection.touched
  | renamed {index : Nat} {name : String} {workbook : Workbook}
      (h : d.workbook.renameSheet index name = .ok workbook) :
      Performs d (.renameSheet index name) { d with workbook := workbook }.touched
  | deleted {index : Nat} {sheet : Sheet} {workbook : Workbook}
      (hsheet : d.workbook.sheet index = .ok sheet)
      (h : d.workbook.deleteSheet index = .ok workbook) :
      Performs d (.deleteSheet index) { d with
        workbook := workbook
        history := d.history.dropSheet sheet.id
        selection := if index = d.workbook.active then Selection.empty else d.selection }.touched
  | duplicated {index : Nat} {workbook : Workbook}
      (h : d.workbook.duplicateSheet index = .ok workbook) :
      Performs d (.duplicateSheet index) { d with workbook := workbook }.touched
  | activated {index : Nat} {workbook : Workbook} (h : d.workbook.activate index = .ok workbook) :
      Performs d (.activate index) { d with workbook := workbook }.clearSelection
  | activatedNamed {index : Nat} {name : String} {workbook : Workbook}
      (hindex : d.workbook.findSheet name = some index)
      (h : d.workbook.activate index = .ok workbook) :
      Performs d (.activateNamed name) { d with workbook := workbook }.clearSelection
  | opened {operation : Operation} {stored : StoredWorkbook} {workbook : Workbook}
      (hopens : operation.opens = true) (h : stored.toWorkbook d.settings = .ok workbook)
      (file : Option String) :
      Performs d operation { d.replaceWorkbook workbook.recalculation.1 with file := file }
  | saved {operation : Operation} (hsaves : operation.saves = true) (path : String) :
      Performs d operation { d with file := some path, modified := false }
  | exported (path : String) : Performs d (.exportFile path) d

/-- Every operation that is done is one of the cases. -/
theorem performs_of_perform {session next : Session} {operation : Operation}
    (hperform : session.perform operation = .ok next) :
    session.document.Performs operation next.document := by
  unfold Session.perform at hperform
  cases operation with
  | write cell input =>
      obtain ⟨result, h, rfl⟩ := map_eq_ok hperform
      exact .edited rfl (write_eq_ok h)
  | writeNamed name input =>
      obtain ⟨result, h, rfl⟩ := map_eq_ok hperform
      exact .edited rfl (writeNamed_eq_ok h)
  | clearContent cell =>
      obtain ⟨result, h, rfl⟩ := map_eq_ok hperform
      exact .edited rfl (clearContent_eq_ok h)
  | recalculate =>
      obtain rfl := Except.ok.inj hperform
      exact .recalculated
  | undo =>
      obtain ⟨result, h, rfl⟩ := map_eq_ok hperform
      obtain ⟨record, older, hundoable, hresult⟩ := undo_eq_ok h
      rw [Session.document_follow, hresult]
      exact .undone hundoable
  | redo =>
      obtain ⟨result, h, rfl⟩ := map_eq_ok hperform
      obtain ⟨record, later, hredoable, hresult⟩ := redo_eq_ok h
      rw [Session.document_follow, hresult]
      exact .redone hredoable
  | click cell =>
      obtain ⟨result, h, rfl⟩ := map_eq_ok hperform
      obtain ⟨hp, hresult⟩ := click_eq_ok h
      rw [Session.document_follow, hresult]
      exact .clicked hp
  | extendSelection cell =>
      obtain ⟨result, h, rfl⟩ := map_eq_ok hperform
      obtain ⟨hp, hresult⟩ := extendSelection_eq_ok h
      rw [Session.document_follow, hresult]
      exact .extended hp
  | toggleSelection cell =>
      obtain ⟨result, h, rfl⟩ := map_eq_ok hperform
      obtain ⟨hp, hresult⟩ := toggleSelection_eq_ok h
      rw [Session.document_follow, hresult]
      exact .toggled hp
  | clearSelection =>
      obtain rfl := Except.ok.inj hperform
      exact .unselected
  | toggleStyle flag =>
      obtain rfl := Except.ok.inj hperform
      exact .edited rfl (commits_restyleSelection _ _)
  | cycleAlign =>
      obtain rfl := Except.ok.inj hperform
      exact .edited rfl (commits_restyleSelection _ _)
  | applyFill color =>
      obtain rfl := Except.ok.inj hperform
      exact .edited rfl (commits_restyleSelection _ _)
  | applyBorders preset =>
      obtain ⟨result, h, rfl⟩ := map_eq_ok hperform
      obtain ⟨region, -, rfl⟩ := applyBorders_eq_ok h
      exact .edited rfl (commits_restyleSelection _ _)
  | insertTable style =>
      obtain ⟨result, h, rfl⟩ := map_eq_ok hperform
      obtain ⟨style, h⟩ := insertTableNamed_eq_ok h
      obtain ⟨region, id, -, -, hresult⟩ := insertTable_eq_ok h
      rw [Session.document_follow, hresult]
      exact .tabled rfl region style id
  | insertStyledTable style =>
      obtain ⟨result, h, rfl⟩ := map_eq_ok hperform
      obtain ⟨region, id, -, -, hresult⟩ := insertTable_eq_ok h
      rw [Session.document_follow, hresult]
      exact .tabled rfl region style id
  | resize extent confirm =>
      obtain ⟨result, h, rfl⟩ := map_eq_ok hperform
      obtain rfl := resize_eq_ok h
      exact .resized extent confirm
  | setColumnWidth col width =>
      obtain ⟨result, h, rfl⟩ := map_eq_ok hperform
      obtain ⟨sheet, hsheet, hresult⟩ := setColumnWidth_eq_ok h
      rw [Session.document_follow, hresult]
      exact .widened hsheet
  | setRowHeight row height =>
      obtain ⟨result, h, rfl⟩ := map_eq_ok hperform
      obtain ⟨sheet, hsheet, hresult⟩ := setRowHeight_eq_ok h
      rw [Session.document_follow, hresult]
      exact .heightened hsheet
  | setColumnFilter col texts =>
      obtain ⟨result, h, rfl⟩ := map_eq_ok hperform
      obtain ⟨sheet, hsheet, hresult⟩ := setColumnFilter_eq_ok h
      rw [Session.document_follow, hresult]
      exact .filtered hsheet
  | clearColumnFilter col =>
      obtain rfl := Except.ok.inj hperform
      exact .unfiltered col
  | renameWorkbook name =>
      obtain rfl := Except.ok.inj hperform
      exact .renamedWorkbook name
  | addSheet name =>
      obtain ⟨result, h, rfl⟩ := map_eq_ok hperform
      obtain ⟨workbook, hworkbook, hresult⟩ := addSheet_eq_ok h
      rw [Session.document_follow, hresult]
      exact .added hworkbook
  | renameSheet index name =>
      obtain ⟨result, h, rfl⟩ := map_eq_ok hperform
      obtain ⟨workbook, hworkbook, hresult⟩ := renameSheet_eq_ok h
      rw [Session.document_follow, hresult]
      exact .renamed hworkbook
  | deleteSheet index =>
      obtain ⟨result, h, rfl⟩ := map_eq_ok hperform
      obtain ⟨sheet, workbook, hsheet, hworkbook, hresult⟩ := deleteSheet_eq_ok h
      rw [Session.document_follow, hresult]
      exact .deleted hsheet hworkbook
  | duplicateSheet index =>
      obtain ⟨result, h, rfl⟩ := map_eq_ok hperform
      obtain ⟨workbook, hworkbook, hresult⟩ := duplicateSheet_eq_ok h
      rw [Session.document_follow, hresult]
      exact .duplicated hworkbook
  | activate index =>
      obtain ⟨result, h, rfl⟩ := map_eq_ok hperform
      obtain ⟨workbook, hworkbook, hresult⟩ := activate_eq_ok h
      rw [Session.document_follow, hresult]
      exact .activated hworkbook
  | activateNamed name =>
      obtain ⟨result, h, rfl⟩ := map_eq_ok hperform
      obtain ⟨index, hindex, h⟩ := activateNamed_eq_ok h
      obtain ⟨workbook, hworkbook, hresult⟩ := activate_eq_ok h
      rw [Session.document_follow, hresult]
      exact .activatedNamed hindex hworkbook
  | load text =>
      obtain ⟨result, h, rfl⟩ := map_eq_ok hperform
      obtain ⟨stored, opened, hopened, hresult⟩ := load_eq_ok h
      rw [Session.document_follow, hresult]
      exact .opened rfl hopened session.document.file
  | openFile path =>
      obtain ⟨result, h, rfl⟩ := map_eq_ok hperform
      obtain ⟨stored, opened, hopened, hresult⟩ := openFile_eq_ok h
      rw [Session.document_follow, hresult]
      exact .opened rfl hopened (some path)
  | save =>
      obtain ⟨⟨document, files⟩, h, rfl⟩ := map_eq_ok hperform
      obtain ⟨path, h⟩ := save_eq_ok h
      obtain rfl := saveAs_eq_ok h
      exact .saved rfl path
  | saveAs path =>
      obtain ⟨⟨document, files⟩, h, rfl⟩ := map_eq_ok hperform
      obtain rfl := saveAs_eq_ok h
      exact .saved rfl path
  | importText text =>
      obtain ⟨result, h, rfl⟩ := map_eq_ok hperform
      exact .edited rfl (importText_eq_ok h)
  | importFile path =>
      obtain ⟨result, h, rfl⟩ := map_eq_ok hperform
      exact .edited rfl (importFile_eq_ok h)
  | exportFile path =>
      obtain ⟨files, -, rfl⟩ := map_eq_ok hperform
      exact .exported path

end Document

end Spreadsheet
