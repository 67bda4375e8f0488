import Spreadsheet.Document.Procedure
import Spreadsheet.Proofs.Reachable

namespace Spreadsheet

open Document (Done Direction)

theorem Sheet.put_none {sheet : Sheet} {p : Position} (h : sheet.cells[p]? = none) :
    sheet.put p none = sheet := by
  have hcells : sheet.cells.alter p (fun _ => none) = sheet.cells := by
    apply Std.ExtTreeMap.ext_getElem?
    intro q
    rw [Std.ExtTreeMap.getElem?_alter]
    split
    · rename_i heq
      rw [← Std.LawfulEqCmp.compare_eq_iff_eq.mp heq, h]
    · rfl
  unfold put
  rw [hcells]

namespace Document

variable {settings : Settings} {d : Document}

theorem activeSheet_setActiveSheet (h : d.workbook.WellFormed settings) (sheet : Sheet) :
    (d.setActiveSheet sheet).activeSheet = sheet := h.activeSheet_setActiveSheet sheet

theorem setActiveSheet_activeSheet (h : d.workbook.WellFormed settings) :
    d.setActiveSheet d.activeSheet = d :=
  congrArg (fun workbook => { d with workbook := workbook }) h.setActiveSheet_activeSheet

theorem restyle_of_unchanged {sheet : Sheet} {cells : List Position}
    {update : Position → Style → Style} (h : (restyle sheet cells update).2 = []) :
    (restyle sheet cells update).1 = sheet := by
  unfold restyle at h ⊢
  dsimp only at h ⊢
  rw [h]
  rfl

theorem enterAll_of_unchanged {sheet : Sheet} {inputs : List (Position × String)}
    (h : (enterAll sheet inputs).2 = []) : (enterAll sheet inputs).1 = sheet := by
  cases inputs with
  | nil => rfl
  | cons entry rest => cases h

end Document

namespace Session

variable {α : Type} {session : Session}

/-- How an operation ends that leaves the session as it was whenever it fails. -/
def ending (session : Session) : Except Failure (Done α) → EStateM.Result Failure Session α
  | .ok result => .ok result.value (session.follow result)
  | .error failure => .error failure session

/-- The same where nothing but the next session counts. -/
def outcome (session : Session) : Except Failure Session → EStateM.Result Failure Session Unit
  | .ok next => .ok () next
  | .error failure => .error failure session

theorem ending_eq_outcome {result : Except Failure (Done Unit)} :
    session.ending result = session.outcome (result.map session.follow) := by
  cases result <;> rfl

end Session

namespace Procedure

variable {α β : Type} {settings : Settings} {session : Session} {d : Document} {files : Files}
  {p : Position}

theorem run_bind_of_ok {x : Procedure α} {f : α → Procedure β} {a : α} {after : Session}
    (h : x.run session = .ok a after) : (x >>= f).run session = (f a).run after := by
  rw [EStateM.run_bind, h]

theorem run_document : document.run ⟨d, files⟩ = .ok d ⟨d, files⟩ := rfl

theorem run_activeSheet : activeSheet.run ⟨d, files⟩ = .ok d.activeSheet ⟨d, files⟩ := rfl

theorem run_require {result : Except Failure α} {a : α} (h : result = .ok a) :
    (require result).run session = .ok a session := by
  rw [h]
  rfl

theorem run_require_bind {result : Except Failure α} {f : α → Procedure β}
    {g : α → Except Failure (Done β)}
    (h : ∀ a, result = .ok a → (f a).run session = session.ending (g a)) :
    (require result >>= f).run session = session.ending (result >>= g) := by
  cases result with
  | error failure => rfl
  | ok a => exact h a rfl

theorem run_changeWorkbook (update : Workbook → Workbook) : (changeWorkbook update).run ⟨d, files⟩ =
    .ok () ⟨{ d with workbook := update d.workbook }, files⟩ := rfl

theorem run_changeSheet (update : Sheet → Sheet) : (changeSheet update).run ⟨d, files⟩ =
    .ok () ⟨d.setActiveSheet (update d.activeSheet), files⟩ := rfl

theorem run_changeHistory (update : History → History) : (changeHistory update).run ⟨d, files⟩ =
    .ok () ⟨{ d with history := update d.history }, files⟩ := rfl

theorem run_changeSelection (update : Selection → Selection) :
    (changeSelection update).run ⟨d, files⟩ =
      .ok () ⟨{ d with selection := update d.selection }, files⟩ := rfl

theorem run_touch : touch.run ⟨d, files⟩ = .ok () ⟨d.touched, files⟩ := rfl

theorem run_changeSheet_setActiveSheet {sheet : Sheet} (h : d.workbook.WellFormed settings)
    (update : Sheet → Sheet) : (changeSheet update).run ⟨d.setActiveSheet sheet, files⟩ =
      .ok () ⟨d.setActiveSheet (update sheet), files⟩ := by
  rw [run_changeSheet, Document.activeSheet_setActiveSheet h]
  simp only [Document.setActiveSheet, Workbook.setActiveSheet_setActiveSheet]

theorem run_commit {changes : List Change} {sheet : Sheet} (h : d.workbook.WellFormed settings)
    (hsame : changes = [] → sheet = d.activeSheet) :
    (commit changes).run ⟨d.setActiveSheet sheet, files⟩ =
      .ok () ⟨(d.commit sheet changes).document, files⟩ := by
  unfold commit Document.commit
  split
  · rename_i hempty
    rw [hsame (List.isEmpty_iff.mp hempty), Document.setActiveSheet_activeSheet h]
    rfl
  · let recorded := { d with history := d.history.recordBatch changes }
    have hrecorded : recorded.workbook.WellFormed settings := h
    rw [run_bind_of_ok (run_changeHistory _)]
    exact run_bind_of_ok (run_changeSheet_setActiveSheet hrecorded Sheet.recalculated)

theorem run_enter {sheet : Sheet} (h : d.workbook.WellFormed settings) (input : String)
    (hp : sheet.extent.contains p = true) :
    (enter p input).run ⟨d.setActiveSheet sheet, files⟩ =
      .ok ⟨sheet.id, p, sheet.cells[p]?, sheet.entered p input⟩
        ⟨d.setActiveSheet (sheet.put p (sheet.entered p input)), files⟩ := by
  unfold enter
  rw [run_bind_of_ok run_activeSheet, Document.activeSheet_setActiveSheet h,
    run_bind_of_ok (run_require (Sheet.check_of_contains hp)),
    run_bind_of_ok (run_changeSheet_setActiveSheet h _)]
  rfl

theorem run_write (h : d.workbook.WellFormed settings) (input : String) :
    (write p input).run ⟨d, files⟩ = Session.ending ⟨d, files⟩ (d.write p input) := by
  have hcell : (d.activeSheet.put p (d.activeSheet.entered p input)).cells[p]? =
      d.activeSheet.entered p input := by
    simp [Sheet.put]
  unfold write enter Document.write Sheet.write
  rw [bind_assoc, run_bind_of_ok run_activeSheet]
  simp only [bind_assoc, pure_bind]
  refine run_require_bind fun _ _ => ?_
  rw [run_bind_of_ok (run_changeSheet _), hcell]
  split
  · rename_i hnone
    rw [Bool.and_eq_true, Option.isNone_iff_eq_none, Option.isNone_iff_eq_none] at hnone
    rw [EStateM.run_pure, hnone.2, Sheet.put_none hnone.1, Document.setActiveSheet_activeSheet h]
    rfl
  · rw [run_commit h (by simp)]
    rfl

theorem run_writeNamed (h : d.workbook.WellFormed settings) (name input : String) :
    (writeNamed name input).run ⟨d, files⟩ =
      Session.ending ⟨d, files⟩ (d.writeNamed name input) :=
  run_require_bind fun _ _ => run_write h input

theorem run_clearContent (h : d.workbook.WellFormed settings) (p : Position) :
    (clearContent p).run ⟨d, files⟩ = Session.ending ⟨d, files⟩ (d.clearContent p) := by
  unfold clearContent Document.clearContent
  rw [run_bind_of_ok run_activeSheet]
  refine run_require_bind fun _ _ => ?_
  cases hcell : d.activeSheet.cells[p]? with
  | none => rfl
  | some previous =>
      dsimp only
      split
      · rfl
      · rw [run_bind_of_ok (run_changeSheet _), run_commit h (by simp)]
        rfl

theorem run_recalculate : recalculate.run ⟨d, files⟩ =
    Session.ending ⟨d, files⟩ (.ok d.recalculate) := by
  unfold recalculate
  rw [run_bind_of_ok run_activeSheet, run_bind_of_ok (run_changeSheet _)]
  rfl

theorem run_retrace {take : History → Option (Record × History)} {nothing : Failure}
    {direction : Direction} : (retrace take nothing direction).run ⟨d, files⟩ =
      Session.ending ⟨d, files⟩ (match take d.history with
        | none => .error nothing
        | some (record, history) =>
            let (workbook, notices) := Document.applyRecord direction d.workbook record
            .ok ⟨{ d.touched with workbook := workbook, history := history }, (), notices⟩) := by
  unfold retrace
  rw [run_bind_of_ok run_document]
  cases take d.history <;> rfl

theorem run_select {update : Selection → Selection} : (select p update).run ⟨d, files⟩ =
    Session.ending ⟨d, files⟩ (d.activeSheet.check p >>= fun _ =>
      { d with selection := update d.selection }.done ()) := by
  unfold select
  rw [run_bind_of_ok run_activeSheet]
  exact run_require_bind fun _ _ => rfl

theorem run_enterEach {inputs : List (Position × String)} {sheet : Sheet}
    (h : d.workbook.WellFormed settings)
    (hinside : ∀ entry ∈ inputs, sheet.extent.contains entry.1 = true) :
    (enterEach inputs).run ⟨d.setActiveSheet sheet, files⟩ =
      .ok (Document.enterAll sheet inputs).2
        ⟨d.setActiveSheet (Document.enterAll sheet inputs).1, files⟩ := by
  induction inputs generalizing sheet with
  | nil => rfl
  | cons entry rest ih =>
      obtain ⟨p, input⟩ := entry
      have hrest : ∀ entry ∈ rest, (sheet.put p (sheet.entered p input)).extent.contains entry.1 =
          true := fun entry hentry => hinside entry (List.mem_cons_of_mem _ hentry)
      unfold enterEach
      rw [run_bind_of_ok (run_enter h input (hinside _ List.mem_cons_self)),
        run_bind_of_ok (ih hrest)]
      rfl

/-- Nothing takes back what was entered before a cell that is not there. -/
example : (match (enterEach [(⟨0, 0⟩, "1"), (⟨0, 26⟩, "2")]).run ⟨.new .standard, .empty⟩ with
    | .ok _ _ => none
    | .error _ after => some after.document.activeSheet.cells.keys) = some [⟨0, 0⟩] := by
  decide +kernel

theorem run_applyStyles (cells : List Position) (update : Position → Style → Style) :
    (applyStyles cells update).run ⟨d, files⟩ =
      .ok (Document.restyle d.activeSheet cells update).2
        ⟨d.setActiveSheet (Document.restyle d.activeSheet cells update).1, files⟩ := by
  unfold applyStyles
  rw [run_bind_of_ok run_activeSheet]
  rfl

theorem run_restyleSelection (h : d.workbook.WellFormed settings)
    (update : Position → Style → Style) : (restyleSelection update).run ⟨d, files⟩ =
      Session.ending ⟨d, files⟩ (.ok (d.restyleSelection update)) := by
  unfold restyleSelection
  rw [run_bind_of_ok run_document, run_bind_of_ok (run_applyStyles _ _),
    run_bind_of_ok (run_commit h Document.restyle_of_unchanged)]
  rfl

theorem run_applyBorders (h : d.workbook.WellFormed settings) (preset : BorderPreset) :
    (applyBorders preset).run ⟨d, files⟩ = Session.ending ⟨d, files⟩ (d.applyBorders preset) := by
  unfold applyBorders
  rw [run_bind_of_ok run_document]
  exact run_require_bind fun region _ => run_restyleSelection h _

theorem run_insertTable (h : d.workbook.WellFormed settings) (style : TableStyle) :
    (insertTable style).run ⟨d, files⟩ = Session.ending ⟨d, files⟩ (d.insertTable style) := by
  unfold insertTable
  rw [run_bind_of_ok run_document]
  refine run_require_bind fun region _ => ?_
  rw [run_bind_of_ok run_activeSheet]
  refine run_require_bind fun id _ => ?_
  rw [run_bind_of_ok (run_applyStyles _ _), run_bind_of_ok run_activeSheet,
    Document.activeSheet_setActiveSheet h, run_bind_of_ok (run_changeSheet_setActiveSheet h _),
    run_bind_of_ok (run_changeHistory _), run_bind_of_ok run_touch]
  rfl

theorem run_insertTableNamed (h : d.workbook.WellFormed settings) (name : String) :
    (insertTableNamed name).run ⟨d, files⟩ =
      Session.ending ⟨d, files⟩ (d.insertTableNamed name) := by
  unfold insertTableNamed Document.insertTableNamed
  cases TableStyle.ofName? name with
  | none => rfl
  | some style => exact run_insertTable h style

theorem run_ensure_bind {condition : Bool} {failure : Failure} {f : Unit → Procedure β}
    {done : Except Failure (Done β)}
    (h : condition = true → (f ()).run session = session.ending done) :
    (ensure condition failure >>= f).run session =
      session.ending (if condition then done else .error failure) := by
  unfold ensure
  cases condition with
  | false => rfl
  | true => exact h rfl

theorem run_resize (h : d.workbook.WellFormed settings) (extent : Extent)
    (confirm : List Position → Bool) : (resize extent confirm).run ⟨d, files⟩ =
      Session.ending ⟨d, files⟩ (d.resize extent confirm) := by
  unfold resize
  rw [Document.resize_eq, run_bind_of_ok run_document]
  refine run_ensure_bind fun _ => ?_
  rw [run_bind_of_ok run_activeSheet]
  refine run_ensure_bind fun _ => ?_
  let pruned : Document := { d with
    history :=
      if (d.activeSheet.outside extent).isEmpty then
        d.history.dropOutside d.activeSheet.id extent.raised
      else d.history.dropSheet d.activeSheet.id
    selection := d.selection.prune extent.raised }
  have hpruned : pruned.workbook.WellFormed settings := h
  rw [run_bind_of_ok (run_changeSheet _), run_bind_of_ok run_activeSheet,
    Document.activeSheet_setActiveSheet h, run_bind_of_ok (run_changeHistory _),
    run_bind_of_ok (run_changeSelection _)]
  exact run_bind_of_ok (run_changeSheet_setActiveSheet hpruned _)

theorem run_layOut (check : Sheet → Except LayoutFailure Unit) (update : Sheet → Sheet)
    (value : α) : (layOut check update value).run ⟨d, files⟩ =
      Session.ending ⟨d, files⟩ (((check d.activeSheet >>= fun _ =>
        .ok (update d.activeSheet)).mapError .layout) >>= fun sheet =>
          (d.setActiveSheet sheet).touched.done value) := by
  unfold layOut
  rw [run_bind_of_ok run_activeSheet]
  cases check d.activeSheet <;> rfl

theorem run_setColumnWidth (col : Nat) (width : Float) : (setColumnWidth col width).run ⟨d, files⟩ =
    Session.ending ⟨d, files⟩ (d.setColumnWidth col width) := by
  unfold setColumnWidth
  rw [run_bind_of_ok run_document]
  exact run_layOut _ _ _

theorem run_setRowHeight (row : Nat) (height : Float) : (setRowHeight row height).run ⟨d, files⟩ =
    Session.ending ⟨d, files⟩ (d.setRowHeight row height) := by
  unfold setRowHeight
  rw [run_bind_of_ok run_document]
  exact run_layOut _ _ _

theorem run_setColumnFilter (col : Nat) (texts : Std.ExtTreeSet String) :
    (setColumnFilter col texts).run ⟨d, files⟩ =
      Session.ending ⟨d, files⟩ (d.setColumnFilter col texts) := by
  unfold setColumnFilter
  rw [run_layOut]
  rfl

theorem run_takeId : takeId.run ⟨d, files⟩ = .ok d.workbook.nextId
    ⟨{ d with workbook := { d.workbook with nextId := d.workbook.nextId + 1 } }, files⟩ := by
  unfold takeId
  rw [run_bind_of_ok run_document, run_bind_of_ok (run_changeWorkbook _)]
  rfl

theorem run_addSheet (name : Option String) :
    (addSheet name).run ⟨d, files⟩ = Session.ending ⟨d, files⟩ (d.addSheet name) := by
  unfold addSheet Document.addSheet Workbook.addSheet
  rw [run_bind_of_ok run_document]
  dsimp only
  rw [bind_assoc]
  refine run_require_bind fun _ _ => ?_
  rw [run_bind_of_ok run_takeId, run_bind_of_ok (run_changeWorkbook _),
    run_bind_of_ok (run_changeWorkbook _), run_bind_of_ok (run_changeSelection _),
    run_bind_of_ok run_touch]
  rfl

theorem run_renameSheet (index : Nat) (name : String) : (renameSheet index name).run ⟨d, files⟩ =
    Session.ending ⟨d, files⟩ (d.renameSheet index name) := by
  unfold renameSheet Document.renameSheet Workbook.renameSheet
  rw [bind_assoc]
  refine run_require_bind fun _ _ => ?_
  rw [run_bind_of_ok run_document, bind_assoc]
  refine run_require_bind fun sheet _ => ?_
  rw [run_bind_of_ok (run_changeWorkbook _)]
  rfl

theorem run_deleteSheet (index : Nat) : (deleteSheet index).run ⟨d, files⟩ =
    Session.ending ⟨d, files⟩ (d.deleteSheet index) := by
  unfold deleteSheet Document.deleteSheet Workbook.deleteSheet
  rw [run_bind_of_ok run_document]
  dsimp only
  refine run_require_bind fun sheet hsheet => ?_
  rw [bind_assoc, bind_of_eq_ok hsheet]
  by_cases hlast : d.workbook.sheets.length = 1
  · rw [if_pos hlast, hlast]
    rfl
  · have hmore : (d.workbook.sheets.length != 1) = true := bne_iff_ne.mpr hlast
    rw [if_neg hlast, hmore]
    rfl

theorem run_duplicateSheet (index : Nat) : (duplicateSheet index).run ⟨d, files⟩ =
    Session.ending ⟨d, files⟩ (d.duplicateSheet index) := by
  unfold duplicateSheet Document.duplicateSheet Workbook.duplicateSheet
  rw [run_bind_of_ok run_document, bind_assoc]
  refine run_require_bind fun sheet _ => ?_
  rw [run_bind_of_ok run_takeId, run_bind_of_ok (run_changeWorkbook _),
    run_bind_of_ok (run_changeWorkbook _), run_bind_of_ok run_touch]
  rfl

theorem run_activate (index : Nat) : (activate index).run ⟨d, files⟩ =
    Session.ending ⟨d, files⟩ (d.activate index) := by
  unfold activate Document.activate Workbook.activate
  rw [run_bind_of_ok run_document, bind_assoc]
  refine run_require_bind fun _ _ => ?_
  rw [run_bind_of_ok (run_changeWorkbook _)]
  rfl

theorem run_activateNamed (name : String) : (activateNamed name).run ⟨d, files⟩ =
    Session.ending ⟨d, files⟩ (d.activateNamed name) := by
  unfold activateNamed Document.activateNamed
  rw [run_bind_of_ok run_document]
  cases d.workbook.findSheet name with
  | none => rfl
  | some index => exact run_activate index

theorem run_load (text : String) : (load text).run ⟨d, files⟩ =
    Session.ending ⟨d, files⟩ (d.load text) := by
  unfold load Document.load
  rw [run_bind_of_ok run_document]
  refine run_require_bind fun opened _ => ?_
  dsimp only
  rw [run_bind_of_ok (run_changeWorkbook _), run_bind_of_ok (run_changeSelection _),
    run_bind_of_ok (run_changeHistory _)]
  rfl

theorem run_importRecords (h : d.workbook.WellFormed settings) (records : List (List String)) :
    (importRecords records).run ⟨d, files⟩ =
      Session.ending ⟨d, files⟩ (d.importRecords records) := by
  unfold importRecords Document.importRecords
  rw [run_bind_of_ok run_activeSheet]
  dsimp only
  cases hfind : (Document.recordInputs records).find? fun entry =>
      !d.activeSheet.extent.contains entry.1 with
  | some entry => rfl
  | none =>
      have hinside : ∀ entry ∈ Document.recordInputs records,
          d.activeSheet.extent.contains entry.1 = true := by
        simpa using List.find?_eq_none.mp hfind
      have hentered : (enterEach _).run ⟨d.setActiveSheet d.activeSheet, files⟩ = _ :=
        run_enterEach h hinside
      rw [Document.setActiveSheet_activeSheet h] at hentered
      dsimp only
      cases hempty : (Document.recordInputs records).isEmpty with
      | true => rfl
      | false =>
          change (enterEach _ >>= _).run _ = _
          rw [run_bind_of_ok hentered,
            run_bind_of_ok (run_commit h Document.enterAll_of_unchanged)]
          rfl

theorem run_importFile (h : d.workbook.WellFormed settings) (path : String) :
    (importFile path).run ⟨d, files⟩ = Session.ending ⟨d, files⟩ (d.importFile files path) := by
  unfold importFile
  rw [run_bind_of_ok (EStateM.run_get _)]
  exact run_require_bind fun text _ => run_importRecords h _

theorem run_openFile (path : String) : (openFile path).run ⟨d, files⟩ =
    Session.ending ⟨d, files⟩ (d.openFile files path) := by
  unfold openFile Document.openFile
  rw [run_bind_of_ok (EStateM.run_get _)]
  refine run_require_bind fun text _ => ?_
  rw [EStateM.run_bind, run_load]
  cases d.load text <;> rfl

theorem run_saveAs (path : String) : (saveAs path).run ⟨d, files⟩ =
    Session.outcome ⟨d, files⟩
      ((d.saveAs files path).map fun (document, files) => ⟨document, files⟩) := by
  unfold saveAs store Document.saveAs
  rw [run_bind_of_ok run_document, bind_assoc, run_bind_of_ok (EStateM.run_get _)]
  cases Document.store files path d.storedText <;> rfl

theorem run_save : save.run ⟨d, files⟩ = Session.outcome ⟨d, files⟩
    ((d.save files).map fun (document, files) => ⟨document, files⟩) := by
  unfold save Document.save
  rw [run_bind_of_ok run_document]
  cases hfile : d.file with
  | none => rfl
  | some path =>
      unfold store Document.saveAs
      dsimp only
      rw [bind_assoc, run_bind_of_ok (EStateM.run_get _)]
      cases Document.store files path d.storedText with
      | error failure => rfl
      | ok files =>
          change EStateM.Result.ok () (Session.mk { d with modified := false } files) =
            EStateM.Result.ok () (Session.mk { d with file := some path, modified := false } files)
          rw [← hfile]

theorem run_exportFile (path : String) : (exportFile path).run ⟨d, files⟩ =
    Session.outcome ⟨d, files⟩
      ((d.exportFile files path).map fun files => ⟨d, files⟩) := by
  unfold exportFile store Document.exportFile
  rw [run_bind_of_ok run_activeSheet, run_bind_of_ok (EStateM.run_get _)]
  cases Document.store files path d.activeSheet.inputText <;> rfl

theorem run_discard {x : Procedure α} {result : Except Failure (Done α)}
    (h : x.run session = session.ending result) :
    (discard x).run session = session.outcome (result.map session.follow) := by
  change EStateM.map _ x session = _
  unfold EStateM.map
  rw [show x session = _ from h]
  cases result <;> rfl

/-- Every operation ends as its result says, and without one it leaves the session as it was. -/
theorem run_ofOperation (h : session.document.workbook.WellFormed settings)
    (operation : Operation) :
    (ofOperation operation).run session = session.outcome (session.perform operation) := by
  obtain ⟨d, files⟩ := session
  cases operation with
  | write cell input => exact (run_write h input).trans Session.ending_eq_outcome
  | writeNamed name input => exact (run_writeNamed h name input).trans Session.ending_eq_outcome
  | clearContent cell => exact (run_clearContent h cell).trans Session.ending_eq_outcome
  | recalculate => exact run_discard run_recalculate
  | undo => exact run_retrace.trans Session.ending_eq_outcome
  | redo => exact run_retrace.trans Session.ending_eq_outcome
  | click cell => exact run_select.trans Session.ending_eq_outcome
  | extendSelection cell => exact run_select.trans Session.ending_eq_outcome
  | toggleSelection cell => exact run_select.trans Session.ending_eq_outcome
  | clearSelection => rfl
  | toggleStyle flag => exact run_discard (run_restyleSelection h _)
  | cycleAlign => exact run_discard (run_restyleSelection h _)
  | applyFill color => exact run_discard (run_restyleSelection h _)
  | applyBorders preset => exact run_discard (run_applyBorders h preset)
  | insertTable style => exact run_discard (run_insertTableNamed h style)
  | insertStyledTable style => exact run_discard (run_insertTable h style)
  | resize extent confirm => exact run_discard (run_resize h extent confirm)
  | setColumnWidth col width => exact run_discard (run_setColumnWidth col width)
  | setRowHeight row height => exact run_discard (run_setRowHeight row height)
  | setColumnFilter col texts =>
      exact (run_setColumnFilter col texts).trans Session.ending_eq_outcome
  | clearColumnFilter col => rfl
  | renameWorkbook name => rfl
  | addSheet name => exact run_discard (run_addSheet name)
  | renameSheet index name => exact (run_renameSheet index name).trans Session.ending_eq_outcome
  | deleteSheet index => exact (run_deleteSheet index).trans Session.ending_eq_outcome
  | duplicateSheet index => exact run_discard (run_duplicateSheet index)
  | activate index => exact (run_activate index).trans Session.ending_eq_outcome
  | activateNamed name => exact (run_activateNamed name).trans Session.ending_eq_outcome
  | load text => exact (run_load text).trans Session.ending_eq_outcome
  | openFile path => exact (run_openFile path).trans Session.ending_eq_outcome
  | save => exact run_save
  | saveAs path => exact run_saveAs path
  | importText text => exact run_discard (run_importRecords h _)
  | importFile path => exact run_discard (run_importFile h path)
  | exportFile path => exact run_exportFile path

end Procedure

namespace Document

variable {settings : Settings} {session : Session}

/-- On documents that come about, carrying out an operation is performing it. When it fails, all of
the session is as before. -/
theorem Reachable.run_ofOperation_iff (h : Reachable settings session.document)
    (operation : Operation) :
    (∀ failure after, (Procedure.ofOperation operation).run session = .error failure after ↔
      session.perform operation = .error failure ∧ after = session) ∧
    ∀ after, (Procedure.ofOperation operation).run session = .ok () after ↔
      session.perform operation = .ok after := by
  rw [Procedure.run_ofOperation h.wellFormed.workbook operation]
  cases session.perform operation with
  | ok next => simp [Session.outcome]
  | error reason => simp [Session.outcome, eq_comm]

/-- Edits that leave a style, a selection, two records to undo and one to redo. -/
def undoneEdits : List Operation :=
  [.write ⟨0, 0⟩ "=B1", .click ⟨0, 1⟩, .toggleStyle .bold, .write ⟨2, 3⟩ "x", .undo]

/-- Fields of which only the last one has no cell. -/
def wideFields : String := "7,8\n,=A1\n,,,,,,,,,,9"

theorem run_ofOperation_wideFields :
    let session := Session.run ⟨.new .standard, .empty⟩ undoneEdits
    session.document.history.undoable.length = 2 ∧ session.document.history.redoable.length = 1 ∧
      (Procedure.ofOperation (.importText wideFields)).run session =
        .error (.csvOutside 3 ⟨2, 10⟩ ⟨10, 40⟩) session := by
  intro session
  have h : Reachable .standard session.document := reachable_run .new undoneEdits
  have hfails : session.perform (.importText wideFields) =
      .error (.csvOutside 3 ⟨2, 10⟩ ⟨10, 40⟩) := by
    have hfailure : (match session.document.importText wideFields with
        | .error failure => some failure
        | .ok _ => none) = some (.csvOutside 3 ⟨2, 10⟩ ⟨10, 40⟩) := by decide +kernel
    unfold Session.perform
    dsimp only
    split at hfailure
    · rename_i failure heq
      rw [heq, Option.some.inj hfailure]
      rfl
    · cases hfailure
  refine ⟨by decide +kernel, by decide +kernel, ?_⟩
  exact ((h.run_ofOperation_iff (.importText wideFields)).1 _ _).mpr ⟨hfails, rfl⟩

theorem Reachable.carryOut (h : Reachable settings session.document) (operation : Operation) :
    session.carryOut operation = session.after operation := by
  unfold Session.carryOut Session.after
  rw [Procedure.run_ofOperation h.wellFormed.workbook operation]
  cases session.perform operation <;> rfl

theorem Reachable.foldl_carryOut (h : Reachable settings session.document)
    (operations : List Operation) :
    operations.foldl Session.carryOut session = session.run operations := by
  induction operations generalizing session with
  | nil => rfl
  | cons operation rest ih =>
      rw [List.foldl_cons, h.carryOut]
      exact ih (reachable_run h [operation])

end Document

end Spreadsheet
