import Spreadsheet.Proofs.Reachable

namespace Spreadsheet.Document

variable {settings : Settings} {operation : Operation} {d next : Document} {sheet before : Sheet}
  {index : Nat}

theorem WellFormed.activeSheet_id_eq (h : d.WellFormed settings)
    (hbefore : d.workbook.sheets[index]? = some before)
    (hworkbook : next.workbook = d.workbook.setSheet index sheet) (hid : sheet.id = before.id) :
    next.activeSheet.id = d.activeSheet.id := by
  unfold Document.activeSheet
  rw [hworkbook]
  exact h.workbook.numbered.activeSheet_setSheet hbefore hid

theorem WellFormed.selection_step (h : d.WellFormed settings) (hsettled : d.IsSettled)
    (hstep : Step operation d next) :
    next.selection = Selection.empty ∨ next.activeSheet.id = d.activeSheet.id := by
  cases hstep with
  | selected hworkbook =>
      exact .inr (congrArg (fun workbook => workbook.activeSheet.id) hworkbook)
  | laidOut sheet hbody _ hworkbook =>
      exact .inr (h.activeSheet_id_eq h.workbook.getElem?_active hworkbook hbody.id_eq)
  | edited sheet record hedited hnext =>
      rw [hnext]
      exact .inr (h.activeSheet_id_eq h.workbook.getElem?_active rfl hedited.id_eq)
  | applied direction record rest hrecord _ _ hworkbook =>
      -- the record belongs to any of the sheets, which need not be the active one
      obtain ⟨sheet, hsheet, hfits⟩ :=
        h.records record (mem_of_awaiting (hrecord ▸ List.mem_cons_self))
      obtain ⟨place, hplace⟩ := List.mem_iff_getElem?.mp hsheet
      rw [applyRecord_eq direction h.workbook.nodup (hsettled sheet hsheet) hplace hfits]
        at hworkbook
      exact .inr (h.activeSheet_id_eq hplace hworkbook rfl)
  | resized extent confirm _ hnext =>
      rw [hnext]
      exact .inr (h.activeSheet_id_eq h.workbook.getElem?_active rfl rfl)
  | activated index _ _ hselection => exact .inl hselection
  | renamedWorkbook name hworkbook =>
      exact .inr (congrArg (fun workbook => workbook.activeSheet.id) hworkbook)
  | renamed index name hrename =>
      obtain ⟨sheet, hsheet, hnext⟩ := Workbook.renameSheet_eq_ok hrename
      exact .inr (h.activeSheet_id_eq hsheet hnext rfl)
  | added name extent _ _ hselection => exact .inl hselection
  | deleted index sheet _ hdelete _ hselection =>
      by_cases hactive : index = d.workbook.active
      · exact .inl (hselection.trans (if_pos hactive))
      · exact .inr (congrArg Sheet.id
          (h.workbook.numbered.activeSheet_deleteSheet hdelete hactive))
  | duplicated index hduplicate =>
      exact .inr (congrArg Sheet.id (h.workbook.numbered.activeSheet_duplicateSheet hduplicate))
  | loaded stored opened _ _ _ hselection => exact .inl hselection

/-- Everything that is selected lies on the active sheet, and so does the anchor. An operation after
which another sheet is active leaves nothing selected and no anchor. -/
theorem Reachable.selection_after {session : Session} (h : Reachable settings session.document)
    (operation : Operation) :
    let d := session.document
    let next := (session.after operation).document
    (∀ p ∈ d.selection.cells, d.activeSheet.extent.contains p = true) ∧
      (∀ p ∈ d.selection.anchor, d.activeSheet.extent.contains p = true) ∧
      (next.activeSheet.id ≠ d.activeSheet.id → next.selection = Selection.empty) := by
  intro d next
  refine ⟨h.wellFormed.selected, h.wellFormed.anchored, fun hother => ?_⟩
  unfold next Session.after at hother ⊢
  cases hperform : session.perform operation with
  | error reason =>
      rw [hperform] at hother
      exact absurd rfl hother
  | ok performed =>
      rw [hperform] at hother
      obtain ⟨-, hstep⟩ := h.wellFormed.step_perform h.isSettled hperform
      exact (h.wellFormed.selection_step h.isSettled hstep).resolve_right hother

/-- The active sheet shrinks and the anchor is left outside. A copy comes in front of it and the
first sheet goes, so the active sheet is found at another place. -/
def strandedAnchor : List Operation :=
  [.addSheet none, .click ⟨7, 2⟩, .extendSelection ⟨3, 3⟩, .resize ⟨4, 4⟩ fun _ => true,
    .duplicateSheet 0, .deleteSheet 0]

theorem selection_after_strandedAnchor :
    let session := Session.run ⟨.new .standard, .empty⟩ strandedAnchor
    let d := session.document
    let next := (session.after (.deleteSheet 1)).document
    d.workbook.active = 1 ∧ d.selection.anchor = none ∧
      d.selection.cells.toList = [⟨3, 2⟩, ⟨3, 3⟩] ∧
      (∀ p ∈ d.selection.cells, d.activeSheet.extent.contains p = true) ∧
      next.activeSheet.id ≠ d.activeSheet.id ∧ next.selection = Selection.empty := by
  intro session d next
  have h : Reachable .standard session.document := reachable_run .new strandedAnchor
  obtain ⟨hselected, -, hempty⟩ := h.selection_after (.deleteSheet 1)
  have hother : next.activeSheet.id ≠ d.activeSheet.id := by decide +kernel
  refine ⟨by decide +kernel, by decide +kernel, by decide +kernel, hselected, hother, ?_⟩
  exact hempty hother

end Spreadsheet.Document
