import Mathlib.Data.List.InsertIdx
import Mathlib.Data.List.Nodup
import Spreadsheet.Proofs.Effects
import Spreadsheet.Proofs.Reachable

namespace Spreadsheet

theorem Sheet.eq_of_id_eq {sheets : List Sheet} (h : (sheets.map Sheet.id).Nodup)
    {sheet other : Sheet} (hsheet : sheet ∈ sheets) (hother : other ∈ sheets)
    (hid : sheet.id = other.id) : sheet = other := List.inj_on_of_nodup_map h hsheet hother hid

theorem Workbook.map_id_setSheet {workbook : Workbook} {sheet next : Sheet} {index : Nat}
    (hsheet : workbook.sheets[index]? = some sheet) (hid : next.id = sheet.id) :
    (workbook.setSheet index next).sheets.map Sheet.id = workbook.sheets.map Sheet.id :=
  Sheet.map_id_set hsheet hid

namespace Document

variable {settings : Settings} {operation : Operation} {d next : Document} {session : Session}

/-- Where a sheet comes from that is there after an operation: it was there before, it is new, it is
the sheet that the operation is about, or it has got another name. -/
inductive Origin (operation : Operation) (d : Document) (after : Sheet) : Prop where
  | untouched (hafter : after ∈ d.workbook.sheets)
  | added (hid : after.id = d.workbook.nextId)
  | edited (before : Sheet) (hbefore : before ∈ d.workbook.sheets) (hid : after.id = before.id)
      (hname : after.name = before.name) (hedited : operation.edited? d = some before.id)
  | renamed (index : Nat) (before : Sheet) (hbefore : d.workbook.sheets[index]? = some before)
      (hoperation : operation = .renameSheet index after.name)
      (hafter : after = { before with name := after.name })

theorem Effect.origin {after : Sheet} (heffect : Effect operation d next)
    (hopens : operation.opens = false) (hafter : after ∈ next.workbook.sheets) :
    Origin operation d after := by
  cases heffect with
  | kept hworkbook | renamedWorkbook name hworkbook =>
      rw [hworkbook] at hafter
      exact .untouched hafter
  | edited index before sheet hbefore hedited hid hname hworkbook =>
      rw [hworkbook] at hafter
      rcases List.mem_or_eq_of_mem_set hafter with hafter | rfl
      · exact .untouched hafter
      · exact .edited before (List.mem_of_getElem? hbefore) hid hname hedited
  | renamed index before name hbefore hoperation hworkbook =>
      rw [hworkbook] at hafter
      rcases List.mem_or_eq_of_mem_set hafter with hafter | rfl
      · exact .untouched hafter
      · exact .renamed index before hbefore hoperation rfl
  | added place sheet hplace hid hsheets =>
      rw [hsheets] at hafter
      rcases (List.mem_insertIdx hplace).mp hafter with rfl | hafter
      · exact .added hid
      · exact .untouched hafter
  | deleted index hoperation hsheets =>
      rw [hsheets] at hafter
      exact .untouched (List.mem_of_mem_eraseIdx hafter)
  | opened hoperation => exact absurd (hopens.symm.trans hoperation) Bool.false_ne_true

theorem Effect.remains {before : Sheet} (heffect : Effect operation d next)
    (hopens : operation.opens = false) (hbefore : before ∈ d.workbook.sheets) :
    before.id ∈ next.workbook.sheets.map Sheet.id ∨
      ∃ index, operation = .deleteSheet index ∧ d.workbook.sheets[index]? = some before := by
  have hid : before.id ∈ d.workbook.sheets.map Sheet.id := List.mem_map_of_mem hbefore
  cases heffect with
  | kept hworkbook | renamedWorkbook name hworkbook =>
      left
      rwa [hworkbook]
  | edited index edited sheet hedited _ hsame _ hworkbook =>
      left
      rwa [hworkbook, Workbook.map_id_setSheet hedited hsame]
  | renamed index renamed name hrenamed _ hworkbook =>
      left
      rw [hworkbook, Workbook.map_id_setSheet hrenamed]
      · exact hid
      · rfl
  | added place sheet hplace _ hsheets =>
      left
      rw [hsheets]
      exact List.mem_map_of_mem ((List.mem_insertIdx hplace).mpr (.inr hbefore))
  | deleted index hoperation hsheets =>
      obtain ⟨place, hplace⟩ := List.mem_iff_getElem?.mp hbefore
      by_cases hindex : place = index
      · subst hindex
        exact .inr ⟨place, hoperation, hplace⟩
      · left
        rw [hsheets]
        exact List.mem_map_of_mem (List.mem_eraseIdx_iff_getElem?.mpr ⟨place, hindex, hplace⟩)
  | opened hoperation => exact absurd (hopens.symm.trans hoperation) Bool.false_ne_true

theorem WellFormed.effect_after (h : session.document.WellFormed settings)
    (hsettled : session.document.IsSettled) (operation : Operation) :
    Effect operation session.document (session.after operation).document := by
  unfold Session.after
  cases hperform : session.perform operation with
  | ok next => exact h.effect_perform hsettled hperform
  | error reason => exact .kept rfl fun _ => rfl

theorem sheets_after_duplicateSheet {index : Nat} {source : Sheet}
    (hsource : session.document.workbook.sheets[index]? = some source) :
    (session.after (.duplicateSheet index)).document.workbook.sheets =
      session.document.workbook.sheets.insertIdx (index + 1)
        { source with
          id := session.document.workbook.nextId
          name := source.name ++ " (copy)" } := by
  have hsheet : session.document.workbook.sheet index = .ok source := by
    unfold Workbook.sheet
    rw [hsource]
  unfold Session.after Session.perform Document.duplicateSheet Workbook.duplicateSheet
  dsimp only
  rw [hsheet]
  rfl

/-- What an operation leaves alone: every sheet but the one that it is about. A name changes only
where its sheet is renamed, and a copy is a sheet of its own behind the sheet that it equals. -/
structure SparesOthers (operation : Operation) (d next : Document) : Prop where
  remains : ∀ before ∈ d.workbook.sheets, before.id ∈ next.workbook.sheets.map Sheet.id ∨
    ∃ index, operation = .deleteSheet index ∧ d.workbook.sheets[index]? = some before
  same : ∀ before ∈ d.workbook.sheets, ∀ after ∈ next.workbook.sheets, after.id = before.id →
    operation.edited? d ≠ some before.id → after = { before with name := after.name }
  named : ∀ before ∈ d.workbook.sheets, ∀ after ∈ next.workbook.sheets, after.id = before.id →
    after.name ≠ before.name →
      ∃ index, operation = .renameSheet index after.name ∧ d.workbook.sheets[index]? = some before
  copied : ∀ (index : Nat) (source : Sheet), operation = .duplicateSheet index →
    d.workbook.sheets[index]? = some source → ∃ id, id ∉ d.workbook.sheets.map Sheet.id ∧
      next.workbook.sheets = d.workbook.sheets.insertIdx (index + 1)
        { source with id := id, name := source.name ++ " (copy)" }

theorem WellFormed.sparesOthers (h : session.document.WellFormed settings)
    (hsettled : session.document.IsSettled) (hopens : operation.opens = false) :
    SparesOthers operation session.document (session.after operation).document where
  remains before hbefore := (h.effect_after hsettled operation).remains hopens hbefore
  same before hbefore after hafter hid hother := by
    cases (h.effect_after hsettled operation).origin hopens hafter with
    | untouched hafter => rw [Sheet.eq_of_id_eq h.workbook.nodup hafter hbefore hid]
    | added hnew => exact absurd (hid.symm.trans hnew) (h.workbook.id_lt before hbefore).ne
    | edited source _ hsource _ hedited => exact absurd (hid ▸ hsource ▸ hedited) hother
    | renamed index source hsource _ hafter =>
        have hsame : source.id = before.id := (congrArg Sheet.id hafter).symm.trans hid
        rwa [Sheet.eq_of_id_eq h.workbook.nodup (List.mem_of_getElem? hsource) hbefore hsame]
          at hafter
  named before hbefore after hafter hid hname := by
    cases (h.effect_after hsettled operation).origin hopens hafter with
    | untouched hafter =>
        exact absurd (congrArg Sheet.name (Sheet.eq_of_id_eq h.workbook.nodup hafter hbefore hid))
          hname
    | added hnew => exact absurd (hid.symm.trans hnew) (h.workbook.id_lt before hbefore).ne
    | edited source hmem hsource hsame _ =>
        have heq := Sheet.eq_of_id_eq h.workbook.nodup hmem hbefore (hsource.symm.trans hid)
        exact absurd (hsame.trans (congrArg Sheet.name heq)) hname
    | renamed index source hsource hoperation hafter =>
        have hsame : source.id = before.id := (congrArg Sheet.id hafter).symm.trans hid
        have heq := Sheet.eq_of_id_eq h.workbook.nodup (List.mem_of_getElem? hsource) hbefore hsame
        exact ⟨index, hoperation, heq ▸ hsource⟩
  copied index source hoperation hsource := by
    subst hoperation
    exact ⟨_, h.workbook.numbered.nextId_not_mem, sheets_after_duplicateSheet hsource⟩

/-- Sheets are isolated from each other. They have different numbers, each record of the history is
about one of them, and an operation that opens no workbook changes at most the one that it is
about. -/
theorem Reachable.sparesOthers_after (h : Reachable settings session.document)
    (hopens : operation.opens = false) :
    (session.document.workbook.sheets.map Sheet.id).Nodup ∧
      (∀ record ∈ session.document.history.undoable ++ session.document.history.redoable,
        record.sheet ∈ session.document.workbook.sheets.map Sheet.id ∧
          ∀ change ∈ record.changes, change.sheet = record.sheet) ∧
      SparesOthers operation session.document (session.after operation).document := by
  refine ⟨h.wellFormed.workbook.nodup, ?_, h.wellFormed.sparesOthers h.isSettled hopens⟩
  intro record hrecord
  obtain ⟨sheet, hsheet, hfits⟩ := h.wellFormed.records record hrecord
  rw [hfits.sheet_eq]
  exact ⟨List.mem_map_of_mem hsheet, hfits.change_sheet⟩

/-- An entry on a sheet that is copied and not active any more. -/
def entryBehind : List Operation := [.write ⟨0, 0⟩ "7", .duplicateSheet 0, .addSheet none]

theorem sparesOthers_after_entryBehind :
    let session := Session.run ⟨.new .standard, .empty⟩ entryBehind
    let next := (session.after .undo).document
    Reachable .standard session.document ∧ Operation.opens .undo = false ∧
      session.document.activeSheet.id = 3 ∧
      Operation.edited? session.document .undo = some 1 ∧
      next.workbook.sheets.map (fun sheet => (sheet.id, sheet.cells.keys)) =
        [(1, []), (2, [⟨0, 0⟩]), (3, [])] ∧
      SparesOthers .undo session.document next := by
  intro session next
  have h : Reachable .standard session.document := reachable_run .new entryBehind
  refine ⟨h, rfl, ?_, ?_, ?_, (h.sparesOthers_after rfl).2.2⟩ <;> decide +kernel

end Document

end Spreadsheet
