import Spreadsheet.Proofs.Effects
import Spreadsheet.Proofs.Reachable

namespace Spreadsheet

/-- Whether an operation takes the mark of unsaved changes away. -/
def Operation.unmarks (operation : Operation) : Bool := operation.opens || operation.saves

theorem Operation.not_unmarks {operation : Operation} (h : operation.isEdit = true) :
    ¬ operation.unmarks = true := by
  cases operation <;> first | exact Bool.false_ne_true | cases h

theorem Session.perform_eq_ok {session : Session} {operation : Operation}
    (h : (session.perform operation).isOk = true) :
    session.perform operation = .ok (session.after operation) := by
  unfold Session.after
  cases hperform : session.perform operation with
  | ok next => rfl
  | error reason =>
      rw [hperform] at h
      cases h

namespace Document

variable {settings : Settings} {saved d : Document}

theorem modified_ofPath {files : Files} {path : Option String} {result : Done Unit}
    (hdone : ofPath settings files path = .ok result) : result.document.modified = false := by
  obtain ⟨file, hresult⟩ | ⟨path, hopen⟩ := ofPath_eq_ok hdone
  · rw [hresult]
    rfl
  · obtain ⟨stored, opened, -, hresult⟩ := openFile_eq_ok hopen
    rw [hresult]
    rfl

theorem modified_of_unmarks {session next : Session} {operation : Operation}
    (hunmarks : operation.unmarks = true) (hperform : session.perform operation = .ok next) :
    next.document.modified = false := by
  have hperforms := performs_of_perform hperform
  generalize next.document = after at hperforms
  cases hperforms with
  | edited hedit _ | tabled hedit _ _ _ => exact absurd hunmarks (Operation.not_unmarks hedit)
  | opened _ _ _ | saved _ _ => rfl
  | _ => cases hunmarks

/-- The documents that come about under some settings, each with what it was right after it was
last saved, opened or new. -/
inductive ReachableSince (settings : Settings) : Document → Document → Prop where
  | new : ReachableSince settings (.new settings) (.new settings)
  | ofPath {files : Files} {path : Option String} {result : Done Unit}
      (h : Document.ofPath settings files path = .ok result) :
      ReachableSince settings result.document result.document
  | unmarked {session next : Session} {operation : Operation} {saved : Document}
      (start : ReachableSince settings saved session.document)
      (hunmarks : operation.unmarks = true) (h : session.perform operation = .ok next) :
      ReachableSince settings next.document next.document
  | perform {session next : Session} {operation : Operation} {saved : Document}
      (start : ReachableSince settings saved session.document)
      (hunmarks : operation.unmarks = false) (h : session.perform operation = .ok next) :
      ReachableSince settings saved next.document

theorem ReachableSince.reachable (h : ReachableSince settings saved d) : Reachable settings d := by
  induction h with
  | new => exact .new
  | ofPath h => exact .ofPath h
  | unmarked _ _ h ih => exact ih.perform h
  | perform _ _ h ih => exact ih.perform h

theorem Reachable.exists_since (h : Reachable settings d) :
    ∃ saved, ReachableSince settings saved d := by
  induction h with
  | new => exact ⟨_, .new⟩
  | ofPath h => exact ⟨_, .ofPath h⟩
  | @perform session next operation _ h ih =>
      obtain ⟨saved, hsince⟩ := ih
      cases hunmarks : operation.unmarks with
      | true => exact ⟨next.document, hsince.unmarked hunmarks h⟩
      | false => exact ⟨saved, hsince.perform hunmarks h⟩

theorem ReachableSince.modified_eq (h : ReachableSince settings saved d) :
    saved.modified = false := by
  induction h with
  | new => rfl
  | ofPath hdone => exact modified_ofPath hdone
  | unmarked _ hunmarks hperform => exact modified_of_unmarks hunmarks hperform
  | perform _ _ _ ih => exact ih

theorem ReachableSince.run {session : Session} (h : ReachableSince settings saved session.document)
    (operations : List Operation)
    (hunmarks : ∀ operation ∈ operations, operation.unmarks = false) :
    ReachableSince settings saved (session.run operations).document := by
  unfold Session.run
  induction operations generalizing session with
  | nil => exact h
  | cons operation operations ih =>
      rw [List.foldl_cons]
      refine ih ?_ fun later hlater => hunmarks later (List.mem_cons_of_mem _ hlater)
      unfold Session.after
      cases hperform : session.perform operation with
      | ok next => exact h.perform (hunmarks operation List.mem_cons_self) hperform
      | error reason => exact h

theorem Effect.workbook_eq {operation : Operation} {next : Document} (h : Effect operation d next)
    (hunmarks : operation.unmarks = false) (hmodified : next.modified = false) :
    d.modified = false ∧ next.workbook = { d.workbook with active := next.workbook.active } := by
  obtain ⟨hopens, hsaves⟩ := Bool.or_eq_false_iff.mp hunmarks
  cases h with
  | kept hworkbook hsame => exact ⟨(hsame hsaves).symm.trans hmodified, hworkbook⟩
  | opened hoperation => exact absurd (hopens.symm.trans hoperation) Bool.false_ne_true
  | edited _ _ _ _ _ _ _ _ hmarked | renamedWorkbook _ _ hmarked | renamed _ _ _ _ _ _ hmarked
  | added _ _ _ _ _ hmarked | deleted _ _ _ hmarked =>
      exact absurd (hmodified.symm.trans hmarked) Bool.false_ne_true

/-- While a document is not marked, at most another sheet has been made active. -/
theorem ReachableSince.workbook_eq (h : ReachableSince settings saved d)
    (hmodified : d.modified = false) :
    d.workbook = { saved.workbook with active := d.workbook.active } := by
  induction h with
  | new | ofPath _ | unmarked _ _ _ _ => rfl
  | @perform session next operation saved start hunmarks hperform ih =>
      have hreachable := start.reachable
      have heffect := hreachable.wellFormed.effect_perform hreachable.isSettled hperform
      obtain ⟨hbefore, hnext⟩ := heffect.workbook_eq hunmarks hmodified
      rw [hnext, ih hbefore]

/-- As long as a document is not marked, the text in which its workbook is stored has the same
members as right after it was last saved, opened or new, except the place of the active sheet. -/
theorem ReachableSince.storedText_eq (h : ReachableSince settings saved d)
    (hmodified : d.modified = false) : ∃ members : List (String × Json),
    d.storedText = (Json.ofMembers
      (members ++ [("activeSheetIndex", .ofNat d.workbook.active)])).text ∧
    saved.storedText = (Json.ofMembers
      (members ++ [("activeSheetIndex", .ofNat saved.workbook.active)])).text := by
  refine ⟨[("name", .ofString saved.workbook.name), ("sheets", Json.ofList StoredSheet.toJson
    (saved.workbook.sheets.map StoredSheet.ofSheet))], ?_, rfl⟩
  unfold Document.storedText
  rw [h.workbook_eq hmodified]
  rfl

/-- A stored workbook with two sheets, the second one active. -/
def storedTwoSheets : String :=
  "\x7b\"sheets\":[\x7b\"name\":\"A\",\"columnCount\":4,\"rowCount\":4\x7d," ++
    "\x7b\"name\":\"B\",\"columnCount\":4,\"rowCount\":4\x7d],\"activeSheetIndex\":1\x7d"

/-- Operations that leave nothing to save. Two find nothing to clear, and the last one fails. -/
def nothingToSave : List Operation :=
  [.activate 0, .click ⟨0, 0⟩, .recalculate, .write ⟨3, 3⟩ "\n", .clearContent ⟨2, 2⟩,
    .deleteSheet 7]

theorem storedText_eq_nothingToSave :
    let session := Session.run ⟨.new .standard, .empty⟩ [.write ⟨1, 1⟩ "7"]
    let saved := session.after (.load storedTwoSheets)
    let d := (saved.run nothingToSave).document
    session.document.modified = true ∧ (session.perform (.load storedTwoSheets)).isOk = true ∧
      saved.document.workbook.active = 1 ∧ d.workbook.active = 0 ∧ d.modified = false ∧
      ∃ members : List (String × Json),
        d.storedText = (Json.ofMembers
          (members ++ [("activeSheetIndex", .ofNat d.workbook.active)])).text ∧
        saved.document.storedText = (Json.ofMembers
          (members ++ [("activeSheetIndex", .ofNat saved.document.workbook.active)])).text := by
  intro session saved d
  obtain ⟨hmarked, hload, hsecond, hfirst, hmodified⟩ : session.document.modified = true ∧
      (session.perform (.load storedTwoSheets)).isOk = true ∧
      saved.document.workbook.active = 1 ∧ d.workbook.active = 0 ∧ d.modified = false := by
    decide +kernel
  have hstart : ReachableSince .standard (.new .standard) session.document :=
    ReachableSince.run .new [.write ⟨1, 1⟩ "7"] (by decide)
  have hsince : ReachableSince .standard saved.document d :=
    (hstart.unmarked rfl (Session.perform_eq_ok hload)).run nothingToSave (by decide)
  exact ⟨hmarked, hload, hsecond, hfirst, hmodified, hsince.storedText_eq hmodified⟩

end Document

end Spreadsheet
