import Spreadsheet.Proofs.Reachable

namespace Spreadsheet

/-- Sheets that come about by edits, with the records of these edits, the latest first. -/
inductive EditedBy (sheets : List Sheet) : List Record → List Sheet → Prop
  | start : EditedBy sheets [] sheets
  | edit {records : List Record} {current : List Sheet} {index : Nat} {sheet next : Sheet}
      {record : Record} (h : EditedBy sheets records current)
      (hsheet : current[index]? = some sheet) (hedited : sheet.Edited next record)
      (hproper : sheet.cells.IsProper) (hsettled : sheet.IsSettled) :
      EditedBy sheets (record :: records) (current.set index next)

theorem EditedBy.trans {sheets current last : List Sheet} {records others : List Record}
    (h : EditedBy sheets records current) (h' : EditedBy current others last) :
    EditedBy sheets (others ++ records) last := by
  induction h' with
  | start => exact h
  | edit _ hsheet hedited hproper hsettled ih => exact ih.edit hsheet hedited hproper hsettled

namespace Sheet

variable {sheet next : Sheet} {record : Record}

end Sheet

namespace Document

variable {settings : Settings} {d : Document} {current : List Sheet} {index : Nat}
  {sheet next : Sheet} {record : Record} {older later : List Record}

end Document

namespace EditedBy

variable {sheets current : List Sheet} {records older later : List Record} {session : Session}

theorem map_id (h : EditedBy sheets records current) :
    current.map Sheet.id = sheets.map Sheet.id := by
  induction h with
  | start => rfl
  | edit _ hsheet hedited _ _ ih => rw [Sheet.map_id_set hsheet hedited.id_eq, ih]

end EditedBy

/-- The history with records added, the latest of which comes first. -/
def History.pushAll (records : List Record) (history : History) : History :=
  records.foldr (fun record history => history.push record) history

theorem History.pushAll_append (records others : List Record) (history : History) :
    history.pushAll (records ++ others) = (history.pushAll others).pushAll records :=
  List.foldr_append

namespace Session

variable {settings : Settings} {session next : Session} {operation : Operation}
  {operations others : List Operation} {finish last : Document} {records more : List Record}

def withHistory (session : Session) (history : History) : Session :=
  { session with document := session.document.withHistory history }

/-- What a run leads to and which records it adds, whatever has been recorded before. -/
structure Traced (session : Session) (operations : List Operation) (finish : Document)
    (records : List Record) : Prop where
  length_le : records.length ≤ operations.length
  edited : EditedBy session.document.workbook.sheets records finish.workbook.sheets
  run_eq : ∀ history, (session.withHistory history).run operations =
    ⟨finish.withHistory (history.pushAll records), session.files⟩

theorem Traced.append (h : session.Traced operations finish records)
    (h' : Traced ⟨finish, session.files⟩ others last more) :
    session.Traced (operations ++ others) last (more ++ records) where
  length_le := by
    have hlength := h.length_le
    have hlength' := h'.length_le
    simp only [List.length_append]
    omega
  edited := h.edited.trans h'.edited
  run_eq := by
    intro history
    rw [History.pushAll_append]
    refine Eq.trans ?_ (h'.run_eq (history.pushAll records))
    unfold Session.run
    rw [List.foldl_append]
    exact congrArg (fun session => List.foldl after session others) (h.run_eq history)

/-- An operation that leaves all sheets as they are and leads to the same document whatever has been
recorded before. -/
def Moves (session : Session) (operation : Operation) : Prop :=
  ∃ finish : Document, finish.workbook.sheets = session.document.workbook.sheets ∧
    ∀ history, (session.withHistory history).after operation =
      ⟨finish.withHistory history, session.files⟩

end Session

end Spreadsheet
