import Spreadsheet.Proofs.CsvExchange
import Spreadsheet.Proofs.LoadedCells

namespace Spreadsheet

namespace Document

variable {settings : Settings} {d : Document} {text : String} {result : Done Nat}
  {records : List (List String)} {sheet : Sheet} {p : Position} {field : String}

/-- The field that records have for a cell, unless it is empty. -/
def fieldAt? (records : List (List String)) (p : Position) : Option String :=
  (records[p.row]?.bind fun fields => fields[p.col]?).filter (· ≠ "")

theorem fieldAt?_eq_some_iff :
    fieldAt? records p = some field ↔ (p, field) ∈ recordInputs records := by
  rw [mem_recordInputs, fieldAt?, Option.filter_eq_some_iff, Option.bind_eq_some_iff,
    decide_eq_true_eq, and_comm]

theorem fieldAt?_eq_none_iff :
    fieldAt? records p = none ↔ p ∉ (recordInputs records).map Prod.fst := by
  rw [Option.eq_none_iff_forall_ne_some]
  simp [fieldAt?_eq_some_iff]

theorem map_snd_recordInputs (records : List (List String)) :
    (recordInputs records).map Prod.snd = records.flatten.filter (· ≠ "") := by
  unfold recordInputs
  rw [List.map_flatMap, List.filter_flatten, ← List.flatMap_def]
  conv_rhs => rw [← List.zipIdx_map_fst 0 records, List.flatMap_map]
  congr 1
  funext entry
  obtain ⟨fields, row⟩ := entry
  dsimp only
  rw [List.map_filterMap, ← List.filterMap_eq_filter]
  conv_rhs => rw [← List.zipIdx_map_fst 0 fields, List.filterMap_map]
  congr 1
  funext entry
  obtain ⟨field, col⟩ := entry
  by_cases hfield : field = "" <;> simp [hfield, Option.guard]

/-- A sheet into which records have been entered. Cells without a field are as before up to the
values of formulas. -/
structure Imported (records : List (List String)) (before after : Sheet) : Prop where
  frame : after = { before with cells := after.cells }
  filled : ∀ p field, fieldAt? records p = some field → Text.dropLineEnds field ≠ "" →
    ∃ cell, after.cells[p]? = some cell ∧ cell.input = field ∧ cell.style = before.style? p
  emptied : ∀ p field, fieldAt? records p = some field → Text.dropLineEnds field = "" →
    after.cells[p]? = none
  spared : ∀ p, fieldAt? records p = none →
    after.cells[p]?.map Cell.entered = before.cells[p]?.map Cell.entered

theorem entered_imported (hinside : ∀ entry ∈ recordInputs records,
    sheet.extent.contains entry.1 = true) (p : Position) :
    (sheet.cells.applied .redoing (enterAll sheet (recordInputs records)).2)[p]? =
      match fieldAt? records p with
      | some field => Cell.ofInput? field (sheet.style? p)
      | none => sheet.cells[p]? := by
  have hnodup := nodup_recordInputs records
  obtain ⟨-, hchanges, hcells⟩ := enterAll_spec hnodup hinside
  cases hfield : fieldAt? records p with
  | none =>
      rw [fieldAt?_eq_none_iff, ← hcells] at hfield
      exact Grid.getElem?_applied_of_not_mem hfield
  | some field =>
      have hp : p ∈ (recordInputs records).map Prod.fst :=
        List.mem_map_of_mem (fieldAt?_eq_some_iff.mp hfield)
      rw [← hcells] at hp
      obtain ⟨change, hchange, rfl⟩ := List.mem_map.mp hp
      obtain ⟨input, hinput, hnext⟩ := next_enterAll hnodup hinside change hchange
      rw [← fieldAt?_eq_some_iff, hfield] at hinput
      obtain rfl := Option.some.inj hinput
      rw [Grid.getElem?_applied_of_mem hchanges.nodup hchange]
      exact hnext

theorem imported_enterAll (hinside : ∀ entry ∈ recordInputs records,
    sheet.extent.contains entry.1 = true) :
    Imported records sheet (Sheet.recalculated { sheet with
      cells := sheet.cells.applied .redoing (enterAll sheet (recordInputs records)).2 }) := by
  have hcells := entered_imported hinside
  generalize sheet.cells.applied .redoing (enterAll sheet (recordInputs records)).2 = filled at *
  have hentered : ∀ p, (Sheet.recalculated { sheet with cells := filled }).cells[p]?.map
      Cell.entered = filled[p]?.map Cell.entered :=
    Grid.entered_eq_iff.mp Grid.entered_recalculate
  refine ⟨rfl, ?_, ?_, ?_⟩
  · intro p field hfield hinput
    have hcell := hentered p
    rw [hcells, hfield] at hcell
    dsimp only at hcell
    cases hmade : Cell.ofInput? field (sheet.style? p) with
    | none => exact absurd (Cell.ofInput?_eq_none_iff.mp hmade) hinput
    | some made =>
        obtain ⟨hinput, hstyle, -, -⟩ := Cell.entered_of_ofInput? hmade
        rw [hmade] at hcell
        obtain ⟨cell, hcell, hsame⟩ := Option.map_eq_some_iff.mp hcell
        exact ⟨cell, hcell, (congrArg Cell.input hsame).trans hinput,
          (congrArg Cell.style hsame).trans hstyle⟩
  · intro p field hfield hinput
    have hcell := hentered p
    rw [hcells, hfield] at hcell
    dsimp only at hcell
    rw [Cell.ofInput?_eq_none_iff.mpr hinput] at hcell
    exact Option.map_eq_none_iff.mp hcell
  · intro p hfield
    rw [hentered, hcells, hfield]

theorem exists_recorded_of_importText (hdone : d.importText text = .ok result) :
    ∃ sheet record, Imported (Csv.records text) d.activeSheet sheet ∧
      result.value = (recordInputs (Csv.records text)).length ∧
      record.changes.length = result.value ∧ result.document = d.recorded sheet record := by
  unfold importText importRecords at hdone
  dsimp only at hdone
  split at hdone
  · cases hdone
  · rename_i houtside
    have hinside : ∀ entry ∈ recordInputs (Csv.records text),
        d.activeSheet.extent.contains entry.1 = true := by
      simpa using List.find?_eq_none.mp houtside
    obtain ⟨hsheet, -, hcells⟩ := enterAll_spec (nodup_recordInputs (Csv.records text)) hinside
    have himported := imported_enterAll hinside
    split at hdone
    · cases hdone
    · rename_i hsome
      generalize recordInputs (Csv.records text) = inputs at *
      have hlength : (enterAll d.activeSheet inputs).2.length = inputs.length := by
        rw [← List.length_map Change.cell, hcells, List.length_map]
      have hchanged : (enterAll d.activeSheet inputs).2 ≠ [] := by
        intro hnil
        rw [hnil] at hlength
        exact hsome (List.isEmpty_iff_length_eq_zero.mpr hlength.symm)
      obtain rfl := Except.ok.inj hdone
      refine ⟨_, .ofChanges (enterAll d.activeSheet inputs).2, himported, hlength, ?_, ?_⟩
      · rw [Record.changes_ofChanges]
      · rw [hsheet]
        unfold Document.commit
        rw [if_neg (by simpa using hchanged), History.recordBatch_eq _ hchanged]
        rfl

/-- An import counts the fields that are not empty, enters them, and adds one record of as many
changes. -/
theorem Reachable.importText_imported (h : Reachable settings d)
    (hdone : d.importText text = .ok result) :
    result.value = ((Csv.records text).flatten.filter (· ≠ "")).length ∧
      Imported (Csv.records text) d.activeSheet result.document.activeSheet ∧
      ∃ record, record.changes.length = result.value ∧
        result.document.history = d.history.push record := by
  obtain ⟨sheet, record, himported, hvalue, hlength, hdocument⟩ :=
    exists_recorded_of_importText hdone
  have hactive : result.document.activeSheet = sheet :=
    h.wellFormed.activeSheet_of_workbook (congrArg Document.workbook hdocument)
  refine ⟨?_, hactive ▸ himported, record, hlength, ?_⟩
  · rw [hvalue, ← map_snd_recordInputs, List.length_map]
  · rw [hdocument]
    rfl

/-- A cell with a style, a cell beside it and a formula below that reads the first. -/
def styledTarget : List Operation :=
  [.write ⟨0, 0⟩ "old", .click ⟨0, 0⟩, .toggleStyle .bold, .write ⟨0, 1⟩ "x",
    .write ⟨1, 0⟩ "=A1"]

/-- A number, a field of a line end, an empty field and a field of two lines. -/
def unevenFields : String := "7,\"\n\"\n,\"a\nb\""

theorem importText_imported_unevenFields :
    let d := (Session.run ⟨.new .standard, .empty⟩ styledTarget).document
    Csv.records unevenFields = [["7", "\n"], ["", "a\nb"]] ∧
      ∃ result, d.importText unevenFields = .ok result ∧ result.value = 3 ∧
        Imported (Csv.records unevenFields) d.activeSheet result.document.activeSheet ∧
        ∃ record, record.changes.length = 3 ∧
          result.document.history = d.history.push record := by
  intro d
  have h : Reachable .standard d := reachable_run .new styledTarget
  have hrecords : Csv.records unevenFields = [["7", "\n"], ["", "a\nb"]] := by decide +kernel
  obtain ⟨result, hdone, -⟩ := @exists_importText _ d unevenFields h.wellFormed
    (by decide +kernel) (by decide +kernel)
  obtain ⟨hvalue, himported, record, hlength, hhistory⟩ := h.importText_imported hdone
  have hthree : result.value = 3 := by
    rw [hvalue, hrecords]
    rfl
  exact ⟨hrecords, result, hdone, hthree, himported, record, hlength.trans hthree, hhistory⟩

theorem exists_importText_not_filled :
    let d := (Session.run ⟨.new .standard, .empty⟩ [.write ⟨0, 0⟩ "x"]).document
    Reachable .standard d ∧ d.activeSheet.input ⟨0, 0⟩ = "x" ∧ ∃ result,
      d.importText "\"\n\"" = .ok result ∧ fieldAt? (Csv.records "\"\n\"") ⟨0, 0⟩ = some "\n" ∧
        result.document.activeSheet.cells[(⟨0, 0⟩ : Position)]? = none := by
  intro d
  have h : Reachable .standard d := reachable_run .new _
  obtain ⟨result, hdone, -⟩ := @exists_importText _ d "\"\n\"" h.wellFormed
    (by decide +kernel) (by decide +kernel)
  have hfield : fieldAt? (Csv.records "\"\n\"") ⟨0, 0⟩ = some "\n" := by decide +kernel
  obtain ⟨sheet, record, himported, -, -, hdocument⟩ := exists_recorded_of_importText hdone
  have hactive : result.document.activeSheet = sheet :=
    h.wellFormed.activeSheet_of_workbook (congrArg Document.workbook hdocument)
  refine ⟨h, by decide +kernel, result, hdone, hfield, ?_⟩
  rw [hactive]
  exact himported.emptied ⟨0, 0⟩ "\n" hfield (by decide +kernel)

end Document

end Spreadsheet
