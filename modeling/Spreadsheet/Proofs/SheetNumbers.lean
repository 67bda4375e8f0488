import Mathlib.Data.List.InsertIdx
import Mathlib.Data.List.Nodup
import Spreadsheet.Proofs.SettledWorkbook
import Spreadsheet.Workbook.SheetOperation

namespace Spreadsheet

theorem Sheet.map_id_set {sheets : List Sheet} {sheet next : Sheet} {index : Nat}
    (hsheet : sheets[index]? = some sheet) (hid : next.id = sheet.id) :
    (sheets.set index next).map Sheet.id = sheets.map Sheet.id := by
  rw [List.map_set, hid]
  obtain ⟨hlt, rfl⟩ := List.getElem?_eq_some_iff.mp hsheet
  rw [← List.getElem_map Sheet.id (h := by simpa using hlt), List.set_getElem_self]

namespace Workbook

variable {workbook next : Workbook} {sheet other : Sheet} {operation : SheetOperation}
  {index : Nat}

/-- A workbook with an active sheet, whose sheets have different numbers below the next one. -/
structure Numbered (workbook : Workbook) : Prop where
  active_lt : workbook.active < workbook.sheets.length
  nodup : (workbook.sheets.map Sheet.id).Nodup
  id_lt : ∀ sheet ∈ workbook.sheets, sheet.id < workbook.nextId

theorem Numbered.getElem?_active (h : workbook.Numbered) :
    workbook.sheets[workbook.active]? = some workbook.activeSheet := by
  unfold Workbook.activeSheet
  rw [List.getD_eq_getElem?_getD, List.getElem?_eq_getElem h.active_lt, Option.getD_some]

theorem activeSheet_of_getElem? (h : workbook.sheets[workbook.active]? = some sheet) :
    workbook.activeSheet = sheet := by
  unfold Workbook.activeSheet
  rw [List.getD_eq_getElem?_getD, h, Option.getD_some]

theorem numbered_new (extent : Extent) : (new extent).Numbered where
  active_lt := Nat.zero_lt_one
  nodup := List.nodup_singleton 1
  id_lt := by simp [new, Sheet.empty]

theorem numbered_ofSheets {name : String} {sheets : List Sheet} {active : Nat}
    (h : ofSheets name sheets active = .ok workbook) : workbook.Numbered := by
  unfold ofSheets at h
  split at h
  · cases h
  · split at h
    · rename_i hactive
      obtain rfl := Except.ok.inj h
      refine ⟨by simpa using hactive, ?_, ?_⟩
      · have hids : (sheets.mapIdx fun index sheet => { sheet with id := index + 1 }).map Sheet.id =
            List.range' 1 sheets.length := by
          apply List.ext_getElem <;> simp [Nat.add_comm]
        rw [hids]
        exact List.nodup_range'
      · intro sheet hsheet
        obtain ⟨index, hindex, rfl⟩ := List.mem_mapIdx.mp hsheet
        dsimp only
        omega
    · cases h

/-- An operation keeps some of the numbers, or it gives out the next one. -/
theorem numbers_perform (hnext : workbook.perform operation = .ok next) :
    (next.nextId = workbook.nextId ∧
      (next.sheets.map Sheet.id).Sublist (workbook.sheets.map Sheet.id)) ∨
    (next.nextId = workbook.nextId + 1 ∧
      (next.sheets.map Sheet.id).Perm (workbook.nextId :: workbook.sheets.map Sheet.id)) := by
  cases operation with
  | add name extent =>
      obtain ⟨name, rfl⟩ := addSheet_eq_ok hnext
      refine .inr ⟨rfl, ?_⟩
      rw [List.map_append]
      exact List.perm_append_comm
  | duplicate index =>
      obtain ⟨sheet, hsheet, rfl⟩ := duplicateSheet_eq_ok hnext
      obtain ⟨hindex, -⟩ := List.getElem?_eq_some_iff.mp hsheet
      exact .inr ⟨rfl, (List.perm_insertIdx _ _ hindex).map Sheet.id⟩
  | delete index =>
      obtain ⟨-, -, rfl⟩ := deleteSheet_eq_ok hnext
      exact .inl ⟨rfl, (List.eraseIdx_sublist _ _).map Sheet.id⟩
  | rename index name =>
      obtain ⟨sheet, hsheet, rfl⟩ := renameSheet_eq_ok hnext
      refine .inl ⟨rfl, ?_⟩
      rw [setSheet, Sheet.map_id_set hsheet]
      rfl
  | activate index =>
      obtain ⟨-, rfl⟩ := activate_eq_ok hnext
      exact .inl ⟨rfl, .refl _⟩
  | renameWorkbook name =>
      obtain rfl := Except.ok.inj hnext
      exact .inl ⟨rfl, .refl _⟩

theorem Numbered.nextId_not_mem (h : workbook.Numbered) :
    workbook.nextId ∉ workbook.sheets.map Sheet.id := by
  intro hmem
  obtain ⟨sheet, hsheet, hid⟩ := List.mem_map.mp hmem
  exact Nat.ne_of_lt (h.id_lt sheet hsheet) hid

theorem Numbered.nodup_perform (h : workbook.Numbered)
    (hnext : workbook.perform operation = .ok next) : (next.sheets.map Sheet.id).Nodup := by
  rcases numbers_perform hnext with ⟨-, hkept⟩ | ⟨-, hgiven⟩
  · exact hkept.nodup h.nodup
  · exact hgiven.nodup_iff.mpr (List.nodup_cons.mpr ⟨h.nextId_not_mem, h.nodup⟩)

theorem Numbered.id_lt_perform (h : workbook.Numbered)
    (hnext : workbook.perform operation = .ok next) : ∀ sheet ∈ next.sheets,
      sheet.id < next.nextId := by
  have hlt : ∀ id ∈ workbook.sheets.map Sheet.id, id < workbook.nextId :=
    List.forall_mem_map.mpr h.id_lt
  intro sheet hsheet
  have hid := List.mem_map_of_mem (f := Sheet.id) hsheet
  rcases numbers_perform hnext with ⟨hnextId, hkept⟩ | ⟨hnextId, hgiven⟩
  · rw [hnextId]
    exact hlt _ (hkept.subset hid)
  · rw [hnextId]
    rcases List.mem_cons.mp (hgiven.mem_iff.mp hid) with hid | hid
    · rw [hid]
      exact Nat.lt_succ_self _
    · exact Nat.lt_succ_of_lt (hlt _ hid)

theorem Numbered.active_lt_perform (h : workbook.Numbered)
    (hnext : workbook.perform operation = .ok next) : next.active < next.sheets.length := by
  have hactive := h.active_lt
  cases operation with
  | add name extent =>
      obtain ⟨name, rfl⟩ := addSheet_eq_ok hnext
      simp
  | duplicate index =>
      obtain ⟨sheet, hsheet, rfl⟩ := duplicateSheet_eq_ok hnext
      obtain ⟨hindex, -⟩ := List.getElem?_eq_some_iff.mp hsheet
      dsimp only
      rw [List.length_insertIdx_of_le_length hindex]
      split <;> omega
  | delete index =>
      obtain ⟨hindex, hlast, rfl⟩ := deleteSheet_eq_ok hnext
      dsimp only
      rw [List.length_eraseIdx_of_lt hindex]
      split <;> omega
  | rename index name =>
      obtain ⟨sheet, -, rfl⟩ := renameSheet_eq_ok hnext
      simpa [setSheet] using hactive
  | activate index =>
      obtain ⟨hindex, rfl⟩ := activate_eq_ok hnext
      exact hindex
  | renameWorkbook name =>
      obtain rfl := Except.ok.inj hnext
      exact hactive

theorem Numbered.activeSheet_deleteSheet (h : workbook.Numbered)
    (hdelete : workbook.deleteSheet index = .ok next) (hne : index ≠ workbook.active) :
    next.activeSheet = workbook.activeSheet := by
  apply activeSheet_of_getElem?
  obtain ⟨-, -, rfl⟩ := deleteSheet_eq_ok hdelete
  dsimp only
  rw [List.getElem?_eraseIdx]
  split
  · rename_i hle
    rw [if_neg (by omega), show workbook.active - 1 + 1 = workbook.active by omega]
    exact h.getElem?_active
  · rw [if_pos (by omega)]
    exact h.getElem?_active

theorem Numbered.activeSheet_duplicateSheet (h : workbook.Numbered)
    (hduplicate : workbook.duplicateSheet index = .ok next) :
    next.activeSheet = workbook.activeSheet := by
  apply activeSheet_of_getElem?
  obtain ⟨sheet, -, rfl⟩ := duplicateSheet_eq_ok hduplicate
  dsimp only
  rw [List.getElem?_insertIdx]
  split
  · rw [if_neg (by omega), if_neg (by omega)]
    exact h.getElem?_active
  · rw [if_pos (by omega)]
    exact h.getElem?_active

theorem Numbered.activeSheet_setSheet (h : workbook.Numbered)
    (hsheet : workbook.sheets[index]? = some sheet) (hid : other.id = sheet.id) :
    (workbook.setSheet index other).activeSheet.id = workbook.activeSheet.id := by
  have hids : (workbook.setSheet index other).sheets.map Sheet.id = workbook.sheets.map Sheet.id :=
    Sheet.map_id_set hsheet hid
  have hactive : (workbook.setSheet index other).sheets[workbook.active]?.map Sheet.id =
      some workbook.activeSheet.id := by
    rw [← List.getElem?_map, hids, List.getElem?_map, h.getElem?_active, Option.map_some]
  obtain ⟨found, hfound, hfoundId⟩ := Option.map_eq_some_iff.mp hactive
  rw [activeSheet_of_getElem? hfound, hfoundId]

theorem Numbered.mem_deleteSheet (h : workbook.Numbered) (hsheet : workbook.sheet index = .ok sheet)
    (hdelete : workbook.deleteSheet index = .ok next) :
    other ∈ next.sheets ↔ other ∈ workbook.sheets ∧ other.id ≠ sheet.id := by
  have hfound := getElem?_of_sheet hsheet
  obtain ⟨hlt, -, rfl⟩ := deleteSheet_eq_ok hdelete
  rw [List.mem_eraseIdx_iff_getElem?]
  constructor
  · rintro ⟨place, hne, hplace⟩
    refine ⟨List.mem_of_getElem? hplace, fun hid => hne ?_⟩
    refine ((List.getElem?_inj (by simpa using hlt) h.nodup).mp ?_).symm
    rw [List.getElem?_map, List.getElem?_map, hfound, hplace, Option.map_some, Option.map_some,
      hid]
  · rintro ⟨hother, hid⟩
    obtain ⟨place, hplace⟩ := List.mem_iff_getElem?.mp hother
    refine ⟨place, ?_, hplace⟩
    rintro rfl
    exact hid (congrArg Sheet.id (Option.some.inj (hplace.symm.trans hfound)))

theorem Numbered.perform (h : workbook.Numbered) (hnext : workbook.perform operation = .ok next) :
    next.Numbered := ⟨h.active_lt_perform hnext, h.nodup_perform hnext, h.id_lt_perform hnext⟩

theorem Numbered.after (h : workbook.Numbered) (operation : SheetOperation) :
    (workbook.after operation).Numbered := by
  unfold Workbook.after
  cases hnext : workbook.perform operation with
  | ok next => exact h.perform hnext
  | error reason => exact h

theorem Numbered.run (h : workbook.Numbered) (operations : List SheetOperation) :
    (workbook.run operations).Numbered := by
  induction operations generalizing workbook with
  | nil => exact h
  | cons operation rest ih => exact ih (h.after operation)

/-- A number that was given out and that no sheet has. -/
structure Retired (id : Nat) (workbook : Workbook) : Prop where
  id_lt : id < workbook.nextId
  not_mem : id ∉ workbook.sheets.map Sheet.id

theorem Retired.after {id : Nat} (h : Retired id workbook) (operation : SheetOperation) :
    Retired id (workbook.after operation) := by
  unfold Workbook.after
  cases hnext : workbook.perform operation with
  | error reason => exact h
  | ok next =>
      rcases numbers_perform hnext with ⟨hnextId, hkept⟩ | ⟨hnextId, hgiven⟩
      · exact ⟨hnextId ▸ h.id_lt, fun hmem => h.not_mem (hkept.subset hmem)⟩
      · refine ⟨hnextId ▸ Nat.lt_succ_of_lt h.id_lt, fun hmem => ?_⟩
        rcases List.mem_cons.mp (hgiven.mem_iff.mp hmem) with hid | hmem
        · exact Nat.ne_of_lt h.id_lt hid
        · exact h.not_mem hmem

theorem Retired.run {id : Nat} (h : Retired id workbook) (operations : List SheetOperation) :
    Retired id (workbook.run operations) := by
  induction operations generalizing workbook with
  | nil => exact h
  | cons operation rest ih => exact ih (h.after operation)

theorem Numbered.retired_deleteSheet (h : workbook.Numbered)
    (hsheet : workbook.sheet index = .ok sheet) (hdelete : workbook.deleteSheet index = .ok next) :
    Retired sheet.id next := by
  have hnextId : next.nextId = workbook.nextId := by
    obtain ⟨-, -, rfl⟩ := deleteSheet_eq_ok hdelete
    rfl
  refine ⟨?_, fun hmem => ?_⟩
  · rw [hnextId]
    exact h.id_lt sheet (List.mem_of_getElem? (getElem?_of_sheet hsheet))
  · obtain ⟨other, hother, hid⟩ := List.mem_map.mp hmem
    exact ((h.mem_deleteSheet hsheet hdelete).mp hother).2 hid

theorem Numbered.activeSheet_after_delete (h : workbook.Numbered) (hne : index ≠ workbook.active) :
    (workbook.after (.delete index)).activeSheet = workbook.activeSheet := by
  unfold Workbook.after
  cases hnext : workbook.perform (.delete index) with
  | ok next => exact h.activeSheet_deleteSheet hnext hne
  | error reason => rfl

theorem Numbered.activeSheet_after_duplicate (h : workbook.Numbered) (index : Nat) :
    (workbook.after (.duplicate index)).activeSheet = workbook.activeSheet := by
  unfold Workbook.after
  cases hnext : workbook.perform (.duplicate index) with
  | ok next => exact h.activeSheet_duplicateSheet hnext
  | error reason => rfl

theorem Numbered.activeSheet_after_rename (h : workbook.Numbered) (index : Nat) (name : String) :
    (workbook.after (.rename index name)).activeSheet.id = workbook.activeSheet.id := by
  unfold Workbook.after
  cases hnext : workbook.perform (.rename index name) with
  | ok next =>
      obtain ⟨sheet, hsheet, rfl⟩ := renameSheet_eq_ok hnext
      exact h.activeSheet_setSheet hsheet rfl
  | error reason => rfl

/-- Whatever is done with the sheets of a new or an assembled workbook, one of them is active, their
numbers differ and lie below the next one, a sheet that is taken away takes its number with it, and
copies, names and the end of another sheet do not make another sheet active. -/
theorem sheets_keep_identity {start : Workbook}
    (hstart : (∃ extent, start = new extent) ∨
      ∃ name sheets active, ofSheets name sheets active = .ok start)
    (operations : List SheetOperation) :
    let workbook := start.run operations
    (1 ≤ workbook.sheets.length ∧ workbook.active < workbook.sheets.length ∧
      (workbook.sheets.map Sheet.id).Nodup ∧
      ∀ sheet ∈ workbook.sheets, sheet.id < workbook.nextId) ∧
    (∀ (index : Nat) (sheet : Sheet) (next : Workbook) (later : List SheetOperation),
      workbook.sheet index = .ok sheet → workbook.deleteSheet index = .ok next →
        sheet.id ∉ (next.run later).sheets.map Sheet.id) ∧
    (∀ index, (workbook.after (.duplicate index)).activeSheet.id = workbook.activeSheet.id) ∧
    (∀ index name,
      (workbook.after (.rename index name)).activeSheet.id = workbook.activeSheet.id) ∧
    ∀ index, index ≠ workbook.active →
      (workbook.after (.delete index)).activeSheet.id = workbook.activeSheet.id := by
  intro workbook
  have hnumbered : start.Numbered := by
    rcases hstart with ⟨extent, rfl⟩ | ⟨name, sheets, active, hof⟩
    · exact numbered_new extent
    · exact numbered_ofSheets hof
  have h : workbook.Numbered := hnumbered.run operations
  refine ⟨⟨Nat.one_le_of_lt h.active_lt, h.active_lt, h.nodup, h.id_lt⟩, ?_, ?_, ?_, ?_⟩
  · intro index sheet next later hsheet hdelete
    exact ((h.retired_deleteSheet hsheet hdelete).run later).not_mem
  · exact fun index => congrArg Sheet.id (h.activeSheet_after_duplicate index)
  · exact h.activeSheet_after_rename
  · exact fun index hne => congrArg Sheet.id (h.activeSheet_after_delete hne)

def twins : List Sheet := [Sheet.empty 9 "A" ⟨2, 2⟩, Sheet.empty 9 "B" ⟨3, 3⟩]

/-- Copies that are made and taken away again in front of, at and behind the active sheet, with
failures in between. -/
def shuffled : List SheetOperation :=
  [.duplicate 0, .delete 5, .activate 1, .delete 0, .add (some " ") ⟨2, 2⟩, .add none ⟨2, 2⟩,
    .rename 1 "", .duplicate 2, .activate 0, .delete 0]

theorem sheets_keep_identity_shuffled :
    ∃ start, ofSheets "Twins" twins 1 = .ok start ∧
      let workbook := start.run shuffled
      workbook.sheets.map Sheet.id = [2, 4, 5] ∧ workbook.active = 0 ∧ workbook.nextId = 6 ∧
      (workbook.sheets.map Sheet.id).Nodup ∧
      (workbook.after (.delete 2)).activeSheet.id = workbook.activeSheet.id ∧
      ∃ sheet next, workbook.sheet 1 = .ok sheet ∧ workbook.deleteSheet 1 = .ok next ∧
        sheet.id = 4 ∧ 4 ∉ (next.run [.add none ⟨1, 1⟩, .duplicate 0]).sheets.map Sheet.id := by
  refine ⟨_, rfl, ?_⟩
  intro workbook
  have hids : workbook.sheets.map Sheet.id = [2, 4, 5] := by decide +kernel
  obtain ⟨⟨-, -, hnodup, -⟩, hgone, -, -, hdelete⟩ :=
    sheets_keep_identity (.inr ⟨"Twins", twins, 1, rfl⟩) shuffled
  refine ⟨hids, by decide +kernel, by decide +kernel, hnodup, hdelete 2 (by decide +kernel), ?_⟩
  refine ⟨_, _, rfl, rfl, by decide +kernel, ?_⟩
  exact hgone 1 _ _ _ rfl rfl

end Workbook

end Spreadsheet
