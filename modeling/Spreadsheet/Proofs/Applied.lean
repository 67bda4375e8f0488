import Mathlib.Data.List.Nodup
import Spreadsheet.Proofs.Entered
import Spreadsheet.Proofs.SettledWorkbook

namespace Spreadsheet

open Document (Direction)

namespace Document.Direction

def opposite : Direction → Direction
  | .undoing => .redoing
  | .redoing => .undoing

end Document.Direction

/-- Whether the cells of a change have been made by inputs and styles. -/
structure Change.IsProper (change : Change) : Prop where
  previous : ∀ cell ∈ change.previous, cell.IsProper
  next : ∀ cell ∈ change.next, cell.IsProper

theorem Change.IsProper.outcome {change : Change} (h : change.IsProper) (direction : Direction) :
    ∀ cell ∈ direction.outcome change, cell.IsProper := by
  cases direction with
  | undoing => exact h.previous
  | redoing => exact h.next

namespace Grid

variable {grid other : Grid} {direction : Direction} {changes : List Change} {p : Position}

/-- The grid with what changes leave behind, one after the other. -/
def applied (direction : Direction) (changes : List Change) (grid : Grid) : Grid :=
  changes.foldl (fun grid change => grid.replace change.cell (direction.outcome change)) grid

theorem getElem?_applied_of_not_mem (hp : p ∉ changes.map Change.cell) :
    (grid.applied direction changes)[p]? = grid[p]? := by
  unfold applied
  induction changes generalizing grid with
  | nil => rfl
  | cons change changes ih =>
      rw [List.map_cons, List.mem_cons, not_or] at hp
      rw [List.foldl_cons, ih hp.2, replace, Std.ExtTreeMap.getElem?_alter,
        if_neg (by simpa using Ne.symm hp.1)]

theorem getElem?_applied_of_mem {change : Change} (hnodup : (changes.map Change.cell).Nodup)
    (hchange : change ∈ changes) :
    (grid.applied direction changes)[change.cell]? = direction.outcome change := by
  induction changes generalizing grid with
  | nil => cases hchange
  | cons first changes ih =>
      rw [List.map_cons, List.nodup_cons] at hnodup
      rcases List.mem_cons.mp hchange with rfl | hchange
      · have hrest : (Grid.applied direction changes (grid.replace change.cell
            (direction.outcome change)))[change.cell]? = _ := getElem?_applied_of_not_mem hnodup.1
        refine hrest.trans ?_
        rw [replace, Std.ExtTreeMap.getElem?_alter, if_pos (by simp)]
      · exact ih hnodup.2 hchange

theorem applied_reverse (hnodup : (changes.map Change.cell).Nodup) :
    grid.applied direction changes.reverse = grid.applied direction changes := by
  apply Std.ExtTreeMap.ext_getElem?
  intro p
  by_cases hp : p ∈ changes.map Change.cell
  · obtain ⟨change, hchange, rfl⟩ := List.mem_map.mp hp
    rw [getElem?_applied_of_mem hnodup hchange,
      getElem?_applied_of_mem (by simpa [List.map_reverse] using hnodup)
        (List.mem_reverse.mpr hchange)]
  · rw [getElem?_applied_of_not_mem hp, getElem?_applied_of_not_mem (by simpa using hp)]

theorem applied_order (hnodup : (changes.map Change.cell).Nodup) (grid : Grid) :
    grid.applied direction (direction.order changes) = grid.applied direction changes := by
  cases direction with
  | undoing => exact applied_reverse hnodup
  | redoing => rfl

theorem entered_applied (h : grid.entered = other.entered) :
    (grid.applied direction changes).entered = (other.applied direction changes).entered := by
  unfold applied
  induction changes generalizing grid other with
  | nil => exact h
  | cons change changes ih => exact ih (entered_alter h rfl)

theorem IsProper.applied (h : grid.IsProper) (hchanges : ∀ change ∈ changes, change.IsProper) :
    (grid.applied direction changes).IsProper := by
  unfold Grid.applied
  induction changes generalizing grid with
  | nil => exact h
  | cons change changes ih =>
      refine ih (h.alter ?_) fun other hother => hchanges other (List.mem_cons_of_mem _ hother)
      exact (hchanges change List.mem_cons_self).outcome direction

end Grid

namespace Range

/-- Whether a range has its corners in order and lies on a sheet of a given size. -/
structure IsWithin (range : Range) (extent : Extent) : Prop where
  row_le : range.topLeft.row ≤ range.bottomRight.row
  col_le : range.topLeft.col ≤ range.bottomRight.col
  contains : extent.contains range.bottomRight = true

end Range

namespace Record

/-- The number of the sheet that a record belongs to. -/
def sheet : Record → Nat
  | .single change => change.sheet
  | .batch changes => (changes.head?.map Change.sheet).getD 0
  | .table id _ _ => id

/-- The table that a record puts on its sheet. -/
def inserted? : Record → Option Table
  | .table _ inserted _ => some inserted
  | _ => none

/-- A record of changes of different cells on a given sheet, or of a table there. -/
structure FitsOn (record : Record) (sheet : Sheet) : Prop where
  sheet_eq : record.sheet = sheet.id
  change_sheet : ∀ change ∈ record.changes, change.sheet = sheet.id
  contains : ∀ change ∈ record.changes, sheet.extent.contains change.cell = true
  isProper : ∀ change ∈ record.changes, change.IsProper
  nodup : (record.changes.map Change.cell).Nodup
  isWithin : ∀ table ∈ record.inserted?, table.range.IsWithin sheet.extent

theorem FitsOn.congr {record : Record} {sheet other : Sheet} (h : record.FitsOn sheet)
    (hid : other.id = sheet.id) (hextent : other.extent = sheet.extent) : record.FitsOn other where
  sheet_eq := h.sheet_eq.trans hid.symm
  change_sheet := fun change hchange => (h.change_sheet change hchange).trans hid.symm
  contains := hextent ▸ h.contains
  isProper := h.isProper
  nodup := h.nodup
  isWithin := hextent ▸ h.isWithin

end Record

namespace Sheet

variable {sheet other third : Sheet} {direction : Direction} {record : Record}

/-- Sheets of one number whose cells were entered alike and that have the same tables. -/
structure Agrees (sheet other : Sheet) : Prop where
  id_eq : sheet.id = other.id
  cells_eq : sheet.cells.entered = other.cells.entered
  tables_eq : sheet.tables = other.tables

theorem Agrees.refl (sheet : Sheet) : sheet.Agrees sheet := ⟨rfl, rfl, rfl⟩

theorem Agrees.symm (h : sheet.Agrees other) : other.Agrees sheet :=
  ⟨h.id_eq.symm, h.cells_eq.symm, h.tables_eq.symm⟩

theorem Agrees.trans (h : sheet.Agrees other) (h' : other.Agrees third) : sheet.Agrees third :=
  ⟨h.id_eq.trans h'.id_eq, h.cells_eq.trans h'.cells_eq, h.tables_eq.trans h'.tables_eq⟩

theorem agrees_recalculated (sheet : Sheet) : sheet.recalculated.Agrees sheet :=
  ⟨rfl, Grid.entered_recalculate, rfl⟩

/-- The tables of a sheet when a record has been applied. -/
def tablesAfter (direction : Direction) (record : Record) (tables : List Table) : List Table :=
  match direction, record.inserted? with
  | .undoing, some inserted => tables.eraseP (·.id == inserted.id)
  | .redoing, some inserted => tables ++ [inserted]
  | _, none => tables

/-- The sheet when a record of it has been applied, before it is recalculated. -/
def applied (direction : Direction) (record : Record) (sheet : Sheet) : Sheet :=
  { sheet with
    cells := sheet.cells.applied direction record.changes
    tables := tablesAfter direction record sheet.tables }

theorem Agrees.applied (h : sheet.Agrees other) (direction : Direction) (record : Record) :
    (sheet.applied direction record).Agrees (other.applied direction record) where
  id_eq := h.id_eq
  cells_eq := Grid.entered_applied h.cells_eq
  tables_eq := congrArg (tablesAfter direction record) h.tables_eq

theorem Agrees.eq (h : sheet.Agrees other)
    (hframe : sheet = { other with cells := sheet.cells, tables := sheet.tables })
    (hsettled : sheet.IsSettled) (hsettled' : other.IsSettled) (hproper : sheet.cells.IsProper)
    (hproper' : other.cells.IsProper) : sheet = other := by
  have hextent : sheet.extent = other.extent := by rw [hframe]
  have hcells : sheet.cells = other.cells := by
    unfold IsSettled at hsettled
    rw [hextent] at hsettled
    exact hsettled.eq_of_entered hsettled' hproper hproper' h.cells_eq
  rw [hframe, hcells, h.tables_eq]

end Sheet

namespace Workbook

variable {workbook : Workbook} {sheet : Sheet} {index id : Nat} {update after : Sheet → Sheet}

theorem findId_of_getElem? (hnodup : (workbook.sheets.map Sheet.id).Nodup)
    (hsheet : workbook.sheets[index]? = some sheet) : workbook.findId sheet.id = some index := by
  obtain ⟨hlt, rfl⟩ := List.getElem?_eq_some_iff.mp hsheet
  unfold findId
  rw [List.findIdx?_eq_some_iff_getElem]
  refine ⟨hlt, by simp, fun j hj => ?_⟩
  intro heq
  have hids : (workbook.sheets.map Sheet.id)[j]? = (workbook.sheets.map Sheet.id)[index]? := by
    simpa [hlt, hj.trans hlt] using heq
  exact Nat.ne_of_lt hj ((List.getElem?_inj (by simpa using hj.trans hlt) hnodup).mp hids)

theorem updateId_updateId (hid : ∀ sheet, (update sheet).id = sheet.id) :
    (workbook.updateId id update).updateId id after = workbook.updateId id (after ∘ update) := by
  have hfind : (workbook.updateId id update).findId id = workbook.findId id :=
    findId_updateId hid
  cases h : workbook.findId id with
  | none =>
      rw [h] at hfind
      simp only [updateId, h]
  | some found =>
      rw [h] at hfind
      unfold updateId at hfind ⊢
      simp only [h] at hfind ⊢
      rw [hfind]
      simp [List.modify_modify_eq]

theorem updateId_self : workbook.updateId id (fun sheet => sheet) = workbook := by
  unfold updateId
  split
  · rename_i found hfound
    exact congrArg (fun sheets => { workbook with sheets := sheets }) (List.modify_id found _)
  · rfl

theorem updateId_eq_set (hnodup : (workbook.sheets.map Sheet.id).Nodup)
    (hsheet : workbook.sheets[index]? = some sheet) :
    workbook.updateId sheet.id update =
      { workbook with sheets := workbook.sheets.set index (update sheet) } := by
  unfold updateId
  rw [findId_of_getElem? hnodup hsheet]
  obtain ⟨hlt, rfl⟩ := List.getElem?_eq_some_iff.mp hsheet
  simp [List.modify_eq_set_getElem?, hlt]

theorem sheetById?_of_getElem? (hnodup : (workbook.sheets.map Sheet.id).Nodup)
    (hsheet : workbook.sheets[index]? = some sheet) :
    workbook.sheetById? sheet.id = some sheet := by
  rw [sheetById?_eq, findId_of_getElem? hnodup hsheet, Option.bind_some, hsheet]

end Workbook

namespace Document

variable {workbook : Workbook} {sheet : Sheet} {index id : Nat} {direction : Direction}
  {record : Record} {changes : List Change}

theorem Direction.mem_order {change : Change} :
    change ∈ direction.order changes ↔ change ∈ changes := by
  cases direction with
  | undoing => exact List.mem_reverse
  | redoing => exact Iff.rfl

theorem applyChanges_eq (hchanges : ∀ change ∈ changes, change.sheet = id) :
    applyChanges direction workbook changes = workbook.updateId id fun sheet =>
      { sheet with cells := sheet.cells.applied direction changes } := by
  unfold applyChanges
  induction changes generalizing workbook with
  | nil => exact Workbook.updateId_self.symm
  | cons change changes ih =>
      rw [List.foldl_cons, hchanges change List.mem_cons_self,
        ih fun other hother => hchanges other (List.mem_cons_of_mem _ hother),
        Workbook.updateId_updateId (by intro sheet; rfl)]
      rfl

theorem applyTable_eq : applyTable direction workbook record =
    workbook.updateId record.sheet fun sheet =>
      { sheet with tables := Sheet.tablesAfter direction record sheet.tables } := by
  cases record with
  | single change => cases direction <;> exact Workbook.updateId_self.symm
  | batch changes => cases direction <;> exact Workbook.updateId_self.symm
  | table id inserted changes => cases direction <;> rfl

theorem filter_reaches (hnodup : (workbook.sheets.map Sheet.id).Nodup)
    (hsheet : workbook.sheets[index]? = some sheet) (hfits : record.FitsOn sheet) :
    (direction.order record.changes).filter (reaches workbook) =
      direction.order record.changes := by
  rw [List.filter_eq_self]
  intro change hchange
  rw [Direction.mem_order] at hchange
  unfold reaches
  rw [hfits.change_sheet change hchange, Workbook.sheetById?_of_getElem? hnodup hsheet]
  exact hfits.contains change hchange

theorem recalculated_applied_of_nil (direction : Direction) (hsettled : sheet.IsSettled)
    (hnil : record.changes = []) :
    (sheet.applied direction record).recalculated = sheet.applied direction record := by
  have hcells : (sheet.applied direction record).cells = sheet.cells := by
    simp only [Sheet.applied, hnil]
    rfl
  have hsame : (sheet.applied direction record).IsSettled := hsettled.congr rfl hcells
  exact hsame.recalculated_eq

theorem eraseDups_map_sheet {first : Change} {rest : List Change} {id : Nat}
    (h : ∀ change ∈ first :: rest, change.sheet = id) :
    ((first :: rest).map Change.sheet).eraseDups = [id] := by
  have hrest : (rest.map Change.sheet).filter (fun other => !other == id) = [] := by
    simpa using fun change hchange => h change (List.mem_cons_of_mem _ hchange)
  rw [List.map_cons, h first List.mem_cons_self, List.eraseDups_cons, hrest]
  rfl

/-- A record changes the sheet that it belongs to and leaves all others as they are. -/
theorem applyRecord_eq (direction : Direction) (hnodup : (workbook.sheets.map Sheet.id).Nodup)
    (hsettled : sheet.IsSettled) (hsheet : workbook.sheets[index]? = some sheet)
    (hfits : record.FitsOn sheet) :
    (applyRecord direction workbook record).1 = { workbook with
      sheets := workbook.sheets.set index (sheet.applied direction record).recalculated } := by
  have hchanges : ∀ change ∈ direction.order record.changes, change.sheet = sheet.id :=
    fun change hchange => hfits.change_sheet change (Direction.mem_order.mp hchange)
  have hchanged : applyTable direction
      (applyChanges direction workbook (direction.order record.changes)) record =
        workbook.updateId sheet.id fun sheet => sheet.applied direction record := by
    rw [applyTable_eq, applyChanges_eq hchanges, hfits.sheet_eq,
      Workbook.updateId_updateId (by intro sheet; rfl)]
    congr 1
    funext other
    simp only [Function.comp_apply, Sheet.applied, Grid.applied_order hfits.nodup]
  unfold applyRecord
  dsimp only
  rw [filter_reaches hnodup hsheet hfits, hchanged]
  cases hcases : direction.order record.changes with
  | nil =>
      have hnil : record.changes = [] := by
        cases direction with
        | undoing => exact List.reverse_eq_nil_iff.mp hcases
        | redoing => exact hcases
      rw [recalculated_applied_of_nil direction hsettled hnil]
      exact Workbook.updateId_eq_set hnodup hsheet
  | cons first rest =>
      have hids := eraseDups_map_sheet (hcases ▸ hchanges)
      have hfound : (workbook.updateId sheet.id fun sheet =>
          sheet.applied direction record).sheetById? sheet.id =
            some (sheet.applied direction record) := by
        rw [Workbook.sheetById?_eq, Workbook.findId_updateId (by intro sheet; rfl),
          Workbook.findId_of_getElem? hnodup hsheet, Option.bind_some, Workbook.getElem?_updateId,
          if_pos (Workbook.findId_of_getElem? hnodup hsheet), hsheet, Option.map_some]
      simp only [hids, recalculateSheets, List.foldl_cons, List.foldl_nil, hfound]
      rw [Workbook.updateId_updateId (by intro sheet; rfl), Workbook.updateId_eq_set hnodup hsheet]
      rfl

end Document

end Spreadsheet
