import Spreadsheet.Proofs.Reachable

namespace Spreadsheet

/-- The part of a table on a sheet of the given size. -/
structure Table.IsPart (extent : Extent) (table part : Table) : Prop where
  frame : part = { table with range := part.range }
  mem_cells : ∀ p, p ∈ part.range.cells ↔ p ∈ table.range.cells ∧ extent.contains p = true

namespace Sheet

variable {extent : Extent} {tables : List Table} {table : Table}

theorem any_cells_eq (hrow : table.range.topLeft.row ≤ table.range.bottomRight.row)
    (hcol : table.range.topLeft.col ≤ table.range.bottomRight.col) :
    table.range.cells.any extent.contains = extent.contains table.range.topLeft := by
  rw [Bool.eq_iff_iff, List.any_eq_true]
  constructor
  · rintro ⟨p, hp, hinside⟩
    rw [Range.mem_cells] at hp
    rw [Extent.contains_iff] at hinside ⊢
    omega
  · exact fun htop => ⟨_, Range.mem_cells.mpr ⟨⟨le_rfl, hrow⟩, le_rfl, hcol⟩, htop⟩

theorem forall₂_clip (hordered : ∀ table ∈ tables,
    table.range.topLeft.row ≤ table.range.bottomRight.row ∧
      table.range.topLeft.col ≤ table.range.bottomRight.col) :
    List.Forall₂ (Table.IsPart extent)
      (tables.filter fun table => table.range.cells.any extent.contains)
      (tables.filterMap fun table => table.clip extent) := by
  induction tables with
  | nil => exact .nil
  | cons table tables ih =>
      have hrest := ih fun other hother => hordered other (List.mem_cons_of_mem _ hother)
      obtain ⟨hrow, hcol⟩ := hordered table List.mem_cons_self
      rw [List.filter_cons, any_cells_eq hrow hcol, List.filterMap_cons, Table.clip, Range.clip]
      by_cases htop : extent.contains table.range.topLeft = true
      · rw [if_pos htop, if_pos htop]
        refine .cons ⟨rfl, fun p => ?_⟩ hrest
        rw [Extent.contains_iff] at htop
        rw [Range.mem_cells, Range.mem_cells, Extent.contains_iff]
        dsimp only
        omega
      · rw [if_neg htop, if_neg htop]
        exact hrest

/-- A sheet after a change of its size, in which the cells are as before up to the values of
formulas. -/
structure IsResized (extent : Extent) (before after : Sheet) : Prop where
  id_eq : after.id = before.id
  name_eq : after.name = before.name
  extent_eq : after.extent = extent
  cells : ∀ p : Position, after.cells[p]?.map Cell.entered =
    if p.col < extent.columns ∧ p.row < extent.rows then before.cells[p]?.map Cell.entered else none
  columnWidths : ∀ col : Nat, after.columnWidths[col]? =
    if col < extent.columns then before.columnWidths[col]? else none
  rowHeights : ∀ row : Nat, after.rowHeights[row]? =
    if row < extent.rows then before.rowHeights[row]? else none
  columnFilters : ∀ col : Nat, after.columnFilters[col]? =
    if col < extent.columns then before.columnFilters[col]? else none
  tables : List.Forall₂ (Table.IsPart extent)
    (before.tables.filter fun table => table.range.cells.any extent.contains) after.tables

theorem isResized_recalculated {settings : Settings} {sheet : Sheet} (h : sheet.WellFormed settings)
    (extent : Extent) :
    IsResized extent.raised sheet (sheet.resize extent).recalculated where
  id_eq := rfl
  name_eq := rfl
  extent_eq := rfl
  cells := by
    intro p
    have hentered : (sheet.resize extent).recalculated.cells[p]?.map Cell.entered =
        (sheet.resize extent).cells[p]?.map Cell.entered :=
      Grid.entered_eq_iff.mp Grid.entered_recalculate p
    have hfilter := SortedMap.getElem?_filter_key sheet.cells extent.raised.contains p
    rw [hentered, Sheet.resize, hfilter, apply_ite (Option.map Cell.entered), Option.map_none]
    simp only [Extent.contains_iff]
  columnWidths := SortedMap.getElem?_filter_lt sheet.columnWidths extent.raised.columns
  rowHeights := SortedMap.getElem?_filter_lt sheet.rowHeights extent.raised.rows
  columnFilters := SortedMap.getElem?_filter_lt sheet.columnFilters extent.raised.columns
  tables := forall₂_clip fun table htable =>
    ⟨(h.tables table htable).row_le, (h.tables table htable).col_le⟩

end Sheet

namespace Record

variable {record kept : Record} {keep : Nat → Position → Bool} {sheet : Sheet} {id : Nat}
  {p : Position}

/-- The places that a record refers to: those of its changes and those of its table. -/
def places (record : Record) : List (Nat × Position) :=
  record.changes.map (fun change => (change.sheet, change.cell)) ++
    record.inserted?.toList.flatMap fun table => table.range.cells.map fun p => (record.sheet, p)

theorem mem_places : (id, p) ∈ record.places ↔
    (∃ change ∈ record.changes, change.sheet = id ∧ change.cell = p) ∨
      ∃ table ∈ record.inserted?, record.sheet = id ∧ p ∈ table.range.cells := by
  simp [places, and_comm]

/-- Whether a record refers to a place that is not on a sheet. -/
def isElsewhere (id : Nat) (record : Record) : Bool := record.places.any (·.1 != id)

theorem FitsOn.eq_of_mem_places (h : record.FitsOn sheet) (hplace : (id, p) ∈ record.places) :
    id = sheet.id := by
  rcases mem_places.mp hplace with ⟨change, hchange, rfl, -⟩ | ⟨table, -, rfl, -⟩
  · exact h.change_sheet change hchange
  · exact h.sheet_eq

/-- With the last cell of a range all of it is kept. -/
def KeepsRanges (keep : Nat → Position → Bool) : Prop :=
  ∀ id (range : Range), keep id range.bottomRight = true → ∀ p ∈ range.cells, keep id p = true

theorem keep_of_mem_places (hranges : KeepsRanges keep) (hkept : record.retain? keep = some kept)
    (hplace : (id, p) ∈ kept.places) : (id, p) ∈ record.places ∧ keep id p = true := by
  obtain ⟨hchanges, hinserted, htable⟩ := retain?_eq_some hkept
  rcases mem_places.mp hplace with ⟨change, hchange, rfl, rfl⟩ | ⟨table, hmem, rfl, hp⟩
  · rw [hchanges, List.mem_filter] at hchange
    exact ⟨mem_places.mpr (.inl ⟨change, hchange.1, rfl, rfl⟩), hchange.2⟩
  · rw [hinserted] at hmem
    obtain ⟨-, hbottom, rfl⟩ := htable table hmem
    exact ⟨hplace, hranges _ _ hbottom p hp⟩

theorem FitsOn.retain?_eq_self (h : record.FitsOn sheet) (hplace : (id, p) ∈ record.places)
    (hkeep : ∀ id p, (id, p) ∈ record.places → keep id p = true) :
    record.retain? keep = some record := by
  have hchanges : ∀ change ∈ record.changes, keep change.sheet change.cell = true :=
    fun change hchange => hkeep _ _ (mem_places.mpr (.inl ⟨change, hchange, rfl, rfl⟩))
  cases record with
  | single change => exact if_pos (hchanges change List.mem_cons_self)
  | batch changes =>
      have hall : changes.filter (fun change => keep change.sheet change.cell) = changes :=
        List.filter_eq_self.mpr hchanges
      have hne : changes ≠ [] := by
        rintro rfl
        cases hplace
      simp [Record.retain?, hall, hne]
  | table owner inserted changes =>
      obtain ⟨hrow, hcol, -⟩ := h.isWithin inserted rfl
      have hcorner : ∀ q ∈ inserted.range.cells, keep owner q = true :=
        fun q hq => hkeep _ _ (mem_places.mpr (.inr ⟨inserted, rfl, rfl, hq⟩))
      have htop := hcorner _ (Range.mem_cells.mpr ⟨⟨le_rfl, hrow⟩, le_rfl, hcol⟩)
      have hbottom := hcorner _ (Range.mem_cells.mpr ⟨⟨hrow, le_rfl⟩, hcol, le_rfl⟩)
      have hall : changes.all (fun change => keep change.sheet change.cell) = true :=
        List.all_eq_true.mpr hchanges
      rw [Record.retain?, htop, hbottom, hall]
      rfl

end Record

namespace History

variable {h : History} {keep : Nat → Position → Bool} {id : Nat}

/-- A history in which a sheet is referred to only at places that are kept, while the records of
other sheets are there as before. -/
structure IsPruned (id : Nat) (kept : Position → Prop) (before after : History) : Prop where
  kept : ∀ record ∈ after.undoable ++ after.redoable, ∀ p, (id, p) ∈ record.places → kept p
  undoable : after.undoable.filter (Record.isElsewhere id) =
    before.undoable.filter (Record.isElsewhere id)
  redoable : after.redoable.filter (Record.isElsewhere id) =
    before.redoable.filter (Record.isElsewhere id)

theorem filter_retain? {records : List Record} (hranges : Record.KeepsRanges keep)
    (hothers : ∀ other p, other ≠ id → keep other p = true)
    (hfits : ∀ record ∈ records, ∃ sheet, record.FitsOn sheet) :
    (records.filterMap (Record.retain? keep)).filter (Record.isElsewhere id) =
      records.filter (Record.isElsewhere id) := by
  induction records with
  | nil => rfl
  | cons record records ih =>
      have hrest := ih fun other hother => hfits other (List.mem_cons_of_mem _ hother)
      cases helsewhere : record.isElsewhere id with
      | true =>
          obtain ⟨sheet, hsheet⟩ := hfits record List.mem_cons_self
          obtain ⟨⟨other, p⟩, hplace, hne⟩ := List.any_eq_true.mp helsewhere
          have hself : record.retain? keep = some record := by
            refine hsheet.retain?_eq_self hplace fun owner q hq => hothers owner q ?_
            rw [hsheet.eq_of_mem_places hq, ← hsheet.eq_of_mem_places hplace]
            simpa using hne
          rw [List.filterMap_cons_some hself, List.filter_cons_of_pos helsewhere,
            List.filter_cons_of_pos helsewhere, hrest]
      | false =>
          rw [List.filter_cons_of_neg (by simp [helsewhere])]
          cases hretain : record.retain? keep with
          | none => rw [List.filterMap_cons_none hretain, hrest]
          | some kept =>
              have hkept : kept.isElsewhere id ≠ true := by
                intro hkept
                obtain ⟨⟨other, p⟩, hplace, hne⟩ := List.any_eq_true.mp hkept
                have hmem := (Record.keep_of_mem_places hranges hretain hplace).1
                rw [Record.isElsewhere, List.any_eq_false] at helsewhere
                exact helsewhere _ hmem hne
              rw [List.filterMap_cons_some hretain, List.filter_cons_of_neg hkept, hrest]

theorem isPruned_retain (hranges : Record.KeepsRanges keep)
    (hothers : ∀ other p, other ≠ id → keep other p = true)
    (hfits : ∀ record ∈ h.undoable ++ h.redoable, ∃ sheet, record.FitsOn sheet) :
    IsPruned id (fun p => keep id p = true) h (h.retain keep) where
  kept := by
    intro record hrecord p hplace
    dsimp only [retain] at hrecord
    rw [← List.filterMap_append] at hrecord
    obtain ⟨before, -, hretain⟩ := List.mem_filterMap.mp hrecord
    exact (Record.keep_of_mem_places hranges hretain hplace).2
  undoable := filter_retain? hranges hothers fun record hrecord =>
    hfits record (List.mem_append_left _ hrecord)
  redoable := filter_retain? hranges hothers fun record hrecord =>
    hfits record (List.mem_append_right _ hrecord)

theorem isPruned_dropSheet (id : Nat)
    (hfits : ∀ record ∈ h.undoable ++ h.redoable, ∃ sheet, record.FitsOn sheet) :
    IsPruned id (fun _ => False) h (h.dropSheet id) := by
  have hpruned : IsPruned id (fun p => elsewhere id id p = true) h (h.dropSheet id) :=
    isPruned_retain (fun _ _ hbottom _ _ => hbottom) (fun _ _ hne => by simpa [elsewhere]) hfits
  refine ⟨fun record hrecord p hplace => ?_, hpruned.undoable, hpruned.redoable⟩
  simpa [elsewhere] using hpruned.kept record hrecord p hplace

theorem isPruned_dropOutside (id : Nat) (extent : Extent)
    (hfits : ∀ record ∈ h.undoable ++ h.redoable, ∃ sheet, record.FitsOn sheet) :
    IsPruned id (fun p => p.col < extent.columns ∧ p.row < extent.rows) h
      (h.dropOutside id extent) := by
  have hranges : Record.KeepsRanges (elsewhereOrInside id extent) := by
    intro other range hbottom p hp
    rw [Range.mem_cells] at hp
    simp only [elsewhereOrInside, Bool.or_eq_true, Extent.contains_iff] at hbottom ⊢
    exact hbottom.imp_right fun hbottom => by omega
  have hpruned : IsPruned id (fun p => elsewhereOrInside id extent id p = true) h
      (h.dropOutside id extent) :=
    isPruned_retain hranges (fun _ _ hne => by simp [elsewhereOrInside, hne]) hfits
  refine ⟨fun record hrecord p hplace => ?_, hpruned.undoable, hpruned.redoable⟩
  simpa [elsewhereOrInside, Extent.contains_iff] using hpruned.kept record hrecord p hplace

end History

namespace Document

variable {settings : Settings} {d : Document} {extent : Extent} {result : Done (List Position)}

/-- Answers a question and notes it behind the earlier ones. -/
def noting (confirm : List Position → Bool) (lost : List Position) :
    StateM (List (List Position)) Bool := do
  modify (· ++ [lost])
  return confirm lost

theorem run_resizeAsking_noting (confirm : List Position → Bool)
    (hallowed : d.settings.allows extent.columns extent.rows = true) :
    (d.resizeAsking extent (noting confirm)).run [] = (d.resize extent confirm,
      if d.activeSheet.outside extent = [] then [] else [d.activeSheet.outside extent]) := by
  rw [resize_eq]
  unfold resizeAsking
  dsimp only
  rw [if_pos hallowed, if_pos hallowed]
  cases d.activeSheet.outside extent <;> rfl

theorem mem_outside {sheet : Sheet} {p : Position} : p ∈ sheet.outside extent ↔
    p ∈ sheet.cells ∧ ¬ (p.col < extent.columns ∧ p.row < extent.rows) := by
  have hcontains := @Extent.contains_iff extent p
  rw [← hcontains, Bool.not_eq_true]
  simp [Sheet.outside]

theorem pairwise_outside (sheet : Sheet) (extent : Extent) :
    (sheet.outside extent).Pairwise (· < ·) :=
  Std.ExtTreeMap.ordered_keys.filter _

/-- A document after a change of the size of its active sheet, in which some cells have been lost.
With these the history of the sheet is gone. -/
structure IsResized (extent : Extent) (lost : List Position) (before after : Document) : Prop where
  workbook : after.workbook = before.workbook.setActiveSheet after.activeSheet
  activeSheet : Sheet.IsResized extent before.activeSheet after.activeSheet
  history : History.IsPruned before.activeSheet.id
    (fun p => lost = [] ∧ p.col < extent.columns ∧ p.row < extent.rows) before.history after.history

theorem WellFormed.isPruned_resize (h : d.WellFormed settings)
    (hextent : (d.activeSheet.resize extent).extent = extent) (lost : List Position) :
    History.IsPruned d.activeSheet.id
      (fun p => lost = [] ∧ p.col < extent.columns ∧ p.row < extent.rows) d.history
      (if lost.isEmpty then
        d.history.dropOutside d.activeSheet.id (d.activeSheet.resize extent).extent
      else d.history.dropSheet d.activeSheet.id) := by
  have hfits : ∀ record ∈ d.history.undoable ++ d.history.redoable,
      ∃ sheet, record.FitsOn sheet := by
    intro record hrecord
    obtain ⟨sheet, -, hsheet⟩ := h.records record hrecord
    exact ⟨sheet, hsheet⟩
  rw [hextent]
  cases lost with
  | nil => simpa using History.isPruned_dropOutside d.activeSheet.id extent hfits
  | cons p rest => simpa using History.isPruned_dropSheet d.activeSheet.id hfits

theorem WellFormed.exists_isResized (h : d.WellFormed settings)
    {confirm : List Position → Bool}
    (hallowed : settings.allows extent.columns extent.rows = true)
    (hconfirm : d.activeSheet.outside extent = [] ∨
      confirm (d.activeSheet.outside extent) = true) :
    ∃ result, d.resize extent confirm = .ok result ∧
      result.value = d.activeSheet.outside extent ∧
        IsResized extent (d.activeSheet.outside extent) d result.document := by
  have hextent : (d.activeSheet.resize extent).extent = extent := by
    simp only [Settings.allows, Bool.and_eq_true, decide_eq_true_eq] at hallowed
    simp [Sheet.resize, Extent.raised, Nat.max_eq_left hallowed.1.1.1,
      Nat.max_eq_left hallowed.1.2]
  have hgoes : ((d.activeSheet.outside extent).isEmpty ||
      confirm (d.activeSheet.outside extent)) = true := by
    rw [Bool.or_eq_true, List.isEmpty_iff]
    exact hconfirm
  have hactive := h.activeSheet_setActiveSheet (d.activeSheet.resize extent).recalculated
  have hsheet : Sheet.IsResized extent d.activeSheet
      (d.setActiveSheet (d.activeSheet.resize extent).recalculated).activeSheet := by
    have hresized := Sheet.isResized_recalculated h.activeSheet extent
    rwa [show extent.raised = extent from hextent, ← hactive] at hresized
  have hhistory := h.isPruned_resize hextent (d.activeSheet.outside extent)
  rw [resize_eq, if_pos (h.settings_eq ▸ hallowed), if_pos hgoes]
  exact ⟨_, rfl, rfl, congrArg d.workbook.setActiveSheet hactive.symm, hsheet, hhistory⟩

/-- A change of size to an allowed one asks once about the cells that would be lost, if there are
any, and where it goes ahead just these cells are lost. -/
theorem Reachable.isResized_resizeAsking (h : Reachable settings d)
    (hallowed : settings.allows extent.columns extent.rows = true)
    (confirm : List Position → Bool) : ∃ lost : List Position,
      (∀ p, p ∈ lost ↔
        p ∈ d.activeSheet.cells ∧ ¬ (p.col < extent.columns ∧ p.row < extent.rows)) ∧
      lost.Pairwise (· < ·) ∧
      let (outcome, asked) := (d.resizeAsking extent (noting confirm)).run []
      outcome = d.resize extent confirm ∧ asked = (if lost = [] then [] else [lost]) ∧
        if lost = [] ∨ confirm lost = true then
          ∃ result, outcome = .ok result ∧ result.value = lost ∧
            IsResized extent lost d result.document
        else outcome = .error .resizeDeclined := by
  refine ⟨d.activeSheet.outside extent, fun p => mem_outside, pairwise_outside _ _, ?_⟩
  have hd := h.wellFormed
  rw [run_resizeAsking_noting confirm (hd.settings_eq ▸ hallowed)]
  refine ⟨rfl, rfl, ?_⟩
  split
  · rename_i hconfirm
    exact hd.exists_isResized hallowed hconfirm
  · rename_i hconfirm
    rw [not_or] at hconfirm
    rw [resize_eq, if_pos (hd.settings_eq ▸ hallowed), if_neg (by simpa using hconfirm)]

/-- A table, a filter and a formula with the cell that it reads, and a text on a second sheet. -/
def tallSheet : List Operation :=
  [.click ⟨1, 1⟩, .extendSelection ⟨6, 6⟩, .insertTable "Blue",
    .setColumnFilter 5 (Std.ExtTreeSet.ofList ["x"]), .write ⟨5, 0⟩ "2", .write ⟨0, 0⟩ "=A6",
    .addSheet none, .write ⟨8, 8⟩ "y", .activate 0]

theorem isResized_resizeAsking_tallSheet :
    let d := (Session.run ⟨.new .standard, .empty⟩ tallSheet).document
    Settings.standard.allows 4 4 = true ∧ ∃ lost : List Position, ⟨5, 0⟩ ∈ lost ∧
      let (outcome, asked) := (d.resizeAsking ⟨4, 4⟩ (noting fun _ => true)).run []
      asked = [lost] ∧ ∃ result, outcome = .ok result ∧ result.value = lost ∧
        IsResized ⟨4, 4⟩ lost d result.document := by
  intro d
  have h : Reachable .standard d := reachable_run .new tallSheet
  have hcell : ⟨5, 0⟩ ∈ d.activeSheet.cells := by decide +kernel
  have hallowed : Settings.standard.allows 4 4 = true := by decide
  clear_value d
  obtain ⟨lost, hlost, -, -, hasked, houtcome⟩ :=
    @Reachable.isResized_resizeAsking _ d ⟨4, 4⟩ h hallowed fun _ => true
  have hmem : ⟨5, 0⟩ ∈ lost := (hlost ⟨5, 0⟩).mpr ⟨hcell, by decide⟩
  rw [if_neg (List.ne_nil_of_mem hmem)] at hasked
  rw [if_pos (.inr rfl)] at houtcome
  exact ⟨hallowed, lost, hmem, hasked, houtcome⟩

end Document

end Spreadsheet
