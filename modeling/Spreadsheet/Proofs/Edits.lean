import Spreadsheet.Proofs.SettledDocument
import Spreadsheet.Proofs.WellFormed

/-!
What edits do. An edit is refused, or leaves all as it is, or replaces the active sheet by one that
a record leads to and adds this record, whatever has been recorded before.
-/

namespace Spreadsheet

namespace Sheet

variable {settings : Settings} {sheet next : Sheet} {record : Record} {changes : List Change}

/-- Changes of different cells of a sheet, each from what the cell holds to what could have been
entered there. -/
structure ChangesOf (sheet : Sheet) (changes : List Change) : Prop where
  sheet_eq : ∀ change ∈ changes, change.sheet = sheet.id
  contains : ∀ change ∈ changes, sheet.extent.contains change.cell = true
  previous_eq : ∀ change ∈ changes, change.previous = sheet.cells[change.cell]?
  isProper : ∀ change ∈ changes, ∀ cell ∈ change.next, cell.IsProper
  nodup : (changes.map Change.cell).Nodup

theorem changesOf_nil (sheet : Sheet) : sheet.ChangesOf [] := by
  constructor <;> simp

theorem ChangesOf.applied_applied (h : sheet.ChangesOf changes) :
    (sheet.cells.applied .redoing changes).applied .undoing changes = sheet.cells := by
  apply Std.ExtTreeMap.ext_getElem?
  intro p
  by_cases hp : p ∈ changes.map Change.cell
  · obtain ⟨change, hchange, rfl⟩ := List.mem_map.mp hp
    rw [Grid.getElem?_applied_of_mem h.nodup hchange]
    exact h.previous_eq change hchange
  · rw [Grid.getElem?_applied_of_not_mem hp, Grid.getElem?_applied_of_not_mem hp]

theorem ChangesOf.fitsOn (h : sheet.ChangesOf changes) (hproper : sheet.cells.IsProper)
    (hchanges : record.changes = changes) (hrecord : record.sheet = sheet.id)
    (htable : ∀ table ∈ record.inserted?, table.range.IsWithin sheet.extent) :
    record.FitsOn sheet where
  sheet_eq := hrecord
  change_sheet := hchanges ▸ h.sheet_eq
  contains := hchanges ▸ h.contains
  isProper := by
    intro change hchange
    rw [hchanges] at hchange
    refine ⟨?_, h.isProper change hchange⟩
    intro cell hcell
    rw [h.previous_eq change hchange] at hcell
    exact hproper change.cell cell hcell
  nodup := hchanges ▸ h.nodup
  isWithin := htable

/-- A sheet that comes about by what a record says, and that the record leads back from. -/
structure Edited (sheet next : Sheet) (record : Record) : Prop where
  fits : record.FitsOn sheet
  redone : next.Agrees (sheet.applied .redoing record)
  undone : sheet.Agrees (next.applied .undoing record)
  frame : next = { sheet with cells := next.cells, tables := next.tables }
  isProper : next.cells.IsProper
  isSettled : next.IsSettled

theorem Edited.id_eq (h : sheet.Edited next record) : next.id = sheet.id := h.redone.id_eq

theorem Edited.extent_eq (h : sheet.Edited next record) : next.extent = sheet.extent := by
  rw [h.frame]

theorem Edited.wellFormed (h : sheet.Edited next record) (hsheet : sheet.WellFormed settings) :
    next.WellFormed settings := by
  have happlied : (sheet.applied .redoing record).WellFormed settings := hsheet.applied h.fits
  refine hsheet.replace h.frame ?_ h.isProper ?_
  · intro p hp
    exact happlied.contains p (mem_of_entered h.redone.cells_eq hp)
  · intro table htable
    rw [h.redone.tables_eq] at htable
    exact happlied.tables table htable

theorem ChangesOf.edited (h : sheet.ChangesOf changes) (hproper : sheet.cells.IsProper)
    (hchanges : record.changes = changes) (hrecord : record.sheet = sheet.id)
    (htable : record.inserted? = none) :
    sheet.Edited
      (recalculated { sheet with cells := sheet.cells.applied .redoing changes }) record := by
  have hfits : record.FitsOn sheet := h.fitsOn hproper hchanges hrecord (by simp [htable])
  have htables : ∀ direction, tablesAfter direction record sheet.tables = sheet.tables := by
    intro direction
    cases direction <;> simp [tablesAfter, htable]
  have hredone : (recalculated { sheet with
      cells := sheet.cells.applied .redoing changes }).Agrees (sheet.applied .redoing record) := by
    refine (agrees_recalculated _).trans ⟨rfl, ?_, (htables .redoing).symm⟩
    simp only [Sheet.applied, hchanges]
  refine ⟨hfits, hredone, ?_, rfl, ?_, isSettled_recalculation _⟩
  · refine Agrees.trans ?_ (hredone.symm.applied .undoing record)
    refine ⟨rfl, ?_, ?_⟩
    · simp only [Sheet.applied, hchanges, h.applied_applied]
    · simp only [Sheet.applied, htables]
  · exact (hproper.applied (hchanges ▸ hfits.isProper)).recalculate

end Sheet

namespace Record

/-- The record of changes that are not those of a table. -/
def ofChanges : List Change → Record
  | [change] => .single change
  | changes => .batch changes

theorem changes_ofChanges (changes : List Change) : (ofChanges changes).changes = changes := by
  unfold ofChanges
  split <;> rfl

theorem inserted?_ofChanges (changes : List Change) : (ofChanges changes).inserted? = none := by
  unfold ofChanges
  split <;> rfl

theorem sheet_ofChanges {changes : List Change} {id : Nat} (hne : changes ≠ [])
    (hchanges : ∀ change ∈ changes, change.sheet = id) : (ofChanges changes).sheet = id := by
  cases changes with
  | nil => exact absurd rfl hne
  | cons change rest =>
      cases rest with
      | nil => exact hchanges change List.mem_cons_self
      | cons other rest => exact hchanges change List.mem_cons_self

end Record

theorem History.recordBatch_eq (h : History) {changes : List Change} (hne : changes ≠ []) :
    h.recordBatch changes = h.push (.ofChanges changes) := by
  unfold recordBatch Record.ofChanges
  cases changes with
  | nil => exact absurd rfl hne
  | cons change rest => cases rest <;> rfl

namespace Document

variable {settings : Settings} {d : Document} {p : Position} {changes : List Change}
  {f : Document → Except Failure Document}

/-- The document with another history. -/
def withHistory (d : Document) (history : History) : Document := { d with history := history }

@[simp]
theorem activeSheet_withHistory {history : History} :
    (d.withHistory history).activeSheet = d.activeSheet := rfl

@[simp]
theorem selection_withHistory {history : History} :
    (d.withHistory history).selection = d.selection := rfl

/-- The document with another sheet in place of the active one and the record that leads to it. -/
def recorded (d : Document) (sheet : Sheet) (record : Record) : Document :=
  { (d.setActiveSheet sheet).touched with history := d.history.push record }

/-- What an edit makes of a document, whatever its history is. -/
inductive Editing (d : Document) (f : Document → Except Failure Document) : Prop where
  | refused (reason : Failure) (h : ∀ history, f (d.withHistory history) = .error reason)
  | unchanged (h : ∀ history, f (d.withHistory history) = .ok (d.withHistory history))
  | recorded (sheet : Sheet) (record : Record) (hedited : d.activeSheet.Edited sheet record)
      (h : ∀ history,
        f (d.withHistory history) = .ok ((d.withHistory history).recorded sheet record))

theorem editing_commit (hchanges : d.activeSheet.ChangesOf changes)
    (hproper : d.activeSheet.cells.IsProper)
    (hf : ∀ history, f (d.withHistory history) = .ok ((d.withHistory history).commit
      { d.activeSheet with cells := d.activeSheet.cells.applied .redoing changes }
      changes).document) : Editing d f := by
  by_cases hne : changes = []
  · refine .unchanged fun history => ?_
    rw [hf, hne]
    rfl
  · have hrecord := Record.sheet_ofChanges hne hchanges.sheet_eq
    refine .recorded _ (.ofChanges changes) (hchanges.edited hproper
      (Record.changes_ofChanges changes) hrecord (Record.inserted?_ofChanges changes)) ?_
    intro history
    rw [hf]
    unfold Document.commit
    rw [if_neg (by simpa using hne), History.recordBatch_eq _ hne]
    rfl

theorem changesOf_singleton {sheet : Sheet} {next : Option Cell}
    (hp : sheet.extent.contains p = true) (hnext : ∀ cell ∈ next, cell.IsProper) :
    sheet.ChangesOf [⟨sheet.id, p, sheet.cells[p]?, next⟩] := by
  constructor <;> simp_all

theorem editing_write (hproper : d.activeSheet.cells.IsProper) (input : String) :
    Editing d fun d => (d.write p input).map Done.document := by
  by_cases hp : d.activeSheet.extent.contains p = true
  · have hwrite : d.activeSheet.write p input =
        .ok (d.activeSheet.put p (d.activeSheet.entered p input)) := by
      unfold Sheet.write
      rw [Sheet.check_of_contains hp]
      rfl
    have hcell : (d.activeSheet.put p (d.activeSheet.entered p input)).cells[p]? =
        d.activeSheet.entered p input := by
      simp [Sheet.put]
    have hproper' : ∀ cell ∈ d.activeSheet.entered p input, cell.IsProper :=
      fun cell hcell => Cell.isProper_of_ofInput? hcell
    have hrun : ∀ history, ((d.withHistory history).write p input).map Done.document =
        .ok ((d.withHistory history).commit (d.activeSheet.put p (d.activeSheet.entered p input))
          (if d.activeSheet.cells[p]?.isNone && (d.activeSheet.entered p input).isNone then []
            else [⟨d.activeSheet.id, p, d.activeSheet.cells[p]?,
              d.activeSheet.entered p input⟩])).document := by
      intro history
      simp only [Document.write, activeSheet_withHistory, hwrite]
      dsimp only [bind, Except.bind]
      rw [hcell]
      rfl
    by_cases hnone : (d.activeSheet.cells[p]?.isNone &&
        (d.activeSheet.entered p input).isNone) = true
    · simp only [if_pos hnone] at hrun
      exact .unchanged hrun
    · simp only [if_neg hnone] at hrun
      exact editing_commit (changesOf_singleton hp hproper') hproper hrun
  · refine .refused (.outside p d.activeSheet.extent) fun history => ?_
    simp only [Document.write, Sheet.write, activeSheet_withHistory, Sheet.check_of_not_contains hp]
    rfl

theorem editing_writeNamed (hproper : d.activeSheet.cells.IsProper) (name input : String) :
    Editing d fun d => (d.writeNamed name input).map Done.document := by
  cases hname : cellNamed name with
  | error reason =>
      refine .refused reason fun history => ?_
      unfold Document.writeNamed
      rw [hname]
      rfl
  | ok p =>
      have hrun : (fun d : Document => (d.writeNamed name input).map Done.document) =
          fun d => (d.write p input).map Done.document := by
        funext d
        unfold Document.writeNamed
        rw [hname]
        rfl
      rw [hrun]
      exact editing_write hproper input

theorem editing_clearContent (hproper : d.activeSheet.cells.IsProper) (p : Position) :
    Editing d fun d => (d.clearContent p).map Done.document := by
  by_cases hp : d.activeSheet.extent.contains p = true
  · cases hcell : d.activeSheet.cells[p]? with
    | none =>
        refine .unchanged fun history => ?_
        simp only [Document.clearContent, activeSheet_withHistory, Sheet.check_of_contains hp, hcell]
        rfl
    | some previous =>
        by_cases hnext : previous.style.map Cell.ofStyle = some previous
        · refine .unchanged fun history => ?_
          simp only [Document.clearContent, activeSheet_withHistory, Sheet.check_of_contains hp, hcell]
          dsimp only [bind, Except.bind]
          rw [if_pos hnext]
          rfl
        · have hchanges : d.activeSheet.ChangesOf [⟨d.activeSheet.id, p, d.activeSheet.cells[p]?,
              previous.style.map Cell.ofStyle⟩] := by
            refine changesOf_singleton hp ?_
            intro cell hcell
            obtain ⟨style, -, rfl⟩ := Option.map_eq_some_iff.mp hcell
            exact Cell.isProper_ofStyle style
          rw [hcell] at hchanges
          refine editing_commit hchanges hproper fun history => ?_
          simp only [Document.clearContent, activeSheet_withHistory, Sheet.check_of_contains hp, hcell]
          dsimp only [bind, Except.bind]
          rw [if_neg hnext]
          rfl
  · refine .refused (.outside p d.activeSheet.extent) fun history => ?_
    simp only [Document.clearContent, activeSheet_withHistory, Sheet.check_of_not_contains hp]
    rfl

variable {sheet : Sheet} {update : Position → Style → Style}

theorem styleChange?_eq_some {change : Change} (h : styleChange? sheet update p = some change) :
    change.sheet = sheet.id ∧ change.cell = p ∧ sheet.extent.contains p = true ∧
      change.previous = sheet.cells[p]? ∧
      change.next = some { sheet.cells[p]?.getD (Cell.ofStyle {}) with
        style := some (update p ((sheet.cells[p]?.getD (Cell.ofStyle {})).style.getD {})) } := by
  unfold styleChange? at h
  split at h
  · rename_i hp
    dsimp only at h
    split at h
    · cases h
    · obtain rfl := Option.some.inj h
      exact ⟨rfl, rfl, hp, rfl, rfl⟩
  · cases h

theorem changesOf_restyle {cells : List Position} (update : Position → Style → Style)
    (hnodup : cells.Nodup) (hproper : sheet.cells.IsProper) :
    sheet.ChangesOf (restyle sheet cells update).2 := by
  have hmem : ∀ change ∈ (restyle sheet cells update).2,
      styleChange? sheet update change.cell = some change := by
    intro change hchange
    obtain ⟨p, -, hp⟩ := List.mem_filterMap.mp hchange
    rw [(styleChange?_eq_some hp).2.1]
    exact hp
  constructor
  · exact fun change hchange => (styleChange?_eq_some (hmem change hchange)).1
  · exact fun change hchange => (styleChange?_eq_some (hmem change hchange)).2.2.1
  · exact fun change hchange => (styleChange?_eq_some (hmem change hchange)).2.2.2.1
  · intro change hchange cell hcell
    rw [(styleChange?_eq_some (hmem change hchange)).2.2.2.2] at hcell
    obtain rfl := Option.some.inj hcell
    apply Cell.IsProper.restyle
    cases hprevious : sheet.cells[change.cell]? with
    | none => exact Cell.isProper_ofStyle {}
    | some previous => exact hproper change.cell previous hprevious
  · unfold restyle
    dsimp only
    rw [List.Nodup, List.pairwise_map, List.pairwise_filterMap]
    refine hnodup.imp fun {p q} hne => ?_
    intro change hchange other hother heq
    rw [(styleChange?_eq_some hchange).2.1, (styleChange?_eq_some hother).2.1] at heq
    exact hne heq

theorem foldl_put_eq (changes : List Change) :
    changes.foldl (fun sheet change => sheet.put change.cell change.next) sheet =
      { sheet with cells := sheet.cells.applied .redoing changes } := by
  induction changes generalizing sheet with
  | nil => rfl
  | cons change changes ih =>
      rw [List.foldl_cons, ih]
      rfl

theorem restyle_fst {cells : List Position} : (restyle sheet cells update).1 =
    { sheet with cells := sheet.cells.applied .redoing (restyle sheet cells update).2 } :=
  foldl_put_eq _

theorem nodup_selected (d : Document) : d.selection.cells.toList.Nodup :=
  Std.ExtTreeSet.distinct_toList.imp fun hne heq => hne (by simp [heq])

theorem editing_restyleSelection (hproper : d.activeSheet.cells.IsProper)
    (update : Position → Style → Style) :
    Editing d fun d => .ok (d.restyleSelection update).document := by
  refine editing_commit (changesOf_restyle update (nodup_selected d) hproper) hproper ?_
  intro history
  rw [← restyle_fst]
  rfl

theorem foldl_max_lt_iff {ids : List Nat} {start bound : Nat} :
    ids.foldl max start < bound ↔ start < bound ∧ ∀ id ∈ ids, id < bound := by
  induction ids generalizing start with
  | nil => simp
  | cons first ids ih =>
      rw [List.foldl_cons, ih, List.forall_mem_cons, Nat.max_lt, and_assoc]

theorem id_lt_of_nextTableId {id : Nat} {table : Table} (hid : sheet.nextTableId = .ok id)
    (htable : table ∈ sheet.tables) : table.id < id := by
  unfold Sheet.nextTableId at hid
  dsimp only at hid
  split at hid
  · obtain rfl := Except.ok.inj hid
    exact (foldl_max_lt_iff.mp (Nat.lt_succ_self _)).2 table.id (List.mem_map_of_mem htable)
  · cases hid

/-- There is a next number exactly if no table has the last one below the limit. -/
theorem exists_nextTableId_iff : (∃ id, sheet.nextTableId = .ok id) ↔
    ∀ table ∈ sheet.tables, table.id + 1 < Table.idLimit := by
  have hmax : (sheet.tables.map Table.id).foldl max 0 + 1 < Table.idLimit ↔
      ∀ table ∈ sheet.tables, table.id + 1 < Table.idLimit := by
    simp only [← Nat.lt_sub_iff_add_lt]
    rw [foldl_max_lt_iff, List.forall_mem_map]
    exact and_iff_right (by decide)
  unfold Sheet.nextTableId
  dsimp only
  rw [← hmax]
  split <;> simp_all

example : { Sheet.empty 1 "A" ⟨1, 1⟩ with tables := [⟨0, ⟨⟨0, 0⟩, ⟨0, 0⟩⟩, "", "", true⟩,
    ⟨18446744073709551615, ⟨⟨0, 0⟩, ⟨0, 0⟩⟩, "", "", true⟩] }.nextTableId =
      .error (.invalidWorkbook (.tableNumbers "A")) := rfl

theorem isWithin_bounds {selection : Selection} {extent : Extent} {region : Range}
    (hinside : ∀ p ∈ selection.cells, extent.contains p = true)
    (hregion : selection.bounds = some region) : region.IsWithin extent := by
  have hcells : ∀ p ∈ selection.cells.toList, extent.contains p = true :=
    fun p hp => hinside p (Std.ExtTreeSet.mem_toList.mp hp)
  have hbounding := Range.isBounding_of_bounding? hregion
  obtain ⟨bottom, hbottom, hrow⟩ := hbounding.bottom
  obtain ⟨right, hright, hcol⟩ := hbounding.right
  have hheld := Range.contains_iff.mp (hbounding.holds bottom hbottom)
  have hheld' := Range.contains_iff.mp (hbounding.holds right hright)
  have hinside := Extent.contains_iff.mp (hcells bottom hbottom)
  have hinside' := Extent.contains_iff.mp (hcells right hright)
  exact ⟨by omega, by omega, Extent.contains_iff.mpr ⟨by omega, by omega⟩⟩

theorem edited_addTable {changes : List Change} (table : Table) (hproper : sheet.cells.IsProper)
    (hchanges : sheet.ChangesOf changes)
    (hsettled : Sheet.IsSettled { sheet with cells := sheet.cells.applied .redoing changes })
    (hid : sheet.nextTableId = .ok table.id) (hwithin : table.range.IsWithin sheet.extent) :
    sheet.Edited
      (Sheet.addTable { sheet with cells := sheet.cells.applied .redoing changes } table)
      (.table sheet.id table changes) := by
  have hfits : Record.FitsOn (.table sheet.id table changes) sheet :=
    hchanges.fitsOn hproper rfl rfl fun other hother => by
      obtain rfl : table = other := Option.some.inj hother
      exact hwithin
  refine ⟨hfits, ⟨rfl, rfl, rfl⟩, ⟨rfl, ?_, ?_⟩, rfl, ?_, hsettled.congr rfl rfl⟩
  · exact congrArg Grid.entered hchanges.applied_applied.symm
  · have hfresh : ∀ other ∈ sheet.tables, ¬ (other.id == table.id) = true := by
      intro other hother heq
      rw [beq_iff_eq] at heq
      exact Nat.ne_of_lt (id_lt_of_nextTableId hid hother) heq
    change sheet.tables = (sheet.tables ++ [table]).eraseP (·.id == table.id)
    rw [List.eraseP_append_right _ hfresh]
    simp
  · exact hproper.applied hfits.isProper

theorem editing_insertTable (hproper : d.activeSheet.cells.IsProper)
    (hsettled : d.activeSheet.IsSettled)
    (hinside : ∀ p ∈ d.selection.cells, d.activeSheet.extent.contains p = true)
    (style : TableStyle) : Editing d fun d => (d.insertTable style).map Done.document := by
  cases hregion : d.selection.bounds with
  | none =>
      refine .refused .emptySelection fun history => ?_
      simp only [Document.insertTable, selectedRange, selection_withHistory, hregion]
      rfl
  | some region =>
      cases hid : d.activeSheet.nextTableId with
      | error reason =>
          refine .refused reason fun history => ?_
          simp only [Document.insertTable, selectedRange, selection_withHistory, hregion,
            activeSheet_withHistory, hid]
          rfl
      | ok id =>
          let update : Position → Style → Style := fun _ style' =>
            { style' with fill := some style.headerColor, bold := true }
          have hsettled' := isSettled_restyle hsettled (region.rowCells region.topLeft.row) update
          rw [restyle_fst] at hsettled'
          refine .recorded _ _ (edited_addTable
            ⟨id, region, style.headerColor, style.bodyColor, true⟩ hproper
            (changesOf_restyle _ (region.nodup_rowCells region.topLeft.row) hproper) hsettled'
            hid (isWithin_bounds hinside hregion)) ?_
          intro history
          simp only [Document.insertTable, selectedRange, selection_withHistory, hregion,
            activeSheet_withHistory, hid]
          dsimp only [bind, Except.bind, pure, Except.pure, Except.map]
          rw [restyle_fst]
          rfl

theorem editing_insertTableNamed (hproper : d.activeSheet.cells.IsProper)
    (hsettled : d.activeSheet.IsSettled)
    (hinside : ∀ p ∈ d.selection.cells, d.activeSheet.extent.contains p = true)
    (name : String) : Editing d fun d => (d.insertTableNamed name).map Done.document := by
  unfold Document.insertTableNamed
  cases TableStyle.ofName? name with
  | none => exact .refused (.unknownTableStyle name) fun history => rfl
  | some style => exact editing_insertTable hproper hsettled hinside style

theorem editing_applyBorders (hproper : d.activeSheet.cells.IsProper) (preset : BorderPreset) :
    Editing d fun d => (d.applyBorders preset).map Done.document := by
  cases hregion : d.selection.bounds with
  | none =>
      refine .refused .emptySelection fun history => ?_
      simp only [Document.applyBorders, selectedRange, selection_withHistory, hregion]
      rfl
  | some region =>
      have hrun := editing_restyleSelection hproper fun p style =>
        { style with border := (preset.border region p).nonempty? }
      have happly : ∀ history, ((d.withHistory history).applyBorders preset).map Done.document =
          .ok ((d.withHistory history).restyleSelection fun p style =>
            { style with border := (preset.border region p).nonempty? }).document := by
        intro history
        simp only [Document.applyBorders, selectedRange, selection_withHistory, hregion]
        rfl
      cases hrun with
      | refused reason h => cases h d.history
      | unchanged h => exact .unchanged fun history => (happly history).trans (h history)
      | recorded sheet record hedited h =>
          exact .recorded sheet record hedited fun history => (happly history).trans (h history)

theorem enterAll_spec {inputs : List (Position × String)} (hnodup : (inputs.map Prod.fst).Nodup)
    (hinside : ∀ entry ∈ inputs, sheet.extent.contains entry.1 = true) :
    (enterAll sheet inputs).1 = { sheet with
      cells := sheet.cells.applied .redoing (enterAll sheet inputs).2 } ∧
      sheet.ChangesOf (enterAll sheet inputs).2 ∧
      (enterAll sheet inputs).2.map Change.cell = inputs.map Prod.fst := by
  induction inputs generalizing sheet with
  | nil => exact ⟨rfl, sheet.changesOf_nil, rfl⟩
  | cons entry rest ih =>
      obtain ⟨p, input⟩ := entry
      rw [List.map_cons, List.nodup_cons] at hnodup
      obtain ⟨hsheet, hchanges, hcells⟩ := @ih (sheet.put p (sheet.entered p input))
        hnodup.2 fun entry hentry => hinside entry (List.mem_cons_of_mem _ hentry)
      have hne : ∀ change ∈ (enterAll (sheet.put p (sheet.entered p input)) rest).2,
          change.cell ≠ p := by
        rintro change hchange rfl
        exact hnodup.1 (hcells ▸ List.mem_map_of_mem hchange)
      refine ⟨?_, ?_, ?_⟩
      · change (enterAll (sheet.put p (sheet.entered p input)) rest).1 = _
        rw [hsheet]
        rfl
      · constructor
        · rintro change hchange
          rcases List.mem_cons.mp hchange with rfl | hchange
          · rfl
          · exact hchanges.sheet_eq change hchange
        · intro change hchange
          rcases List.mem_cons.mp hchange with rfl | hchange
          · exact hinside (p, input) List.mem_cons_self
          · exact hchanges.contains change hchange
        · intro change hchange
          rcases List.mem_cons.mp hchange with rfl | hchange
          · rfl
          · rw [hchanges.previous_eq change hchange]
            simp [Sheet.put, Std.ExtTreeMap.getElem?_alter, Ne.symm (hne change hchange)]
        · intro change hchange
          rcases List.mem_cons.mp hchange with rfl | hchange
          · exact fun cell hcell => Cell.isProper_of_ofInput? hcell
          · exact hchanges.isProper change hchange
        · change (p :: (enterAll (sheet.put p (sheet.entered p input)) rest).2.map
            Change.cell).Nodup
          rw [hcells, List.nodup_cons]
          exact hnodup
      · change p :: (enterAll (sheet.put p (sheet.entered p input)) rest).2.map Change.cell = _
        rw [hcells]
        rfl

theorem nodup_recordInputs (records : List (List String)) :
    ((recordInputs records).map Prod.fst).Nodup := by
  have hdistinct : ∀ {α : Type} (l : List α), l.zipIdx.Pairwise fun a b => a.2 ≠ b.2 := by
    intro α l
    rw [← List.pairwise_map (f := Prod.snd) (R := (· ≠ ·)), List.zipIdx_map_snd]
    exact List.nodup_range'
  unfold recordInputs
  rw [List.map_flatMap, List.nodup_flatMap]
  constructor
  · rintro ⟨fields, row⟩ -
    rw [List.map_filterMap, List.Nodup, List.pairwise_filterMap]
    refine (hdistinct fields).imp fun {a b} hne p hp q hq heq => hne ?_
    obtain ⟨field, col⟩ := a
    obtain ⟨field', col'⟩ := b
    simp only [Option.map_eq_some_iff, Option.ite_none_left_eq_some, Option.some.injEq] at hp hq
    obtain ⟨-, ⟨-, rfl⟩, rfl⟩ := hp
    obtain ⟨-, ⟨-, rfl⟩, rfl⟩ := hq
    exact congrArg Position.col heq
  · refine (hdistinct records).imp fun {a b} hne => ?_
    obtain ⟨fields, row⟩ := a
    obtain ⟨fields', row'⟩ := b
    intro p hp hq
    simp only [List.mem_map, List.mem_filterMap, Option.ite_none_left_eq_some,
      Option.some.injEq] at hp hq
    obtain ⟨_, ⟨_, _, _, rfl⟩, rfl⟩ := hp
    obtain ⟨_, ⟨_, _, _, rfl⟩, heq⟩ := hq
    exact hne (congrArg Position.row heq).symm

theorem editing_importText (hproper : d.activeSheet.cells.IsProper) (text : String) :
    Editing d fun d => (d.importText text).map Done.document := by
  let inputs := recordInputs (Csv.records text)
  cases houtside : inputs.find? fun entry => !d.activeSheet.extent.contains entry.1 with
  | some entry =>
      refine .refused (.csvOutside (entry.1.row + 1) entry.1 d.activeSheet.extent) fun history => ?_
      simp only [Document.importText, importRecords, activeSheet_withHistory]
      simp only [show recordInputs (Csv.records text) = inputs from rfl, houtside]
      rfl
  | none =>
      by_cases hempty : inputs.isEmpty = true
      · refine .refused .emptyCsv fun history => ?_
        simp only [Document.importText, importRecords, activeSheet_withHistory]
        simp only [show recordInputs (Csv.records text) = inputs from rfl, houtside, if_pos hempty]
        rfl
      · have hinside : ∀ entry ∈ inputs, d.activeSheet.extent.contains entry.1 = true := by
          simpa using List.find?_eq_none.mp houtside
        obtain ⟨hsheet, hchanges, -⟩ :=
          enterAll_spec (nodup_recordInputs (Csv.records text)) hinside
        refine editing_commit hchanges hproper fun history => ?_
        simp only [Document.importText, importRecords, activeSheet_withHistory]
        simp only [show recordInputs (Csv.records text) = inputs from rfl, houtside, if_neg hempty]
        rw [← hsheet]
        rfl

end Document

end Spreadsheet
