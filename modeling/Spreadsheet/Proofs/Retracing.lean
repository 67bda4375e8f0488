import Spreadsheet.Proofs.Reachable

/-!
Undoing and redoing as inverses. A record leads back and forth between two sheets as long as the
sheet is as the record left it. The records of a sheet form a chain in which each one finds what the
next one leaves behind; a resize that forgets how a table was made while it keeps other records of
the sheet can break this chain, and nothing else does.
-/

namespace Spreadsheet

open Document (Direction)

section Tables

variable {tables : List Table} {table other : Table} {count : Nat} {clip : Table → Option Table}

/-- The tables end with some copies of one table, and no other table has its number. -/
def EndsWith (tables : List Table) (table : Table) (count : Nat) : Prop :=
  ∃ others : List Table, (∀ other ∈ others, other.id ≠ table.id) ∧
    tables = others ++ List.replicate count table

theorem EndsWith.cons (h : EndsWith tables table count) (hid : other.id ≠ table.id) :
    EndsWith (other :: tables) table count := by
  obtain ⟨others, hothers, rfl⟩ := h
  exact ⟨other :: others, by simpa [hid] using hothers, rfl⟩

theorem EndsWith.append (h : EndsWith tables table count) :
    EndsWith (tables ++ [table]) table (count + 1) := by
  obtain ⟨others, hothers, rfl⟩ := h
  exact ⟨others, hothers, by rw [List.append_assoc, ← List.replicate_succ']⟩

theorem EndsWith.eraseP_eq (h : EndsWith tables table (count + 1)) :
    tables.eraseP (·.id == table.id) ++ [table] = tables ∧
      EndsWith (tables.eraseP (·.id == table.id)) table count := by
  obtain ⟨others, hothers, rfl⟩ := h
  have herase : (others ++ List.replicate (count + 1) table).eraseP (·.id == table.id) =
      others ++ List.replicate count table := by
    rw [List.eraseP_append_right _ (by simpa using hothers), List.replicate_succ]
    simp
  rw [herase]
  exact ⟨by rw [List.append_assoc, ← List.replicate_succ'], others, hothers, rfl⟩

theorem EndsWith.filterMap (h : EndsWith tables table count) (hclip : clip table = some table)
    (hid : ∀ t t', clip t = some t' → t'.id = t.id) :
    EndsWith (tables.filterMap clip) table count := by
  obtain ⟨others, hothers, rfl⟩ := h
  refine ⟨others.filterMap clip, ?_, ?_⟩
  · intro other hother
    obtain ⟨before, hbefore, hclipped⟩ := List.mem_filterMap.mp hother
    rw [hid before other hclipped]
    exact hothers before hbefore
  · rw [List.filterMap_append]
    simp [hclip]

theorem endsWith_of_append_eq_cons (h : tables ++ [table] = other :: tables) :
    EndsWith (other :: tables) table (tables.length + 1) := by
  refine ⟨[], by simp, ?_⟩
  rw [List.nil_append]
  induction tables generalizing other with
  | nil =>
      rw [(List.cons.inj h).1]
      rfl
  | cons first tables ih =>
      obtain ⟨hfirst, hrest⟩ := List.cons.inj h
      have hcopies : first :: tables = List.replicate (tables.length + 1) table := ih hrest
      have htable : first = table := by
        rw [List.replicate_succ] at hcopies
        exact (List.cons.inj hcopies).1
      rw [← hfirst, List.length_cons, List.replicate_succ, ← hcopies, htable]

theorem eraseP_append_eq_iff : tables.eraseP (·.id == table.id) ++ [table] = tables ↔
    ∃ count, EndsWith tables table (count + 1) := by
  refine ⟨fun h => ?_, fun ⟨count, h⟩ => h.eraseP_eq.1⟩
  induction tables with
  | nil => cases h
  | cons first tables ih =>
      by_cases hid : first.id = table.id
      · rw [List.eraseP_cons_of_pos (by simpa using hid)] at h
        exact ⟨_, endsWith_of_append_eq_cons h⟩
      · rw [List.eraseP_cons_of_neg (by simpa using hid)] at h
        obtain ⟨count, hends⟩ := ih (List.cons.inj h).2
        exact ⟨count, hends.cons hid⟩

theorem append_eraseP_eq_iff : (tables ++ [table]).eraseP (·.id == table.id) = tables ↔
    ∃ count, EndsWith tables table count := by
  constructor
  · intro h
    induction tables with
    | nil => exact ⟨0, [], by simp, rfl⟩
    | cons first tables ih =>
        rw [List.cons_append] at h
        by_cases hid : first.id = table.id
        · rw [List.eraseP_cons_of_pos (by simpa using hid)] at h
          exact ⟨_, endsWith_of_append_eq_cons h⟩
        · rw [List.eraseP_cons_of_neg (by simpa using hid)] at h
          obtain ⟨count, hends⟩ := ih (List.cons.inj h).2
          exact ⟨count, hends.cons hid⟩
  · rintro ⟨count, h⟩
    exact List.append_cancel_right h.append.eraseP_eq.1

end Tables

namespace Sheet

variable {sheet other next : Sheet} {direction : Direction} {record : Record}
  {records : List Record}

/-- The sheet is as a record leaves it when it is applied in the other direction. -/
structure Awaits (sheet : Sheet) (direction : Direction) (record : Record) : Prop where
  cells : ∀ change ∈ record.changes, sheet.cells[change.cell]?.map Cell.entered =
    (direction.opposite.outcome change).map Cell.entered
  tables : ∀ table ∈ record.inserted?, ∃ count, (direction = .undoing → 0 < count) ∧
    EndsWith sheet.tables table count

theorem tablesAfter_tablesAfter_iff {tables : List Table} :
    tablesAfter direction.opposite record (tablesAfter direction record tables) = tables ↔
      ∀ table ∈ record.inserted?, ∃ count, (direction = .undoing → 0 < count) ∧
        EndsWith tables table count := by
  cases hinserted : record.inserted? with
  | none => cases direction <;> simp [tablesAfter, hinserted]
  | some table =>
      cases direction with
      | undoing =>
          simp only [tablesAfter, hinserted, Direction.opposite, Option.mem_def,
            Option.some.injEq, forall_eq', forall_const]
          rw [eraseP_append_eq_iff]
          constructor
          · rintro ⟨count, h⟩
            exact ⟨count + 1, Nat.succ_pos _, h⟩
          · rintro ⟨count, hpos, h⟩
            obtain ⟨count, rfl⟩ := Nat.exists_eq_succ_of_ne_zero (Nat.ne_of_gt hpos)
            exact ⟨count, h⟩
      | redoing =>
          simp only [tablesAfter, hinserted, Direction.opposite, Option.mem_def,
            Option.some.injEq, forall_eq', reduceCtorEq, false_implies, true_and]
          exact append_eraseP_eq_iff

/-- Applying a record and taking this back changes nothing exactly if the sheet awaits it. -/
theorem awaits_iff (hnodup : (record.changes.map Change.cell).Nodup) :
    sheet.Awaits direction record ↔
      ((sheet.applied direction record).applied direction.opposite record).Agrees sheet := by
  constructor
  · intro h
    refine ⟨rfl, ?_, tablesAfter_tablesAfter_iff.mpr h.tables⟩
    rw [Grid.entered_eq_iff]
    intro p
    by_cases hp : p ∈ record.changes.map Change.cell
    · obtain ⟨change, hchange, rfl⟩ := List.mem_map.mp hp
      rw [h.cells change hchange]
      exact congrArg _ (Grid.getElem?_applied_of_mem hnodup hchange)
    · refine congrArg _ ((Grid.getElem?_applied_of_not_mem hp).trans ?_)
      exact Grid.getElem?_applied_of_not_mem hp
  · intro h
    refine ⟨fun change hchange => ?_, tablesAfter_tablesAfter_iff.mp h.tables_eq⟩
    rw [← Grid.entered_eq_iff.mp h.cells_eq change.cell]
    exact congrArg _ (Grid.getElem?_applied_of_mem hnodup hchange)

theorem Awaits.congr (h : sheet.Awaits direction record) (hagrees : other.Agrees sheet) :
    other.Awaits direction record := by
  refine ⟨fun change hchange => ?_, hagrees.tables_eq ▸ h.tables⟩
  rw [Grid.entered_eq_iff.mp hagrees.cells_eq]
  exact h.cells change hchange

/-- The sheet awaits the first record, what this makes of the sheet awaits the second one, and so
on. -/
def AwaitsAll (direction : Direction) : Sheet → List Record → Prop
  | _, [] => True
  | sheet, record :: records =>
    sheet.Awaits direction record ∧ AwaitsAll direction (sheet.applied direction record) records

theorem AwaitsAll.congr (h : sheet.AwaitsAll direction records) (hagrees : other.Agrees sheet) :
    other.AwaitsAll direction records := by
  induction records generalizing sheet other with
  | nil => trivial
  | cons record records ih =>
      exact ⟨h.1.congr hagrees, ih h.2 (hagrees.applied direction record)⟩

theorem AwaitsAll.of_prefix {others : List Record} (h : sheet.AwaitsAll direction records)
    (hinitial : others <+: records) : sheet.AwaitsAll direction others := by
  induction others generalizing sheet records with
  | nil => trivial
  | cons record others ih =>
      obtain ⟨rest, rfl⟩ := hinitial
      exact ⟨h.1, ih h.2 ⟨rest, rfl⟩⟩

theorem AwaitsAll.turned {others : List Record}
    (h : sheet.AwaitsAll direction (record :: records))
    (hback : sheet.AwaitsAll direction.opposite others)
    (hnodup : (record.changes.map Change.cell).Nodup)
    (hnext : next.Agrees (sheet.applied direction record)) :
    next.AwaitsAll direction records ∧ next.AwaitsAll direction.opposite (record :: others) := by
  have hagrees := (awaits_iff hnodup).mp h.1
  have happlied := hnext.applied direction.opposite record
  have hopposite : direction.opposite.opposite = direction := by cases direction <;> rfl
  refine ⟨h.2.congr hnext, Awaits.congr ?_ hnext, hback.congr (happlied.trans hagrees)⟩
  rw [awaits_iff hnodup, hopposite]
  exact hagrees.applied direction record

theorem Edited.awaitsAll {older : List Record} (h : sheet.Edited next record)
    (holder : sheet.AwaitsAll .undoing older) : next.AwaitsAll .undoing (record :: older) := by
  refine ⟨?_, holder.congr h.undone.symm⟩
  rw [awaits_iff h.fits.nodup]
  exact (h.undone.symm.applied .redoing record).trans h.redone.symm

variable {keep : Nat → Position → Bool} {clip : Table → Option Table}

theorem not_keep_of_retain?_eq_none (hnone : record.retain? keep = none)
    (hinserted : record.inserted? = none) :
    ∀ change ∈ record.changes, keep change.sheet change.cell ≠ true := by
  cases record with
  | single change =>
      intro other hother hkeep
      rw [show other = change by simpa [Record.changes] using hother] at hkeep
      simp [Record.retain?, hkeep] at hnone
  | batch changes =>
      simpa [Record.retain?, Record.changes] using hnone
  | table id inserted changes => cases hinserted

theorem getElem?_applied_retain {grid other : Grid} {kept : Record} {p : Position}
    (hfits : record.FitsOn sheet) (hkept : record.retain? keep = some kept)
    (hkeep : keep sheet.id p = true)
    (hcell : other[p]?.map Cell.entered = grid[p]?.map Cell.entered) :
    (other.applied direction kept.changes)[p]?.map Cell.entered =
      (grid.applied direction record.changes)[p]?.map Cell.entered := by
  have hchanges := (Record.retain?_eq_some hkept).1
  have hnodup : (kept.changes.map Change.cell).Nodup := by
    rw [hchanges]
    exact (List.filter_sublist.map Change.cell).nodup hfits.nodup
  by_cases hp : p ∈ record.changes.map Change.cell
  · obtain ⟨change, hchange, rfl⟩ := List.mem_map.mp hp
    have hmem : change ∈ kept.changes := by
      rw [hchanges, List.mem_filter, hfits.change_sheet change hchange]
      exact ⟨hchange, hkeep⟩
    rw [Grid.getElem?_applied_of_mem hfits.nodup hchange, Grid.getElem?_applied_of_mem hnodup hmem]
  · have hp' : p ∉ kept.changes.map Change.cell := by
      rw [hchanges]
      exact fun hmem => hp ((List.filter_sublist.map Change.cell).subset hmem)
    rw [Grid.getElem?_applied_of_not_mem hp, Grid.getElem?_applied_of_not_mem hp', hcell]

theorem tablesAfter_filterMap {tables : List Table} (h : ∀ table ∈ record.inserted?,
      ∃ count, (direction = .undoing → 0 < count) ∧ EndsWith tables table count)
    (hclip : ∀ table ∈ record.inserted?, clip table = some table)
    (hid : ∀ t t', clip t = some t' → t'.id = t.id) :
    tablesAfter direction record (tables.filterMap clip) =
      (tablesAfter direction record tables).filterMap clip := by
  cases hinserted : record.inserted? with
  | none => cases direction <;> simp [tablesAfter, hinserted]
  | some table =>
      have hsame := hclip table hinserted
      obtain ⟨count, hcount, hends⟩ := h table hinserted
      cases direction with
      | redoing => simp [tablesAfter, hinserted, hsame]
      | undoing =>
          obtain ⟨count, rfl⟩ := Nat.exists_eq_succ_of_ne_zero (Nat.ne_of_gt (hcount rfl))
          have hback := (hends.filterMap hsame hid).eraseP_eq.1
          have hfront := congrArg (List.filterMap clip) hends.eraseP_eq.1
          rw [List.filterMap_append, List.filterMap_cons_some hsame, List.filterMap_nil] at hfront
          simp only [tablesAfter, hinserted]
          exact List.append_cancel_right (hback.trans hfront.symm)

/-- What is left of a chain of records is a chain for a sheet that looks the same where records are
kept, if all its tables are kept. -/
theorem AwaitsAll.retain (h : sheet.AwaitsAll direction records)
    (hfits : ∀ record ∈ records, record.FitsOn sheet)
    (hcells : ∀ p, keep sheet.id p = true →
      next.cells[p]?.map Cell.entered = sheet.cells[p]?.map Cell.entered)
    (htables : next.tables = sheet.tables.filterMap clip)
    (hid : ∀ t t', clip t = some t' → t'.id = t.id)
    (hkept : ∀ record ∈ records, ∀ table ∈ record.inserted?,
      clip table = some table ∧ (record.retain? keep).isSome = true) :
    next.AwaitsAll direction (records.filterMap (Record.retain? keep)) := by
  induction records generalizing sheet next with
  | nil => trivial
  | cons record records ih =>
      have hfits' := hfits record List.mem_cons_self
      have hkept' := hkept record List.mem_cons_self
      have hrest : ∀ other ∈ records, other.FitsOn (sheet.applied direction record) :=
        fun other hother => (hfits other (List.mem_cons_of_mem _ hother)).congr rfl rfl
      have hkeptRest := fun other hother => hkept other (List.mem_cons_of_mem record hother)
      cases hretain : record.retain? keep with
      | none =>
          -- nothing of the record is kept, so it makes no difference where records are kept
          have hinserted : record.inserted? = none := by
            by_contra hsome
            obtain ⟨table, htable⟩ := Option.ne_none_iff_exists'.mp hsome
            simpa [hretain] using (hkept' table htable).2
          rw [List.filterMap_cons_none hretain]
          refine ih h.2 hrest (fun p hp => ?_) ?_ hkeptRest
          · rw [hcells p hp]
            refine congrArg _ (Grid.getElem?_applied_of_not_mem fun hmem => ?_).symm
            obtain ⟨change, hchange, rfl⟩ := List.mem_map.mp hmem
            refine not_keep_of_retain?_eq_none hretain hinserted change hchange ?_
            rw [hfits'.change_sheet change hchange]
            exact hp
          · rw [htables]
            cases direction <;> simp [Sheet.applied, tablesAfter, hinserted]
      | some kept =>
          obtain ⟨hchanges, hsame, -⟩ := Record.retain?_eq_some hretain
          rw [List.filterMap_cons_some hretain]
          refine ⟨⟨?_, ?_⟩, ih h.2 hrest (fun p hp => ?_) ?_ hkeptRest⟩
          · intro change hchange
            rw [hchanges, List.mem_filter] at hchange
            have hkeep := hchange.2
            rw [hfits'.change_sheet change hchange.1] at hkeep
            rw [hcells _ hkeep]
            exact h.1.cells change hchange.1
          · intro table htable
            rw [hsame] at htable
            obtain ⟨count, hcount, hends⟩ := h.1.tables table htable
            rw [htables]
            exact ⟨count, hcount, hends.filterMap (hkept' table htable).1 hid⟩
          · exact getElem?_applied_retain hfits' hretain hp (hcells p hp)
          · have hafter : tablesAfter direction kept next.tables =
                tablesAfter direction record next.tables := by
              unfold tablesAfter
              rw [hsame]
            refine hafter.trans ?_
            rw [htables]
            exact tablesAfter_filterMap h.1.tables (fun table htable => (hkept' table htable).1) hid

end Sheet

/-- The records of one sheet. -/
def History.awaitingOn (direction : Direction) (id : Nat) (history : History) : List Record :=
  (history.awaiting direction).filter (·.sheet == id)

/-- Whether an operation on a document keeps all records of tables. A resize by which cells are lost
counts as well, since it drops all records of the sheet. -/
def Operation.KeepsTables (d : Document) : Operation → Prop
  | .resize extent _ => d.activeSheet.outside extent = [] →
      ∀ record ∈ d.history.undoable ++ d.history.redoable, record.inserted?.isSome = true →
        (record.retain? (History.elsewhereOrInside d.activeSheet.id extent.raised)).isSome = true
  | _ => True

namespace Document

variable {settings : Settings} {operation : Operation} {d next : Document} {sheet before : Sheet}
  {index : Nat} {record : Record} {direction : Direction}

/-- Documents that come about by operations that keep all records of tables. -/
inductive Unbroken (settings : Settings) : Document → Prop where
  | new : Unbroken settings (.new settings)
  | ofPath {files : Files} {path : Option String} {result : Document.Done Unit}
      (h : Document.ofPath settings files path = .ok result) : Unbroken settings result.document
  | perform {session next : Session} {operation : Operation}
      (start : Unbroken settings session.document) (hkeeps : operation.KeepsTables session.document)
      (h : session.perform operation = .ok next) : Unbroken settings next.document

theorem Unbroken.reachable (h : Unbroken settings d) : Reachable settings d := by
  induction h with
  | new => exact .new
  | ofPath h => exact .ofPath h
  | perform _ _ h ih => exact ih.perform h

/-- The records of each sheet form chains in both directions. -/
def Retraceable (d : Document) : Prop :=
  ∀ sheet ∈ d.workbook.sheets, ∀ direction,
    sheet.AwaitsAll direction (d.history.awaitingOn direction sheet.id)

theorem WellFormed.fitsOn (h : d.WellFormed settings) (hsheet : sheet ∈ d.workbook.sheets)
    (hrecord : record ∈ d.history.awaitingOn direction sheet.id) : record.FitsOn sheet := by
  obtain ⟨hrecord, hid⟩ := List.mem_filter.mp hrecord
  obtain ⟨other, hother, hfits⟩ := h.records record (mem_of_awaiting hrecord)
  have hsame : other.id = sheet.id := hfits.sheet_eq.symm.trans (by simpa using hid)
  rwa [← List.inj_on_of_nodup_map h.workbook.nodup hother hsheet hsame]

theorem WellFormed.mem_set (h : d.WellFormed settings)
    (hbefore : d.workbook.sheets[index]? = some before) {other : Sheet}
    (hother : other ∈ d.workbook.sheets.set index sheet) :
    other = sheet ∨ other ∈ d.workbook.sheets ∧ other.id ≠ before.id := by
  obtain ⟨place, hplace⟩ := List.mem_iff_getElem?.mp hother
  by_cases heq : index = place
  · subst heq
    obtain ⟨hlt, -⟩ := List.getElem?_eq_some_iff.mp hbefore
    rw [List.getElem?_set_self hlt] at hplace
    exact .inl (Option.some.inj hplace).symm
  · rw [List.getElem?_set_ne heq] at hplace
    refine .inr ⟨List.mem_of_getElem? hplace, fun hid => heq ?_⟩
    obtain ⟨hlt, -⟩ := List.getElem?_eq_some_iff.mp hbefore
    refine (List.getElem?_inj (by simpa using hlt) h.workbook.nodup).mp ?_
    rw [List.getElem?_map, List.getElem?_map, hbefore, hplace, Option.map_some, Option.map_some,
      hid]

theorem filter_sheet_of_eq {records : List Record} {id : Nat} (h : record.sheet = id) :
    (record :: records).filter (·.sheet == id) = record :: records.filter (·.sheet == id) :=
  List.filter_cons_of_pos (beq_iff_eq.mpr h)

theorem filter_sheet_of_ne {records : List Record} {id : Nat} (h : record.sheet ≠ id) :
    (record :: records).filter (·.sheet == id) = records.filter (·.sheet == id) :=
  List.filter_cons_of_neg (by simpa using h)

theorem Retraceable.congr (h : d.Retraceable) (hhistory : next.history = d.history)
    (hsheets : ∀ sheet ∈ next.workbook.sheets, (∃ before ∈ d.workbook.sheets, sheet.Agrees before) ∨
      ∀ direction, d.history.awaitingOn direction sheet.id = []) : next.Retraceable := by
  intro sheet hsheet direction
  rw [hhistory]
  rcases hsheets sheet hsheet with ⟨before, hbefore, hagrees⟩ | hnone
  · rw [hagrees.id_eq]
    exact (h before hbefore direction).congr hagrees
  · rw [hnone]
    trivial

theorem WellFormed.awaitingOn_eq_nil {id : Nat} (h : d.WellFormed settings)
    (hid : ∀ sheet ∈ d.workbook.sheets, sheet.id ≠ id) (direction : Direction) :
    d.history.awaitingOn direction id = [] := by
  refine List.filter_eq_nil_iff.mpr fun record hrecord => ?_
  obtain ⟨sheet, hsheet, hfits⟩ := h.records record (mem_of_awaiting hrecord)
  rw [hfits.sheet_eq]
  simpa using hid sheet hsheet

theorem Retraceable.edited (h : d.Retraceable) (hd : d.WellFormed settings)
    (hedited : d.activeSheet.Edited sheet record) : (d.recorded sheet record).Retraceable := by
  intro other hother direction
  cases direction with
  | redoing => trivial
  | undoing =>
      have hinitial : (d.recorded sheet record).history.awaitingOn .undoing other.id <+:
          (record :: d.history.undoable).filter (·.sheet == other.id) :=
        (List.take_prefix _ _).filter _
      refine Sheet.AwaitsAll.of_prefix ?_ hinitial
      rcases hd.mem_set hd.workbook.getElem?_active hother with rfl | ⟨hother, hid⟩
      · rw [filter_sheet_of_eq (hedited.fits.sheet_eq.trans hedited.id_eq.symm), hedited.id_eq]
        exact hedited.awaitsAll (h d.activeSheet hd.workbook.activeSheet_mem .undoing)
      · rw [filter_sheet_of_ne fun heq => hid (heq.symm.trans hedited.fits.sheet_eq)]
        exact h other hother .undoing

theorem Retraceable.applied {rest : List Record} (h : d.Retraceable) (hd : d.WellFormed settings)
    (hsettled : d.IsSettled) (hrecord : d.history.awaiting direction = record :: rest)
    (hrest : next.history.awaiting direction = rest)
    (hback : next.history.awaiting direction.opposite =
      record :: d.history.awaiting direction.opposite)
    (hworkbook : next.workbook = (applyRecord direction d.workbook record).1) :
    next.Retraceable := by
  have hmem : record ∈ d.history.awaiting direction := by simp [hrecord]
  obtain ⟨sheet, hsheet, hfits⟩ := hd.records record (mem_of_awaiting hmem)
  obtain ⟨index, hindex⟩ := List.mem_iff_getElem?.mp hsheet
  rw [applyRecord_eq direction hd.workbook.nodup (hsettled sheet hsheet) hindex hfits] at hworkbook
  have hdirections : ∀ other : Sheet,
      other.AwaitsAll direction (rest.filter (·.sheet == other.id)) ∧
      other.AwaitsAll direction.opposite ((record :: d.history.awaiting direction.opposite).filter
        (·.sheet == other.id)) → ∀ direction,
          other.AwaitsAll direction (next.history.awaitingOn direction other.id) := by
    rintro other ⟨hforth, hother⟩
    rw [← hrest] at hforth
    rw [← hback] at hother
    intro direction'
    cases direction <;> cases direction' <;> assumption
  intro other hother
  refine hdirections other ?_
  rw [hworkbook] at hother
  rcases hd.mem_set hindex hother with rfl | ⟨hother, hid⟩
  · have hforth := h sheet hsheet direction
    unfold History.awaitingOn at hforth
    rw [hrecord, filter_sheet_of_eq hfits.sheet_eq] at hforth
    have hid : record.sheet = (sheet.applied direction record).recalculated.id := hfits.sheet_eq
    rw [filter_sheet_of_eq hid]
    exact hforth.turned (h sheet hsheet direction.opposite) hfits.nodup
      (Sheet.agrees_recalculated _)
  · have hne : record.sheet ≠ other.id := fun heq => hid (heq.symm.trans hfits.sheet_eq)
    have hforth := h other hother direction
    unfold History.awaitingOn at hforth
    rw [hrecord, filter_sheet_of_ne hne] at hforth
    rw [filter_sheet_of_ne hne]
    exact ⟨hforth, h other hother direction.opposite⟩

variable {keep : Nat → Position → Bool}

theorem WellFormed.awaitingOn_retain (h : d.WellFormed settings) (direction : Direction)
    (id : Nat) :
    (d.history.retain keep).awaitingOn direction id =
      (d.history.awaitingOn direction id).filterMap (Record.retain? keep) := by
  have hretain : (d.history.retain keep).awaiting direction =
      (d.history.awaiting direction).filterMap (Record.retain? keep) := by
    cases direction <;> rfl
  unfold History.awaitingOn
  rw [hretain, List.filter_filterMap, List.filterMap_filter]
  refine List.filterMap_congr fun record hrecord => ?_
  obtain ⟨sheet, hsheet, hfits⟩ := h.records record (mem_of_awaiting hrecord)
  cases hkept : record.retain? keep with
  | none => simp
  | some kept => simp [Option.filter_some, (hfits.exists_keep hkept).1, hfits.sheet_eq]

theorem Retraceable.retain_all (h : d.Retraceable) (hd : d.WellFormed settings)
    (hsheet : sheet ∈ d.workbook.sheets) (hkeep : ∀ p, keep sheet.id p = true)
    (direction : Direction) :
    sheet.AwaitsAll direction ((d.history.retain keep).awaitingOn direction sheet.id) := by
  rw [hd.awaitingOn_retain]
  refine (h sheet hsheet direction).retain (fun record hrecord => hd.fitsOn hsheet hrecord)
    (fun _ _ => rfl) (List.filterMap_some).symm (fun t t' heq => by rw [Option.some.inj heq]) ?_
  intro record hrecord table htable
  refine ⟨rfl, ?_⟩
  have hfits := hd.fitsOn hsheet hrecord
  cases record with
  | table id inserted changes =>
      have hchanges : changes.all (fun change => keep change.sheet change.cell) = true := by
        rw [List.all_eq_true]
        intro change hchange
        rw [hfits.change_sheet change hchange]
        exact hkeep _
      have hid : id = sheet.id := hfits.sheet_eq
      simp [Record.retain?, hid, hkeep, hchanges]
  | _ => cases htable

theorem WellFormed.awaitingOn_retain_eq_nil (hd : d.WellFormed settings)
    (hsheet : sheet ∈ d.workbook.sheets)
    (hkeep : ∀ p, keep sheet.id p ≠ true) (direction : Direction) :
    (d.history.retain keep).awaitingOn direction sheet.id = [] := by
  rw [hd.awaitingOn_retain, List.filterMap_eq_nil_iff]
  intro record hrecord
  cases hkept : record.retain? keep with
  | none => rfl
  | some kept =>
      obtain ⟨-, p, hp⟩ := (hd.fitsOn hsheet hrecord).exists_keep hkept
      exact absurd hp (hkeep p)

theorem clip_eq_self {table : Table} {extent : Extent}
    (htop : extent.contains table.range.topLeft = true)
    (hbottom : extent.contains table.range.bottomRight = true) :
    table.clip extent = some table := by
  rw [Extent.contains_iff] at hbottom
  have hrow : min table.range.bottomRight.row (extent.rows - 1) = table.range.bottomRight.row := by
    omega
  have hcol : min table.range.bottomRight.col (extent.columns - 1) =
      table.range.bottomRight.col := by omega
  simp only [Table.clip, Range.clip, htop, if_true, hrow, hcol, Option.map_some]

theorem id_eq_of_clip {table clipped : Table} {extent : Extent}
    (h : table.clip extent = some clipped) : clipped.id = table.id := by
  obtain ⟨range, -, rfl⟩ := Option.map_eq_some_iff.mp h
  rfl

theorem Retraceable.cut {extent : Extent} (h : d.Retraceable) (hd : d.WellFormed settings)
    (hkept : ∀ record ∈ d.history.undoable ++ d.history.redoable, record.inserted?.isSome = true →
      (record.retain? (History.elsewhereOrInside d.activeSheet.id extent.raised)).isSome = true)
    (direction : Direction) : (d.activeSheet.resize extent).recalculated.AwaitsAll direction
      ((d.history.dropOutside d.activeSheet.id extent.raised).awaitingOn direction
        d.activeSheet.id) := by
  have hactive : d.activeSheet ∈ d.workbook.sheets := hd.workbook.activeSheet_mem
  have hinside : ∀ p, History.elsewhereOrInside d.activeSheet.id extent.raised d.activeSheet.id p =
      extent.raised.contains p := by
    intro p
    simp [History.elsewhereOrInside]
  unfold History.dropOutside
  rw [hd.awaitingOn_retain]
  refine Sheet.AwaitsAll.congr ?_ (Sheet.agrees_recalculated _)
  refine (h d.activeSheet hactive direction).retain
    (fun record hrecord => hd.fitsOn hactive hrecord)
    (fun p hp => ?_) rfl (fun _ _ => id_eq_of_clip) fun record hrecord table htable => ?_
  · rw [hinside] at hp
    refine congrArg _ ?_
    rw [Sheet.resize, Std.ExtTreeMap.getElem?_filter']
    cases hcell : d.activeSheet.cells[p]? <;> simp [hp]
  · have hsome := hkept record (mem_of_awaiting (List.mem_filter.mp hrecord).1)
      (by rw [htable]; rfl)
    obtain ⟨kept, hretain⟩ := Option.isSome_iff_exists.mp hsome
    obtain ⟨htop, hbottom, -⟩ := (Record.retain?_eq_some hretain).2.2 table htable
    rw [(hd.fitsOn hactive hrecord).sheet_eq, hinside] at htop hbottom
    exact ⟨clip_eq_self htop hbottom, hsome⟩

theorem Retraceable.resized {extent : Extent} {confirm : List Position → Bool}
    (h : d.Retraceable) (hd : d.WellFormed settings)
    (hkeeps : (Operation.resize extent confirm).KeepsTables d) :
    (d.resized extent).document.Retraceable := by
  have hactive : d.activeSheet ∈ d.workbook.sheets := hd.workbook.activeSheet_mem
  intro other hother direction
  have hother : other = (d.activeSheet.resize extent).recalculated ∨
      other ∈ d.workbook.sheets ∧ other.id ≠ d.activeSheet.id :=
    hd.mem_set hd.workbook.getElem?_active hother
  dsimp only [Document.resized]
  split
  · rename_i hlost
    rcases hother with rfl | ⟨hother, hid⟩
    · exact h.cut hd (hkeeps (List.isEmpty_iff.mp hlost)) direction
    · have hkeep : ∀ p, History.elsewhereOrInside d.activeSheet.id extent.raised other.id p =
          true := by simp [History.elsewhereOrInside, hid]
      exact h.retain_all hd hother hkeep direction
  · rcases hother with rfl | ⟨hother, hid⟩
    · have hnone : (d.history.dropSheet d.activeSheet.id).awaitingOn direction
          d.activeSheet.id = [] :=
        hd.awaitingOn_retain_eq_nil hactive (by simp [History.elsewhere]) direction
      exact hnone ▸ trivial
    · exact h.retain_all hd hother (by simp [History.elsewhere, hid]) direction

theorem Retraceable.step (h : d.Retraceable) (hd : d.WellFormed settings) (hsettled : d.IsSettled)
    (hkeeps : operation.KeepsTables d) (hstep : Step operation d next) : next.Retraceable := by
  have hsame : ∀ sheet ∈ d.workbook.sheets, ∃ before ∈ d.workbook.sheets, sheet.Agrees before :=
    fun sheet hsheet => ⟨sheet, hsheet, .refl sheet⟩
  cases hstep with
  | selected hworkbook hhistory =>
      exact h.congr hhistory fun sheet hsheet => .inl (hsame sheet (hworkbook ▸ hsheet))
  | laidOut sheet hbody _ hworkbook hhistory =>
      refine h.congr hhistory fun other hother => .inl ?_
      rw [hworkbook] at hother
      rcases hd.mem_set hd.workbook.getElem?_active hother with rfl | ⟨hother, -⟩
      · exact ⟨d.activeSheet, hd.workbook.activeSheet_mem, hbody.id_eq,
          congrArg Grid.entered hbody.cells_eq, hbody.tables_eq⟩
      · exact hsame other hother
  | edited sheet record hedited hnext =>
      rw [hnext]
      exact h.edited hd hedited
  | applied direction record rest hrecord hrest hback hworkbook =>
      exact h.applied hd hsettled hrecord hrest hback hworkbook
  | resized extent confirm hoperation hnext =>
      subst hoperation hnext
      exact h.resized hd hkeeps
  | activated index hactivate hhistory =>
      refine h.congr hhistory fun sheet hsheet => .inl (hsame sheet ?_)
      rwa [(Workbook.activate_eq_ok hactivate).2] at hsheet
  | renamedWorkbook name hworkbook hhistory =>
      refine h.congr hhistory fun sheet hsheet => .inl (hsame sheet ?_)
      rwa [hworkbook] at hsheet
  | renamed index name hrename hhistory =>
      obtain ⟨sheet, hfound, hnext⟩ := Workbook.renameSheet_eq_ok hrename
      refine h.congr hhistory fun other hother => .inl ?_
      rw [hnext] at hother
      rcases hd.mem_set hfound hother with rfl | ⟨hother, -⟩
      · exact ⟨sheet, List.mem_of_getElem? hfound, rfl, rfl, rfl⟩
      · exact hsame other hother
  | added name extent hadd hhistory =>
      obtain ⟨name, hnext⟩ := Workbook.addSheet_eq_ok hadd
      refine h.congr hhistory fun sheet hsheet => ?_
      rw [hnext] at hsheet
      rcases List.mem_append.mp hsheet with hsheet | hsheet
      · exact .inl (hsame sheet hsheet)
      · refine .inr (hd.awaitingOn_eq_nil fun other hother => ?_)
        rw [List.mem_singleton.mp hsheet]
        exact Nat.ne_of_lt (hd.workbook.id_lt other hother)
  | deleted index sheet hsheet hdelete hhistory =>
      intro other hother direction
      obtain ⟨hother, hid⟩ := (hd.workbook.numbered.mem_deleteSheet hsheet hdelete).mp hother
      rw [hhistory]
      exact h.retain_all hd hother (by simp [History.elsewhere, hid]) direction
  | duplicated index hduplicate hhistory =>
      obtain ⟨sheet, hsheet, hnext⟩ := Workbook.duplicateSheet_eq_ok hduplicate
      obtain ⟨hindex, -⟩ := List.getElem?_eq_some_iff.mp hsheet
      refine h.congr hhistory fun other hother => ?_
      rw [hnext] at hother
      rcases (List.mem_insertIdx hindex).mp hother with rfl | hother
      · exact .inr (hd.awaitingOn_eq_nil fun other hother =>
          Nat.ne_of_lt (hd.workbook.id_lt other hother))
      · exact .inl (hsame other hother)
  | loaded stored opened _ _ hhistory =>
      intro sheet _ direction
      rw [hhistory]
      cases direction <;> trivial

/-- Whether all operations of a run keep all records of tables. -/
def KeepsTables (session : Session) : List Operation → Prop
  | [] => True
  | operation :: operations =>
    operation.KeepsTables session.document ∧ KeepsTables (session.after operation) operations

end Document

end Spreadsheet
