import Spreadsheet.Proofs.Applied
import Spreadsheet.Proofs.Rectangles

namespace Spreadsheet

/-- Whether the place of a change is kept. -/
def Change.isKept (keep : Nat → Position → Bool) (change : Change) : Bool :=
  keep change.sheet change.cell

namespace Record

variable {record : Record} {records after : List Record} {keep : Nat → Position → Bool}
  {change : Change} {changes : List Change} {inserted : Table} {id : Nat}

/-- The changes that can be left out one by one. Those of a table go with it. -/
def looseChanges : Record → List Change
  | .table _ _ _ => []
  | record => record.changes

def isTable (record : Record) : Bool := record.inserted?.isSome

/-- Whether a record is that of a table with both corners and all changes at places that are
kept. -/
def isIntact (keep : Nat → Position → Bool) : Record → Bool
  | .table sheet inserted changes =>
    keep sheet inserted.range.topLeft && keep sheet inserted.range.bottomRight &&
      changes.all (Change.isKept keep)
  | _ => false

/-- Whether anything of a record is kept. -/
def survives (keep : Nat → Position → Bool) (record : Record) : Bool :=
  record.isIntact keep || record.looseChanges.any (Change.isKept keep)

/-- A record without the changes of a batch that are not kept. -/
def shrink (keep : Nat → Position → Bool) : Record → Record
  | .batch changes => .batch (changes.filter (Change.isKept keep))
  | record => record

/-- The sheets that a record mentions: those of its changes and that of its table. -/
def sheets : Record → List Nat
  | .table sheet _ changes => sheet :: changes.map Change.sheet
  | record => record.changes.map Change.sheet

/-- Whether a record mentions sheets and a given one is not among them. -/
def isOfOthers (id : Nat) (record : Record) : Bool :=
  !record.sheets.isEmpty && !record.sheets.contains id

@[simp] theorem survives_single : (single change).survives keep = change.isKept keep := by
  simp [survives, isIntact, looseChanges, Record.changes]

@[simp] theorem survives_batch :
    (batch changes).survives keep = changes.any (Change.isKept keep) := Bool.false_or _

@[simp] theorem survives_table : (table id inserted changes).survives keep =
    (keep id inserted.range.topLeft && keep id inserted.range.bottomRight &&
      changes.all (Change.isKept keep)) := Bool.or_false _

theorem retain?_eq (record : Record) (keep : Nat → Position → Bool) :
    record.retain? keep = if record.survives keep then some (record.shrink keep) else none := by
  cases record with
  | single change => simp only [retain?, survives_single, shrink, Change.isKept]
  | batch changes =>
      have hempty : (changes.filter (Change.isKept keep)).isEmpty =
          !changes.any (Change.isKept keep) := by
        rw [Bool.eq_iff_iff]
        simp
      change (if (changes.filter (Change.isKept keep)).isEmpty then none else _) = _
      rw [hempty, survives_batch]
      cases changes.any (Change.isKept keep) <;> rfl
  | table sheet inserted changes =>
      rw [survives_table]
      rfl

theorem looseChanges_shrink (hsurvives : record.survives keep = true) :
    (record.shrink keep).looseChanges = record.looseChanges.filter (Change.isKept keep) := by
  cases record with
  | single change =>
      rw [survives_single] at hsurvives
      change [change] = [change].filter (Change.isKept keep)
      rw [List.filter_cons_of_pos hsurvives, List.filter_nil]
  | batch changes => rfl
  | table sheet inserted changes => rfl

theorem filter_looseChanges_eq_nil (hgone : record.survives keep = false) :
    record.looseChanges.filter (Change.isKept keep) = [] := by
  rw [survives, Bool.or_eq_false_iff] at hgone
  simpa using hgone.2

theorem isTable_shrink : (record.shrink keep).isTable = record.isTable := by
  cases record <;> rfl

theorem isIntact_eq : record.isIntact keep = (record.isTable && record.survives keep) := by
  cases record with
  | single change => rfl
  | batch changes => rfl
  | table sheet inserted changes => exact survives_table.symm

theorem shrink_of_isTable (htable : record.isTable = true) : record.shrink keep = record := by
  cases record with
  | single change => rfl
  | batch changes => cases htable
  | table sheet inserted changes => rfl

theorem shrink_ne_batch_nil (hsurvives : record.survives keep = true) :
    record.shrink keep ≠ .batch [] := by
  intro hshrink
  cases record with
  | single change => cases hshrink
  | batch changes =>
      rw [survives_batch, List.any_eq_true] at hsurvives
      obtain ⟨change, hchange, hkept⟩ := hsurvives
      exact List.filter_eq_nil_iff.mp (Record.batch.inj hshrink) change hchange hkept
  | table sheet inserted changes => cases hshrink

theorem length_changes_shrink_le : (record.shrink keep).changes.length ≤ record.changes.length := by
  cases record with
  | single change => exact le_rfl
  | batch changes => exact List.length_filter_le _ _
  | table sheet inserted changes => exact le_rfl

/-- What is left of records: all of which anything is kept, in their order, without the changes
that are not kept. -/
structure IsRemainder (keep : Nat → Position → Bool) (before after : List Record) : Prop where
  records : after = (before.filter (survives keep)).map (shrink keep)
  looseChanges :
    after.flatMap looseChanges = (before.flatMap looseChanges).filter (Change.isKept keep)
  tables : after.filter isTable = before.filter (isIntact keep)
  not_mem : .batch [] ∉ after

theorem filterMap_retain? (records : List Record) (keep : Nat → Position → Bool) :
    records.filterMap (retain? keep) = (records.filter (survives keep)).map (shrink keep) := by
  induction records with
  | nil => rfl
  | cons record records ih =>
      rw [List.filterMap_cons, retain?_eq, List.filter_cons, ih]
      cases record.survives keep <;> rfl

theorem flatMap_looseChanges_remainder (records : List Record) :
    ((records.filter (survives keep)).map (shrink keep)).flatMap looseChanges =
      (records.flatMap looseChanges).filter (Change.isKept keep) := by
  induction records with
  | nil => rfl
  | cons record records ih =>
      rw [List.flatMap_cons, List.filter_append, ← ih]
      cases hsurvives : record.survives keep with
      | true =>
          rw [List.filter_cons_of_pos hsurvives, List.map_cons, List.flatMap_cons,
            looseChanges_shrink hsurvives]
      | false =>
          rw [List.filter_cons_of_neg (by simp [hsurvives]),
            filter_looseChanges_eq_nil hsurvives, List.nil_append]

theorem filter_isTable_remainder (records : List Record) :
    ((records.filter (survives keep)).map (shrink keep)).filter isTable =
      records.filter (isIntact keep) := by
  have hsame : isTable ∘ shrink keep = isTable := funext fun _ => isTable_shrink
  have hintact : (fun record : Record => record.isTable && record.survives keep) =
      isIntact keep := funext fun _ => isIntact_eq.symm
  rw [List.filter_map, hsame, List.filter_filter, hintact]
  refine (List.map_congr_left fun record hrecord => ?_).trans (List.map_id _)
  have hrecord := (List.mem_filter.mp hrecord).2
  rw [isIntact_eq, Bool.and_eq_true] at hrecord
  exact shrink_of_isTable hrecord.1

theorem isRemainder_filterMap (records : List Record) :
    IsRemainder keep records (records.filterMap (retain? keep)) where
  records := filterMap_retain? records keep
  looseChanges := filterMap_retain? records keep ▸ flatMap_looseChanges_remainder records
  tables := filterMap_retain? records keep ▸ filter_isTable_remainder records
  not_mem := by
    rw [filterMap_retain?]
    intro hmem
    obtain ⟨record, hrecord, hshrink⟩ := List.mem_map.mp hmem
    exact shrink_ne_batch_nil (List.mem_filter.mp hrecord).2 hshrink

theorem IsRemainder.length_changes_le (h : IsRemainder keep records after) :
    (after.flatMap Record.changes).length ≤ (records.flatMap Record.changes).length := by
  rw [h.records]
  clear h
  induction records with
  | nil => exact le_rfl
  | cons record records ih =>
      have hrecord := @length_changes_shrink_le record keep
      rw [List.filter_cons]
      split
      · simp only [List.map_cons, List.flatMap_cons, List.length_append]
        omega
      · rw [List.flatMap_cons, List.length_append]
        omega

theorem mem_sheets_of_mem_changes (h : change ∈ record.changes) : change.sheet ∈ record.sheets := by
  have hmem := List.mem_map_of_mem (f := Change.sheet) h
  cases record with
  | single change => exact hmem
  | batch changes => exact hmem
  | table sheet inserted changes => exact List.mem_cons_of_mem _ hmem

theorem survives_of_isOfOthers (hothers : ∀ other p, other ≠ id → keep other p = true)
    (hrecord : record.isOfOthers id = true) :
    record.survives keep = true ∧ record.shrink keep = record := by
  obtain ⟨hne, hid⟩ : record.sheets ≠ [] ∧ id ∉ record.sheets := by
    simpa [isOfOthers] using hrecord
  have hkept : ∀ change ∈ record.changes, change.isKept keep = true := fun change hchange =>
    hothers _ _ fun heq => hid (heq ▸ mem_sheets_of_mem_changes hchange)
  cases record with
  | single change => exact ⟨survives_single.trans (hkept change List.mem_cons_self), rfl⟩
  | batch changes =>
      refine ⟨?_, congrArg batch (List.filter_eq_self.mpr hkept)⟩
      obtain ⟨change, hchange⟩ := List.exists_mem_of_ne_nil changes (mt (by rintro rfl; rfl) hne)
      rw [survives_batch, List.any_eq_true]
      exact ⟨change, hchange, hkept change hchange⟩
  | table sheet inserted changes =>
      have hsheet : sheet ≠ id := fun heq => hid (heq ▸ List.mem_cons_self)
      refine ⟨?_, rfl⟩
      rw [survives_table, hothers sheet _ hsheet, hothers sheet _ hsheet]
      exact List.all_eq_true.mpr hkept

theorem IsRemainder.sublist (h : IsRemainder keep records after)
    (hothers : ∀ other p, other ≠ id → keep other p = true) :
    (records.filter (isOfOthers id)).Sublist after := by
  have hself : (records.filter (isOfOthers id)).map (shrink keep) =
      records.filter (isOfOthers id) :=
    (List.map_congr_left fun record hrecord =>
      (survives_of_isOfOthers hothers (List.mem_filter.mp hrecord).2).2).trans (List.map_id _)
  rw [h.records, ← hself]
  exact (List.monotone_filter_right records fun record hrecord =>
    (survives_of_isOfOthers hothers hrecord).1).map _

theorem not_mem_sheets_shrink (hgone : ∀ p, keep id p = false)
    (hsurvives : record.survives keep = true) : id ∉ (record.shrink keep).sheets := by
  have hsheet : ∀ other p, keep other p = true → id ≠ other := by
    rintro other p hkept rfl
    exact Bool.false_ne_true ((hgone p).symm.trans hkept)
  have hchanges : ∀ changes : List Change, (∀ change ∈ changes, change.isKept keep = true) →
      id ∉ changes.map Change.sheet := by
    intro changes hkept hmem
    obtain ⟨change, hchange, rfl⟩ := List.mem_map.mp hmem
    exact hsheet _ _ (hkept change hchange) rfl
  cases record with
  | single change =>
      rw [survives_single] at hsurvives
      exact hchanges [change] (List.forall_mem_singleton.mpr hsurvives)
  | batch changes => exact hchanges _ fun change hchange => (List.mem_filter.mp hchange).2
  | table sheet inserted changes =>
      rw [survives_table, Bool.and_eq_true, Bool.and_eq_true, List.all_eq_true] at hsurvives
      exact List.not_mem_cons_of_ne_of_not_mem (hsheet _ _ hsurvives.1.1)
        (hchanges changes hsurvives.2)

theorem IsRemainder.not_mem_sheets (h : IsRemainder keep records after)
    (hgone : ∀ p, keep id p = false) (hrecord : record ∈ after) : id ∉ record.sheets := by
  rw [h.records] at hrecord
  obtain ⟨before, hbefore, rfl⟩ := List.mem_map.mp hrecord
  exact not_mem_sheets_shrink hgone (List.mem_filter.mp hbefore).2

end Record

namespace History

variable {keep : Nat → Position → Bool}

/-- What is left of a history, with the difference of the numbers of changes. -/
structure IsRemainder (keep : Nat → Position → Bool) (before after : History) : Prop where
  undoable : Record.IsRemainder keep before.undoable after.undoable
  redoable : Record.IsRemainder keep before.redoable after.redoable
  capacity_eq : after.capacity = before.capacity
  changeCount_eq : after.changeCount + before.droppedSince after = before.changeCount

theorem isRemainder_retain (h : History) (keep : Nat → Position → Bool) :
    IsRemainder keep h (h.retain keep) := by
  have hundoable : Record.IsRemainder keep h.undoable (h.retain keep).undoable :=
    Record.isRemainder_filterMap h.undoable
  have hredoable : Record.IsRemainder keep h.redoable (h.retain keep).redoable :=
    Record.isRemainder_filterMap h.redoable
  refine ⟨hundoable, hredoable, rfl, Nat.add_sub_of_le ?_⟩
  rw [changeCount, changeCount, List.flatMap_append, List.flatMap_append, List.length_append,
    List.length_append]
  exact Nat.add_le_add hundoable.length_changes_le hredoable.length_changes_le

/-- Without the places outside a sheet that has shrunk, and without those of a sheet that is gone,
a history keeps exactly what is at the other places. Of a sheet that is gone nothing is left, and
records of other sheets are as before. -/
theorem isRemainder_dropOutside_and_dropSheet (h : History) (id : Nat) (extent : Extent) :
    IsRemainder (fun other p => decide (other ≠ id ∨ p.col < extent.columns ∧ p.row < extent.rows))
      h (h.dropOutside id extent) ∧
    IsRemainder (fun other _ => decide (other ≠ id)) h (h.dropSheet id) ∧
    (∀ record ∈ (h.dropSheet id).undoable ++ (h.dropSheet id).redoable, id ∉ record.sheets) ∧
    (h.undoable.filter (Record.isOfOthers id)).Sublist (h.dropSheet id).undoable ∧
    (h.redoable.filter (Record.isOfOthers id)).Sublist (h.dropSheet id).redoable := by
  have houtside : elsewhereOrInside id extent =
      fun other p => decide (other ≠ id ∨ p.col < extent.columns ∧ p.row < extent.rows) := by
    funext other p
    rw [Bool.eq_iff_iff]
    simp [elsewhereOrInside, Extent.contains_iff]
  have hsheet : elsewhere id = fun other _ => decide (other ≠ id) := by
    funext other p
    rw [Bool.eq_iff_iff]
    simp [elsewhere]
  have hothers : ∀ other (p : Position), other ≠ id → elsewhere id other p = true :=
    fun other p hne => by simpa [elsewhere]
  have hgone : ∀ p, elsewhere id id p = false := fun p => by simp [elsewhere]
  have hdropped : IsRemainder (elsewhere id) h (h.dropSheet id) := isRemainder_retain h _
  refine ⟨houtside ▸ isRemainder_retain h _, hsheet ▸ hdropped, ?_,
    hdropped.undoable.sublist hothers, hdropped.redoable.sublist hothers⟩
  intro record hrecord
  rcases List.mem_append.mp hrecord with hrecord | hrecord
  · exact hdropped.undoable.not_mem_sheets hgone hrecord
  · exact hdropped.redoable.not_mem_sheets hgone hrecord

/-- A batch on two sheets, and a table that reaches beyond the third row. -/
def twoSheets : History where
  undoable := [.batch [⟨1, ⟨0, 0⟩, none, none⟩, ⟨2, ⟨8, 0⟩, none, none⟩, ⟨1, ⟨8, 0⟩, none, none⟩],
    .table 1 ⟨1, ⟨⟨0, 0⟩, ⟨4, 1⟩⟩, "#4472c4", "#d0e2ff", true⟩ [⟨1, ⟨0, 0⟩, none, none⟩]]
  redoable := [.single ⟨2, ⟨5, 5⟩, none, none⟩]
  capacity := 2

theorem isRemainder_dropOutside_and_dropSheet_twoSheets :
    IsRemainder (fun other p => decide (other ≠ 1 ∨ p.col < 3 ∧ p.row < 3)) twoSheets
      (twoSheets.dropOutside 1 ⟨3, 3⟩) ∧
    (twoSheets.dropOutside 1 ⟨3, 3⟩).undoable =
      [.batch [⟨1, ⟨0, 0⟩, none, none⟩, ⟨2, ⟨8, 0⟩, none, none⟩]] ∧
    .batch [⟨2, ⟨8, 0⟩, none, none⟩] ∈ (twoSheets.dropSheet 1).undoable ∧
    1 ∉ (Record.batch [⟨2, ⟨8, 0⟩, none, none⟩]).sheets := by
  obtain ⟨houtside, -, hgone, -, -⟩ := isRemainder_dropOutside_and_dropSheet twoSheets 1 ⟨3, 3⟩
  have hmem : .batch [⟨2, ⟨8, 0⟩, none, none⟩] ∈ (twoSheets.dropSheet 1).undoable := by decide
  exact ⟨houtside, by decide, hmem, hgone _ (List.mem_append_left _ hmem)⟩

end History

end Spreadsheet
