import Mathlib.Data.List.Infix
import Spreadsheet.History.Operation

namespace Spreadsheet.History

variable {h : History} {operation : HistoryOperation} {capacity : Nat}
  {operations more : List HistoryOperation}

/-- The number of records, the undone ones among them. -/
def size (h : History) : Nat := h.undoable.length + h.redoable.length

/-- All records could be undone within the capacity. -/
def HasRoom (h : History) : Prop := h.size ≤ h.capacity

theorem run_append (h : History) (operations more : List HistoryOperation) :
    h.run (operations ++ more) = (h.run operations).run more := by
  rw [run, run, run, List.foldl_append]

theorem size_push_le (h : History) (record : Record) : (h.push record).size ≤ h.capacity := by
  simp only [size, push, List.length_nil, List.length_take]
  omega

theorem size_retain_le (h : History) (keep : Nat → Position → Bool) :
    (h.retain keep).size ≤ h.size :=
  Nat.add_le_add (List.length_filterMap_le _ _) (List.length_filterMap_le _ _)

theorem size_after_undo (h : History) :
    (h.after .undo).capacity = h.capacity ∧ (h.after .undo).size = h.size := by
  obtain ⟨undoable, redoable, capacity⟩ := h
  cases undoable with
  | nil => exact ⟨rfl, rfl⟩
  | cons record undoable =>
      refine ⟨rfl, ?_⟩
      simp only [after, undo?, size, Option.map_some, Option.getD_some, List.length_cons]
      omega

theorem size_after_redo (h : History) :
    (h.after .redo).capacity = h.capacity ∧ (h.after .redo).size = h.size := by
  obtain ⟨undoable, redoable, capacity⟩ := h
  cases redoable with
  | nil => exact ⟨rfl, rfl⟩
  | cons record redoable =>
      refine ⟨rfl, ?_⟩
      simp only [after, redo?, size, Option.map_some, Option.getD_some, List.length_cons]
      omega

theorem after_cases (h : History) (operation : HistoryOperation) :
    (∃ next, operation = .setCapacity next) ∨
      ((h.after operation).capacity = h.capacity ∧
        ((h.after operation).size ≤ h.size ∨ (h.after operation).size ≤ h.capacity)) := by
  cases operation with
  | record change => exact .inr ⟨rfl, .inr (size_push_le h _)⟩
  | recordBatch changes =>
      match changes with
      | [] => exact .inr ⟨rfl, .inl le_rfl⟩
      | [change] => exact .inr ⟨rfl, .inr (size_push_le h _)⟩
      | first :: second :: changes => exact .inr ⟨rfl, .inr (size_push_le h _)⟩
  | recordTable sheet inserted changes => exact .inr ⟨rfl, .inr (size_push_le h _)⟩
  | undo =>
      obtain ⟨hcapacity, hsize⟩ := size_after_undo h
      exact .inr ⟨hcapacity, .inl hsize.le⟩
  | redo =>
      obtain ⟨hcapacity, hsize⟩ := size_after_redo h
      exact .inr ⟨hcapacity, .inl hsize.le⟩
  | setCapacity next => exact .inl ⟨next, rfl⟩
  | dropSheet sheet => exact .inr ⟨rfl, .inl (size_retain_le h _)⟩
  | dropOutside sheet extent => exact .inr ⟨rfl, .inl (size_retain_le h _)⟩
  | clear => exact .inr ⟨rfl, .inl (Nat.zero_le _)⟩

theorem size_setCapacity_le (h : History) (next : Nat) : (h.setCapacity next).size ≤ h.size := by
  simp only [size, setCapacity, List.length_take]
  omega

theorem hasRoom_setCapacity_iff {next : Nat} :
    (h.setCapacity next).HasRoom ↔ h.redoable = [] ∨ h.size ≤ next := by
  simp only [HasRoom, size, setCapacity, List.length_take, ← List.length_eq_zero_iff]
  omega

theorem HasRoom.after (hroom : h.HasRoom)
    (hcapacity : ∀ next, operation = .setCapacity next → h.redoable = [] ∨ h.size ≤ next) :
    (h.after operation).HasRoom := by
  rcases after_cases h operation with ⟨next, rfl⟩ | ⟨hsame, hsize⟩
  · exact hasRoom_setCapacity_iff.mpr (hcapacity next rfl)
  · rw [HasRoom, hsame]
    exact hsize.elim (·.trans hroom) id

theorem HasRoom.run (hroom : h.HasRoom) (hmore : ∀ next, .setCapacity next ∉ more) :
    (h.run more).HasRoom := by
  induction more generalizing h with
  | nil => exact hroom
  | cons operation more ih =>
      refine ih (hroom.after ?_) fun next hnext => hmore next (List.mem_cons_of_mem _ hnext)
      rintro next rfl
      exact absurd List.mem_cons_self (hmore next)

theorem run_redo_all (h : History) :
    (h.run (List.replicate h.redoable.length .redo)).undoable.length = h.size ∧
      (h.run (List.replicate h.redoable.length .redo)).capacity = h.capacity := by
  obtain ⟨undoable, redoable, capacity⟩ := h
  induction redoable generalizing undoable with
  | nil => exact ⟨rfl, rfl⟩
  | cons record redoable ih =>
      obtain ⟨hlength, hcapacity⟩ := ih (record :: undoable)
      refine ⟨hlength.trans ?_, hcapacity⟩
      simp only [size, List.length_cons]
      omega

theorem hasRoom_run_empty (hoperations : ∀ before next,
    before ++ [.setCapacity next] <+: operations →
      ((empty capacity).run before).redoable = [] ∨ ((empty capacity).run before).size ≤ next) :
    ((empty capacity).run operations).HasRoom := by
  induction operations using List.reverseRecOn with
  | nil => exact Nat.zero_le capacity
  | append_singleton operations operation ih =>
      rw [run_append]
      refine HasRoom.after (ih fun before next hbefore => ?_) ?_
      · exact hoperations before next (hbefore.trans (List.prefix_append _ _))
      · rintro next rfl
        exact hoperations operations next (List.prefix_refl _)

/-- At some time a history had a capacity for all the records that it holds now. -/
theorem exists_size_le_capacity (capacity : Nat) (operations : List HistoryOperation) :
    ∃ before, before <+: operations ∧
      ((empty capacity).run operations).size ≤ ((empty capacity).run before).capacity := by
  induction operations using List.reverseRecOn with
  | nil => exact ⟨[], List.prefix_refl _, Nat.zero_le capacity⟩
  | append_singleton operations operation ih =>
      obtain ⟨before, hbefore, hsize⟩ := ih
      have hlonger := hbefore.trans (List.prefix_append operations [operation])
      rw [run_append]
      rcases after_cases ((empty capacity).run operations) operation with
        ⟨next, rfl⟩ | ⟨hsame, hless | hwithin⟩
      · exact ⟨before, hlonger, (size_setCapacity_le _ next).trans hsize⟩
      · exact ⟨before, hlonger, hless.trans hsize⟩
      · refine ⟨operations ++ [operation], List.prefix_refl _, ?_⟩
        rw [run_append]
        exact hwithin.trans hsame.ge

/-- The records that can be undone keep within the capacity, and will do so whatever follows until
another capacity is set, exactly if each capacity that is set holds all records or finds none of
them undone. In any case they keep within some capacity that there has been. -/
theorem undoable_le_capacity_iff (capacity : Nat) (operations : List HistoryOperation) :
    ((∀ before more, before <+: operations → (∀ next, .setCapacity next ∉ more) →
        let h := (empty capacity).run (before ++ more)
        h.undoable.length ≤ h.capacity) ↔
      ∀ before next, before ++ [.setCapacity next] <+: operations →
        let h := (empty capacity).run before
        h.redoable = [] ∨ h.undoable.length + h.redoable.length ≤ next) ∧
    ∃ before, before <+: operations ∧
      ((empty capacity).run operations).undoable.length ≤
        ((empty capacity).run before).capacity := by
  refine ⟨⟨fun hbound before next hbefore => ?_, fun hset before more hbefore hmore => ?_⟩, ?_⟩
  · -- Everything that is undone when the capacity is set can be redone at once.
    let h := ((empty capacity).run before).setCapacity next
    obtain ⟨hlength, hcapacity⟩ := run_redo_all h
    have hredone := hbound (before ++ [.setCapacity next])
      (List.replicate h.redoable.length .redo) hbefore (by simp [List.mem_replicate])
    rw [run_append, run_append] at hredone
    have hroom : h.HasRoom := hlength.symm.le.trans (hredone.trans hcapacity.le)
    exact hasRoom_setCapacity_iff.mp hroom
  · have hroom : ((empty capacity).run before).HasRoom :=
      hasRoom_run_empty fun first next hfirst => hset first next (hfirst.trans hbefore)
    rw [run_append]
    exact (Nat.le_add_right _ _).trans (hroom.run hmore)
  · obtain ⟨before, hbefore, hsize⟩ := exists_size_le_capacity capacity operations
    exact ⟨before, hbefore, (Nat.le_add_right _ _).trans hsize⟩

theorem exists_capacity_lt_undoable :
    ¬ ∀ (capacity : Nat) (operations : List HistoryOperation),
      let h := (empty capacity).run operations
      h.undoable.length ≤ h.capacity := by
  intro h
  have hredone := h 2 [.record ⟨1, ⟨0, 0⟩, none, none⟩, .record ⟨1, ⟨1, 0⟩, none, none⟩, .undo,
    .setCapacity 1, .redo]
  exact absurd hredone (by decide)

end Spreadsheet.History
