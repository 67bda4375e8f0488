import Spreadsheet.Proofs.Rectangles
import Spreadsheet.Proofs.SortedMaps
import Spreadsheet.Selection.Operation

namespace Spreadsheet.Selection

variable {s : Selection} {anchor p target : Position} {region other : Range}

theorem bounds_eq_none_iff : s.bounds = none ↔ ∀ p, p ∉ s.cells := by
  unfold bounds
  rw [Range.bounding?_eq_none_iff, List.eq_nil_iff_forall_not_mem]
  simp only [Std.ExtTreeSet.mem_toList]

theorem isBounding_bounds (h : s.bounds = some region) : region.IsBounding s.cells.toList :=
  Range.isBounding_of_bounding? h

theorem contains_of_mem (h : s.bounds = some region) (hp : p ∈ s.cells) :
    region.contains p = true :=
  (isBounding_bounds h).holds p (Std.ExtTreeSet.mem_toList.mpr hp)

theorem contains_of_bounds (h : s.bounds = some region)
    (hother : ∀ p ∈ s.cells, other.contains p = true) (hp : region.contains p = true) :
    other.contains p = true :=
  (isBounding_bounds h).contains_of_holds
    (fun q hq => hother q (Std.ExtTreeSet.mem_toList.mp hq)) hp

theorem extend_eq (h : s.anchor = some anchor) (target : Position) : s.extend target =
    ⟨some anchor, Std.ExtTreeSet.ofList (Range.spanning anchor target).cells⟩ := by
  unfold extend
  rw [h]

theorem mem_extend (h : s.anchor = some anchor) : p ∈ (s.extend target).cells ↔
    (min anchor.row target.row ≤ p.row ∧ p.row ≤ max anchor.row target.row) ∧
      min anchor.col target.col ≤ p.col ∧ p.col ≤ max anchor.col target.col := by
  rw [extend_eq h, SortedSet.mem_ofList, Range.mem_cells]
  rfl

theorem size_extend (h : s.anchor = some anchor) : (s.extend target).cells.size =
    (max anchor.col target.col - min anchor.col target.col + 1) *
      (max anchor.row target.row - min anchor.row target.row + 1) := by
  rw [extend_eq h, SortedSet.size_ofList (Range.nodup_cells _), Range.length_cells_spanning]

theorem cells_run_click_extend (s : Selection) (p q : Position) :
    (s.run [.click p, .extend q]).cells = (s.run [.click q, .extend p]).cells := by
  have hcells : ∀ p q, (s.run [.click p, .extend q]).cells =
      Std.ExtTreeSet.ofList (Range.spanning p q).cells := by
    intro p q
    exact congrArg Selection.cells (extend_eq (s := click p) rfl q)
  rw [hcells, hcells, Range.spanning_comm]

/-- After any operations, the rectangle around the selected cells is the smallest that holds them,
and the next extension selects exactly the rectangle between the anchor and its cell. -/
theorem bounds_and_extend_run (operations : List SelectionOperation) :
    let s := empty.run operations
    (s.bounds = none ↔ ∀ p, p ∉ s.cells) ∧
    (∀ region, s.bounds = some region → (∀ p ∈ s.cells, region.contains p = true) ∧
      ∀ other : Range, (∀ p ∈ s.cells, other.contains p = true) →
        ∀ p, region.contains p = true → other.contains p = true) ∧
    (∀ anchor target, s.anchor = some anchor →
      (s.after (.extend target)).anchor = some anchor ∧
      (∀ p, p ∈ (s.after (.extend target)).cells ↔
        (min anchor.row target.row ≤ p.row ∧ p.row ≤ max anchor.row target.row) ∧
          min anchor.col target.col ≤ p.col ∧ p.col ≤ max anchor.col target.col) ∧
      (s.after (.extend target)).cells.size =
        (max anchor.col target.col - min anchor.col target.col + 1) *
          (max anchor.row target.row - min anchor.row target.row + 1)) ∧
    ∀ p q, (s.run [.click p, .extend q]).cells = (s.run [.click q, .extend p]).cells := by
  intro s
  refine ⟨bounds_eq_none_iff, fun region h => ⟨fun p => contains_of_mem h, ?_⟩, ?_,
    cells_run_click_extend s⟩
  · exact fun other hother p => contains_of_bounds h hother
  · intro anchor target h
    exact ⟨congrArg Selection.anchor (extend_eq h target), fun p => mem_extend h, size_extend h⟩

/-- Cells none of which is a corner of the rectangle around them. -/
example : (empty.run [.click ⟨0, 2⟩, .toggle ⟨3, 1⟩, .toggle ⟨1, 4⟩, .toggle ⟨9, 9⟩,
    .prune ⟨5, 5⟩]).bounds = some ⟨⟨0, 1⟩, ⟨3, 4⟩⟩ := by decide +kernel

end Spreadsheet.Selection
