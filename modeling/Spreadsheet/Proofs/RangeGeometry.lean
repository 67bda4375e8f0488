import Spreadsheet.Proofs.Rectangles
import Spreadsheet.Range.Procedure

namespace Spreadsheet.Range

variable {r clipped : Range} {extent : Extent} {p : Position} {first last : Nat}

theorem mem_cells_iff : p ∈ r.cells ↔ r.contains p = true := by
  rw [mem_cells, contains_iff]

theorem cellCount?_eq_some_iff {count : Nat} :
    r.cellCount? = some count ↔ count = r.width * r.height ∧ count < coordinateLimit := by
  unfold cellCount?
  dsimp only
  split <;> simp <;> omega

/-- The first corner of a rectangle is not below or to the right of the second one. -/
structure IsNormalized (r : Range) : Prop where
  row_le : r.topLeft.row ≤ r.bottomRight.row
  col_le : r.topLeft.col ≤ r.bottomRight.col

theorem isNormalized_spanning (a b : Position) : (spanning a b).IsNormalized where
  row_le := Nat.le_trans (Nat.min_le_left ..) (Nat.le_max_left ..)
  col_le := Nat.le_trans (Nat.min_le_left ..) (Nat.le_max_left ..)

theorem IsNormalized.spanning_eq (h : r.IsNormalized) :
    spanning r.topLeft r.bottomRight = r := by
  unfold spanning
  rw [Nat.min_eq_left h.row_le, Nat.min_eq_left h.col_le, Nat.max_eq_right h.row_le,
    Nat.max_eq_right h.col_le]

theorem IsNormalized.contains_topLeft (h : r.IsNormalized) : r.contains r.topLeft = true :=
  contains_iff.mpr ⟨⟨Nat.le_refl _, h.row_le⟩, Nat.le_refl _, h.col_le⟩

theorem contains_topLeft_of_contains (hrange : r.contains p = true)
    (hextent : extent.contains p = true) : extent.contains r.topLeft = true := by
  obtain ⟨⟨hrow, -⟩, hcol, -⟩ := contains_iff.mp hrange
  obtain ⟨hcolumns, hrows⟩ := Extent.contains_iff.mp hextent
  exact Extent.contains_iff.mpr ⟨Nat.lt_of_le_of_lt hcol hcolumns, Nat.lt_of_le_of_lt hrow hrows⟩

theorem IsNormalized.clip_eq_none_iff (h : r.IsNormalized) :
    r.clip extent = none ↔ ¬ ∃ p, r.contains p = true ∧ extent.contains p = true := by
  unfold clip
  constructor
  · rintro hclip ⟨p, hrange, hextent⟩
    rw [if_pos (contains_topLeft_of_contains hrange hextent)] at hclip
    cases hclip
  · intro hnone
    rw [if_neg fun hextent => hnone ⟨r.topLeft, h.contains_topLeft, hextent⟩]

theorem contains_of_clip (hclip : r.clip extent = some clipped) :
    clipped.contains p = true ↔ r.contains p = true ∧ extent.contains p = true := by
  unfold clip at hclip
  split at hclip
  · rename_i hextent
    obtain rfl := Option.some.inj hclip
    have hcorner := Extent.contains_iff.mp hextent
    rw [contains_iff, contains_iff, Extent.contains_iff]
    dsimp only
    omega
  · cases hclip

theorem IsNormalized.of_clip (h : r.IsNormalized) (hclip : r.clip extent = some clipped) :
    clipped.IsNormalized := by
  unfold clip at hclip
  split at hclip
  · rename_i hextent
    obtain rfl := Option.some.inj hclip
    have hcorner := Extent.contains_iff.mp hextent
    have hrow := h.row_le
    have hcol := h.col_le
    refine ⟨?_, ?_⟩ <;> dsimp only <;> omega
  · cases hclip

theorem side?_eq_some (h : first ≤ last) (hlimit : last - first + 1 < coordinateLimit) :
    side? first last = some (last - first + 1) := by
  rw [side?, Coordinate.difference?_of_le h]
  exact Coordinate.within?_of_lt hlimit

theorem clip?_eq_some (r : Range) (extent : Extent) : r.clip? extent = some (r.clip extent) := by
  unfold clip? clip
  split
  · rename_i hextent
    -- A sheet that holds a cell is not empty, so the subtractions cannot fall below zero.
    obtain ⟨hcolumns, hrows⟩ := Extent.contains_iff.mp hextent
    rw [Coordinate.difference?_of_le (Nat.one_le_of_lt hcolumns), Coordinate.difference?_of_le (Nat.one_le_of_lt hrows)]
    rfl
  · rfl

/-- The rectangle between two corners, whichever comes first, lists its cells in order and without
repetition. Its part on a sheet is missing exactly if they have no cell in common, and else it is
the rectangle of the common cells. Working it out never falls below zero, even on a sheet without
rows or columns, and the sides and the number of cells are right wherever the sides stay below the
limit. -/
theorem cells_and_clip_spanning (a b : Position) (extent : Extent) :
    let r := spanning a b
    spanning b a = r ∧
    (r.cells.Pairwise (· < ·) ∧ ∀ p, p ∈ r.cells ↔ r.contains p = true) ∧
    (r.width < coordinateLimit → r.height < coordinateLimit →
      r.width? = some r.width ∧ r.height? = some r.height ∧ r.countCells? = some r.cellCount? ∧
        ∀ count, r.cellCount? = some count →
          count = r.width * r.height ∧ r.cells.length = count) ∧
    r.clip? extent = some (r.clip extent) ∧
    (r.clip extent = none ↔ ¬ ∃ p, r.contains p = true ∧ extent.contains p = true) ∧
    ∀ clipped, r.clip extent = some clipped →
      spanning clipped.topLeft clipped.bottomRight = clipped ∧
        ∀ p, p ∈ clipped.cells ↔ r.contains p = true ∧ extent.contains p = true := by
  intro r
  have hr : r.IsNormalized := isNormalized_spanning a b
  refine ⟨spanning_comm b a, ⟨r.pairwise_cells, fun p => mem_cells_iff⟩, ?_, r.clip?_eq_some extent,
    hr.clip_eq_none_iff, ?_⟩
  · intro hwidth hheight
    have hwidth? : r.width? = some r.width := side?_eq_some hr.col_le hwidth
    have hheight? : r.height? = some r.height := side?_eq_some hr.row_le hheight
    refine ⟨hwidth?, hheight?, ?_, ?_⟩
    · rw [countCells?, hwidth?, hheight?]
      rfl
    · intro count hcount
      have hproduct := (cellCount?_eq_some_iff.mp hcount).1
      exact ⟨hproduct, (length_cells hr.row_le hr.col_le).trans hproduct.symm⟩
  · intro clipped hclip
    refine ⟨(hr.of_clip hclip).spanning_eq, fun p => ?_⟩
    rw [mem_cells_iff]
    exact contains_of_clip hclip

end Spreadsheet.Range
