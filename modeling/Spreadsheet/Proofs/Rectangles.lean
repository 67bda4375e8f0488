import Mathlib.Data.List.Induction
import Mathlib.Data.List.Nodup
import Spreadsheet.Range

namespace Spreadsheet

theorem Extent.contains_iff {extent : Extent} {p : Position} :
    extent.contains p = true ↔ p.col < extent.columns ∧ p.row < extent.rows := by
  simp [Extent.contains]

theorem Position.ne_of_lt {p q : Position} (h : p < q) : p ≠ q := by
  rintro rfl
  simp [Position.lt_iff] at h

namespace Range

variable {range other : Range} {p : Position} {cells : List Position}

theorem contains_iff : range.contains p = true ↔
    (range.topLeft.row ≤ p.row ∧ p.row ≤ range.bottomRight.row) ∧
      range.topLeft.col ≤ p.col ∧ p.col ≤ range.bottomRight.col := by
  simp [contains, and_assoc]

theorem mem_cells : p ∈ range.cells ↔
    (range.topLeft.row ≤ p.row ∧ p.row ≤ range.bottomRight.row) ∧
      range.topLeft.col ≤ p.col ∧ p.col ≤ range.bottomRight.col := by
  unfold Range.cells Range.rowCells
  simp only [List.mem_flatMap, List.mem_map, List.mem_range'_1]
  constructor
  · rintro ⟨row, hrow, col, hcol, rfl⟩
    dsimp only
    omega
  · rintro ⟨hrow, hcol⟩
    exact ⟨p.row, by omega, p.col, by omega, rfl⟩

theorem row_of_mem_rowCells {row : Nat} (h : p ∈ range.rowCells row) : p.row = row := by
  obtain ⟨col, -, rfl⟩ := List.mem_map.mp h
  rfl

theorem pairwise_rowCells (range : Range) (row : Nat) :
    (range.rowCells row).Pairwise (· < ·) := by
  unfold Range.rowCells
  rw [List.pairwise_map]
  refine List.Pairwise.imp (fun hcol => ?_) List.pairwise_lt_range'
  exact Position.lt_iff.mpr (.inr ⟨rfl, hcol⟩)

theorem pairwise_cells (range : Range) : range.cells.Pairwise (· < ·) := by
  unfold Range.cells
  rw [List.pairwise_flatMap]
  refine ⟨fun row _ => range.pairwise_rowCells row, ?_⟩
  refine List.Pairwise.imp (fun hrow p hp q hq => ?_) List.pairwise_lt_range'
  rw [Position.lt_iff, row_of_mem_rowCells hp, row_of_mem_rowCells hq]
  exact .inl hrow

theorem nodup_rowCells (range : Range) (row : Nat) : (range.rowCells row).Nodup :=
  (range.pairwise_rowCells row).imp Position.ne_of_lt

theorem nodup_cells (range : Range) : range.cells.Nodup :=
  range.pairwise_cells.imp Position.ne_of_lt

theorem length_cells (hrow : range.topLeft.row ≤ range.bottomRight.row)
    (hcol : range.topLeft.col ≤ range.bottomRight.col) :
    range.cells.length = range.width * range.height := by
  have hrowCells : ∀ row, (range.rowCells row).length = range.width := by
    intro row
    unfold Range.rowCells Range.width
    rw [List.length_map, List.length_range']
    omega
  unfold Range.cells Range.height
  simp only [List.length_flatMap, hrowCells, List.map_const', List.sum_replicate_nat,
    List.length_range']
  rw [Nat.mul_comm, Nat.sub_add_comm hrow]

theorem spanning_comm (p q : Position) : spanning p q = spanning q p := by
  unfold spanning
  rw [Nat.min_comm p.row, Nat.min_comm p.col, Nat.max_comm p.row, Nat.max_comm p.col]

theorem length_cells_spanning (p q : Position) : (spanning p q).cells.length =
    (max p.col q.col - min p.col q.col + 1) * (max p.row q.row - min p.row q.row + 1) :=
  length_cells (Nat.le_trans (Nat.min_le_left ..) (Nat.le_max_left ..))
    (Nat.le_trans (Nat.min_le_left ..) (Nat.le_max_left ..))

/-- A rectangle that holds some cells, with one of them at each of its sides. -/
structure IsBounding (range : Range) (cells : List Position) : Prop where
  holds : ∀ p ∈ cells, range.contains p = true
  top : ∃ p ∈ cells, p.row = range.topLeft.row
  left : ∃ p ∈ cells, p.col = range.topLeft.col
  bottom : ∃ p ∈ cells, p.row = range.bottomRight.row
  right : ∃ p ∈ cells, p.col = range.bottomRight.col

theorem IsBounding.contains_of_holds (h : range.IsBounding cells)
    (hother : ∀ p ∈ cells, other.contains p = true) (hp : range.contains p = true) :
    other.contains p = true := by
  obtain ⟨top, htop, hrow⟩ := h.top
  obtain ⟨left, hleft, hcol⟩ := h.left
  obtain ⟨bottom, hbottom, hrow'⟩ := h.bottom
  obtain ⟨right, hright, hcol'⟩ := h.right
  have htop := contains_iff.mp (hother top htop)
  have hleft := contains_iff.mp (hother left hleft)
  have hbottom := contains_iff.mp (hother bottom hbottom)
  have hright := contains_iff.mp (hother right hright)
  rw [contains_iff] at hp ⊢
  omega

theorem exists_eq_min {side : Position → Nat} {n : Nat} (h : ∃ p ∈ cells, side p = n)
    (q : Position) : ∃ p ∈ cells ++ [q], side p = min n (side q) := by
  obtain ⟨p, hp, rfl⟩ := h
  rcases Nat.le_total (side p) (side q) with hle | hle
  · exact ⟨p, by simp [hp], (Nat.min_eq_left hle).symm⟩
  · exact ⟨q, by simp, (Nat.min_eq_right hle).symm⟩

theorem exists_eq_max {side : Position → Nat} {n : Nat} (h : ∃ p ∈ cells, side p = n)
    (q : Position) : ∃ p ∈ cells ++ [q], side p = max n (side q) := by
  obtain ⟨p, hp, rfl⟩ := h
  rcases Nat.le_total (side p) (side q) with hle | hle
  · exact ⟨q, by simp, (Nat.max_eq_right hle).symm⟩
  · exact ⟨p, by simp [hp], (Nat.max_eq_left hle).symm⟩

theorem IsBounding.append_singleton (h : range.IsBounding cells) (q : Position) :
    IsBounding ⟨⟨min range.topLeft.row q.row, min range.topLeft.col q.col⟩,
      ⟨max range.bottomRight.row q.row, max range.bottomRight.col q.col⟩⟩ (cells ++ [q]) where
  holds := by
    intro p hp
    rw [contains_iff]
    dsimp only
    rcases List.mem_append.mp hp with hp | hp
    · have := contains_iff.mp (h.holds p hp)
      omega
    · obtain rfl := List.mem_singleton.mp hp
      omega
  top := exists_eq_min h.top q
  left := exists_eq_min h.left q
  bottom := exists_eq_max h.bottom q
  right := exists_eq_max h.right q

theorem isBounding_of_bounding? (h : bounding? cells = some range) : range.IsBounding cells := by
  cases cells with
  | nil => cases h
  | cons p rest =>
      obtain rfl := Option.some.inj h
      induction rest using List.reverseRecOn with
      | nil => exact ⟨by simp [single, contains], ⟨p, by simp [single]⟩, ⟨p, by simp [single]⟩,
          ⟨p, by simp [single]⟩, ⟨p, by simp [single]⟩⟩
      | append_singleton rest q ih =>
          rw [List.foldl_append]
          exact (ih rfl).append_singleton q

theorem bounding?_eq_none_iff : bounding? cells = none ↔ cells = [] := by
  cases cells <;> simp [bounding?]

end Range

end Spreadsheet
