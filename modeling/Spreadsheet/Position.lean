import Std.Data.ExtTreeMap
import Std.Data.ExtTreeSet

namespace Spreadsheet

/-- The place of a cell, given by the number of rows above it and of columns to its left. -/
structure Position where
  row : Nat
  col : Nat
deriving DecidableEq, Repr, Inhabited

namespace Position

instance : Ord Position where
  compare := compareLex (compareOn row) (compareOn col)

instance : Std.TransOrd Position :=
  inferInstanceAs (Std.TransCmp (compareLex (compareOn row) (compareOn col)))

instance : Std.LawfulEqOrd Position where
  eq_of_compare {a b} h := by
    have h' : (compare a.row b.row).then (compare a.col b.col) = .eq := h
    rw [Ordering.then_eq_eq, Nat.compare_eq_eq, Nat.compare_eq_eq] at h'
    cases a
    cases b
    simp_all

instance : LT Position := ltOfOrd

theorem lt_iff {a b : Position} : a < b ↔ a.row < b.row ∨ (a.row = b.row ∧ a.col < b.col) := by
  change (compare a.row b.row).then (compare a.col b.col) = .lt ↔ _
  rw [Ordering.then_eq_lt, Nat.compare_eq_lt, Nat.compare_eq_eq, Nat.compare_eq_lt]

theorem size_erase_lt {β : Type} {m : Std.ExtTreeMap Position β} {p : Position} (h : p ∈ m) :
    (m.erase p).size < m.size := by
  have hcontains : m.contains p = true := h
  have hne : m.size ≠ 0 := by
    intro hsize
    rw [← Std.ExtTreeMap.eq_empty_iff_size_eq_zero] at hsize
    rw [hsize] at h
    exact Std.ExtTreeMap.not_mem_empty h
  rw [Std.ExtTreeMap.size_erase, if_pos hcontains]
  omega

end Position

end Spreadsheet
