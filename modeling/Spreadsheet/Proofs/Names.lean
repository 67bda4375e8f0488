import Spreadsheet.Proofs.Words

namespace Spreadsheet

namespace Position

theorem toNat_letter : ∀ {place : Nat}, place < 26 → (letter place).toNat = 65 + place := by
  decide

theorem columnNumber_append (letters : List Char) (c : Char) :
    columnNumber (letters ++ [c]) = 26 * columnNumber letters + (c.toNat - 'A'.toNat + 1) := by
  simp only [columnNumber, List.foldl_append, List.foldl_cons, List.foldl_nil]

theorem columnNumber_columnLetters (col : Nat) : columnNumber (columnLetters col) = col + 1 := by
  fun_induction columnLetters col with
  | case1 col hcol =>
      simp only [columnNumber, List.foldl_cons, List.foldl_nil, toNat_letter hcol,
        Char.reduceToNat]
      omega
  | case2 col hcol ih =>
      have hplace : col % 26 < 26 := Nat.mod_lt _ (by decide)
      rw [columnNumber_append, ih, toNat_letter hplace]
      simp only [Char.reduceToNat]
      omega

theorem isUpper_of_mem_columnLetters {col : Nat} {c : Char} (h : c ∈ columnLetters col) :
    c.isUpper = true := by
  fun_induction columnLetters col with
  | case1 col hcol =>
      rw [List.mem_singleton.mp h, Text.isUpper_iff, toNat_letter hcol]
      omega
  | case2 col hcol ih =>
      rcases List.mem_append.mp h with h | h
      · exact ih h
      · have hplace : col % 26 < 26 := Nat.mod_lt _ (by decide)
        rw [List.mem_singleton.mp h, Text.isUpper_iff, toNat_letter hplace]
        omega

theorem columnLetters_ne_nil (col : Nat) : columnLetters col ≠ [] := by
  rw [columnLetters]
  split <;> simp

theorem isDigit_of_mem_toDigits {n : Nat} {c : Char} (h : c ∈ Nat.toDigits 10 n) :
    c.isDigit = true :=
  Nat.isDigit_of_mem_toDigits (by decide) (by decide) h

theorem isUpper_of_isDigit {c : Char} (h : c.isDigit = true) : c.isUpper = false := by
  rw [Text.isDigit_iff] at h
  rw [← Bool.not_eq_true, Text.isUpper_iff]
  omega

theorem toList_name (p : Position) :
    p.name.toList = columnLetters p.col ++ Nat.toDigits 10 (p.row + 1) := by
  rw [name, String.toList_ofList]

theorem ofName?_name {p : Position} (hcol : p.col + 1 < coordinateLimit)
    (hrow : p.row + 1 < coordinateLimit) : ofName? p.name = some p := by
  have hhead : ∀ c ∈ (Nat.toDigits 10 (p.row + 1)).head?, c.isUpper = false := fun c hc =>
    isUpper_of_isDigit (isDigit_of_mem_toDigits (List.mem_of_mem_head? hc))
  have hupper : ∀ c ∈ columnLetters p.col, c.isUpper = true := fun c hc =>
    isUpper_of_mem_columnLetters hc
  have hletters : p.name.toList.takeWhile Char.isUpper = columnLetters p.col := by
    rw [toList_name, Text.takeWhile_append_of_head hhead, List.takeWhile_eq_self_iff.mpr hupper]
  have hdigits : p.name.toList.dropWhile Char.isUpper = Nat.toDigits 10 (p.row + 1) := by
    rw [toList_name, Text.dropWhile_append_of_head hhead, List.dropWhile_eq_nil_iff.mpr hupper,
      List.nil_append]
  have hall : (Nat.toDigits 10 (p.row + 1)).all Char.isDigit = true :=
    List.all_eq_true.mpr fun c hc => isDigit_of_mem_toDigits hc
  unfold ofName?
  simp only [hletters, hdigits, hall, columnNumber_columnLetters, Nat.ofDigitChars_ten_toDigits]
  rw [if_pos]
  · rfl
  · simp [columnLetters_ne_nil, Nat.toDigits_ne_nil, hcol, hrow]

theorem colon_not_mem_name (p : Position) : ':' ∉ p.name.toList := by
  rw [toList_name, List.mem_append]
  rintro (h | h)
  · simpa using isUpper_of_mem_columnLetters h
  · simpa using isDigit_of_mem_toDigits h

end Position

theorem Range.ofName?_name {range : Range} (hrow : range.topLeft.row ≤ range.bottomRight.row)
    (hcol : range.topLeft.col ≤ range.bottomRight.col)
    (hrows : range.bottomRight.row + 1 < coordinateLimit)
    (hcolumns : range.bottomRight.col + 1 < coordinateLimit) :
    ofName? range.name = some range := by
  have hsplit : Text.splitAt? ':' range.name =
      some (range.topLeft.name, range.bottomRight.name) :=
    Text.splitAt?_append _ range.topLeft.colon_not_mem_name
  have htop : Position.ofName? range.topLeft.name = some range.topLeft :=
    Position.ofName?_name (by omega) (by omega)
  have hbottom : Position.ofName? range.bottomRight.name = some range.bottomRight :=
    Position.ofName?_name hcolumns hrows
  have hspan : spanning range.topLeft range.bottomRight = range := by
    unfold spanning
    rw [Nat.min_eq_left hrow, Nat.min_eq_left hcol, Nat.max_eq_right hrow, Nat.max_eq_right hcol]
  unfold ofName?
  rw [hsplit]
  simp only [Option.bind_eq_bind, Option.bind_some, htop, hbottom, hspan]

end Spreadsheet
