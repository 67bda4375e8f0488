import Mathlib.Data.List.Induction
import Mathlib.Data.Nat.Digits.Defs
import Spreadsheet.Position.Procedure
import Spreadsheet.Proofs.Names

namespace Spreadsheet

namespace Coordinate

variable {base start digit : Nat} {digits : List Nat}

theorem push?_eq : push? base start digit = within? (base * start + digit) := by
  rw [push?, Nat.mul_comm]
  by_cases h : base * start < coordinateLimit
  · rw [within?_of_lt h]
    rfl
  · rw [within?, if_neg h, within?, if_neg (by omega)]
    rfl

theorem le_foldl (hbase : 0 < base) (digits : List Nat) (start : Nat) :
    start ≤ digits.foldl (fun number digit => base * number + digit) start := by
  induction digits generalizing start with
  | nil => exact le_rfl
  | cons digit digits ih =>
      have hstep : start ≤ base * start := Nat.le_mul_of_pos_left start hbase
      exact (Nat.le_add_right_of_le hstep).trans (ih (base * start + digit))

theorem foldlM_push? (hbase : 0 < base) (hstart : start < coordinateLimit) :
    digits.foldlM (push? base) start =
      within? (digits.foldl (fun number digit => base * number + digit) start) := by
  induction digits generalizing start with
  | nil => exact (within?_of_lt hstart).symm
  | cons digit digits ih =>
      rw [List.foldlM_cons, List.foldl_cons, push?_eq]
      by_cases h : base * start + digit < coordinateLimit
      · rw [within?_of_lt h]
        exact ih h
      · -- the number has reached the limit, and further digits only make it larger
        have hrest := le_foldl hbase digits (base * start + digit)
        rw [within?, if_neg h, within?, if_neg (by omega)]
        rfl

theorem accumulate?_eq (hbase : 0 < base) (digits : List Nat) : accumulate? base digits =
    within? (digits.foldl (fun number digit => base * number + digit) 0) :=
  foldlM_push? hbase (by decide)

/-- Some step on the way fails exactly if the number of all digits reaches the limit. -/
theorem accumulate?_eq_none_iff (hbase : 0 < base) : accumulate? base digits = none ↔
    coordinateLimit ≤ digits.foldl (fun number digit => base * number + digit) 0 := by
  rw [accumulate?_eq hbase, within?]
  split <;> simp_all

end Coordinate

namespace Position

/-- The number that characters stand for in a base, where each counts its distance from the one
that would stand for zero. -/
def numberIn (base : Nat) (zero : Char) (cs : List Char) : Nat :=
  Nat.ofDigits base (cs.reverse.map fun c => c.toNat - zero.toNat)

theorem numberIn_append (base : Nat) (zero : Char) (cs : List Char) (c : Char) :
    numberIn base zero (cs ++ [c]) = base * numberIn base zero cs + (c.toNat - zero.toNat) := by
  rw [numberIn, List.reverse_append, List.reverse_singleton, List.singleton_append, List.map_cons,
    Nat.ofDigits_cons, numberIn, Nat.add_comm]

variable {letters digits : List Char} {start : Nat} {c : Char} {text : String} {p : Position}

theorem columnNumber_eq (hletters : ∀ c ∈ letters, c.isUpper = true) :
    columnNumber letters = numberIn 26 '@' letters := by
  induction letters using List.reverseRecOn with
  | nil => rfl
  | append_singleton letters c ih =>
      obtain ⟨hletters, hc⟩ := List.forall_mem_append.mp hletters
      have hupper := Text.isUpper_iff.mp (hc c List.mem_cons_self)
      rw [columnNumber_append, numberIn_append, ih hletters]
      simp only [Char.reduceToNat]
      omega

theorem ofDigitChars_eq (digits : List Char) :
    Nat.ofDigitChars 10 digits 0 = numberIn 10 '0' digits := by
  induction digits using List.reverseRecOn with
  | nil => rfl
  | append_singleton digits c ih =>
      rw [Nat.ofDigitChars_append, ih, numberIn_append, Nat.ofDigitChars_cons,
        Nat.ofDigitChars_nil]

theorem letter_toNat (hc : c.isUpper = true) : letter (c.toNat - 65) = c := by
  have hupper := Text.isUpper_iff.mp hc
  have hcode : 'A'.toNat + (c.toNat - 65) = c.toNat := by
    simp only [Char.reduceToNat]
    omega
  rw [letter, hcode, Char.ofNat_toNat]

theorem columnNumber_pos (hne : letters ≠ []) : 0 < columnNumber letters := by
  rw [← List.dropLast_concat_getLast hne, columnNumber_append]
  exact Nat.succ_pos _

theorem columnLetters_columnNumber (hne : letters ≠ [])
    (hletters : ∀ c ∈ letters, c.isUpper = true) :
    columnLetters (columnNumber letters - 1) = letters := by
  induction letters using List.reverseRecOn with
  | nil => exact absurd rfl hne
  | append_singleton letters c ih =>
      obtain ⟨hletters, hc⟩ := List.forall_mem_append.mp hletters
      have hc := hc c List.mem_cons_self
      have hplace : c.toNat - 65 < 26 := by
        have := Text.isUpper_iff.mp hc
        omega
      have hnumber : columnNumber (letters ++ [c]) - 1 =
          26 * columnNumber letters + (c.toNat - 65) := by
        rw [columnNumber_append]
        rfl
      rw [hnumber]
      cases letters with
      | nil =>
          rw [columnLetters, if_pos (by simpa [columnNumber] using hplace)]
          simpa [columnNumber] using letter_toNat hc
      | cons first letters =>
          have hpos := columnNumber_pos (List.cons_ne_nil first letters)
          rw [columnLetters, if_neg (by omega), Nat.mul_add_mod, Nat.mod_eq_of_lt hplace,
            Nat.mul_add_div (by decide), Nat.div_eq_of_lt hplace, Nat.add_zero,
            ih (List.cons_ne_nil _ _) hletters, letter_toNat hc]

/-- A name is read digit by digit as its two numbers are compared with the limit. -/
theorem parse?_eq (name : String) : parse? name = ofName? name := by
  unfold parse? ofName?
  dsimp only
  generalize name.toList.takeWhile Char.isUpper = letters
  generalize name.toList.dropWhile Char.isUpper = digits
  have hcol : Coordinate.accumulate? 26 (letters.map fun c => c.toNat - 'A'.toNat + 1) =
      Coordinate.within? (columnNumber letters) := by
    rw [Coordinate.accumulate?_eq (by decide), List.foldl_map]
    rfl
  have hrow : Coordinate.accumulate? 10 (digits.map fun c => c.toNat - '0'.toNat) =
      Coordinate.within? (Nat.ofDigitChars 10 digits 0) := by
    rw [Coordinate.accumulate?_eq (by decide), List.foldl_map]
    rfl
  rw [hcol, hrow]
  by_cases hshape : (!letters.isEmpty && !digits.isEmpty && digits.all Char.isDigit) = true
  · have hne : columnNumber letters ≠ 0 :=
      Nat.ne_of_gt (columnNumber_pos (by rintro rfl; cases hshape))
    rw [hshape, if_pos rfl]
    generalize columnNumber letters = col at hne ⊢
    generalize Nat.ofDigitChars 10 digits 0 = row
    by_cases hc : col < coordinateLimit <;> by_cases hr : row < coordinateLimit <;>
      by_cases hzero : row = 0 <;>
        simp [Coordinate.within?, Coordinate.difference?, hc, hr, hzero, hne,
          Nat.one_le_iff_ne_zero, Nat.pos_iff_ne_zero]
  · rw [Bool.not_eq_true] at hshape
    rw [hshape]
    rfl

theorem toNat_sub_lt (hc : c.isDigit = true) : c.toNat - '0'.toNat < 10 := by
  have := Text.isDigit_iff.mp hc
  simp only [Char.reduceToNat]
  omega

theorem digitChar_toNat (hc : c.isDigit = true) : (c.toNat - '0'.toNat).digitChar = c := by
  have hdigit := Text.isDigit_iff.mp hc
  rw [← Char.toNat_inj, Nat.toNat_digitChar_of_lt_ten (toNat_sub_lt hc)]
  simp only [Char.reduceToNat]
  omega

theorem toDigits_append (hstart : 0 < start) (hdigits : ∀ c ∈ digits, c.isDigit = true) :
    Nat.toDigits 10 start ++ digits = Nat.toDigits 10 (Nat.ofDigitChars 10 digits start) := by
  induction digits generalizing start with
  | nil => rw [List.append_nil, Nat.ofDigitChars_nil]
  | cons c digits ih =>
      obtain ⟨hc, hdigits⟩ := List.forall_mem_cons.mp hdigits
      have hplace := toNat_sub_lt hc
      have hstep := Nat.toDigits_append_toDigits (b := 10) (by decide) hstart hplace
      rw [Nat.toDigits_of_lt_base hplace, digitChar_toNat hc] at hstep
      rw [Nat.ofDigitChars_cons, ← ih (by omega) hdigits, ← hstep, List.append_assoc,
        List.singleton_append]

theorem toDigits_ofDigitChars (hdigits : ∀ c ∈ digits, c.isDigit = true)
    (hpos : 0 < Nat.ofDigitChars 10 digits 0) :
    Nat.toDigits 10 (Nat.ofDigitChars 10 digits 0) = digits.dropWhile (· == '0') := by
  induction digits with
  | nil => cases hpos
  | cons c digits ih =>
      obtain ⟨hc, hrest⟩ := List.forall_mem_cons.mp hdigits
      rw [Nat.ofDigitChars_cons] at hpos ⊢
      by_cases hzero : c = '0'
      · subst hzero
        exact ih hrest hpos
      · have hstart : 0 < c.toNat - '0'.toNat := by
          have hcode : c.toNat ≠ '0'.toNat := mt Char.toNat_inj.mp hzero
          have := Text.isDigit_iff.mp hc
          simp only [Char.reduceToNat] at hcode ⊢
          omega
        rw [Nat.mul_zero, Nat.zero_add, ← toDigits_append hstart hrest,
          Nat.toDigits_of_lt_base (toNat_sub_lt hc), digitChar_toNat hc,
          List.dropWhile_cons_of_neg (by simpa using hzero), List.singleton_append]

/-- A text of capital letters and then digits, neither missing and neither with a number beyond the
limit, where the digits have another number than zero. -/
structure IsSpelled (text : String) (letters digits : List Char) : Prop where
  toList_eq : text.toList = letters ++ digits
  letters_ne : letters ≠ []
  digits_ne : digits ≠ []
  letter : ∀ c ∈ letters, 'A' ≤ c ∧ c ≤ 'Z'
  digit : ∀ c ∈ digits, '0' ≤ c ∧ c ≤ '9'
  letters_le : numberIn 26 '@' letters ≤ 2 ^ 64 - 1
  digits_pos : 1 ≤ numberIn 10 '0' digits
  digits_le : numberIn 10 '0' digits ≤ 2 ^ 64 - 1

theorem isUpper_iff_le : c.isUpper = true ↔ 'A' ≤ c ∧ c ≤ 'Z' := by
  rw [Text.isUpper_iff]
  exact Iff.rfl

theorem isDigit_iff_le : c.isDigit = true ↔ '0' ≤ c ∧ c ≤ '9' := by
  rw [Text.isDigit_iff]
  exact Iff.rfl

theorem IsSpelled.split (h : IsSpelled text letters digits) :
    text.toList.takeWhile Char.isUpper = letters ∧ text.toList.dropWhile Char.isUpper = digits := by
  have hletters : ∀ c ∈ letters, c.isUpper = true := fun c hc => isUpper_iff_le.mpr (h.letter c hc)
  have hhead : ∀ c ∈ digits.head?, c.isUpper = false := fun c hc =>
    isUpper_of_isDigit (isDigit_iff_le.mpr (h.digit c (List.mem_of_mem_head? hc)))
  rw [h.toList_eq, Text.takeWhile_append_of_head hhead, Text.dropWhile_append_of_head hhead,
    List.takeWhile_eq_self_iff.mpr hletters, List.dropWhile_eq_nil_iff.mpr hletters]
  exact ⟨rfl, rfl⟩

theorem isSpelled_iff (text : String) :
    let letters := text.toList.takeWhile Char.isUpper
    let digits := text.toList.dropWhile Char.isUpper
    (!letters.isEmpty && !digits.isEmpty && digits.all Char.isDigit &&
      decide (columnNumber letters < coordinateLimit) &&
      decide (0 < Nat.ofDigitChars 10 digits 0) &&
      decide (Nat.ofDigitChars 10 digits 0 < coordinateLimit)) = true ↔
        IsSpelled text letters digits := by
  intro letters digits
  have hletters : ∀ c ∈ letters, c.isUpper = true := fun c hc => List.mem_takeWhile_imp hc
  rw [columnNumber_eq hletters, ofDigitChars_eq]
  simp only [Bool.and_eq_true, Bool.not_eq_true', List.isEmpty_eq_false_iff, List.all_eq_true,
    decide_eq_true_eq]
  constructor
  · rintro ⟨⟨⟨⟨⟨hletters_ne, hdigits_ne⟩, hdigits⟩, hcol⟩, hpos⟩, hrow⟩
    exact ⟨List.takeWhile_append_dropWhile.symm, hletters_ne, hdigits_ne,
      fun c hc => isUpper_iff_le.mp (hletters c hc),
      fun c hc => isDigit_iff_le.mp (hdigits c hc), Nat.le_pred_of_lt hcol, hpos,
      Nat.le_pred_of_lt hrow⟩
  · intro h
    exact ⟨⟨⟨⟨⟨h.letters_ne, h.digits_ne⟩, fun c hc => isDigit_iff_le.mpr (h.digit c hc)⟩,
      Nat.lt_of_le_pred (by decide) h.letters_le⟩, h.digits_pos⟩,
      Nat.lt_of_le_pred (by decide) h.digits_le⟩

theorem IsSpelled.ofName?_eq (h : IsSpelled text letters digits) :
    ofName? text = some ⟨numberIn 10 '0' digits - 1, numberIn 26 '@' letters - 1⟩ := by
  have hspelled := isSpelled_iff text
  obtain ⟨hletters, hdigits⟩ := h.split
  dsimp only at hspelled
  unfold ofName?
  dsimp only
  rw [if_pos (hspelled.mpr (by rwa [hletters, hdigits])), hletters, hdigits, ofDigitChars_eq,
    columnNumber_eq fun c hc => isUpper_iff_le.mpr (h.letter c hc)]

theorem exists_isSpelled (h : ofName? text = some p) :
    ∃ letters digits, IsSpelled text letters digits := by
  unfold ofName? at h
  dsimp only at h
  rw [Option.ite_none_right_eq_some] at h
  exact ⟨_, _, (isSpelled_iff text).mp h.1⟩

theorem IsSpelled.toList_name (h : IsSpelled text letters digits) (hread : ofName? text = some p) :
    p.name.toList = letters ++ digits.dropWhile (· == '0') := by
  have hupper : ∀ c ∈ letters, c.isUpper = true := fun c hc => isUpper_iff_le.mpr (h.letter c hc)
  have hdigits : ∀ c ∈ digits, c.isDigit = true := fun c hc => isDigit_iff_le.mpr (h.digit c hc)
  obtain rfl := Option.some.inj (h.ofName?_eq.symm.trans hread)
  rw [Position.toList_name, ← columnNumber_eq hupper, Nat.sub_add_cancel h.digits_pos,
    columnLetters_columnNumber h.letters_ne hupper, ← ofDigitChars_eq,
    toDigits_ofDigitChars hdigits (ofDigitChars_eq digits ▸ h.digits_pos)]

/-- Positions within the limits are read back from their names, and exactly the texts that spell a
name within the limits are read, as positions whose names are these texts without zeros in front of
the digits. -/
theorem ofName?_name_and_iff :
    (∀ p : Position, p.row < 2 ^ 64 - 1 → p.col < 2 ^ 64 - 1 → ofName? p.name = some p) ∧
    ∀ text : String,
      ((∃ p, ofName? text = some p) ↔ ∃ letters digits, IsSpelled text letters digits) ∧
      ∀ p letters digits, ofName? text = some p → IsSpelled text letters digits →
        p.name = String.ofList (letters ++ digits.dropWhile (· == '0')) := by
  refine ⟨fun p hrow hcol => ?_, fun text => ⟨?_, fun p letters digits hread hspelled => ?_⟩⟩
  · exact ofName?_name (Nat.add_lt_of_lt_sub hcol) (Nat.add_lt_of_lt_sub hrow)
  · constructor
    · rintro ⟨p, hread⟩
      exact exists_isSpelled hread
    · rintro ⟨letters, digits, hspelled⟩
      exact ⟨_, hspelled.ofName?_eq⟩
  · rw [← hspelled.toList_name hread, String.ofList_toList]

theorem ofName?_name_and_iff_edges :
    let last : Position := ⟨2 ^ 64 - 2, 2 ^ 64 - 2⟩
    ofName? last.name = some last ∧
      ofName? "XFD0017" = some ⟨16, 16383⟩ ∧
      IsSpelled "XFD0017" ['X', 'F', 'D'] ['0', '0', '1', '7'] ∧
      (⟨16, 16383⟩ : Position).name = "XFD17" := by
  intro last
  have hread : ofName? "XFD0017" = some ⟨16, 16383⟩ := by decide
  have hspelled : IsSpelled "XFD0017" ['X', 'F', 'D'] ['0', '0', '1', '7'] :=
    { toList_eq := rfl
      letters_ne := List.cons_ne_nil _ _
      digits_ne := List.cons_ne_nil _ _
      letter := by simp
      digit := by simp
      letters_le := by decide
      digits_pos := by decide
      digits_le := by decide }
  obtain ⟨hback, hall⟩ := ofName?_name_and_iff
  exact ⟨hback last (by decide) (by decide), hread, hspelled, (hall _).2 _ _ _ hread hspelled⟩

end Position

end Spreadsheet
