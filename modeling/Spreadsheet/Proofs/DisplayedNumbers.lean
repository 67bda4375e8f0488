import Mathlib.Data.List.DropRight
import Mathlib.Data.Nat.Cast.Field
import Mathlib.Tactic.Linarith
import Spreadsheet.Proofs.ExactValues
import Spreadsheet.Proofs.NumberTexts
import Spreadsheet.Proofs.TypedNumbers

namespace Spreadsheet

section RoundDiv

variable {d : Nat}

theorem roundDiv_bounds (a : Nat) (hd : 0 < d) :
    2 * a ≤ 2 * (roundDiv a d * d) + d ∧ 2 * (roundDiv a d * d) ≤ 2 * a + d := by
  have hdivision := Nat.div_add_mod' a d
  have hrest := Nat.mod_lt a hd
  unfold roundDiv
  dsimp only
  split
  · omega
  · split
    · rw [Nat.add_mul, Nat.one_mul]
      omega
    · rw [Nat.add_mul]
      have hparity : a / d % 2 * d ≤ 1 * d := Nat.mul_le_mul_right d (by omega)
      omega

theorem roundDiv_mul (k : Nat) (hd : 0 < d) : roundDiv (k * d) d = k := by
  unfold roundDiv
  rw [Nat.mul_mod_left, Nat.mul_div_cancel _ hd]
  exact if_pos hd

theorem abs_roundDiv_sub_le (a : Nat) (hd : 0 < d) :
    |(roundDiv a d : ℚ) - a / d| ≤ 1 / 2 := by
  obtain ⟨hlow, hhigh⟩ := roundDiv_bounds a hd
  have hd : (0 : ℚ) < d := by exact_mod_cast hd
  have hlow : (2 * a : ℚ) ≤ 2 * (roundDiv a d * d) + d := by exact_mod_cast hlow
  have hhigh : (2 * (roundDiv a d * d) : ℚ) ≤ 2 * a + d := by exact_mod_cast hhigh
  rw [abs_le]
  constructor
  · rw [neg_le_sub_iff_le_add, div_le_iff₀ hd]
    linarith
  · rw [sub_le_iff_le_add, ← sub_le_iff_le_add', le_div_iff₀ hd]
    linarith

end RoundDiv

namespace Display

theorem ofDigitChars_paddedDigits (width n start : Nat) :
    Nat.ofDigitChars 10 (paddedDigits width n) start = start * 10 ^ width + n % 10 ^ width := by
  induction width generalizing n with
  | zero => simp [paddedDigits, Nat.mod_one]
  | succ width ih =>
      rw [paddedDigits, Nat.ofDigitChars_append, ih, Nat.ofDigitChars_cons_digitChar_of_lt_ten
        (Nat.mod_lt _ (by decide)), Nat.ofDigitChars_nil, Nat.pow_succ', Nat.mod_mul]
      ring

theorem isDigit_of_mem_paddedDigits {width n : Nat} {c : Char} (h : c ∈ paddedDigits width n) :
    c.isDigit = true := by
  induction width generalizing n with
  | zero => cases h
  | succ width ih =>
      rcases List.mem_append.mp h with h | h
      · exact ih h
      · rw [List.mem_singleton.mp h, Nat.isDigit_digitChar]
        exact decide_eq_true (Nat.mod_lt _ (by decide))

theorem length_paddedDigits (width n : Nat) : (paddedDigits width n).length = width := by
  induction width generalizing n with
  | zero => rfl
  | succ width ih => rw [paddedDigits, List.length_append, ih, List.length_singleton]

theorem dropRightWhile_append_cons {p : Char → Bool} {c : Char} (hc : p c = false)
    (before after : List Char) : Text.dropRightWhile p (before ++ c :: after) =
      before ++ c :: Text.dropRightWhile p after := by
  simp only [Text.dropRightWhile, List.reverse_append, List.reverse_cons, List.append_assoc,
    List.singleton_append, List.dropWhile_append]
  split
  · rename_i hnil
    rw [List.isEmpty_iff.mp hnil, List.dropWhile_cons_of_neg (by simpa using hc)]
    simp
  · simp

theorem dropRightWhile_point_concat {c : Char} (hc : c.isDigit = true) (before : List Char) :
    Text.dropRightWhile (· == '.') (before ++ [c]) = before ++ [c] := by
  refine dropRightWhile_append_cons (p := (· == '.')) (beq_eq_false_iff_ne.mpr ?_) before []
  rintro rfl
  cases hc

theorem signed_append (negative : Bool) (before after : List Char) :
    signed negative (before ++ after) = signed negative before ++ after := by
  cases negative <;> rfl

theorem trimmed_append_cons {whole fraction : List Char} (hne : whole ≠ [])
    (hwhole : ∀ c ∈ whole, c.isDigit = true) (hfraction : ∀ c ∈ fraction, c.isDigit = true)
    (negative : Bool) :
    let kept := Text.dropRightWhile (· == '0') fraction
    trimmed (signed negative (whole ++ '.' :: fraction)) =
      signed negative (whole ++ if kept.isEmpty then [] else '.' :: kept) := by
  intro kept
  obtain ⟨after, hafter, -⟩ := Text.exists_append_dropRightWhile (· == '0') fraction
  have hkept : ∀ c ∈ kept, c.isDigit = true := fun c hc =>
    hfraction c (hafter ▸ List.mem_append_left after hc)
  have hzeros : Text.dropRightWhile (· == '0') (signed negative (whole ++ '.' :: fraction)) =
      signed negative whole ++ '.' :: kept := by
    rw [signed_append]
    exact dropRightWhile_append_cons rfl _ fraction
  rw [trimmed, hzeros]
  obtain hnil | ⟨front, c, hlast⟩ := List.eq_nil_or_concat' kept
  · obtain ⟨front, c, rfl⟩ := (List.eq_nil_or_concat' whole).resolve_left hne
    rw [hnil, List.isEmpty_nil, if_pos rfl, List.append_nil, signed_append]
    exact (List.rdropWhile_concat_pos _ _ _ rfl).trans
      (dropRightWhile_point_concat (hwhole c (by simp)) _)
  · rw [hlast, if_neg (by simp), signed_append, ← List.cons_append, ← List.append_assoc]
    exact dropRightWhile_point_concat (hkept c (by simp [hlast])) _

theorem isDigit_of_mem_digits {n : Nat} {c : Char} (hc : c ∈ digits n) : c.isDigit = true :=
  Position.isDigit_of_mem_toDigits hc

theorem trimmed_fixedChars (x : BinaryFraction) :
    trimmed (fixedChars x) = signed x.negative (fixedDigits x) :=
  trimmed_append_cons Nat.toDigits_ne_nil (fun _ => isDigit_of_mem_digits)
    (fun _ => isDigit_of_mem_paddedDigits) x.negative

end Display

/-- A decimal numeral without a power of ten: a minus sign or none, and digits with a point among
them or without one. -/
structure PlainNumeral where
  negative : Bool
  whole : List Char
  fraction : List Char

namespace PlainNumeral

variable {units : Nat} {negative : Bool}

/-- The digits with the point, which is there if digits follow it. -/
def chars (n : PlainNumeral) : List Char :=
  n.whole ++ if n.fraction.isEmpty then [] else '.' :: n.fraction

def text (n : PlainNumeral) : String := String.ofList (Display.signed n.negative n.chars)

/-- The exact value of a numeral. -/
def value (n : PlainNumeral) : ℚ :=
  (if n.negative then -1 else 1) *
    (Numeral.ofDigits (n.whole ++ n.fraction) / 10 ^ n.fraction.length)

/-- A numeral with at most ten digits behind the point and without needless zeros at either end. -/
structure IsTidy (n : PlainNumeral) : Prop where
  whole_ne : n.whole ≠ []
  whole_isDigit : ∀ c ∈ n.whole, c.isDigit = true
  head?_eq : n.whole.head? = some '0' → n.whole = ['0']
  fraction_isDigit : ∀ c ∈ n.fraction, c.isDigit = true
  length_le : n.fraction.length ≤ 10
  getLast?_ne : n.fraction.getLast? ≠ some '0'

/-- The numeral for a number of units of the tenth decimal place. -/
def ofUnits (negative : Bool) (units : Nat) : PlainNumeral where
  negative := negative
  whole := Display.digits (units / 10 ^ 10)
  fraction := Text.dropRightWhile (· == '0') (Display.paddedDigits 10 (units % 10 ^ 10))

theorem exists_replicate (negative : Bool) (units : Nat) : ∃ zeros,
    Display.paddedDigits 10 (units % 10 ^ 10) =
      (ofUnits negative units).fraction ++ List.replicate zeros '0' ∧
    (ofUnits negative units).fraction.length + zeros = 10 := by
  obtain ⟨after, hafter, hzeros⟩ := Text.exists_append_dropRightWhile (· == '0')
    (Display.paddedDigits 10 (units % 10 ^ 10))
  have hlength := congrArg List.length hafter
  rw [Display.length_paddedDigits, List.length_append] at hlength
  refine ⟨after.length, hafter.trans (congrArg _ (List.eq_replicate_of_mem fun c hc => ?_)),
    hlength.symm⟩
  simpa using hzeros c hc

theorem ofDigits_ofUnits {zeros : Nat} (hzeros : Display.paddedDigits 10 (units % 10 ^ 10) =
    (ofUnits negative units).fraction ++ List.replicate zeros '0') :
    Numeral.ofDigits ((ofUnits negative units).whole ++ (ofUnits negative units).fraction) *
      10 ^ zeros = units := by
  rw [← Numeral.ofDigits_append_replicate, List.append_assoc, ← hzeros, Numeral.ofDigits,
    Nat.ofDigitChars_append, Display.ofDigitChars_paddedDigits]
  change Nat.ofDigitChars 10 (Nat.toDigits 10 (units / 10 ^ 10)) 0 * _ + _ = _
  rw [Nat.ofDigitChars_ten_toDigits, Nat.mod_mod, Nat.div_add_mod']

theorem value_ofUnits (negative : Bool) (units : Nat) :
    (ofUnits negative units).value = (if negative then -1 else 1) * (units / 10 ^ 10) := by
  obtain ⟨zeros, hzeros, hlength⟩ := exists_replicate negative units
  have hdigits := ofDigits_ofUnits hzeros
  have hnegative : (ofUnits negative units).negative = negative := rfl
  generalize ofUnits negative units = n at hlength hdigits hnegative ⊢
  have hscale : (10 : ℚ) ^ 10 = 10 ^ n.fraction.length * 10 ^ zeros := by rw [← pow_add, hlength]
  rw [value, hnegative, ← hdigits, hscale, Nat.cast_mul, Nat.cast_pow, Nat.cast_ofNat,
    mul_div_mul_right _ _ (pow_ne_zero zeros (by norm_num))]

theorem isTidy_ofUnits (negative : Bool) (units : Nat) : (ofUnits negative units).IsTidy where
  whole_ne := Nat.toDigits_ne_nil
  whole_isDigit := fun _ => Display.isDigit_of_mem_digits
  head?_eq := by
    intro hhead
    have hzero : units / 10 ^ 10 = 0 := by
      by_contra hne
      exact Json.Number.head?_toDigits (Nat.pos_of_ne_zero hne) hhead
    change Nat.toDigits 10 (units / 10 ^ 10) = _
    rw [hzero]
    rfl
  fraction_isDigit := by
    obtain ⟨zeros, hzeros, -⟩ := exists_replicate negative units
    intro c hc
    have hmem : c ∈ Display.paddedDigits 10 (units % 10 ^ 10) :=
      hzeros ▸ List.mem_append_left _ hc
    exact Display.isDigit_of_mem_paddedDigits hmem
  length_le := by
    obtain ⟨zeros, -, hlength⟩ := exists_replicate negative units
    exact (Nat.le_add_right _ zeros).trans hlength.le
  getLast?_ne := by
    intro hlast
    have hne : (ofUnits negative units).fraction ≠ [] := by
      rintro hnil
      simp [hnil] at hlast
    refine List.rdropWhile_last_not _ _ hne ?_
    rw [List.getLast?_eq_some_getLast hne] at hlast
    exact beq_iff_eq.mpr (Option.some.inj hlast)

theorem chars_ofUnits_eq_zero_iff : (ofUnits negative units).chars = ['0'] ↔ units = 0 := by
  constructor
  · intro hchars
    obtain ⟨zeros, hzeros, -⟩ := exists_replicate negative units
    have hdigits := ofDigits_ofUnits hzeros
    have hne := (isTidy_ofUnits negative units).whole_ne
    generalize ofUnits negative units = n at hchars hdigits hne
    obtain ⟨sign, whole, fraction⟩ := n
    obtain ⟨c, whole, rfl⟩ := List.exists_cons_of_ne_nil hne
    obtain ⟨rfl, hrest⟩ := List.cons.inj hchars
    obtain ⟨rfl, hfraction⟩ := List.append_eq_nil_iff.mp hrest
    cases fraction with
    | nil => exact hdigits.symm.trans (Nat.zero_mul _)
    | cons d fraction => cases hfraction
  · rintro rfl
    rfl

theorem IsTidy.chars_ne_cons {n : PlainNumeral} (h : n.IsTidy) (rest : List Char) :
    n.chars ≠ '-' :: rest := by
  intro hminus
  obtain ⟨c, whole, hwhole⟩ := List.exists_cons_of_ne_nil h.whole_ne
  have hdigit := h.whole_isDigit c (hwhole ▸ List.mem_cons_self)
  rw [chars, hwhole] at hminus
  obtain ⟨rfl, -⟩ := List.cons.inj hminus
  cases hdigit

theorem IsTidy.text_ne {n : PlainNumeral} (h : n.IsTidy)
    (hchars : n.negative = true → n.chars ≠ ['0']) : n.text ≠ "-0" := by
  intro htext
  have hsigned : Display.signed n.negative n.chars = ['-', '0'] :=
    String.ofList_injective (htext.trans rfl)
  cases hnegative : n.negative with
  | true =>
      rw [hnegative] at hsigned
      exact hchars hnegative (List.cons.inj hsigned).2
  | false =>
      rw [hnegative] at hsigned
      exact h.chars_ne_cons _ hsigned

theorem chars_ofUnits_mul (negative : Bool) (k : Nat) :
    (ofUnits negative (k * 10 ^ 10)).chars = Display.digits k := by
  have hfraction : (ofUnits negative (k * 10 ^ 10)).fraction = [] := by
    rw [ofUnits, Nat.mul_mod_left]
    rfl
  have hwhole : (ofUnits negative (k * 10 ^ 10)).whole = Display.digits k := by
    rw [ofUnits, Nat.mul_div_cancel _ (by decide)]
  rw [chars, hfraction, hwhole]
  exact List.append_nil _

theorem fixedDigits_eq (negative : Bool) (x : BinaryFraction) : Display.fixedDigits x =
    (ofUnits negative (roundDiv (x.numerator * 10 ^ 10) x.denominator)).chars := rfl

end PlainNumeral

namespace Display

/-- A number that is not written as a whole number is written with all places and trimmed as a
text, except that a zero loses its sign. -/
theorem finiteChars_eq_trimmed (x : BinaryFraction) : finiteChars x =
    if x.isWhole && decide (x.numerator / x.denominator < wholeLimit) then
      signed x.negative (digits (x.numerator / x.denominator))
    else if trimmed (fixedChars x) = ['-', '0'] then ['0'] else trimmed (fixedChars x) := by
  rw [trimmed_fixedChars, finiteChars]
  split
  · rfl
  · cases x.negative with
    | false =>
        rw [PlainNumeral.fixedDigits_eq false]
        exact (if_neg ((PlainNumeral.isTidy_ofUnits _ _).chars_ne_cons _)).symm
    | true => by_cases hzero : fixedDigits x = ['0'] <;> simp [signed, hzero]

end Display

namespace BinaryFraction

variable {f : BinaryFraction}

/-- The number of units of the tenth decimal place that is nearest to the magnitude. -/
def units (f : BinaryFraction) : Nat := roundDiv (f.numerator * 10 ^ 10) f.denominator

theorem denominator_pos (f : BinaryFraction) : 0 < f.denominator := by
  rw [denominator, Nat.shiftLeft_eq, Nat.one_mul]
  exact Nat.two_pow_pos _

theorem abs_units_sub_le (f : BinaryFraction) :
    |(f.units : ℚ) / 10 ^ 10 - f.magnitude| ≤ 5 / 10 ^ 11 := by
  have hround := abs_roundDiv_sub_le (f.numerator * 10 ^ 10) f.denominator_pos
  have hscale : (f.units : ℚ) / 10 ^ 10 - f.magnitude =
      ((f.units : ℚ) - (f.numerator * 10 ^ 10 : Nat) / f.denominator) / 10 ^ 10 := by
    rw [magnitude_eq]
    push_cast
    ring
  rw [hscale, abs_div, abs_of_pos (by norm_num : (0 : ℚ) < 10 ^ 10), div_le_iff₀ (by norm_num)]
  exact hround.trans (by norm_num)

theorem units_eq {k : Nat} (h : f.magnitude = k) : f.units = k * 10 ^ 10 := by
  have hdenominator : (f.denominator : ℚ) ≠ 0 := by exact_mod_cast f.denominator_pos.ne'
  rw [magnitude_eq, div_eq_iff hdenominator] at h
  have hnumerator : f.numerator = k * f.denominator := by exact_mod_cast h
  rw [units, hnumerator, Nat.mul_right_comm, roundDiv_mul _ f.denominator_pos]

theorem magnitude_of_isWhole (h : f.isWhole = true) :
    f.magnitude = (f.numerator / f.denominator : Nat) := by
  have hdvd : f.denominator ∣ f.numerator := Nat.dvd_of_mod_eq_zero (beq_iff_eq.mp h)
  rw [magnitude_eq, Nat.cast_div hdvd (by exact_mod_cast f.denominator_pos.ne')]

theorem magnitude_eq_zero_iff (f : BinaryFraction) : f.magnitude = 0 ↔ f.mantissa = 0 := by
  rw [magnitude, mul_eq_zero, Nat.cast_eq_zero, or_iff_left (zpow_ne_zero _ two_ne_zero)]

/-- The numeral of the units, with a minus sign only if there are any. -/
def numeral (f : BinaryFraction) : PlainNumeral :=
  .ofUnits (f.negative && decide (f.units ≠ 0)) f.units

/-- Whichever way a number is written, what is written is the numeral of its units. -/
theorem finiteChars_eq (f : BinaryFraction) (hzero : f.negative = true → f.mantissa ≠ 0) :
    Display.finiteChars f = Display.signed f.numeral.negative f.numeral.chars := by
  change _ = Display.signed (f.negative && decide (f.units ≠ 0)) (PlainNumeral.chars (.ofUnits _ _))
  generalize hsign : (f.negative && decide (f.units ≠ 0)) = sign
  unfold Display.finiteChars
  split
  · rename_i hwhole
    have hmagnitude := magnitude_of_isWhole (Bool.and_eq_true _ _ ▸ hwhole).1
    have hunits := units_eq hmagnitude
    have hnegative : f.negative = sign := by
      rw [← hsign, hunits]
      cases hnegative : f.negative with
      | false => rfl
      | true =>
          have hne := mt (magnitude_eq_zero_iff f).mp (hzero hnegative)
          rw [hmagnitude, Nat.cast_eq_zero] at hne
          simp [hne]
    rw [hnegative, hunits, PlainNumeral.chars_ofUnits_mul]
  · dsimp only
    have hunits : (Display.fixedDigits f != ['0']) = decide (f.units ≠ 0) := by
      rw [PlainNumeral.fixedDigits_eq sign, Bool.eq_iff_iff, bne_iff_ne, decide_eq_true_iff]
      exact not_congr PlainNumeral.chars_ofUnits_eq_zero_iff
    rw [hunits, hsign]
    rfl

theorem value_numeral (f : BinaryFraction) :
    f.numeral.value = (if f.negative then -1 else 1) * (f.units / 10 ^ 10) := by
  rw [numeral, PlainNumeral.value_ofUnits]
  by_cases hunits : f.units = 0
  · rw [hunits, Nat.cast_zero, zero_div, mul_zero, mul_zero]
  · rw [decide_eq_true hunits, Bool.and_true]

theorem text_numeral_ne (f : BinaryFraction) : f.numeral.text ≠ "-0" := by
  refine (PlainNumeral.isTidy_ofUnits _ _).text_ne fun hnegative => ?_
  rw [ne_eq, PlainNumeral.chars_ofUnits_eq_zero_iff]
  exact of_decide_eq_true (Bool.and_eq_true _ _ ▸ hnegative).2

end BinaryFraction

/-- A finite number other than the negative zero is shown as a plain numeral with at most ten places
behind the point, which is at most half of the last of them away and exact for whole numbers. -/
theorem exists_displayNumber_eq_text {x : Float} (hfinite : x.isFinite = true) (hx : x ≠ -0.0) :
    ∃ n : PlainNumeral, displayNumber x = n.text ∧ n.IsTidy ∧ displayNumber x ≠ "-0" ∧
      |n.value - exactValue x| ≤ 5 / 10 ^ 11 ∧
      ((∃ k : ℤ, exactValue x = k) → n.value = exactValue x) := by
  obtain ⟨f, hf⟩ : ∃ f, BinaryFraction.ofFloat? x = some f := by
    rw [← Option.ne_none_iff_exists', ne_eq, BinaryFraction.ofFloat?_eq_none_iff, hfinite]
    exact Bool.noConfusion
  have htext : displayNumber x = f.numeral.text := by
    rw [displayNumber, hf]
    exact congrArg String.ofList (f.finiteChars_eq (BinaryFraction.mantissa_ne_zero hf hx))
  have hexact := BinaryFraction.exactValue_eq hf
  have hone : |(if f.negative then -1 else 1 : ℚ)| = 1 := by
    split
    · rw [abs_neg, abs_one]
    · exact abs_one
  refine ⟨f.numeral, htext, PlainNumeral.isTidy_ofUnits _ _, htext ▸ f.text_numeral_ne, ?_, ?_⟩
  · rw [f.value_numeral, hexact, ← mul_sub, abs_mul, hone, one_mul]
    exact f.abs_units_sub_le
  · rintro ⟨k, hk⟩
    have hmagnitude : f.magnitude = k.natAbs := by
      have hmagnitude : |exactValue x| = f.magnitude := by
        rw [hexact, abs_mul, hone, one_mul, abs_of_nonneg]
        exact mul_nonneg (Nat.cast_nonneg _) (zpow_pos two_pos _).le
      rw [← hmagnitude, hk, Nat.cast_natAbs, Int.cast_abs]
    rw [f.value_numeral, hexact, hmagnitude, BinaryFraction.units_eq hmagnitude, Nat.cast_mul,
      Nat.cast_pow, Nat.cast_ofNat, mul_div_cancel_right₀ _ (pow_ne_zero 10 (by norm_num))]

theorem exists_displayNumber_eq_text_carry :
    let x : Float := 0.99999999999
    x.isFinite = true ∧ x ≠ -0.0 ∧ displayNumber x = "1" ∧
      ∃ n : PlainNumeral, n.text = "1" ∧ n.IsTidy ∧ |n.value - exactValue x| ≤ 5 / 10 ^ 11 := by
  intro x
  have hfinite : x.isFinite = true := by decide +kernel
  have hx : x ≠ -0.0 := by decide +kernel
  have hshown : displayNumber x = "1" := by decide +kernel
  obtain ⟨n, htext, htidy, -, hbound, -⟩ := exists_displayNumber_eq_text hfinite hx
  exact ⟨hfinite, hx, hshown, n, htext.symm.trans hshown, htidy, hbound⟩

end Spreadsheet
