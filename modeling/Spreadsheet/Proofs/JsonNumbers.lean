import Spreadsheet.Proofs.NumberTexts
import Spreadsheet.Proofs.Rounding

namespace Spreadsheet.Json

open Rounding

namespace Number

variable {n : Number} {digits text : List Char}

theorem le_ofDigitChars {start : Nat} : start ≤ Nat.ofDigitChars 10 digits start := by
  rw [Nat.ofDigitChars_eq_ofDigitChars_zero]
  have := Nat.le_mul_of_pos_left start (Nat.pow_pos (n := digits.length) (by decide : 0 < 10))
  omega

theorem absorb_of_lt {start : Nat} (h : Nat.ofDigitChars 10 digits start < limit) :
    absorb start digits = (Nat.ofDigitChars 10 digits start, []) := by
  induction digits generalizing start with
  | nil => rfl
  | cons d digits ih =>
      rw [Nat.ofDigitChars_cons] at h ⊢
      rw [absorb, if_pos (le_ofDigitChars.trans_lt h), ih h]

theorem absorb_le {start significand : Nat} {left : List Char} (hstart : start < limit)
    (h : absorb start digits = (significand, left)) :
    significand < limit ∧ left.length ≤ digits.length ∧
      significand * 10 ^ left.length ≤ Nat.ofDigitChars 10 digits start := by
  induction digits generalizing start with
  | nil =>
      obtain ⟨rfl, rfl⟩ := Prod.mk.inj h
      exact ⟨hstart, le_refl _, by simp⟩
  | cons d digits ih =>
      rw [absorb] at h
      split at h
      · rename_i hnext
        rw [Nat.ofDigitChars_cons]
        obtain ⟨hsmall, hlength, hvalue⟩ := ih hnext h
        exact ⟨hsmall, Nat.le_succ_of_le hlength, hvalue⟩
      · obtain ⟨rfl, rfl⟩ := Prod.mk.inj h
        refine ⟨hstart, le_refl _, ?_⟩
        rw [Nat.ofDigitChars_eq_ofDigitChars_zero, Nat.mul_comm]
        exact Nat.le_add_right _ _

theorem isSome_scale?_of_neg {x : Float} {power : Int} (h : power < 0) :
    (scale? x power).isSome = true := by
  induction x, power using scale?.induct with
  | case1 x power _ hle | case2 x power _ hle | case5 x power _ _ hle => omega
  | case3 x power hsmall hneg =>
      rw [scale?, if_pos hsmall, if_neg hneg]
      rfl
  | case4 x power hlarge hzero =>
      rw [scale?, if_neg hlarge, if_pos hzero]
      rfl
  | case6 x power hlarge hzero hneg ih =>
      rw [scale?, if_neg hlarge, if_neg hzero, if_neg hneg]
      refine ih ?_
      simp only [maxPower] at *
      omega

theorem scale?_of_isInf_eq {x : Float} {power : Nat} (hsmall : power ≤ maxPower)
    (hproduct : (x * powerOfTen power).isInf = false) :
    scale? x power = some (x * powerOfTen power) := by
  rw [scale?, Int.natAbs_natCast, if_pos hsmall, if_pos (Int.natCast_nonneg power)]
  dsimp only
  rw [hproduct, if_neg Bool.false_ne_true]

theorem isInf_zero_mul {y : Float} {bound : ℚ} (h : IsAtMost y bound) :
    (Float.ofNat 0 * y).isInf = false := by
  obtain ⟨sign, m, e, hpos, hunpack, -⟩ := h
  have hzero : Float.ofNat 0 = Float.ofBits 0 := by decide +kernel
  have hproduct : Float.ofBits 0 * y =
      .ofModel (.pack (Float.Model.UnpackedFloat.mul .binary64 (.zero .positive)
        y.toModel.unpack)) := rfl
  have hmul : Float.Model.UnpackedFloat.mul .binary64 (.zero .positive) (.finite sign m e hpos) =
      .zero (.positive * sign) := rfl
  rw [hzero, hproduct, hunpack, hmul]
  cases sign <;> rfl

theorem isSome_scale?_zero (power : Nat) : (scale? (Float.ofNat 0) power).isSome = true := by
  by_cases hsmall : power ≤ maxPower
  · rw [scale?_of_isInf_eq hsmall (isInf_zero_mul (isAtMost_powerOfTen hsmall))]
    rfl
  · rw [scale?, Int.natAbs_natCast, if_neg hsmall, if_pos (by decide +kernel)]
    rfl

theorem le_maxPower {power : Nat} (h : 10 ^ power < 2 ^ 1024) : power ≤ maxPower := by
  -- a literal power of ten here would be computed while the statements are elaborated
  obtain ⟨bound, hbound⟩ : ∃ bound, bound = maxPower + 1 := ⟨_, rfl⟩
  have hceiling : 2 ^ 1024 ≤ 10 ^ bound := by
    rw [hbound]
    decide +kernel
  have hlt : power < bound := (Nat.pow_lt_pow_iff_right (by decide)).mp (h.trans_le hceiling)
  omega

/-- A significand and a power of ten are read as a double if four roundings do not take their
product beyond all doubles. -/
theorem isSome_scale?_of_lt {significand power : Nat} (hlimit : significand < limit)
    (h : significand * 10 ^ power * growth ^ 4 < ceiling) :
    (scale? (Float.ofNat significand) power).isSome = true := by
  rcases Nat.eq_zero_or_pos significand with rfl | hpos
  · exact isSome_scale?_zero power
  · have hvalue : ((significand * 10 ^ power : Nat) : ℚ) < ceiling := by
      refine lt_of_le_of_lt ?_ h
      push_cast
      exact le_mul_of_one_le_right (by positivity) (one_le_pow₀ one_le_growth)
    have hsmall : power ≤ maxPower := by
      rw [ceiling_eq, Nat.cast_lt] at hvalue
      exact le_maxPower ((Nat.le_mul_of_pos_left _ hpos).trans_lt hvalue)
    have hproduct := (isAtMost_ofNat hpos hlimit).mul (isAtMost_powerOfTen hsmall)
      (lt_of_eq_of_lt (by ring) h)
    rw [scale?_of_isInf_eq hsmall hproduct.isInf_eq]
    rfl

theorem isSome_toFloat? (hwhole : Numeral.ofDigits n.whole < limit)
    (h : n.value * growth ^ 4 < ceiling) : n.toFloat?.isSome = true := by
  rcases hleft : absorb (Numeral.ofDigits n.whole) n.fraction with ⟨significand, dropped⟩
  obtain ⟨hlimit, hlength, hdigits⟩ := absorb_le hwhole hleft
  have hhigh : absorb 0 n.whole = (Numeral.ofDigits n.whole, []) := absorb_of_lt hwhole
  unfold toFloat?
  rw [hhigh]
  dsimp only
  rw [hleft, Option.isSome_map]
  dsimp only
  obtain ⟨power, hpower⟩ : ∃ power : Int, power = n.power - n.fraction.length + dropped.length :=
    ⟨_, rfl⟩
  rw [show ((([] : List Char).length : Int) - (n.fraction.length - dropped.length : Nat) + n.power)
    = power by simp only [List.length_nil]; omega]
  rcases lt_or_ge power 0 with hneg | hle
  · exact isSome_scale?_of_neg hneg
  · obtain ⟨exponent, rfl⟩ := Int.eq_ofNat_of_zero_le hle
    refine isSome_scale?_of_lt hlimit (lt_of_le_of_lt ?_ h)
    refine mul_le_mul_of_nonneg_right ?_ (pow_nonneg growth_pos.le 4)
    have hcast : (significand * 10 ^ dropped.length : ℚ) ≤
        Numeral.ofDigits (n.whole ++ n.fraction) := by
      rw [Numeral.ofDigits, Nat.ofDigitChars_append]
      exact_mod_cast hdigits
    calc (significand * 10 ^ exponent : ℚ)
        = significand * 10 ^ dropped.length * 10 ^ (n.power - n.fraction.length) := by
          rw [mul_assoc, ← zpow_natCast, ← zpow_natCast, ← zpow_add₀ (by norm_num)]
          congr 2
          omega
      _ ≤ n.value := mul_le_mul_of_nonneg_right hcast (zpow_nonneg (by norm_num) _)

theorem IsReadAs.exists_isSome_toFloat? {value : ℚ} (h : IsReadAs text value)
    (hvalue : value * growth ^ 4 < ceiling) :
    ∃ n, ofChars? text = some n ∧ n.negative = false ∧ n.toFloat?.isSome = true := by
  obtain ⟨n, hn, hnegative, hwhole, rfl⟩ := h
  exact ⟨n, hn, hnegative, isSome_toFloat? hwhole hvalue⟩

theorem negative_of_ofChars? (h : ofChars? text = some n) : n.negative = (splitMinus text).1 := by
  unfold ofChars? at h
  dsimp only at h
  split at h
  · obtain ⟨power, -, rfl⟩ := Option.map_eq_some_iff.mp h
    rfl
  · cases h

theorem ofChars?_minus (h : (splitMinus text).1 = false) :
    ofChars? ('-' :: text) = (ofChars? text).map fun n => { n with negative := true } := by
  have hsign : splitMinus text = (false, text) := by
    unfold splitMinus at h ⊢
    split at h
    · cases h
    · rfl
  have hminus : splitMinus ('-' :: text) = (true, text) := rfl
  unfold ofChars?
  rw [hsign, hminus]
  dsimp only
  split
  · rw [Option.map_map]
    rfl
  · rfl

theorem isSome_toFloat?_minus (hn : ofChars? text = some n) (hnegative : n.negative = false)
    (h : n.toFloat?.isSome = true) : ((ofChars? ('-' :: text)).bind toFloat?).isSome = true := by
  rw [ofChars?_minus (negative_of_ofChars? hn ▸ hnegative), hn, Option.map_some, Option.bind_some]
  unfold toFloat? at h ⊢
  simpa using h

end Number

theorem lt_ceiling {m : Nat} {e : Int} (hm : m < 2 ^ 53) (he : e ≤ 971)
    (hsmall : e < 971 ∨ m + 8 < 2 ^ 53) :
    ((4 * m + 2) * 2 ^ (e - 2) * growth ^ 4 : ℚ) < ceiling := by
  have hceiling : ceiling = 2 ^ 53 * 2 ^ (971 : Int) := by
    rw [ceiling, ← zpow_natCast, ← zpow_add₀ two_ne_zero]
    rfl
  have hquarter : (2 : ℚ) ^ (e - 2) = 2 ^ e / 4 := by
    rw [zpow_sub₀ two_ne_zero]
    norm_num
  have hbound : ((4 * m + 2) * 2 ^ (e - 2) * growth ^ 4 : ℚ) = (m + 1 / 2) * growth ^ 4 * 2 ^ e := by
    rw [hquarter]
    ring
  have hunit : (0 : ℚ) < 2 ^ (971 : Int) := zpow_pos two_pos _
  have hgrowth : 0 ≤ growth ^ 4 := pow_nonneg growth_pos.le 4
  have hmantissa : (0 : ℚ) ≤ m := Nat.cast_nonneg m
  rw [hbound, hceiling]
  rcases hsmall with hlt | hsmall
  · have hhalf : (2 : ℚ) ^ e ≤ 2 ^ (971 : Int) / 2 := by
      rw [div_eq_mul_inv, ← zpow_sub_one₀ (two_ne_zero : (2 : ℚ) ≠ 0)]
      exact zpow_le_zpow_right₀ one_le_two (by omega)
    have hm : (m : ℚ) ≤ 2 ^ 53 := by exact_mod_cast hm.le
    have hfactor : ((m + 1 / 2) * growth ^ 4 : ℚ) < 2 ^ 53 * 2 :=
      lt_of_le_of_lt (mul_le_mul_of_nonneg_right (by linarith) hgrowth)
        (by norm_num [growth] : ((2 ^ 53 + 1 / 2) * growth ^ 4 : ℚ) < 2 ^ 53 * 2)
    calc ((m + 1 / 2) * growth ^ 4 * 2 ^ e : ℚ)
        ≤ (m + 1 / 2) * growth ^ 4 * (2 ^ (971 : Int) / 2) :=
          mul_le_mul_of_nonneg_left hhalf (mul_nonneg (by linarith) hgrowth)
      _ < 2 ^ 53 * 2 * (2 ^ (971 : Int) / 2) :=
          mul_lt_mul_of_pos_right hfactor (half_pos hunit)
      _ = 2 ^ 53 * 2 ^ (971 : Int) := by ring
  · have hm : (m : ℚ) ≤ 2 ^ 53 - 9 := by
      have : ((m + 9 : Nat) : ℚ) ≤ 2 ^ 53 := by exact_mod_cast hsmall
      push_cast at this
      linarith
    have hfactor : ((m + 1 / 2) * growth ^ 4 : ℚ) < 2 ^ 53 :=
      lt_of_le_of_lt (mul_le_mul_of_nonneg_right (by linarith) hgrowth)
        (by norm_num [growth] : ((2 ^ 53 - 9 + 1 / 2) * growth ^ 4 : ℚ) < 2 ^ 53)
    calc ((m + 1 / 2) * growth ^ 4 * 2 ^ e : ℚ)
        ≤ (m + 1 / 2) * growth ^ 4 * 2 ^ (971 : Int) :=
          mul_le_mul_of_nonneg_left (zpow_le_zpow_right₀ one_le_two he)
            (mul_nonneg (by linarith) hgrowth)
      _ < 2 ^ 53 * 2 ^ (971 : Int) := mul_lt_mul_of_pos_right hfactor hunit

theorem isSome_toFloat?_greatest : ∀ k < 8, ((Number.ofChars? (Decimal.render layout
    (Decimal.shortest layout.tie ⟨false, 2 ^ 53 - 1 - k, 971⟩)).toList).any fun n =>
      !n.negative && n.toFloat?.isSome) = true := by
  decide +kernel

theorem exists_magnitude {f : BinaryFraction} (hm : f.mantissa < 2 ^ 53) (he : f.exponent ≤ 971) :
    ∃ n, Number.ofChars? (if f.mantissa = 0 then "0.0" else
        Decimal.render layout (Decimal.shortest layout.tie f)).toList = some n ∧
      n.negative = false ∧ n.toFloat?.isSome = true := by
  have hzero : ∃ n, Number.ofChars? "0.0".toList = some n ∧ n.negative = false ∧
      n.toFloat?.isSome = true :=
    ⟨⟨false, ['0'], ['0'], 0, false⟩, rfl, rfl, by decide +kernel⟩
  split
  · exact hzero
  · by_cases hsmall : f.exponent < 971 ∨ f.mantissa + 8 < 2 ^ 53
    · rcases Decimal.value_shortest_le layout.tie f with hnone | ⟨hpos, hle⟩
      · rw [hnone]
        exact hzero
      · refine (Decimal.isReadAs_render hpos).exists_isSome_toFloat? (lt_of_le_of_lt ?_
          (lt_ceiling hm he hsmall))
        exact mul_le_mul_of_nonneg_right hle (pow_nonneg growth_pos.le 4)
    · obtain ⟨hexponent, hmantissa⟩ := not_or.mp hsmall
      have hgreatest := isSome_toFloat?_greatest (2 ^ 53 - 1 - f.mantissa) (by omega)
      have hsame : Decimal.shortest layout.tie f = Decimal.shortest layout.tie
          ⟨false, 2 ^ 53 - 1 - (2 ^ 53 - 1 - f.mantissa), 971⟩ := by
        rw [← show f.exponent = 971 by omega,
          show 2 ^ 53 - 1 - (2 ^ 53 - 1 - f.mantissa) = f.mantissa by omega]
        rfl
      rw [← hsame] at hgreatest
      obtain ⟨n, hn, hread⟩ := (Option.any_eq_true _ _).mp hgreatest
      rw [Bool.and_eq_true, Bool.not_eq_true'] at hread
      exact ⟨n, hn, hread⟩

theorem ofFloat_eq_null {x : Float} (h : x.isFinite = false) : ofFloat x = .null := by
  rw [ofFloat, BinaryFraction.ofFloat?_eq_none_iff.mpr h]

/-- What is written for a double is read as a double exactly if it is finite. -/
theorem isSome_toFloat?_ofFloat (x : Float) : (ofFloat x).toFloat?.isSome = x.isFinite := by
  cases hx : x.isFinite with
  | false =>
      rw [ofFloat_eq_null hx]
      rfl
  | true =>
      obtain ⟨f, hf⟩ := Option.ne_none_iff_exists'.mp
        (mt BinaryFraction.ofFloat?_eq_none_iff.mp (Bool.not_eq_false _ ▸ hx))
      obtain ⟨hm, he⟩ := BinaryFraction.bounds_of_ofFloat? hf
      obtain ⟨n, hn, hnegative, hread⟩ := exists_magnitude hm he
      rw [ofFloat, hf]
      change ((Number.ofChars? (Decimal.renderFinite layout f).toList).bind Number.toFloat?).isSome
        = true
      rw [Decimal.renderFinite, String.toList_append]
      split
      · exact Number.isSome_toFloat?_minus hn hnegative hread
      · change ((Number.ofChars? (_ : String).toList).bind Number.toFloat?).isSome = true
        rw [hn]
        exact hread

end Spreadsheet.Json
