import Spreadsheet.Proofs.ShortestDecimals

namespace Spreadsheet

open Float.Model Float.Model.UnpackedFloat

/-- The number that a finite double is, read off its model. -/
def exactValue (x : Float) : ℚ :=
  match x.toModel.unpack with
  | .finite sign mantissa exponent _ => sign.apply mantissa * 2 ^ exponent
  | _ => 0

namespace BinaryFraction

variable {x : Float} {f : BinaryFraction}

def sign (f : BinaryFraction) : Sign := if f.negative then .negative else .positive

theorem toNat_unpackMantissa (x : Float) :
    (@unpackMantissa Format.binary64 x.toBits.toBitVec).toNat =
      x.toBits.toNat % 1 <<< 52 := by
  unfold unpackMantissa
  rw [BitVec.toNat_cast, BitVec.extractLsb_toNat]
  rfl

theorem toNat_unpackSign (x : Float) :
    (@unpackSign Format.binary64 x.toBits.toBitVec).toNat = x.toBits.toNat >>> 63 := by
  unfold unpackSign
  rw [BitVec.toNat_cast, BitVec.extractLsb_toNat]
  refine Nat.mod_eq_of_lt ?_
  have hlimit := x.toBits.toNat_lt
  change x.toBits.toNat >>> 63 < 2
  rw [Nat.shiftRight_eq_div_pow]
  omega

theorem ofBitVec_eq (sign : BitVec 1) :
    Sign.ofBitVec sign = if decide (sign.toNat = 1) = true then .negative else .positive := by
  have hcases : ∀ sign : BitVec 1, sign = 0#1 ∨ sign = 1#1 := by decide
  rcases hcases sign with rfl | rfl <;> rfl

theorem unpack_of_ofFloat? (h : ofFloat? x = some f) : x.toModel.unpack =
    if hzero : f.mantissa = 0 then .zero f.sign
    else .finite f.sign f.mantissa f.exponent (Nat.pos_of_ne_zero hzero) := by
  have hexponent := toNat_unpackExponent x
  have hmantissa := toNat_unpackMantissa x
  change UnpackedFloat.unpack Format.binary64 x.toBits.toBitVec = _
  unfold UnpackedFloat.unpack
  dsimp only
  rw [ofBitVec_eq, toNat_unpackSign]
  obtain ⟨hfield, rfl⟩ | ⟨hlow, htop, rfl⟩ := ofFloat?_cases h
  · have hnone : @unpackExponent Format.binary64 x.toBits.toBitVec = 0#11 :=
      BitVec.eq_of_toNat_eq (hexponent.trans hfield)
    rw [hnone, if_neg (by decide), if_pos rfl]
    by_cases hzero : x.toBits.toNat % 1 <<< 52 = 0
    · have hnone : @unpackMantissa Format.binary64 x.toBits.toBitVec = 0#52 :=
        BitVec.eq_of_toNat_eq (hmantissa.trans hzero)
      rw [dif_pos hnone, dif_pos hzero]
      rfl
    · have hne : @unpackMantissa Format.binary64 x.toBits.toBitVec ≠ 0#52 := by
        intro hnone
        rw [hnone] at hmantissa
        exact hzero hmantissa.symm
      rw [dif_neg hne, dif_neg hzero]
      exact (finite.injEq ..).mpr ⟨rfl, hmantissa, rfl⟩
  · have hnone : @unpackExponent Format.binary64 x.toBits.toBitVec ≠ 0#11 := by
      intro hnone
      rw [hnone] at hexponent
      exact hlow hexponent.symm
    have hall : @unpackExponent Format.binary64 x.toBits.toBitVec ≠ -1#11 := by
      intro hall
      rw [hall] at hexponent
      exact htop hexponent.symm
    rw [if_neg hall, if_neg hnone, dif_neg (Nat.ne_of_gt (Nat.add_pos_left (by decide) _))]
    refine (finite.injEq ..).mpr ⟨rfl, ?_, ?_⟩
    · rw [BitVec.toNat_append, ← Nat.shiftLeft_add_eq_or_of_lt (BitVec.isLt _), hmantissa]
      rfl
    · rw [hexponent]
      change (_ : Int) - (1023 + 52) = _ - 1 + -1074
      omega

/-- The number that a binary fraction is, apart from its sign. -/
def magnitude (f : BinaryFraction) : ℚ := f.mantissa * 2 ^ f.exponent

theorem magnitude_eq (f : BinaryFraction) : f.magnitude = f.numerator / f.denominator := by
  have hdenominator : (f.denominator : ℚ) ≠ 0 := by
    simp [denominator, Nat.shiftLeft_eq]
  rw [eq_div_iff hdenominator, magnitude, numerator, denominator, Nat.shiftLeft_eq,
    Nat.shiftLeft_eq]
  push_cast
  rw [one_mul, mul_assoc, Decimal.zpow_mul_pow_toNat two_ne_zero]

theorem apply_sign (f : BinaryFraction) (n : Nat) :
    ((f.sign.apply n : Int) : ℚ) = (if f.negative then -1 else 1) * n := by
  unfold sign
  cases f.negative with
  | true => exact (Int.cast_neg _).trans (neg_one_mul _).symm
  | false => exact (one_mul _).symm

theorem exactValue_eq (h : ofFloat? x = some f) :
    exactValue x = (if f.negative then -1 else 1) * f.magnitude := by
  rw [exactValue, unpack_of_ofFloat? h]
  by_cases hzero : f.mantissa = 0
  · rw [dif_pos hzero, magnitude, hzero, Nat.cast_zero, zero_mul, mul_zero]
  · rw [dif_neg hzero, magnitude, ← mul_assoc, ← apply_sign]

theorem eq_of_toBits_eq {x y : Float} (h : x.toBits = y.toBits) : x = y := by
  obtain ⟨⟨bits, hvalid⟩⟩ := x
  obtain ⟨⟨bits', hvalid'⟩⟩ := y
  obtain rfl : bits = bits' := h
  rfl

theorem mantissa_ne_zero (h : ofFloat? x = some f) (hx : x ≠ -0.0) (hnegative : f.negative = true) :
    f.mantissa ≠ 0 := by
  intro hzero
  apply hx
  have hbits : x.toBits.toNat = 2 ^ 63 := by
    obtain ⟨hfield, rfl⟩ | ⟨-, -, rfl⟩ := ofFloat?_cases h
    · have hlimit := x.toBits.toNat_lt
      have hsign : x.toBits.toNat >>> 63 = 1 := of_decide_eq_true hnegative
      change x.toBits.toNat % 1 <<< 52 = 0 at hzero
      rw [Nat.shiftRight_eq_div_pow] at hsign hfield
      rw [Nat.shiftLeft_eq] at hzero hfield
      omega
    · exact absurd hzero (Nat.ne_of_gt (Nat.add_pos_left (by decide) _))
  exact eq_of_toBits_eq (UInt64.toNat_inj.mp (hbits.trans (by decide)))

end BinaryFraction

end Spreadsheet
