import Mathlib.Algebra.Order.Field.Power
import Mathlib.Data.Rat.Cast.Order
import Mathlib.Tactic.FieldSimp
import Mathlib.Tactic.Linarith
import Mathlib.Tactic.NormNum
import Mathlib.Tactic.Positivity
import Mathlib.Tactic.Ring
import Spreadsheet.Json.Record

open Float.Model Float.Model.UnpackedFloat

namespace Spreadsheet.Rounding

theorem pack_finite_eq {s : Sign} {m b : Nat} {e : Int} (hpos : 0 < m) (hlog : m.log2 = 52)
    (hb : (b : Int) = e + 1075) (hb' : b < 2047) :
    UnpackedFloat.pack Format.binary64 (.finite s m e hpos) =
      packComponents Format.binary64 s (BitVec.ofNat 11 b) (BitVec.ofNat 52 m) := by
  have hbiased : (e + (Format.binary64.exponentBias : Int) +
      (Format.binary64.mantissaBitsWithoutImplicit : Int)).toNat = b := by
    change (e + 1023 + 52).toNat = b
    omega
  unfold UnpackedFloat.pack
  dsimp only
  rw [hbiased, if_neg, if_pos]
  · rw [hlog]
    rfl
  · change ¬ 2048 ≤ b + 1
    omega

theorem toNat_implicit_append {m : Nat} (hlow : 2 ^ 52 ≤ m) (hhigh : m < 2 ^ 53) :
    (1#1 ++ BitVec.ofNat 52 m).toNat = m := by
  rw [BitVec.toNat_append, ← Nat.shiftLeft_add_eq_or_of_lt (BitVec.isLt _), BitVec.toNat_ofNat,
    BitVec.toNat_ofNat, Nat.shiftLeft_eq]
  omega

theorem exists_unpack_pack {s : Sign} {m : Nat} {e : Int} (hpos : 0 < m) (hlow : 2 ^ 52 ≤ m)
    (hhigh : m < 2 ^ 53) (he : -1074 ≤ e) (he' : e ≤ 971) :
    ∃ sign, (Float.Model.pack (.finite s m e hpos)).unpack = .finite sign m e hpos := by
  have hlog : m.log2 = 52 := (Nat.log2_eq_iff hpos.ne').mpr ⟨hlow, hhigh⟩
  obtain ⟨b, hb⟩ : ∃ b : Nat, (b : Int) = e + 1075 := ⟨(e + 1075).toNat, by omega⟩
  have hexponent : (BitVec.ofNat 11 b).toNat = b := by
    rw [BitVec.toNat_ofNat, Nat.mod_eq_of_lt (by omega)]
  have hnone : BitVec.ofNat 11 b ≠ 0#11 := by
    rw [ne_eq, ← BitVec.toNat_inj, hexponent]
    change b ≠ 0
    omega
  have hall : BitVec.ofNat 11 b ≠ -1#11 := by
    rw [ne_eq, ← BitVec.toNat_inj, hexponent]
    change b ≠ 2047
    omega
  change ∃ sign, UnpackedFloat.unpack Format.binary64 (UnpackedFloat.pack Format.binary64 _) = _
  rw [pack_finite_eq hpos hlog hb (by omega)]
  unfold UnpackedFloat.unpack
  dsimp only
  rw [if_neg (by rwa [unpackExponent_packComponents]),
    if_neg (by rwa [unpackExponent_packComponents])]
  refine ⟨_, (finite.injEq ..).mpr ⟨rfl, ?_, ?_⟩⟩
  · rw [unpackMantissa_packComponents]
    exact toNat_implicit_append hlow hhigh
  · rw [unpackExponent_packComponents, hexponent]
    change (b : Int) - (1023 + 52) = e
    omega

theorem mantissa_shiftRight (em : ExtendedMantissa) (k : Nat) :
    (em >>> k).mantissa = em.mantissa / 2 ^ k := by
  change (k.repeat ExtendedMantissa.shiftRightOne em).mantissa = _
  induction k with
  | zero => simp [Nat.repeat]
  | succ k ih =>
      rw [Nat.repeat, ExtendedMantissa.shiftRightOne, ih, Nat.div_div_eq_div_mul, Nat.pow_succ]

theorem roundedMantissa_bounds (em : ExtendedMantissa) :
    em.mantissa ≤ em.roundedMantissa ∧ em.roundedMantissa ≤ em.mantissa + 1 := by
  obtain ⟨mantissa, round, sticky⟩ := em
  cases round <;> cases sticky <;>
    simp only [ExtendedMantissa.roundedMantissa, ExtendedMantissa.accuracy,
      Accuracy.roundToNearestEven] <;> omega

theorem div_bounds {m k : Nat} (hk : m.log2 = 52 + k) :
    2 ^ 52 ≤ m / 2 ^ k ∧ m / 2 ^ k < 2 ^ 53 := by
  have hm : m ≠ 0 := by
    rintro rfl
    rw [Nat.log2_zero] at hk
    omega
  obtain ⟨hlow, hhigh⟩ := (Nat.log2_eq_iff hm).mp hk
  constructor
  · rw [Nat.le_div_iff_mul_le (Nat.two_pow_pos k), ← Nat.pow_add]
    exact hlow
  · rw [Nat.div_lt_iff_lt_mul (Nat.two_pow_pos k), ← Nat.pow_add,
      show 53 + k = 52 + k + 1 by omega]
    exact hhigh

theorem shiftToTargetExponent_eq {m k : Nat} {e : Int} (hk : m.log2 = 52 + k)
    (he : -1074 ≤ e + k) :
    shiftToTargetExponent Format.binary64 m e .exact =
      (ExtendedMantissa.mk m false false >>> k, e + k) := by
  have htarget : (Format.binary64.targetExponent (totalExponent m e) - e).toNat = k := by
    change (max ((m.log2 : Int) + 1 + e - 53) (-1074) - e).toNat = _
    omega
  unfold shiftToTargetExponent shiftToExponent
  dsimp only
  rw [htarget]
  rfl

theorem exists_roundWithAccuracy (s : Sign) {m k : Nat} {e : Int} (hk : m.log2 = 52 + k)
    (he : -1074 ≤ e + k) :
    ∃ m' carry hpos,
      roundWithAccuracy Format.binary64 s m e .exact = .finite s m' (e + k + (carry : Nat)) hpos ∧
        2 ^ 52 ≤ m' ∧ m' < 2 ^ 53 ∧ m' * 2 ^ carry ≤ m / 2 ^ k + 1 := by
  obtain ⟨em, hem⟩ : ∃ em, em = ExtendedMantissa.mk m false false >>> k := ⟨_, rfl⟩
  have hmantissa : em.mantissa = m / 2 ^ k := by rw [hem, mantissa_shiftRight]
  obtain ⟨hfloor, hceil⟩ := div_bounds hk
  obtain ⟨hdown, hup⟩ := roundedMantissa_bounds em
  rw [hmantissa] at hdown hup
  -- what is rounded is cut once more, by the bit that a carry has added to it
  obtain ⟨carry, hcarry⟩ : ∃ carry, em.roundedMantissa.log2 = 52 + carry ∧ carry ≤ 1 := by
    have hlow := (Nat.le_log2 (by omega)).mpr (hfloor.trans hdown)
    have hhigh : em.roundedMantissa.log2 < 54 := (Nat.log2_lt (by omega)).mpr (by omega)
    exact ⟨em.roundedMantissa.log2 - 52, by omega, by omega⟩
  obtain ⟨hlow, hhigh⟩ := div_bounds hcarry.1
  have hcut : (ExtendedMantissa.mk em.roundedMantissa false false >>> carry).mantissa =
      em.roundedMantissa / 2 ^ carry := mantissa_shiftRight _ carry
  unfold roundWithAccuracy
  rw [shiftToTargetExponent_eq hk he, ← hem]
  dsimp only
  rw [shiftToTargetExponent_eq hcarry.1 (by omega)]
  dsimp only
  rw [dif_neg (by rw [hcut]; omega)]
  refine ⟨_, carry, _, rfl, ?_, ?_, ?_⟩
  · rw [hcut]
    exact hlow
  · rw [hcut]
    exact hhigh
  · rw [hcut]
    exact (Nat.div_mul_le_self _ _).trans hup

/-- A normal double from one up to a bound, apart from its sign. -/
def IsAtMost (x : Float) (bound : ℚ) : Prop :=
  ∃ sign m e hpos, x.toModel.unpack = .finite sign m e hpos ∧ 2 ^ 52 ≤ m ∧ m < 2 ^ 53 ∧
    -52 ≤ e ∧ (m : ℚ) * 2 ^ e ≤ bound

/-- What a rounding multiplies a number by at most. -/
def growth : ℚ := 1 + 1 / 2 ^ 52

/-- The power of two above all doubles. -/
def ceiling : ℚ := 2 ^ (1024 : ℤ)

theorem one_le_growth : 1 ≤ growth := by
  norm_num [growth]

theorem growth_pos : 0 < growth := one_pos.trans_le one_le_growth

theorem ceiling_eq : ceiling = ((2 ^ 1024 : Nat) : ℚ) := by
  rw [Nat.cast_pow]
  rfl

theorem exponent_le_of_lt_ceiling {e : Int} (h : 2 ^ 52 * 2 ^ e < ceiling) : e ≤ 971 := by
  have hsum : (2 : ℚ) ^ (52 + e) < 2 ^ (1024 : Int) := by
    rw [zpow_add₀ two_ne_zero]
    exact h
  have := (zpow_lt_zpow_iff_right₀ (one_lt_two : (1 : ℚ) < 2)).mp hsum
  omega

namespace IsAtMost

variable {x y : Float} {a b : ℚ}

theorem pos (h : IsAtMost x a) : 0 < a := by
  obtain ⟨sign, m, e, hpos, -, -, -, -, hbound⟩ := h
  refine lt_of_lt_of_le (mul_pos ?_ (zpow_pos two_pos e)) hbound
  exact_mod_cast hpos

theorem mono (h : IsAtMost x a) (hle : a ≤ b) : IsAtMost x b := by
  obtain ⟨sign, m, e, hpos, hunpack, hlow, hhigh, he, hbound⟩ := h
  exact ⟨sign, m, e, hpos, hunpack, hlow, hhigh, he, hbound.trans hle⟩

theorem isInf_eq (h : IsAtMost x a) : x.isInf = false := by
  obtain ⟨sign, m, e, hpos, hunpack, -⟩ := h
  change x.toModel.unpack.isInf = false
  rw [hunpack]
  rfl

end IsAtMost

theorem isAtMost_round (s : Sign) {m k : Nat} {e : Int} {value : ℚ} (hk : m.log2 = 52 + k)
    (he : -52 ≤ e + k) (hvalue : (m : ℚ) * 2 ^ e ≤ value) (hlimit : value * growth < ceiling) :
    IsAtMost (.ofModel (.pack (roundWithAccuracy Format.binary64 s m e .exact)))
      (value * growth) := by
  obtain ⟨m', carry, hpos, hround, hlow, hhigh, hrounded⟩ :=
    exists_roundWithAccuracy s hk (by omega : -1074 ≤ e + k)
  -- a unit in the last place
  obtain ⟨unit, hunit⟩ : ∃ unit : ℚ, unit = 2 ^ (e + (k : Int)) := ⟨_, rfl⟩
  have hunitPos : 0 < unit := hunit ▸ zpow_pos two_pos _
  have hfloor : ((m / 2 ^ k : Nat) : ℚ) * unit ≤ value := by
    refine le_trans ?_ hvalue
    rw [hunit, zpow_add₀ two_ne_zero, mul_comm (2 ^ e), zpow_natCast, ← mul_assoc]
    refine mul_le_mul_of_nonneg_right ?_ (zpow_pos two_pos e).le
    exact_mod_cast Nat.div_mul_le_self m (2 ^ k)
  have hunits : 2 ^ 52 * unit ≤ value := by
    refine le_trans (mul_le_mul_of_nonneg_right ?_ hunitPos.le) hfloor
    exact_mod_cast (div_bounds hk).1
  have hbound : (m' : ℚ) * 2 ^ (e + k + carry) ≤ value * growth :=
    calc (m' : ℚ) * 2 ^ (e + k + carry) = m' * 2 ^ carry * unit := by
          rw [zpow_add₀ two_ne_zero, ← hunit, zpow_natCast]
          ring
      _ ≤ ((m / 2 ^ k : Nat) + 1) * unit :=
          mul_le_mul_of_nonneg_right (by exact_mod_cast hrounded) hunitPos.le
      _ ≤ value * growth := by
          unfold growth
          linarith
  have hexponent : e + k + carry ≤ 971 := by
    refine exponent_le_of_lt_ceiling (lt_of_le_of_lt ?_ (hbound.trans_lt hlimit))
    refine mul_le_mul_of_nonneg_right ?_ (zpow_pos two_pos _).le
    exact_mod_cast hlow
  obtain ⟨sign, hunpack⟩ := @exists_unpack_pack s _ _ hpos hlow hhigh (by omega) hexponent
  exact ⟨sign, m', _, hpos, by rw [hround]; exact hunpack, hlow, hhigh, by omega, hbound⟩

theorem IsAtMost.mul {x y : Float} {a b : ℚ} (hx : IsAtMost x a) (hy : IsAtMost y b)
    (hlimit : a * b * growth < ceiling) : IsAtMost (x * y) (a * b * growth) := by
  have ha := hx.pos
  obtain ⟨s, m, e, hpos, hunpack, hlow, -, he, hbound⟩ := hx
  obtain ⟨s', m', e', hpos', hunpack', hlow', -, he', hbound'⟩ := hy
  change IsAtMost (.ofModel (.pack (UnpackedFloat.mul Format.binary64 x.toModel.unpack
    y.toModel.unpack))) _
  rw [hunpack, hunpack']
  have hlog : 104 ≤ (m * m').log2 := by
    refine (Nat.le_log2 (Nat.mul_pos hpos hpos').ne').mpr ?_
    calc 2 ^ 104 = 2 ^ 52 * 2 ^ 52 := by rfl
      _ ≤ m * m' := Nat.mul_le_mul hlow hlow'
  obtain ⟨k, hk⟩ : ∃ k, (m * m').log2 = 52 + k := ⟨(m * m').log2 - 52, by omega⟩
  refine isAtMost_round _ hk (by omega) ?_ hlimit
  calc ((m * m' : Nat) : ℚ) * 2 ^ (e + e') = m * 2 ^ e * (m' * 2 ^ e') := by
        rw [zpow_add₀ two_ne_zero]
        push_cast
        ring
    _ ≤ a * b := by
        refine mul_le_mul hbound hbound' ?_ ha.le
        exact mul_nonneg (Nat.cast_nonneg m') (zpow_pos two_pos e').le

section OfNat

variable {n power : Nat}

theorem ofScientific_eq (hn : 0 < n) (hpower : power ≤ 2048) :
    UnpackedFloat.ofScientific Format.binary64 n power =
      roundWithAccuracy Format.binary64 .positive (n * 2 ^ 53 * 10 ^ power) (-53) .exact := by
  have hbits : (2 : Int) ^ Format.binary64.exponentBits = 2048 := by decide
  have hmantissa : Format.binary64.mantissaBits = 53 := rfl
  have hexponent : -((53 : Nat) : Int) + 0 = -53 := rfl
  have hsign : Sign.positive * Sign.positive = Sign.positive := rfl
  unfold UnpackedFloat.ofScientific
  rw [dif_neg hn.ne', hbits, if_neg (by omega), if_neg (by omega),
    if_pos (Int.natCast_nonneg power)]
  change roundWithAccuracy Format.binary64 _ (n <<< Format.binary64.mantissaBits * _) _ .exact = _
  rw [Int.toNat_natCast, hmantissa, hexponent, hsign, Nat.shiftLeft_eq]

theorem isAtMost_ofScientific (hn : 0 < n) (hpower : power ≤ 2048)
    (hlimit : (n : ℚ) * 10 ^ power * growth < ceiling) :
    IsAtMost (.ofModel (.ofScientific n power)) (n * 10 ^ power * growth) := by
  change IsAtMost (.ofModel (.pack (UnpackedFloat.ofScientific Format.binary64 n power))) _
  rw [ofScientific_eq hn hpower]
  obtain ⟨m, hm⟩ : ∃ m, m = n * 2 ^ 53 * 10 ^ power := ⟨_, rfl⟩
  rw [← hm]
  have hlow : 2 ^ 53 ≤ m := by
    rw [hm]
    calc 2 ^ 53 = 1 * 2 ^ 53 * 1 := by rfl
      _ ≤ n * 2 ^ 53 * 10 ^ power :=
        Nat.mul_le_mul (Nat.mul_le_mul_right _ hn) (Nat.pow_pos (by decide))
  have hlog : 53 ≤ m.log2 := (Nat.le_log2 (by omega)).mpr hlow
  obtain ⟨k, hk⟩ : ∃ k, m.log2 = 52 + k := ⟨m.log2 - 52, by omega⟩
  refine isAtMost_round _ hk (by omega) (le_of_eq ?_) hlimit
  rw [hm, zpow_neg]
  push_cast
  field_simp

theorem isAtMost_one : IsAtMost (Float.ofBits 0x3FF0000000000000) 1 :=
  ⟨.positive, 2 ^ 52, -52, Nat.two_pow_pos 52, rfl, le_refl _, by decide, le_refl _, by norm_num⟩

theorem ofUInt64_eq (hn : 0 < n) {k : Nat} (hk : n.log2 + k = 52) (hsmall : n < 2 ^ 53) :
    UnpackedFloat.ofUInt64 Format.binary64 n.toUInt64 =
      roundWithAccuracy Format.binary64 .positive (n * 2 ^ k) (-(k : Int)) .exact := by
  have hnat : n.toUInt64.toNat = n := Nat.mod_eq_of_lt (by omega)
  have hshift : (0 - Format.binary64.targetExponent (totalExponent n 0)).toNat = k := by
    change (0 - max ((n.log2 : Int) + 1 + 0 - 53) (-1074)).toNat = k
    omega
  have hcompare : compare (n : Int) 0 = .gt := by
    rw [compare_gt_iff_gt]
    omega
  unfold UnpackedFloat.ofUInt64 UnpackedFloat.ofNat UnpackedFloat.ofInt UnpackedFloat.normalize
  rw [hnat, hcompare]
  unfold UnpackedFloat.round decreaseExponent
  dsimp only
  rw [Int.toNat_natCast, hshift, Nat.shiftLeft_eq, Int.zero_sub]

theorem log2_mul_two_pow (hn : 0 < n) (k : Nat) : (n * 2 ^ k).log2 = n.log2 + k := by
  obtain ⟨hlow, hhigh⟩ := (Nat.log2_eq_iff hn.ne').mp rfl
  refine (Nat.log2_eq_iff (Nat.mul_pos hn (Nat.two_pow_pos k)).ne').mpr ⟨?_, ?_⟩
  · rw [Nat.pow_add]
    exact Nat.mul_le_mul_right _ hlow
  · rw [Nat.add_right_comm, Nat.pow_add]
    exact Nat.mul_lt_mul_of_pos_right hhigh (Nat.two_pow_pos k)

theorem isAtMost_toFloat (hn : 0 < n) (hsmall : n < 2 ^ 53) (hlimit : n * growth < ceiling) :
    IsAtMost n.toUInt64.toFloat (n * growth) := by
  have hlog : n.log2 < 53 := (Nat.log2_lt hn.ne').mpr hsmall
  obtain ⟨k, hk⟩ : ∃ k, n.log2 + k = 52 := ⟨52 - n.log2, by omega⟩
  change IsAtMost (.ofModel (.pack (UnpackedFloat.ofUInt64 Format.binary64 n.toUInt64))) _
  rw [ofUInt64_eq hn hk hsmall]
  have hlog : (n * 2 ^ k).log2 = 52 + 0 := by rw [log2_mul_two_pow hn, hk]
  refine isAtMost_round _ hlog (by omega) (le_of_eq ?_) hlimit
  push_cast
  rw [zpow_neg, zpow_natCast, mul_assoc, mul_inv_cancel₀ (pow_ne_zero k two_ne_zero), mul_one]

theorem powerOfTen_eq (power : Nat) :
    Json.Number.powerOfTen power = .ofModel (.ofScientific 1 power) := by
  by_cases hsmall : power ≤ 22
  · have htable : ∀ power, power < 23 →
        Json.Number.powerOfTen power = .ofModel (.ofScientific 1 power) := by
      decide +kernel
    exact htable power (by omega)
  · unfold Json.Number.powerOfTen Float.ofScientific
    rw [dif_neg (by omega)]
    rfl

theorem isAtMost_powerOfTen (hpower : power ≤ Json.Number.maxPower) :
    IsAtMost (Json.Number.powerOfTen power) (10 ^ power * growth) := by
  have hmax : power ≤ 308 := hpower
  have hlimit : ((1 : Nat) : ℚ) * 10 ^ power * growth < ceiling := by
    have hhalf : growth ≤ 3 / 2 := by norm_num [growth]
    have hpos : (0 : ℚ) ≤ 10 ^ power := by positivity
    have hpower : 10 ^ power * 3 < 2 * 2 ^ 1024 :=
      (Nat.mul_le_mul_right 3 (Nat.pow_le_pow_right (by decide) hmax)).trans_lt (by decide +kernel)
    have hcast : (10 ^ power * 3 : ℚ) < 2 * ceiling := by
      rw [ceiling_eq]
      exact_mod_cast hpower
    have hgrown := mul_le_mul_of_nonneg_left hhalf hpos
    rw [Nat.cast_one, one_mul]
    linarith only [hcast, hgrown]
  rw [powerOfTen_eq]
  refine (isAtMost_ofScientific Nat.one_pos (by omega) hlimit).mono (le_of_eq ?_)
  rw [Nat.cast_one, one_mul]

theorem isAtMost_ofNat (hn : 0 < n) (hlimit : n < UInt64.size) :
    IsAtMost (Float.ofNat n) (n * growth ^ 2) := by
  have hcast : (0 : ℚ) < n := by exact_mod_cast hn
  have hgrown : (n : ℚ) * growth ≤ n * growth ^ 2 :=
    mul_le_mul_of_nonneg_left (le_self_pow₀ one_le_growth two_ne_zero) hcast.le
  have hbelow : n * growth ^ 2 < ceiling := by
    have htwice : growth ^ 2 ≤ 2 := by norm_num [growth]
    refine lt_of_le_of_lt (mul_le_mul_of_nonneg_left htwice hcast.le) ?_
    rw [ceiling_eq]
    exact_mod_cast (Nat.mul_lt_mul_of_pos_right hlimit two_pos).trans
      (by decide +kernel : UInt64.size * 2 < 2 ^ 1024)
  change IsAtMost (Float.ofScientific n false 0) _
  unfold Float.ofScientific
  split
  · rename_i hsmall
    have hproduct := (isAtMost_toFloat hn hsmall.1 (hgrown.trans_lt hbelow)).mul isAtMost_one
      (lt_of_eq_of_lt (by ring) hbelow)
    exact hproduct.mono (le_of_eq (by ring))
  · have hwhole : (n : ℚ) * 10 ^ 0 * growth = n * growth := by rw [pow_zero, mul_one]
    have hrounded := @isAtMost_ofScientific n 0 hn (Nat.zero_le _)
      (by rw [hwhole]; exact hgrown.trans_lt hbelow)
    rw [hwhole] at hrounded
    exact hrounded.mono hgrown

end OfNat

end Spreadsheet.Rounding
