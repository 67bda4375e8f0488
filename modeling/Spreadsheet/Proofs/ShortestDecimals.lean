import Mathlib.Algebra.Order.Field.Power
import Mathlib.Data.Rat.Cast.Order
import Mathlib.Tactic.NormNum
import Mathlib.Tactic.Positivity
import Mathlib.Tactic.Ring
import Spreadsheet.Number.Shortest

namespace Spreadsheet

namespace BinaryFraction

open Float.Model Float.Model.UnpackedFloat

theorem toNat_unpackExponent (x : Float) :
    (@unpackExponent Format.binary64 x.toBits.toBitVec).toNat =
      x.toBits.toNat >>> 52 % 1 <<< 11 := by
  unfold unpackExponent
  rw [BitVec.toNat_cast, BitVec.extractLsb_toNat]
  rfl

theorem isFinite_iff (x : Float) :
    x.isFinite = true ↔ x.toBits.toNat >>> 52 % 1 <<< 11 ≠ 2047 := by
  have hall : @unpackExponent Format.binary64 x.toBits.toBitVec = -1#11 ↔
      x.toBits.toNat >>> 52 % 1 <<< 11 = 2047 := by
    rw [← toNat_unpackExponent, ← BitVec.toNat_inj]
    rfl
  change (UnpackedFloat.unpack Format.binary64 x.toBits.toBitVec).isFinite = true ↔ _
  rw [ne_eq, ← hall]
  unfold UnpackedFloat.unpack
  dsimp only
  by_cases htop : @unpackExponent Format.binary64 x.toBits.toBitVec = -1#11
  · rw [if_pos htop]
    refine iff_of_false ?_ (not_not_intro htop)
    split <;> exact Bool.false_ne_true
  · rw [if_neg htop]
    refine iff_of_true ?_ htop
    by_cases hnone : @unpackExponent Format.binary64 x.toBits.toBitVec = 0#11
    · rw [if_pos hnone]
      by_cases hzero : @unpackMantissa Format.binary64 x.toBits.toBitVec = 0#52
      · rw [dif_pos hzero]
        rfl
      · rw [dif_neg hzero]
        rfl
    · rw [if_neg hnone]
      rfl

theorem ofFloat?_eq_none_iff {x : Float} : ofFloat? x = none ↔ x.isFinite = false := by
  rw [← Bool.not_eq_true, isFinite_iff, not_not]
  unfold ofFloat?
  dsimp only
  split
  · rename_i hlow
    rw [hlow]
    simp
  · rename_i htop
    rw [htop]
    simp
  · rename_i htop
    simpa using htop

theorem ofFloat?_cases {x : Float} {f : BinaryFraction} (h : ofFloat? x = some f) :
    (x.toBits.toNat >>> 52 % 1 <<< 11 = 0 ∧
      f = ⟨decide (x.toBits.toNat >>> 63 = 1), x.toBits.toNat % 1 <<< 52, leastExponent⟩) ∨
    (x.toBits.toNat >>> 52 % 1 <<< 11 ≠ 0 ∧ x.toBits.toNat >>> 52 % 1 <<< 11 ≠ 2047 ∧
      f = ⟨decide (x.toBits.toNat >>> 63 = 1), 1 <<< 52 + x.toBits.toNat % 1 <<< 52,
        ((x.toBits.toNat >>> 52 % 1 <<< 11 : Nat) : Int) - 1 + leastExponent⟩) := by
  unfold ofFloat? at h
  dsimp only at h
  split at h
  · rename_i hfield
    exact .inl ⟨hfield, (Option.some.inj h).symm⟩
  · cases h
  · rename_i hlow htop
    exact .inr ⟨hlow, htop, (Option.some.inj h).symm⟩

theorem bounds_of_ofFloat? {x : Float} {f : BinaryFraction} (h : ofFloat? x = some f) :
    f.mantissa < 2 ^ 53 ∧ f.exponent ≤ 971 := by
  have hfraction : x.toBits.toNat % 1 <<< 52 < 2 ^ 52 := Nat.mod_lt _ (by decide)
  have hbiased : x.toBits.toNat >>> 52 % 1 <<< 11 < 2048 := Nat.mod_lt _ (by decide)
  obtain ⟨-, rfl⟩ | ⟨-, htop, rfl⟩ := ofFloat?_cases h
  · exact ⟨hfraction.trans (by decide), (by decide : leastExponent ≤ 971)⟩
  · constructor
    · change 2 ^ 52 + _ < _
      omega
    · have hle : x.toBits.toNat >>> 52 % 1 <<< 11 ≤ 2046 :=
        Nat.le_of_lt_succ (lt_of_le_of_ne (Nat.le_of_lt_succ hbiased) htop)
      change ((_ : Nat) : Int) - 1 + -1074 ≤ 971
      omega

end BinaryFraction

namespace Decimal

variable {d : Decimal} {tie : Tie}

/-- The number that a decimal is. -/
def value (d : Decimal) : ℚ := d.digits * 10 ^ d.scale

theorem zpow_mul_pow_toNat {base : ℚ} (hbase : base ≠ 0) (power : Int) :
    base ^ power * base ^ (-power).toNat = base ^ power.toNat := by
  rw [← zpow_natCast, ← zpow_natCast, ← zpow_add₀ hbase]
  congr 1
  omega

theorem le_of_scaled_le {a b : Nat} {scale exponent : Int}
    (h : a * (10 ^ scale.toNat <<< (-exponent).toNat) ≤
      b * (10 ^ (-scale).toNat <<< exponent.toNat)) :
    (a * 10 ^ scale : ℚ) ≤ b * 2 ^ exponent := by
  rw [Nat.shiftLeft_eq, Nat.shiftLeft_eq] at h
  have hscaled : (a * (10 ^ scale.toNat * 2 ^ (-exponent).toNat) : ℚ) ≤
      b * (10 ^ (-scale).toNat * 2 ^ exponent.toNat) := by exact_mod_cast h
  rw [← zpow_mul_pow_toNat (by norm_num : (10 : ℚ) ≠ 0),
    ← zpow_mul_pow_toNat (two_ne_zero : (2 : ℚ) ≠ 0) exponent] at hscaled
  have hdenominator : (0 : ℚ) < 10 ^ (-scale).toNat * 2 ^ (-exponent).toNat := by positivity
  refine le_of_mul_le_mul_right ?_ hdenominator
  calc (a * 10 ^ scale * (10 ^ (-scale).toNat * 2 ^ (-exponent).toNat) : ℚ)
      = a * (10 ^ scale * 10 ^ (-scale).toNat * 2 ^ (-exponent).toNat) := by ring
    _ ≤ b * (10 ^ (-scale).toNat * (2 ^ exponent * 2 ^ (-exponent).toNat)) := hscaled
    _ = b * 2 ^ exponent * (10 ^ (-scale).toNat * 2 ^ (-exponent).toNat) := by ring

theorem value_le_of_multiple? {n : Neighbourhood} {scale : Int}
    (h : multiple? tie n scale = some d) :
    0 < d.digits ∧ d.value ≤ n.upper * 2 ^ n.exponent := by
  unfold multiple? at h
  extract_lets unit step inside below above gapBelow gapAbove nearer at h
  have hinside : ∀ digits, inside digits = true →
      0 < digits ∧ digits * step ≤ n.upper * unit := by
    intro digits hdigits
    obtain ⟨hpos, hbounds⟩ := Bool.and_eq_true _ _ ▸ hdigits
    refine ⟨of_decide_eq_true hpos, ?_⟩
    split at hbounds
    · exact of_decide_eq_true (Bool.and_eq_true _ _ ▸ hbounds).2
    · exact (of_decide_eq_true (Bool.and_eq_true _ _ ▸ hbounds).2).le
  have hfound : inside d.digits = true ∧ d.scale = scale := by
    split at h
    · rename_i hbelow habove
      obtain rfl := Option.some.inj h
      refine ⟨?_, rfl⟩
      change inside nearer = true
      unfold nearer
      split
      · exact hbelow
      · exact habove
    · rename_i hbelow habove
      obtain rfl := Option.some.inj h
      exact ⟨hbelow, rfl⟩
    · rename_i hbelow habove
      obtain rfl := Option.some.inj h
      exact ⟨habove, rfl⟩
    · cases h
  obtain ⟨hpos, hle⟩ := hinside d.digits hfound.1
  refine ⟨hpos, ?_⟩
  rw [value, hfound.2]
  exact le_of_scaled_le hle

/-- The decimal for a double is at most half of the last place above it. A search that finds nothing
ends with zero. -/
theorem value_shortest_le (tie : Tie) (x : BinaryFraction) : shortest tie x = ⟨0, 0⟩ ∨
    0 < (shortest tie x).digits ∧
      (shortest tie x).value ≤ (4 * x.mantissa + 2) * 2 ^ (x.exponent - 2) := by
  unfold shortest
  dsimp only
  cases hfound : (List.range 24).findSome? fun (i : Nat) =>
      multiple? tie (neighbourhood x) (scaleAbove x - i) with
  | none => exact .inl rfl
  | some d =>
      obtain ⟨i, -, hmultiple⟩ := List.exists_of_findSome?_eq_some hfound
      obtain ⟨hpos, hle⟩ := value_le_of_multiple? hmultiple
      exact .inr ⟨hpos, by simpa [neighbourhood] using hle⟩

end Decimal

end Spreadsheet
