import Mathlib.Algebra.Order.Field.Power
import Mathlib.Algebra.Order.Floor.Semiring
import Mathlib.Data.Rat.Cast.Order
import Mathlib.Tactic.Ring
import VisualEffects.Decimal.Shortest

namespace VisualEffects.Decimal

/-! The digits of a shortest decimal.

A number that is not zero has a shortest decimal that is not zero, so its digits start with one that counts.
The search for the decimal starts at most one place too high and goes down twenty places: even if no place on
the way had a point, there would be digits left at its end.
-/

theorem power_ratio (base : Nat) (exponent : Int) :
    ((power base exponent).1 : ℚ) / (power base exponent).2 = (base : ℚ) ^ exponent := by
  unfold power
  split
  · rename_i nonneg
    obtain ⟨n, rfl⟩ := Int.eq_ofNat_of_zero_le nonneg
    simp
  · rename_i negative
    obtain ⟨n, rfl⟩ : ∃ n : Nat, exponent = -(n : Int) := ⟨(-exponent).toNat, by omega⟩
    simp

theorem power_pos {base : Nat} (positive : 0 < base) (exponent : Int) :
    0 < (power base exponent).1 ∧ 0 < (power base exponent).2 := by
  unfold power
  split
  · exact ⟨Nat.pow_pos positive, Nat.one_pos⟩
  · exact ⟨Nat.one_pos, Nat.pow_pos positive⟩

theorem pow_pred_length_toDigits_le {n : Nat} (positive : 0 < n) : 10 ^ ((Nat.toDigits 10 n).length - 1) ≤ n := by
  rcases Nat.eq_zero_or_pos ((Nat.toDigits 10 n).length - 1) with single | more
  · rw [single]
    exact positive
  · have longer : ¬ (Nat.toDigits 10 n).length ≤ (Nat.toDigits 10 n).length - 1 := by omega
    rw [Nat.length_toDigits_le_iff (by decide) more] at longer
    exact Nat.not_lt.mp longer

theorem lt_pow_length_toDigits (n : Nat) : n < 10 ^ (Nat.toDigits 10 n).length :=
  (Nat.length_toDigits_le_iff (by decide) Nat.length_toDigits_pos).mp (Nat.le_refl _)

namespace Binary

/-- The number itself. -/
def ratio (x : Binary) : ℚ := x.significand * 2 ^ x.exponent

theorem scales_pos (x : Binary) (k : Int) : 0 < (x.scales k).1 ∧ 0 < (x.scales k).2 := by
  have ten := power_pos (by decide : 0 < 10) k
  have quarter := power_pos (by decide : 0 < 2) (x.exponent - 2)
  exact ⟨Nat.mul_pos ten.1 quarter.2, Nat.mul_pos quarter.1 ten.2⟩

/-- A grid of steps no greater than the number has a point below it that is not zero. -/
theorem scales_le_of_le_ratio {x : Binary} {k : Int} (reached : (10 : ℚ) ^ k ≤ x.ratio) :
    (x.scales k).1 ≤ x.quarters * (x.scales k).2 := by
  have tenPos := (power_pos (by decide : 0 < 10) k).2
  have quarterPos := (power_pos (by decide : 0 < 2) (x.exponent - 2)).2
  have ten := power_ratio 10 k
  have quarter := power_ratio 2 (x.exponent - 2)
  have parted : (4 : ℚ) * 2 ^ (x.exponent - 2) = 2 ^ x.exponent := by
    rw [zpow_sub₀ (by norm_num)]
    norm_num
    ring
  have bound : (10 : ℚ) ^ k ≤ 4 * x.significand * 2 ^ (x.exponent - 2) := by
    rw [mul_comm 4, mul_assoc, parted]
    exact reached
  push_cast at ten quarter
  rw [← ten, ← quarter, ← mul_div_assoc, div_le_div_iff₀ (by exact_mod_cast tenPos) (by exact_mod_cast quarterPos)]
    at bound
  have exact : (power 10 k).1 * (power 2 (x.exponent - 2)).2 ≤
      4 * x.significand * (power 2 (x.exponent - 2)).1 * (power 10 k).2 := by
    exact_mod_cast bound
  rwa [Nat.mul_assoc] at exact

/-- The search does not start more than one place too high. -/
theorem pow_ceilingExponent_le_ratio {x : Binary} (nonzero : x.significand ≠ 0) :
    (10 : ℚ) ^ (x.ceilingExponent - 1) ≤ x.ratio := by
  have unitPos := power_pos (by decide : 0 < 2) x.exponent
  have unit := power_ratio 2 x.exponent
  push_cast at unit
  unfold ceilingExponent
  rw [Binary.ratio, ← unit, ← mul_div_assoc, ← Nat.cast_mul]
  generalize power 2 x.exponent = unit at unitPos
  dsimp only
  have numeratorPos : 0 < x.significand * unit.1 := Nat.mul_pos (Nat.pos_of_ne_zero nonzero) unitPos.1
  generalize x.significand * unit.1 = numerator at numeratorPos
  have unitCast : (0 : ℚ) < unit.2 := by exact_mod_cast unitPos.2
  split
  · rename_i whole
    have reached := pow_pred_length_toDigits_le (Nat.div_pos whole unitPos.2)
    have count := Nat.length_toDigits_pos (b := 10) (n := numerator / unit.2)
    generalize (Nat.toDigits 10 (numerator / unit.2)).length = length at reached count
    have scaled : 10 ^ (length - 1) * unit.2 ≤ numerator := (Nat.le_div_iff_mul_le unitPos.2).mp reached
    have exponent : (length : Int) - 1 = (length - 1 : Nat) := by omega
    rw [exponent, zpow_natCast, le_div_iff₀ unitCast]
    exact_mod_cast scaled
  · have below := lt_pow_length_toDigits (unit.2 / numerator)
    generalize (Nat.toDigits 10 (unit.2 / numerator)).length = length at below
    have scaled : unit.2 < 10 ^ length * numerator := (Nat.div_lt_iff_lt_mul numeratorPos).mp below
    have exponent : (1 : Int) - length - 1 = -(length : Int) := by omega
    rw [exponent, zpow_neg, zpow_natCast, inv_eq_one_div, div_le_div_iff₀ (pow_pos (by norm_num) length) unitCast,
      one_mul, mul_comm]
    exact_mod_cast Nat.le_of_lt scaled

theorem covers_zero {x : Binary} (nonzero : x.significand ≠ 0) (k : Int) : x.covers k 0 = false := by
  have lowest : 0 < x.lowest := by
    unfold Binary.lowest
    split <;> omega
  have low : 0 < x.lowest * (x.scales k).2 := Nat.mul_pos lowest (x.scales_pos k).2
  have high : 0 < x.highest * (x.scales k).2 := Nat.mul_pos (Nat.succ_pos _) (x.scales_pos k).2
  simp only [Binary.covers, Nat.zero_mul]
  simp [Nat.ne_of_lt low, Nat.ne_of_lt high]

/-- As long as the last place of the search is not above the number, its result is not zero. -/
theorem search_digits_ne_zero {x : Binary} (nonzero : x.significand ≠ 0) (tie : Tie) (steps : Nat) (k : Int)
    (reached : (10 : ℚ) ^ (k - steps) ≤ x.ratio) : (x.search tie steps k).digits ≠ 0 := by
  induction steps generalizing k with
  | zero =>
      have below := scales_le_of_le_ratio (by simpa using reached)
      exact Nat.ne_of_gt (Nat.div_pos below (x.scales_pos k).1)
  | succ steps ih =>
      unfold search
      split
      · rename_i digits found
        rintro rfl
        have covered := covers_of_pointAt? found
        rw [covers_zero nonzero] at covered
        cases covered
      · apply ih
        rw [show k - 1 - (steps : Int) = k - (steps + 1 : Nat) by push_cast; ring]
        exact reached

/-- The shortest decimal of a number that is not zero is not zero. -/
theorem shortest_digits_ne_zero {x : Binary} (nonzero : x.significand ≠ 0) (tie : Tie) :
    (x.shortest tie).digits ≠ 0 := by
  rw [shortest, if_neg nonzero]
  apply search_digits_ne_zero nonzero
  refine le_trans ?_ (pow_ceilingExponent_le_ratio nonzero)
  exact zpow_le_zpow_right₀ (by norm_num) (by omega)

end Binary

end VisualEffects.Decimal
