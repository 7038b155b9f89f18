import Mathlib.Algebra.Order.Field.Power
import Mathlib.Data.Rat.Cast.Order
import Mathlib.Tactic.Positivity
import TitanRunner.Lib.JsonText

/-!
# The numbers that decimals stand for

What the comparisons of decimals say, as facts about rational numbers.
-/

namespace Json

namespace Decimal

/-- The number itself. -/
def toRat (decimal : Decimal) : ℚ := decimal.signed * 10 ^ decimal.power

variable {left right decimal : Decimal}

/-- Both numbers count one power of ten, the smaller of the two. -/
theorem toRat_eq_shifted {power : ℤ} (le : power ≤ decimal.power) :
    decimal.toRat =
      ((decimal.signed * 10 ^ (decimal.power - power).toNat : ℤ) : ℚ) * 10 ^ power := by
  have split : decimal.power = ((decimal.power - power).toNat : ℤ) + power := by omega
  rw [toRat, Int.cast_mul, Int.cast_pow, mul_assoc]
  congr 1
  conv_lhs => rw [split]
  rw [zpow_add₀ (by norm_num), zpow_natCast]
  norm_num

theorem less_iff : left.less right = true ↔ left.toRat < right.toRat := by
  have positive : (0 : ℚ) < 10 ^ min left.power right.power := by positivity
  rw [less, decide_eq_true_eq, toRat_eq_shifted (min_le_left left.power right.power),
    toRat_eq_shifted (min_le_right left.power right.power), mul_lt_mul_iff_left₀ positive,
    Int.cast_lt]

theorem isSome_integer_iff :
    decimal.integer?.isSome = true ↔ ∃ number : ℤ, decimal.toRat = number := by
  rw [integer?]
  rcases le_or_gt 0 decimal.power with whole | part
  · refine iff_of_true (by simp [whole]) ⟨decimal.signed * 10 ^ decimal.power.natAbs, ?_⟩
    have power : decimal.power = (decimal.power.natAbs : ℤ) := (Int.natAbs_of_nonneg whole).symm
    rw [toRat, Int.cast_mul, Int.cast_pow]
    conv_lhs => rw [power]
    rw [zpow_natCast]
    norm_num
  · have negative : ¬ 0 ≤ decimal.power := not_le.2 part
    have power : decimal.power = -(decimal.power.natAbs : ℤ) := by omega
    have scale : (0 : ℚ) < 10 ^ decimal.power.natAbs := by positivity
    have value : decimal.toRat = decimal.signed / 10 ^ decimal.power.natAbs := by
      rw [toRat]
      conv_lhs => rw [power]
      rw [zpow_neg, zpow_natCast, div_eq_mul_inv]
    rw [value, if_neg negative]
    constructor
    · intro divides
      split at divides
      next zero =>
        obtain ⟨quotient, product⟩ := Int.dvd_of_emod_eq_zero zero
        refine ⟨quotient, ?_⟩
        rw [div_eq_iff scale.ne', product, Int.cast_mul, Int.cast_pow, mul_comm]
        norm_num
      next => contradiction
    · rintro ⟨number, same⟩
      rw [div_eq_iff scale.ne'] at same
      have product : decimal.signed = number * 10 ^ decimal.power.natAbs := by
        exact_mod_cast same
      rw [if_pos (by rw [product, Int.mul_emod_left]), Option.isSome_some]

end Decimal

end Json
