import Mathlib.Algebra.Order.Field.Rat
import Mathlib.Data.Int.Log
import Mathlib.Data.Rat.Floor
import Mathlib.Tactic.FieldSimp
import Mathlib.Tactic.Linarith
import Mathlib.Tactic.NormNum

/-!
# Rounding to 53 bits

What a positive real number becomes as a `float64`, as long as it is neither too large nor too small
for the exponents of that format.
-/

/-- A value of 64 bits; the two zeros are one. -/
inductive Float64 where
  | finite (value : ℚ)
  | infinite (negative : Bool)
  | notNumber

namespace Float64

/-- The nearest integer, and the even one of two that are as near. -/
def roundEven (q : ℚ) : ℤ :=
  if q - ⌊q⌋ < 1 / 2 ∨ q - ⌊q⌋ = 1 / 2 ∧ ⌊q⌋ % 2 = 0 then ⌊q⌋ else ⌊q⌋ + 1

/-- The last of 53 bits of a number. -/
def ulp (q : ℚ) : ℚ := 2 ^ (Int.log 2 q - 52)

/-- The nearest number with 53 bits. -/
def nearest (q : ℚ) : ℚ := roundEven (q / ulp q) * ulp q

lemma ulp_pos (q : ℚ) : 0 < ulp q := zpow_pos two_pos _

lemma le_roundEven (q : ℚ) : q - 1 / 2 ≤ roundEven q := by
  have hlt := Int.lt_floor_add_one q
  rw [roundEven]
  split_ifs with hdown
  · rcases hdown with hlow | ⟨hhalf, -⟩ <;> linarith
  · push_cast
    linarith

lemma roundEven_nonneg {q : ℚ} (hq : 0 ≤ q) : 0 ≤ roundEven q := by
  have hfloor : 0 ≤ ⌊q⌋ := Int.floor_nonneg.mpr hq
  rw [roundEven]
  split_ifs <;> omega

lemma nearest_nonneg {q : ℚ} (hq : 0 ≤ q) : 0 ≤ nearest q :=
  mul_nonneg (Int.cast_nonneg (roundEven_nonneg (div_nonneg hq (ulp_pos q).le))) (ulp_pos q).le

/-- **Rounding loses half a bit at most.** -/
lemma le_nearest {q : ℚ} (hq : 0 < q) : q * (1 - 1 / 2 ^ 53) ≤ nearest q := by
  have hulp := ulp_pos q
  -- the leading bit of a number is 52 places before its last one
  have hlead : ulp q * 2 ^ 52 ≤ q := by
    have hlog := Int.zpow_log_le_self one_lt_two hq
    rwa [ulp, ← zpow_natCast (2 : ℚ) 52, ← zpow_add₀ two_ne_zero,
      show Int.log 2 q - 52 + ((52 : ℕ) : ℤ) = Int.log 2 q by push_cast; ring]
  have hdown := mul_le_mul_of_nonneg_right (le_roundEven (q / ulp q)) hulp.le
  rw [sub_mul, div_mul_cancel₀ q hulp.ne'] at hdown
  rw [nearest]
  linarith

/-- Rounding a positive number does not halve it. -/
lemma half_lt_nearest {q : ℚ} (hq : 0 < q) : q / 2 < nearest q := by
  have hnearest := le_nearest hq
  linarith

end Float64
