import Mathlib.Data.Int.Log
import Mathlib.Data.Rat.Floor
import Mathlib.Tactic.Linarith
import Mathlib.Tactic.FieldSimp

/-!
# Doubles

`toDouble q` is the double next to `q`, and a calculation with doubles rounds after each operation.

- `abs_toDouble_sub_le`: the relative error of a double is at most `2⁻⁵³`;
- `toDouble_close`: what a rounding adds to the error of a calculation.
-/

namespace TrackIt.Lib

/-- The integer next to `q`, the even one of two. -/
def roundEven (q : ℚ) : ℤ :=
  if Int.fract q < 1 / 2 then ⌊q⌋
  else if 1 / 2 < Int.fract q then ⌊q⌋ + 1
  else if ⌊q⌋ % 2 = 0 then ⌊q⌋ else ⌊q⌋ + 1

theorem abs_roundEven_sub_le (q : ℚ) : |roundEven q - q| ≤ 1 / 2 := by
  have hq : q = ⌊q⌋ + Int.fract q := (Int.floor_add_fract q).symm
  have h0 := Int.fract_nonneg q
  have h1 := Int.fract_lt_one q
  rw [abs_le, roundEven]
  split_ifs <;> push_cast <;> constructor <;> linarith

/-- An integer that is nearer than one half is the one. -/
theorem roundEven_eq {q : ℚ} {n : ℤ} (h : |q - n| < 1 / 2) : roundEven q = n := by
  have hround := abs_le.1 (abs_roundEven_sub_le q)
  have h := abs_lt.1 h
  have hlt : (roundEven q : ℚ) < n + 1 := by linarith
  have hgt : (n : ℚ) < roundEven q + 1 := by linarith
  have hlt : roundEven q < n + 1 := by exact_mod_cast hlt
  have hgt : n < roundEven q + 1 := by exact_mod_cast hgt
  omega

theorem roundEven_nonneg {q : ℚ} (h : 0 ≤ q) : 0 ≤ roundEven q := by
  have hround := (abs_le.1 (abs_roundEven_sub_le q)).1
  have hgt : (-1 : ℚ) < roundEven q := by linarith
  have hgt : -1 < roundEven q := by exact_mod_cast hgt
  omega

/-- The double next to `q`, in the range of normal numbers: a significand of 53 bits. -/
def toDouble (q : ℚ) : ℚ :=
  let ulp : ℚ := 2 ^ (Int.log 2 |q| - 52)
  roundEven (q / ulp) * ulp

theorem abs_toDouble_sub_le (q : ℚ) : |toDouble q - q| ≤ |q| / 2 ^ 53 := by
  by_cases hq : q = 0
  · subst hq
    simp [toDouble, roundEven]
  · have hlog : (2 : ℚ) ^ Int.log 2 |q| ≤ |q| := by
      exact_mod_cast Int.zpow_log_le_self Nat.one_lt_two (abs_pos.2 hq)
    have hulp : (2 : ℚ) ^ (Int.log 2 |q| - 52) = 2 ^ Int.log 2 |q| / 2 ^ 52 := by
      rw [zpow_sub₀ two_ne_zero]
      norm_cast
    have hpos : (0 : ℚ) < 2 ^ (Int.log 2 |q| - 52) := zpow_pos two_pos _
    have hround := abs_roundEven_sub_le (q / 2 ^ (Int.log 2 |q| - 52))
    calc |toDouble q - q|
        = |roundEven (q / 2 ^ (Int.log 2 |q| - 52)) - q / 2 ^ (Int.log 2 |q| - 52)| * 2 ^ (Int.log 2 |q| - 52) := by
          rw [← abs_of_pos hpos, ← abs_mul, abs_of_pos hpos, sub_mul, div_mul_cancel₀ _ hpos.ne', toDouble]
      _ ≤ 1 / 2 * 2 ^ (Int.log 2 |q| - 52) := mul_le_mul_of_nonneg_right hround hpos.le
      _ = 2 ^ Int.log 2 |q| / 2 ^ 53 := by rw [hulp]; ring
      _ ≤ |q| / 2 ^ 53 := by gcongr

/-- A double has the sign of the number, and is zero only for zero. -/
theorem toDouble_neg_iff (q : ℚ) : toDouble q < 0 ↔ q < 0 := by
  have h := abs_le.1 (abs_toDouble_sub_le q)
  rcases lt_or_ge q 0 with hq | hq
  · rw [abs_of_neg hq] at h
    exact iff_of_true (by linarith) hq
  · rw [abs_of_nonneg hq] at h
    exact iff_of_false (by linarith) (not_lt.2 hq)

theorem toDouble_nonneg {q : ℚ} (h : 0 ≤ q) : 0 ≤ toDouble q := not_lt.1 (mt (toDouble_neg_iff q).1 (not_lt.2 h))

/-- A rounding in a calculation that is off by at most `e` already. -/
theorem toDouble_close {q y e b : ℚ} (h : |q - y| ≤ e) (hy : |y| ≤ b) : |toDouble q - y| ≤ e + (b + e) / 2 ^ 53 := by
  have hround := abs_toDouble_sub_le q
  have hq : |q| ≤ b + e := by
    have htri := abs_add_le (q - y) y
    rw [sub_add_cancel] at htri
    linarith
  calc |toDouble q - y| = |(toDouble q - q) + (q - y)| := by rw [sub_add_sub_cancel]
    _ ≤ |toDouble q - q| + |q - y| := abs_add_le _ _
    _ ≤ |q| / 2 ^ 53 + e := add_le_add hround h
    _ ≤ (b + e) / 2 ^ 53 + e := by gcongr
    _ = e + (b + e) / 2 ^ 53 := add_comm _ _

end TrackIt.Lib
