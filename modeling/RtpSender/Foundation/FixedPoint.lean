import Mathlib.Algebra.Order.Field.Basic
import Mathlib.Algebra.Order.Field.Rat
import Mathlib.Algebra.Order.Floor.Div

/-!
# Fixed-point fractions

A fraction `n / unit` is stored as the number of its whole steps of size `1 / scale`, cut downwards.
When a step is not larger than `1 / unit`, nothing is lost: rounding the stored number up gives `n`
again, and different fractions keep their order.
-/

namespace RtpSender.FixedPoint

variable {unit scale : ℕ}

/-- The whole steps of size `1 / scale` in `n / unit`. -/
def toFixed (unit scale n : ℕ) : ℕ := n * scale / unit

theorem toFixed_mul_le (n : ℕ) : toFixed unit scale n * unit ≤ n * scale :=
  Nat.div_mul_le_self _ _

theorem lt_toFixed_mul (hunit : 0 < unit) (n : ℕ) :
    n * scale < toFixed unit scale n * unit + unit := by
  have hlt := Nat.lt_mul_div_succ (n * scale) hunit
  rwa [Nat.mul_add_one, Nat.mul_comm unit] at hlt

/-- A proper fraction needs no more digits than the scale has. -/
theorem toFixed_lt (hscale : 0 < scale) {n : ℕ} (h : n < unit) : toFixed unit scale n < scale := by
  apply Nat.div_lt_of_lt_mul
  exact Nat.mul_lt_mul_of_pos_right h hscale

theorem toFixed_lt_toFixed (hunit : 0 < unit) (hscale : unit ≤ scale) {n m : ℕ} (h : n < m) :
    toFixed unit scale n < toFixed unit scale m := by
  have hstep : n * scale + scale ≤ m * scale := by
    rw [← Nat.succ_mul]
    exact Nat.mul_le_mul_right scale h
  have hlow : toFixed unit scale n * unit ≤ n * scale := toFixed_mul_le n
  have hhigh : m * scale < toFixed unit scale m * unit + unit := lt_toFixed_mul hunit m
  have hmul : toFixed unit scale n * unit < toFixed unit scale m * unit := by omega
  exact Nat.lt_of_mul_lt_mul_right hmul

/-! ## The value of a stored fraction -/

theorem toFixed_mul_div_le (hscale : 0 < scale) (n : ℕ) :
    (toFixed unit scale n * unit / scale : ℚ) ≤ n := by
  have hpos : (0 : ℚ) < scale := Nat.cast_pos.mpr hscale
  rw [div_le_iff₀ hpos]
  exact_mod_cast @toFixed_mul_le unit scale n

/-- Less than one step is lost. -/
theorem lt_toFixed_mul_div (hunit : 0 < unit) (hscale : 0 < scale) (n : ℕ) :
    (n : ℚ) < toFixed unit scale n * unit / scale + unit / scale := by
  have hpos : (0 : ℚ) < scale := Nat.cast_pos.mpr hscale
  rw [← add_div, lt_div_iff₀ hpos]
  exact_mod_cast @lt_toFixed_mul unit scale hunit n

/-- Rounding up undoes the cut. -/
theorem ceilDiv_toFixed (hunit : 0 < unit) (hscale : unit ≤ scale) (n : ℕ) :
    toFixed unit scale n * unit ⌈/⌉ scale = n := by
  have hpos : 0 < scale := hunit.trans_le hscale
  apply le_antisymm
  · rw [ceilDiv_le_iff_le_mul hpos, Nat.mul_comm scale]
    exact toFixed_mul_le n
  · by_contra! hlt
    have hceil : toFixed unit scale n * unit ≤ scale * (toFixed unit scale n * unit ⌈/⌉ scale) :=
      (ceilDiv_le_iff_le_mul hpos).mp le_rfl
    have hstep : scale * (toFixed unit scale n * unit ⌈/⌉ scale + 1) ≤ scale * n :=
      Nat.mul_le_mul_left scale hlt
    have hhigh : n * scale < toFixed unit scale n * unit + unit := lt_toFixed_mul hunit n
    rw [Nat.mul_add_one, Nat.mul_comm scale n] at hstep
    omega

end RtpSender.FixedPoint
