import Mathlib.NumberTheory.LegendreSymbol.Basic
import Mathlib.Tactic.LinearCombination

/-!
# Square roots of quotients

In a prime field with `5 mod 8` elements one power gives a candidate for the square root of
`u / v`; if there is a root, it is the candidate or the candidate times a root of `-1`.
-/

namespace Hc

variable {p : ℕ} [Fact p.Prime]

/-- The candidate for a root of `u / v`. -/
def sqrtRatio (u v : ZMod p) : ZMod p := u * v ^ 3 * (u * v ^ 7) ^ ((p - 5) / 8)

theorem mul_sqrtRatio_sq (hp : p % 8 = 5) (u v : ZMod p) :
    v * sqrtRatio u v ^ 2 = u * (u * v ^ 7) ^ ((p - 1) / 4) := by
  have hexp : (p - 1) / 4 = 2 * ((p - 5) / 8) + 1 := by omega
  rw [sqrtRatio, hexp, pow_succ (u * v ^ 7), pow_mul' (u * v ^ 7)]
  ring

/-- If `u / v` has a root, the candidate is one up to a fourth root of 1. -/
theorem mul_sqrtRatio_sq_eq (hp : p % 8 = 5) {u v x : ZMod p} (hx : v * x ^ 2 = u) :
    v * sqrtRatio u v ^ 2 = u ∨ v * sqrtRatio u v ^ 2 = -u := by
  have hpower : (u * v ^ 7) ^ ((p - 1) / 4) = (v ^ 4 * x) ^ (p / 2) := by
    have hhalf : p / 2 = 2 * ((p - 1) / 4) := by omega
    rw [hhalf, pow_mul, ← hx]
    ring
  rw [mul_sqrtRatio_sq hp, hpower]
  by_cases hzero : v ^ 4 * x = 0
  · have hu : u = 0 := by
      rw [← hx]
      rcases mul_eq_zero.mp hzero with hv | hx0
      · rw [pow_eq_zero_iff (by decide)] at hv
        rw [hv, zero_mul]
      · rw [hx0]
        ring
    left
    rw [hu, zero_mul]
  · rcases ZMod.pow_div_two_eq_neg_one_or_one p hzero with hone | hminus
    · left
      rw [hone, mul_one]
    · right
      rw [hminus, mul_neg_one]

end Hc
