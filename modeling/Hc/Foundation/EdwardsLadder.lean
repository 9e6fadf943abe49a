import Hc.Foundation.EdwardsCurve
import Hc.Foundation.MontgomeryLadder

/-!
# The ladder on a twisted Edwards curve

The map `u = (1 + y) / (1 - y)` takes the points of a complete twisted Edwards curve to
the coordinates that the Montgomery ladder works on. The ladder then computes multiples
of the point, whatever the point: the formulas have no exceptions but the coordinate zero,
which belongs to the points of order one and two.
-/

namespace Hc

namespace EdwardsCurve

variable {K : Type} [Field K] {E : EdwardsCurve K}

theorem one_add_d_ne_zero (E : EdwardsCurve K) : 1 + E.d ≠ 0 := by
  intro h
  apply E.not_isSquare_d
  rw [eq_neg_of_add_eq_zero_right h]
  exact E.isSquare_neg_one

theorem one_add_d_mul_sq_ne_zero (E : EdwardsCurve K) (y : K) : 1 + E.d * y ^ 2 ≠ 0 := by
  intro h
  obtain ⟨i, hi⟩ := E.isSquare_neg_one
  have hy : y ≠ 0 := by
    rintro rfl
    simp at h
  apply E.not_isSquare_d
  refine ⟨i / y, ?_⟩
  rw [div_mul_div_comm, ← hi, eq_div_iff (mul_ne_zero hy hy)]
  linear_combination h

namespace Point

/-- The coordinate on the Montgomery curve. The division gives zero for the neutral element. -/
def uCoord (P : E.Point) : K := (1 + P.y) / (1 - P.y)

theorem x_sq (P : E.Point) : P.x ^ 2 * (1 + E.d * P.y ^ 2) = P.y ^ 2 - 1 := by
  linear_combination -P.on_curve

theorem uCoord_eq_zero_iff (P : E.Point) : P.uCoord = 0 ↔ P.x = 0 := by
  have hproduct : (1 + P.y) * (1 - P.y) = -(P.x ^ 2 * (1 + E.d * P.y ^ 2)) := by
    rw [x_sq]
    ring
  rw [uCoord, div_eq_zero_iff, ← mul_eq_zero, hproduct, neg_eq_zero, mul_eq_zero,
    or_iff_left (E.one_add_d_mul_sq_ne_zero P.y), sq_eq_zero_iff]

/-- The points of order one and two are closed under multiples. -/
theorem smul_x_eq_zero {P : E.Point} (hP : P.x = 0) (k : ℕ) : (k • P).x = 0 := by
  induction k with
  | zero => rw [zero_smul, zero_x]
  | succ k ih =>
      have hsum := add_x (k • P) P
      rw [sumX, hP, ih, zero_mul, mul_zero, add_zero] at hsum
      rw [succ_nsmul]
      exact (mul_eq_zero.mp hsum).resolve_right (one_add_cross_ne_zero _ _)

/-! ## Fractions -/

/-- The fraction `x : z` is the coordinate of the point: `x : z = 1 + y : 1 - y`. -/
structure Frac (x z : K) (P : E.Point) : Prop where
  add_ne_zero : x + z ≠ 0
  sub_eq : x - z = (x + z) * P.y

variable {x z x' z' : K} {P Q : E.Point}

theorem Frac.div_eq (h : Frac x z P) : x * z⁻¹ = P.uCoord := by
  have hx : x * 2 = (x + z) * (1 + P.y) := by linear_combination h.sub_eq
  have hz : z * 2 = (x + z) * (1 - P.y) := by linear_combination -h.sub_eq
  rw [← div_eq_mul_inv, ← mul_div_mul_right x z E.two_ne_zero, hx, hz,
    mul_div_mul_left _ _ h.add_ne_zero, uCoord]

theorem frac_zero : Frac 1 0 (0 : E.Point) := by
  refine ⟨?_, ?_⟩
  · rw [add_zero]
    exact one_ne_zero
  · simp

theorem uCoord_mul (hP : P.uCoord ≠ 0) : P.uCoord * (1 - P.y) = 1 + P.y := by
  apply div_mul_cancel₀
  intro hzero
  rw [uCoord, hzero, div_zero] at hP
  exact hP rfl

theorem frac_uCoord (hP : P.uCoord ≠ 0) : Frac P.uCoord 1 P := by
  have hmul := uCoord_mul hP
  refine ⟨?_, ?_⟩
  · intro h
    apply E.two_ne_zero
    linear_combination (1 - P.y) * h - hmul
  · linear_combination hmul

/-! ## Doubling -/

theorem double_y (P : E.Point) :
    (P + P).y * (1 + 2 * E.d * P.y ^ 2 - E.d * P.y ^ 4) =
      E.d * P.y ^ 4 + 2 * P.y ^ 2 - 1 := by
  have hy := add_y P P
  have hx := P.x_sq
  rw [sumY, cross] at hy
  linear_combination (1 + E.d * P.y ^ 2) * hy + (1 + (P + P).y * E.d * P.y ^ 2) * hx

theorem double_den_ne_zero (P : E.Point) : 1 + 2 * E.d * P.y ^ 2 - E.d * P.y ^ 4 ≠ 0 := by
  have hfactor : 1 + 2 * E.d * P.y ^ 2 - E.d * P.y ^ 4 =
      (1 + E.d * P.y ^ 2) * (1 - cross P P) := by
    rw [cross]
    linear_combination E.d * P.y ^ 2 * P.x_sq
  rw [hfactor]
  exact mul_ne_zero (E.one_add_d_mul_sq_ne_zero P.y) (one_sub_cross_ne_zero P P)

/-! ## Differential addition -/

theorem sub_y (P Q : E.Point) : (P - Q).y * (1 + cross P Q) = P.y * Q.y - P.x * Q.x := by
  have hy := add_y P (-Q)
  have hcross : cross P (-Q) = -cross P Q := by
    simp only [cross, neg_x, neg_y]
    ring
  rw [hcross, sub_neg_eq_add, sumY, neg_x, neg_y] at hy
  rw [sub_eq_add_neg]
  linear_combination hy

/-- The denominator of `add_sub_product`. -/
def addSubDen (P Q : E.Point) : K :=
  (1 - cross P Q) * (1 + cross P Q) * ((1 + E.d * P.y ^ 2) * (1 + E.d * Q.y ^ 2))

theorem addSubDen_ne_zero (P Q : E.Point) : addSubDen P Q ≠ 0 :=
  mul_ne_zero (mul_ne_zero (one_sub_cross_ne_zero P Q) (one_add_cross_ne_zero P Q))
    (mul_ne_zero (E.one_add_d_mul_sq_ne_zero P.y) (E.one_add_d_mul_sq_ne_zero Q.y))

/-- The coordinates of a sum and of a difference, multiplied, depend on the coordinates of
the two points only. -/
theorem add_sub_product (P Q : E.Point) {s : K} (hs : s ^ 2 = 1) :
    (1 + s * (P + Q).y) * (1 + s * (P - Q).y) * addSubDen P Q =
      (1 + E.d) * (1 + E.d * (P.y * Q.y) ^ 2) * (P.y + s * Q.y) ^ 2 := by
  have hadd : (1 + s * (P + Q).y) * (1 - cross P Q) =
      1 - cross P Q + s * (P.y * Q.y + P.x * Q.x) := by
    have hy := add_y P Q
    rw [sumY] at hy
    linear_combination s * hy
  have hsub : (1 + s * (P - Q).y) * (1 + cross P Q) =
      1 + cross P Q + s * (P.y * Q.y - P.x * Q.x) := by
    linear_combination s * sub_y P Q
  have hproduct : (1 - cross P Q + s * (P.y * Q.y + P.x * Q.x)) *
      (1 + cross P Q + s * (P.y * Q.y - P.x * Q.x)) =
        (1 + s * (P.y * Q.y)) ^ 2 - (P.x * Q.x) ^ 2 * (1 - s * (E.d * (P.y * Q.y))) ^ 2 := by
    rw [cross]
    linear_combination ((E.d * (P.y * Q.y)) ^ 2 - 1) * (P.x * Q.x) ^ 2 * hs
  have hP := P.x_sq
  have hQ := Q.x_sq
  calc
    _ = (1 + s * (P + Q).y) * (1 - cross P Q) * ((1 + s * (P - Q).y) * (1 + cross P Q)) *
          ((1 + E.d * P.y ^ 2) * (1 + E.d * Q.y ^ 2)) := by
      rw [addSubDen]
      ring
    _ = ((1 + s * (P.y * Q.y)) ^ 2 - (P.x * Q.x) ^ 2 * (1 - s * (E.d * (P.y * Q.y))) ^ 2) *
          ((1 + E.d * P.y ^ 2) * (1 + E.d * Q.y ^ 2)) := by
      rw [hadd, hsub, hproduct]
    _ = _ := by
      linear_combination
        -((1 - s * (E.d * (P.y * Q.y))) ^ 2 * Q.x ^ 2 * (1 + E.d * Q.y ^ 2)) * hP -
        (1 - s * (E.d * (P.y * Q.y))) ^ 2 * (P.y ^ 2 - 1) * hQ +
        (1 + E.d) * Q.y ^ 2 * (P.y ^ 2 * (1 - E.d) + E.d * P.y ^ 4 - 1) * hs

/-- The sum of two points whose difference is known. -/
theorem differential_add (P Q : E.Point) (hD : (P - Q).uCoord ≠ 0) :
    (P.y + Q.y) ^ 2 * (1 - (P + Q).y) =
      (P - Q).uCoord * (P.y - Q.y) ^ 2 * (1 + (P + Q).y) := by
  have hplus := add_sub_product P Q (s := 1) (one_pow 2)
  have hminus := add_sub_product P Q (s := -1) neg_one_sq
  have hmul := uCoord_mul hD
  have hden : 1 - (P - Q).y ≠ 0 := by
    intro hzero
    apply E.two_ne_zero
    rw [hzero, mul_zero] at hmul
    linear_combination hzero - hmul
  apply mul_right_cancel₀ (mul_ne_zero hden (addSubDen_ne_zero P Q))
  linear_combination (P.y + Q.y) ^ 2 * hminus - (P.y - Q.y) ^ 2 * hplus -
    (P.y - Q.y) ^ 2 * (1 + (P + Q).y) * addSubDen P Q * hmul

/-- The two terms of the differential addition do not vanish together. -/
theorem differential_ne_zero (P Q : E.Point) (hD : (P - Q).uCoord ≠ 0) :
    (P.y + Q.y) ^ 2 + (P - Q).uCoord * (P.y - Q.y) ^ 2 ≠ 0 := by
  intro hzero
  have hadd := differential_add P Q hD
  have hsum : P.y + Q.y = 0 := by
    have htwice : 2 * (P.y + Q.y) ^ 2 = 0 := by
      linear_combination hadd + (1 + (P + Q).y) * hzero
    exact sq_eq_zero_iff.mp ((mul_eq_zero.mp htwice).resolve_left E.two_ne_zero)
  have hdiff : P.y - Q.y = 0 := by
    rw [hsum, sq, zero_mul, zero_add] at hzero
    exact sq_eq_zero_iff.mp ((mul_eq_zero.mp hzero).resolve_left hD)
  have hP : P.y = 0 := by
    have htwice : 2 * P.y = 0 := by linear_combination hsum + hdiff
    exact (mul_eq_zero.mp htwice).resolve_left E.two_ne_zero
  have hQ : Q.y = 0 := by rwa [hP, zero_add] at hsum
  -- Both points have order four, so their difference is the neutral element or of order two.
  apply hD
  rw [uCoord_eq_zero_iff]
  have hx := add_x P (-Q)
  rw [sumX, neg_x, neg_y, hP, hQ, mul_zero, zero_mul, add_zero] at hx
  rw [sub_eq_add_neg]
  exact (mul_eq_zero.mp hx).resolve_right (one_add_cross_ne_zero _ _)

end Point

end EdwardsCurve

/-! ## The ladder -/

namespace Ladder

open EdwardsCurve EdwardsCurve.Point

variable {K : Type} [Field K] {E : EdwardsCurve K}

/-- The two points of the ladder. -/
structure Points (s : Ladder K) (P Q : E.Point) : Prop where
  first : Frac s.x2 s.z2 P
  second : Frac s.x3 s.z3 Q

variable {a24 : K} {s : Ladder K} {P Q : E.Point}

theorem Points.cswap_true (h : Points s P Q) : Points (cswap true s) Q P :=
  ⟨h.second, h.first⟩

theorem Points.step_first (ha24 : a24 * (1 + E.d) = -E.d) (u : K) (h : Points s P Q) :
    Frac (step a24 u s).x2 (step a24 u s).z2 (P + P) := by
  have hd := E.one_add_d_ne_zero
  have hsub := h.first.sub_eq
  have hx : (1 + E.d) * (step a24 u s).x2 = (s.x2 + s.z2) ^ 4 * ((1 + E.d) * P.y ^ 2) := by
    simp only [step, hsub]
    ring
  have hz : (1 + E.d) * (step a24 u s).z2 =
      (s.x2 + s.z2) ^ 4 * ((1 - P.y ^ 2) * (1 + E.d * P.y ^ 2)) := by
    simp only [step, hsub]
    linear_combination ((s.x2 + s.z2) ^ 2 - ((s.x2 + s.z2) * P.y) ^ 2) ^ 2 * ha24
  have hsum : (1 + E.d) * ((step a24 u s).x2 + (step a24 u s).z2) =
      (s.x2 + s.z2) ^ 4 * (1 + 2 * E.d * P.y ^ 2 - E.d * P.y ^ 4) := by
    linear_combination hx + hz
  constructor
  · intro hzero
    rw [hzero, mul_zero] at hsum
    exact mul_ne_zero (pow_ne_zero 4 h.first.add_ne_zero) (double_den_ne_zero P) hsum.symm
  · apply mul_left_cancel₀ hd
    linear_combination hx - hz - (P + P).y * hsum - (s.x2 + s.z2) ^ 4 * double_y P

theorem Points.step_second (h : Points s P Q) (hD : (P - Q).uCoord ≠ 0) :
    Frac (step a24 (P - Q).uCoord s).x3 (step a24 (P - Q).uCoord s).z3 (P + Q) := by
  have hfirst := h.first.sub_eq
  have hsecond := h.second.sub_eq
  have hscale : ((s.x2 + s.z2) * (s.x3 + s.z3)) ^ 2 ≠ 0 :=
    pow_ne_zero 2 (mul_ne_zero h.first.add_ne_zero h.second.add_ne_zero)
  have hx : (step a24 (P - Q).uCoord s).x3 =
      ((s.x2 + s.z2) * (s.x3 + s.z3)) ^ 2 * (P.y + Q.y) ^ 2 := by
    simp only [step, hfirst, hsecond]
    ring
  have hz : (step a24 (P - Q).uCoord s).z3 =
      ((s.x2 + s.z2) * (s.x3 + s.z3)) ^ 2 * ((P - Q).uCoord * (P.y - Q.y) ^ 2) := by
    simp only [step, hfirst, hsecond]
    ring
  rw [hx, hz]
  constructor
  · rw [← mul_add]
    exact mul_ne_zero hscale (differential_ne_zero P Q hD)
  · linear_combination ((s.x2 + s.z2) * (s.x3 + s.z3)) ^ 2 * differential_add P Q hD

theorem Points.step (ha24 : a24 * (1 + E.d) = -E.d) (h : Points s P Q)
    (hD : (P - Q).uCoord ≠ 0) : Points (step a24 (P - Q).uCoord s) (P + P) (P + Q) :=
  ⟨h.step_first ha24 _, h.step_second hD⟩

/-- One round doubles the multiple and adds the bit. -/
theorem Points.round (ha24 : a24 * (1 + E.d) = -E.d) (hu : P.uCoord ≠ 0) {n : ℕ}
    (h : Points s (n • P) ((n + 1) • P)) (bit : Bool) :
    Points (round a24 P.uCoord bit s) ((2 * n + bit.toNat) • P) ((2 * n + bit.toNat + 1) • P) := by
  have hnext : (n + 1) • P - n • P = P := by rw [succ_nsmul, add_sub_cancel_left]
  have hprev : (n • P - (n + 1) • P).uCoord = P.uCoord := by
    rw [← neg_sub, hnext, uCoord, neg_y, uCoord]
  have hdouble (m : ℕ) : m • P + m • P = (2 * m) • P := by rw [← add_smul, two_mul]
  cases bit with
  | false =>
      have hstep := h.step ha24 (by rwa [hprev])
      rw [hprev, hdouble, ← add_smul, ← add_assoc, ← two_mul] at hstep
      exact hstep
  | true =>
      have hstep := h.cswap_true.step ha24 (by rwa [hnext])
      rw [hnext, hdouble, ← add_smul, add_right_comm, ← two_mul] at hstep
      exact hstep.cswap_true

/-- The rounds for the low bits of `k`, started from the multiple by its high bits, end in
the multiple by `k`. -/
theorem Points.rounds (ha24 : a24 * (1 + E.d) = -E.d) (hu : P.uCoord ≠ 0) (k i : ℕ)
    (h : Points s ((k / 2 ^ i) • P) ((k / 2 ^ i + 1) • P)) :
    Points (rounds a24 P.uCoord k i s) (k • P) ((k + 1) • P) := by
  induction i generalizing s with
  | zero =>
      rw [pow_zero, Nat.div_one] at h
      exact h
  | succ i ih =>
      have hbit : 2 * (k / 2 ^ (i + 1)) + (k.testBit i).toNat = k / 2 ^ i := by
        rw [Nat.toNat_testBit, pow_succ, ← Nat.div_div_eq_div_mul]
        exact Nat.div_add_mod _ 2
      have hround := h.round ha24 hu (k.testBit i)
      rw [hbit] at hround
      exact ih hround

/-- The ladder computes the coordinate of a multiple. -/
theorem result_rounds (ha24 : a24 * (1 + E.d) = -E.d) (P : E.Point) {k i : ℕ}
    (hk : k < 2 ^ (i + 1)) :
    (rounds a24 P.uCoord k (i + 1) (start P.uCoord)).result = (k • P).uCoord := by
  rcases eq_or_ne P.uCoord 0 with hu | hu
  · have hmultiple : (k • P).uCoord = 0 :=
      (uCoord_eq_zero_iff _).mpr (smul_x_eq_zero ((uCoord_eq_zero_iff P).mp hu) k)
    rw [hmultiple, hu, result, rounds_zero a24 k i (mul_zero _) (zero_mul _), inv_zero, mul_zero]
  · have hstart : Points (start P.uCoord) ((k / 2 ^ (i + 1)) • P) ((k / 2 ^ (i + 1) + 1) • P) := by
      rw [Nat.div_eq_of_lt hk, zero_smul, zero_add, one_smul]
      exact ⟨frac_zero, frac_uCoord hu⟩
    exact (hstart.rounds ha24 hu).first.div_eq

end Ladder

end Hc
