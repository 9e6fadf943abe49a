import Mathlib.Algebra.Group.Even
import Mathlib.Algebra.Group.Basic
import Mathlib.Tactic.FieldSimp
import Mathlib.Tactic.LinearCombination
import Mathlib.Tactic.Ring

/-!
# Complete twisted Edwards curves

The curve `-x² + y² = 1 + d x² y²` over a field in which `-1` is a square and `d` is
not. Then the addition law has no exceptions, and the points are a commutative group.
-/

namespace Hc

/-- The coefficient of a complete twisted Edwards curve with `a = -1`. -/
structure EdwardsCurve (K : Type*) [Field K] where
  d : K
  not_isSquare_d : ¬ IsSquare d
  isSquare_neg_one : IsSquare (-1 : K)
  two_ne_zero : (2 : K) ≠ 0

namespace EdwardsCurve

variable {K : Type*} [Field K] {E : EdwardsCurve K}

/-- A point of the curve. -/
@[ext]
structure Point (E : EdwardsCurve K) where
  x : K
  y : K
  on_curve : -x ^ 2 + y ^ 2 = 1 + E.d * x ^ 2 * y ^ 2

namespace Point

instance : Zero E.Point := ⟨⟨0, 1, by ring⟩⟩

instance : Neg E.Point := ⟨fun P => ⟨-P.x, P.y, by linear_combination P.on_curve⟩⟩

@[simp] theorem zero_x : (0 : E.Point).x = 0 := rfl

@[simp] theorem zero_y : (0 : E.Point).y = 1 := rfl

@[simp] theorem neg_x (P : E.Point) : (-P).x = -P.x := rfl

@[simp] theorem neg_y (P : E.Point) : (-P).y = P.y := rfl

/-- The product that enters both denominators of the addition law. -/
def cross (P Q : E.Point) : K := E.d * (P.x * Q.x * P.y * Q.y)

theorem cross_comm (P Q : E.Point) : cross P Q = cross Q P := by
  unfold cross
  ring

/-- If a denominator of the addition law is zero, `d` is a square. -/
theorem isSquare_d_of_cross {P Q : E.Point} {i : K} (hi : i * i = -1) (hcross : cross P Q ^ 2 = 1)
    (hne : i * Q.x + Q.y ≠ 0) : IsSquare E.d := by
  have hP := P.on_curve
  have hQ := Q.on_curve
  have hnonzero : cross P Q ≠ 0 := fun h => by simp [h] at hcross
  unfold cross at hcross hnonzero
  have hx : P.x ≠ 0 := fun h => hnonzero (by rw [h]; ring)
  have hy : P.y ≠ 0 := fun h => hnonzero (by rw [h]; ring)
  have hi0 : i ≠ 0 := fun h => by simp [h] at hi
  have hsquare : (i * P.x + E.d * (P.x * Q.x * P.y * Q.y) * P.y) ^ 2 =
      -E.d * (i * P.x * P.y * (i * Q.x + Q.y)) ^ 2 := by
    linear_combination hP + (P.x ^ 2 + E.d * P.x ^ 2 * P.y ^ 2 * (i * Q.x + Q.y) ^ 2 -
      E.d * P.x ^ 2 * P.y ^ 2 * Q.x ^ 2) * hi + (P.y ^ 2 - 1) * hcross -
      E.d * P.x ^ 2 * P.y ^ 2 * hQ
  have hden : i * P.x * P.y * (i * Q.x + Q.y) ≠ 0 :=
    mul_ne_zero (mul_ne_zero (mul_ne_zero hi0 hx) hy) hne
  refine ⟨i * (i * P.x + E.d * (P.x * Q.x * P.y * Q.y) * P.y) /
    (i * P.x * P.y * (i * Q.x + Q.y)), ?_⟩
  rw [div_mul_div_comm, eq_div_iff (mul_ne_zero hden hden)]
  linear_combination hsquare - (i * P.x + E.d * (P.x * Q.x * P.y * Q.y) * P.y) ^ 2 * hi

/-- No denominator of the addition law is zero. -/
theorem cross_sq_ne_one (P Q : E.Point) : cross P Q ^ 2 ≠ 1 := by
  intro hcross
  obtain ⟨i, hi⟩ := E.isSquare_neg_one
  have hplus : i * Q.x + Q.y = 0 := by
    by_contra hne
    exact E.not_isSquare_d (isSquare_d_of_cross hi.symm hcross hne)
  have hminus : -i * Q.x + Q.y = 0 := by
    by_contra hne
    exact E.not_isSquare_d (isSquare_d_of_cross (by linear_combination -hi) hcross hne)
  have hy : Q.y = 0 := by
    have htwo : 2 * Q.y = 0 := by linear_combination hplus + hminus
    exact (mul_eq_zero.mp htwo).resolve_left E.two_ne_zero
  rw [cross, hy] at hcross
  simp at hcross

theorem one_add_cross_ne_zero (P Q : E.Point) : 1 + cross P Q ≠ 0 := by
  intro h
  exact cross_sq_ne_one P Q (by linear_combination (cross P Q - 1) * h)

theorem one_sub_cross_ne_zero (P Q : E.Point) : 1 - cross P Q ≠ 0 := by
  intro h
  exact cross_sq_ne_one P Q (by linear_combination -(cross P Q + 1) * h)

/-! ## The addition law -/

/-- The first numerator of the addition law. -/
def sumX (P Q : E.Point) : K := P.x * Q.y + P.y * Q.x

/-- The second numerator of the addition law. -/
def sumY (P Q : E.Point) : K := P.y * Q.y + P.x * Q.x

/-- The sum of two points is on the curve. -/
theorem add_on_curve (P Q : E.Point) :
    -(sumX P Q / (1 + cross P Q)) ^ 2 + (sumY P Q / (1 - cross P Q)) ^ 2 =
      1 + E.d * (sumX P Q / (1 + cross P Q)) ^ 2 * (sumY P Q / (1 - cross P Q)) ^ 2 := by
  have hadd := one_add_cross_ne_zero P Q
  have hsub := one_sub_cross_ne_zero P Q
  field_simp
  unfold sumX sumY cross
  linear_combination
    (Q.y ^ 4 - 4 * Q.x ^ 2 * Q.y ^ 2 + 2 * Q.x ^ 2 * Q.y ^ 4 + Q.x ^ 4 - 2 * Q.x ^ 4 * Q.y ^ 2 -
      2 * E.d * Q.x ^ 2 * Q.y ^ 2 - 2 * E.d * Q.x ^ 4 * Q.y ^ 4 -
      E.d * P.y ^ 2 * Q.x ^ 2 * Q.y ^ 4 + E.d * P.y ^ 2 * Q.x ^ 4 * Q.y ^ 2 +
      E.d * P.x ^ 2 * Q.x ^ 2 * Q.y ^ 4 - E.d * P.x ^ 2 * Q.x ^ 4 * Q.y ^ 2 -
      E.d ^ 2 * Q.x ^ 4 * Q.y ^ 4 + E.d ^ 2 * P.y ^ 2 * Q.x ^ 4 * Q.y ^ 4 -
      E.d ^ 2 * P.x ^ 2 * Q.x ^ 4 * Q.y ^ 4 +
        E.d ^ 3 * P.x ^ 2 * P.y ^ 2 * Q.x ^ 4 * Q.y ^ 4) * P.on_curve +
    (1 + Q.y ^ 2 - Q.x ^ 2 + 2 * Q.x ^ 2 * Q.y ^ 2 - P.y ^ 2 * Q.y ^ 2 + P.y ^ 2 * Q.x ^ 2 -
      2 * P.y ^ 2 * Q.x ^ 2 * Q.y ^ 2 + P.x ^ 2 * Q.y ^ 2 - P.x ^ 2 * Q.x ^ 2 +
      2 * P.x ^ 2 * Q.x ^ 2 * Q.y ^ 2 + E.d * Q.x ^ 2 * Q.y ^ 2 -
      2 * E.d * P.y ^ 2 * Q.x ^ 2 * Q.y ^ 2 + E.d * P.y ^ 4 * Q.x ^ 2 * Q.y ^ 2 +
      2 * E.d * P.x ^ 2 * Q.x ^ 2 * Q.y ^ 2 + E.d * P.x ^ 4 * Q.x ^ 2 * Q.y ^ 2) * Q.on_curve

instance : Add E.Point :=
  ⟨fun P Q => ⟨sumX P Q / (1 + cross P Q), sumY P Q / (1 - cross P Q), add_on_curve P Q⟩⟩

theorem add_x (P Q : E.Point) : (P + Q).x * (1 + cross P Q) = sumX P Q :=
  div_mul_cancel₀ _ (one_add_cross_ne_zero P Q)

theorem add_y (P Q : E.Point) : (P + Q).y * (1 - cross P Q) = sumY P Q :=
  div_mul_cancel₀ _ (one_sub_cross_ne_zero P Q)

/-- A point that satisfies the equations of the addition law is the sum. -/
theorem add_eq_of {P Q R : E.Point} (hx : R.x * (1 + cross P Q) = sumX P Q)
    (hy : R.y * (1 - cross P Q) = sumY P Q) : P + Q = R := by
  apply Point.ext
  · exact mul_right_cancel₀ (one_add_cross_ne_zero P Q) ((add_x P Q).trans hx.symm)
  · exact mul_right_cancel₀ (one_sub_cross_ne_zero P Q) ((add_y P Q).trans hy.symm)

protected theorem add_comm (P Q : E.Point) : P + Q = Q + P := by
  apply add_eq_of
  · rw [cross_comm, add_x]
    unfold sumX
    ring
  · rw [cross_comm, add_y]
    unfold sumY
    ring

protected theorem zero_add (P : E.Point) : 0 + P = P := by
  apply add_eq_of
  · simp [cross, sumX]
  · simp [cross, sumY]

protected theorem neg_add_cancel (P : E.Point) : -P + P = 0 := by
  apply add_eq_of
  · simp [sumX, mul_comm]
  · simp only [cross, sumY, zero_y, neg_x, neg_y]
    linear_combination -P.on_curve

/-! ## Associativity

The sum of three points over a common denominator, in either order. The curve equations
make the two fractions equal. -/

def sum3X (P Q R : E.Point) : K :=
  sumX P Q * (1 - cross P Q) * R.y + sumY P Q * (1 + cross P Q) * R.x

def sum3Y (P Q R : E.Point) : K :=
  sumY P Q * (1 + cross P Q) * R.y + sumX P Q * (1 - cross P Q) * R.x

def cross3 (P Q R : E.Point) : K := E.d * (sumX P Q * R.x * sumY P Q * R.y)

theorem cross_add (P Q R : E.Point) :
    cross (P + Q) R * ((1 + cross P Q) * (1 - cross P Q)) = cross3 P Q R := by
  have hx := add_x P Q
  have hy := add_y P Q
  unfold cross cross3
  rw [← hx, ← hy]
  unfold cross
  ring

theorem add_add_x (P Q R : E.Point) : (P + Q + R).x *
    ((1 + cross P Q) * (1 - cross P Q) + cross3 P Q R) = sum3X P Q R := by
  have h := add_x (P + Q) R
  have hcross := cross_add P Q R
  rw [sumX] at h
  rw [sum3X, ← add_x P Q, ← add_y P Q, ← hcross]
  linear_combination (1 + cross P Q) * (1 - cross P Q) * h

theorem add_add_y (P Q R : E.Point) : (P + Q + R).y *
    ((1 + cross P Q) * (1 - cross P Q) - cross3 P Q R) = sum3Y P Q R := by
  have h := add_y (P + Q) R
  have hcross := cross_add P Q R
  rw [sumY] at h
  rw [sum3Y, ← add_x P Q, ← add_y P Q, ← hcross]
  linear_combination (1 + cross P Q) * (1 - cross P Q) * h

theorem den3X_ne_zero (P Q R : E.Point) :
    (1 + cross P Q) * (1 - cross P Q) + cross3 P Q R ≠ 0 := by
  have hfactor : (1 + cross P Q) * (1 - cross P Q) + cross3 P Q R =
      (1 + cross P Q) * (1 - cross P Q) * (1 + cross (P + Q) R) := by
    rw [← cross_add]
    ring
  rw [hfactor]
  exact mul_ne_zero (mul_ne_zero (one_add_cross_ne_zero P Q) (one_sub_cross_ne_zero P Q))
    (one_add_cross_ne_zero _ R)

theorem den3Y_ne_zero (P Q R : E.Point) :
    (1 + cross P Q) * (1 - cross P Q) - cross3 P Q R ≠ 0 := by
  have hfactor : (1 + cross P Q) * (1 - cross P Q) - cross3 P Q R =
      (1 + cross P Q) * (1 - cross P Q) * (1 - cross (P + Q) R) := by
    rw [← cross_add]
    ring
  rw [hfactor]
  exact mul_ne_zero (mul_ne_zero (one_add_cross_ne_zero P Q) (one_sub_cross_ne_zero P Q))
    (one_sub_cross_ne_zero _ R)

theorem sum3X_mul (P Q R : E.Point) :
    sum3X P Q R * ((1 + cross Q R) * (1 - cross Q R) + cross3 Q R P) =
      sum3X Q R P * ((1 + cross P Q) * (1 - cross P Q) + cross3 P Q R) := by
  unfold sum3X cross3 sumX sumY cross
  linear_combination
    E.d * Q.x * Q.y * (P.y * Q.x ^ 2 * Q.y * R.y ^ 3 + P.y * Q.x ^ 3 * R.x * R.y ^ 2 + P.x *
      Q.y ^ 3 * R.x * R.y ^ 2 + P.x * Q.x * Q.y ^ 2 * R.y ^ 3 + E.d * P.y * Q.x ^ 2 * Q.y ^ 3 *
      R.x ^ 2 * R.y + E.d * P.y * Q.x ^ 3 * Q.y ^ 2 * R.x * R.y ^ 2 - P.y * Q.y ^ 3 * R.x ^ 2 *
      R.y - P.y * Q.x * Q.y ^ 2 * R.x - P.y * Q.x * Q.y ^ 2 * R.x ^ 3 - P.y * Q.x ^ 2 * Q.y *
      R.y - P.x * Q.x * Q.y ^ 2 * R.y - P.x * Q.x ^ 2 * Q.y * R.x - P.x * Q.x ^ 2 * Q.y *
      R.x ^ 3 - P.x * Q.x ^ 3 * R.x ^ 2 * R.y - E.d * P.x * Q.x ^ 2 * Q.y ^ 3 * R.x * R.y ^ 2 -
      E.d * P.x * Q.x ^ 3 * Q.y ^ 2 * R.x ^ 2 * R.y) * P.on_curve +
    E.d * Q.x * Q.y * (P.y ^ 3 * Q.y * R.x ^ 2 * R.y + P.y ^ 3 * Q.x * R.x * R.y ^ 2 + P.x *
      Q.y * R.x * R.y ^ 2 + P.x * Q.x * R.x ^ 2 * R.y + P.x * P.y ^ 2 * Q.x * R.y + P.x ^ 2 *
      P.y * Q.y * R.y + P.x ^ 3 * Q.y * R.x * R.y ^ 2 + P.x ^ 3 * Q.x * R.x ^ 2 * R.y - P.y *
      Q.y * R.x ^ 2 * R.y - P.y * Q.x * R.x * R.y ^ 2 - P.x * P.y ^ 2 * Q.y * R.x - P.x *
      P.y ^ 2 * Q.y * R.x ^ 3 - P.x * P.y ^ 2 * Q.x * R.y ^ 3 - P.x ^ 2 * P.y * Q.y * R.y ^ 3 -
      P.x ^ 2 * P.y * Q.x * R.x - P.x ^ 2 * P.y * Q.x * R.x ^ 3) * Q.on_curve +
    E.d * Q.x * Q.y * (P.y * Q.x * Q.y ^ 2 * R.x + P.y * Q.x ^ 2 * Q.y * R.y + P.x * Q.x *
      Q.y ^ 2 * R.y + P.x * Q.x ^ 2 * Q.y * R.x + P.x ^ 2 * P.y * Q.y ^ 3 * R.y + P.x ^ 2 * P.y *
      Q.x ^ 3 * R.x + P.x ^ 3 * Q.x * Q.y ^ 2 * R.y + P.x ^ 3 * Q.x ^ 2 * Q.y * R.x + E.d * P.x *
      P.y ^ 2 * Q.x ^ 2 * Q.y ^ 3 * R.x + E.d * P.x ^ 2 * P.y * Q.x ^ 3 * Q.y ^ 2 * R.x -
      P.y ^ 3 * Q.x * Q.y ^ 2 * R.x - P.y ^ 3 * Q.x ^ 2 * Q.y * R.y - P.x * P.y ^ 2 * Q.y ^ 3 *
      R.x - P.x * P.y ^ 2 * Q.x ^ 3 * R.y - E.d * P.x * P.y ^ 2 * Q.x ^ 3 * Q.y ^ 2 * R.y - E.d *
      P.x ^ 2 * P.y * Q.x ^ 2 * Q.y ^ 3 * R.y) * R.on_curve

theorem sum3Y_mul (P Q R : E.Point) :
    sum3Y P Q R * ((1 + cross Q R) * (1 - cross Q R) - cross3 Q R P) =
      sum3Y Q R P * ((1 + cross P Q) * (1 - cross P Q) - cross3 P Q R) := by
  unfold sum3Y cross3 sumX sumY cross
  linear_combination
    E.d * Q.x * Q.y * (P.y * Q.y ^ 3 * R.x * R.y ^ 2 + P.y * Q.x * Q.y ^ 2 * R.y ^ 3 + P.x *
      Q.x ^ 2 * Q.y * R.y ^ 3 + P.x * Q.x ^ 3 * R.x * R.y ^ 2 + E.d * P.x * Q.x ^ 2 * Q.y ^ 3 *
      R.x ^ 2 * R.y + E.d * P.x * Q.x ^ 3 * Q.y ^ 2 * R.x * R.y ^ 2 - P.y * Q.x * Q.y ^ 2 * R.y -
      P.y * Q.x ^ 2 * Q.y * R.x - P.y * Q.x ^ 2 * Q.y * R.x ^ 3 - P.y * Q.x ^ 3 * R.x ^ 2 * R.y -
      P.x * Q.y ^ 3 * R.x ^ 2 * R.y - P.x * Q.x * Q.y ^ 2 * R.x - P.x * Q.x * Q.y ^ 2 * R.x ^ 3 -
      P.x * Q.x ^ 2 * Q.y * R.y - E.d * P.y * Q.x ^ 2 * Q.y ^ 3 * R.x * R.y ^ 2 - E.d * P.y *
      Q.x ^ 3 * Q.y ^ 2 * R.x ^ 2 * R.y) * P.on_curve +
    E.d * Q.x * Q.y * (P.y * Q.y * R.x * R.y ^ 2 + P.y * Q.x * R.x ^ 2 * R.y + P.x * P.y ^ 2 *
      Q.y * R.y ^ 3 + P.x * P.y ^ 2 * Q.x * R.x + P.x * P.y ^ 2 * Q.x * R.x ^ 3 + P.x ^ 2 * P.y *
      Q.y * R.x + P.x ^ 2 * P.y * Q.y * R.x ^ 3 + P.x ^ 2 * P.y * Q.x * R.y ^ 3 - P.y ^ 3 * Q.y *
      R.x * R.y ^ 2 - P.y ^ 3 * Q.x * R.x ^ 2 * R.y - P.x * Q.y * R.x ^ 2 * R.y - P.x * Q.x *
      R.x * R.y ^ 2 - P.x * P.y ^ 2 * Q.y * R.y - P.x ^ 2 * P.y * Q.x * R.y - P.x ^ 3 * Q.y *
      R.x ^ 2 * R.y - P.x ^ 3 * Q.x * R.x * R.y ^ 2) * Q.on_curve +
    E.d * Q.x * Q.y * (P.y * Q.x * Q.y ^ 2 * R.y + P.y * Q.x ^ 2 * Q.y * R.x + P.x * Q.x *
      Q.y ^ 2 * R.x + P.x * Q.x ^ 2 * Q.y * R.y + P.x ^ 2 * P.y * Q.y ^ 3 * R.x + P.x ^ 2 * P.y *
      Q.x ^ 3 * R.y + P.x ^ 3 * Q.x * Q.y ^ 2 * R.x + P.x ^ 3 * Q.x ^ 2 * Q.y * R.y + E.d * P.x *
      P.y ^ 2 * Q.x ^ 2 * Q.y ^ 3 * R.y + E.d * P.x ^ 2 * P.y * Q.x ^ 3 * Q.y ^ 2 * R.y -
      P.y ^ 3 * Q.x * Q.y ^ 2 * R.y - P.y ^ 3 * Q.x ^ 2 * Q.y * R.x - P.x * P.y ^ 2 * Q.y ^ 3 *
      R.y - P.x * P.y ^ 2 * Q.x ^ 3 * R.x - E.d * P.x * P.y ^ 2 * Q.x ^ 3 * Q.y ^ 2 * R.x - E.d *
      P.x ^ 2 * P.y * Q.x ^ 2 * Q.y ^ 3 * R.x) * R.on_curve

protected theorem add_assoc (P Q R : E.Point) : P + Q + R = P + (Q + R) := by
  rw [Point.add_comm P (Q + R)]
  apply Point.ext
  · apply mul_right_cancel₀ (mul_ne_zero (den3X_ne_zero P Q R) (den3X_ne_zero Q R P))
    have h := sum3X_mul P Q R
    rw [← add_add_x, ← add_add_x] at h
    linear_combination h
  · apply mul_right_cancel₀ (mul_ne_zero (den3Y_ne_zero P Q R) (den3Y_ne_zero Q R P))
    have h := sum3Y_mul P Q R
    rw [← add_add_y, ← add_add_y] at h
    linear_combination h

instance : AddCommGroup E.Point where
  add_assoc := Point.add_assoc
  zero_add := Point.zero_add
  add_zero P := (Point.add_comm P 0).trans (Point.zero_add P)
  neg_add_cancel := Point.neg_add_cancel
  add_comm := Point.add_comm
  nsmul := nsmulRec
  zsmul := zsmulRec

end Point

end EdwardsCurve

end Hc
