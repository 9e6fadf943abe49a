import Hc.Foundation.EdwardsCurve

/-!
# Coordinates without divisions on an Edwards curve

Four ways to write a point as quotients of field elements, and the formulas that lead
from one to another. Each is a predicate on the coordinates, so that a
formula is stated with the coordinates it computes.
-/

namespace Hc.EdwardsCurve

variable {K : Type*} [Field K] {E : EdwardsCurve K}

/-- `P = (X/Z, Y/Z)`. -/
structure Projective (X Y Z : K) (P : E.Point) : Prop where
  z_ne_zero : Z ≠ 0
  x_eq : X = P.x * Z
  y_eq : Y = P.y * Z

/-- `P = (X/Z, Y/Z)` with `T = X Y / Z`. -/
structure Extended (X Y Z T : K) (P : E.Point) : Prop extends Projective X Y Z P where
  t_eq : T = P.x * P.y * Z

/-- `P = (X/Z, Y/T)`. -/
structure Completed (X Y Z T : K) (P : E.Point) : Prop where
  z_ne_zero : Z ≠ 0
  t_ne_zero : T ≠ 0
  x_eq : X = P.x * Z
  y_eq : Y = P.y * T

/-- `y - x`, `y + x` and `2 d x y` over a denominator `Z`: what an addition needs to know
about its second argument. -/
structure Niels (ysubx xaddy Z t2d : K) (P : E.Point) : Prop where
  z_ne_zero : Z ≠ 0
  ysubx_eq : ysubx = (P.y - P.x) * Z
  xaddy_eq : xaddy = (P.y + P.x) * Z
  t2d_eq : t2d = 2 * E.d * P.x * P.y * Z

variable {X Y Z T a b z c : K} {P Q : E.Point}

theorem Extended.zero : Extended 0 1 1 0 (0 : E.Point) :=
  ⟨⟨one_ne_zero, by simp, by simp⟩, by simp⟩

theorem Niels.zero : Niels 1 1 1 0 (0 : E.Point) :=
  ⟨one_ne_zero, by simp, by simp, by simp⟩

theorem Niels.neg (h : Niels a b z c Q) : Niels b a z (-c) (-Q) := by
  refine ⟨h.z_ne_zero, ?_, ?_, ?_⟩
  · rw [h.xaddy_eq, Point.neg_x, Point.neg_y]
    ring
  · rw [h.ysubx_eq, Point.neg_x, Point.neg_y]
    ring
  · rw [h.t2d_eq, Point.neg_x, Point.neg_y]
    ring

theorem Completed.extended (h : Completed X Y Z T P) :
    Extended (X * T) (Y * Z) (Z * T) (X * Y) P := by
  refine ⟨⟨mul_ne_zero h.z_ne_zero h.t_ne_zero, ?_, ?_⟩, ?_⟩
  · rw [h.x_eq]
    ring
  · rw [h.y_eq]
    ring
  · rw [h.x_eq, h.y_eq]
    ring

theorem Extended.niels (h : Extended X Y Z T P) : Niels (Y - X) (Y + X) Z (T * (2 * E.d)) P := by
  refine ⟨h.z_ne_zero, ?_, ?_, ?_⟩
  · rw [h.x_eq, h.y_eq]
    ring
  · rw [h.x_eq, h.y_eq]
    ring
  · rw [h.t_eq]
    ring

/-- Doubling does not need `T`. -/
theorem Projective.double (h : Projective X Y Z P) :
    Completed ((X + Y) ^ 2 - (Y ^ 2 + X ^ 2)) (Y ^ 2 + X ^ 2) (Y ^ 2 - X ^ 2)
      (Z ^ 2 + Z ^ 2 - (Y ^ 2 - X ^ 2)) (P + P) := by
  have hcurve := P.on_curve
  have hx := Point.add_x P P
  have hy := Point.add_y P P
  have hz : Y ^ 2 - X ^ 2 = (1 + Point.cross P P) * Z ^ 2 := by
    rw [h.x_eq, h.y_eq, Point.cross]
    linear_combination Z ^ 2 * hcurve
  have ht : Z ^ 2 + Z ^ 2 - (Y ^ 2 - X ^ 2) = (1 - Point.cross P P) * Z ^ 2 := by
    rw [hz]
    ring
  have hZ : Z ^ 2 ≠ 0 := pow_ne_zero 2 h.z_ne_zero
  rw [ht, hz]
  refine ⟨mul_ne_zero (Point.one_add_cross_ne_zero P P) hZ,
    mul_ne_zero (Point.one_sub_cross_ne_zero P P) hZ, ?_, ?_⟩
  · rw [← mul_assoc, hx, Point.sumX, h.x_eq, h.y_eq]
    ring
  · rw [← mul_assoc, hy, Point.sumY, h.x_eq, h.y_eq]
    ring

theorem Extended.add (hP : Extended X Y Z T P) (hQ : Niels a b z c Q) :
    Completed ((Y + X) * b - (Y - X) * a) ((Y + X) * b + (Y - X) * a)
      (Z * z + Z * z + T * c) (Z * z + Z * z - T * c) (P + Q) := by
  have hx := Point.add_x P Q
  have hy := Point.add_y P Q
  have hplus : Z * z + Z * z + T * c = (1 + Point.cross P Q) * (2 * (Z * z)) := by
    rw [hP.t_eq, hQ.t2d_eq, Point.cross]
    ring
  have hminus : Z * z + Z * z - T * c = (1 - Point.cross P Q) * (2 * (Z * z)) := by
    rw [hP.t_eq, hQ.t2d_eq, Point.cross]
    ring
  have hZ : 2 * (Z * z) ≠ 0 :=
    mul_ne_zero E.two_ne_zero (mul_ne_zero hP.z_ne_zero hQ.z_ne_zero)
  rw [hplus, hminus]
  refine ⟨mul_ne_zero (Point.one_add_cross_ne_zero P Q) hZ,
    mul_ne_zero (Point.one_sub_cross_ne_zero P Q) hZ, ?_, ?_⟩
  · rw [← mul_assoc, hx, Point.sumX, hP.x_eq, hP.y_eq, hQ.ysubx_eq, hQ.xaddy_eq]
    ring
  · rw [← mul_assoc, hy, Point.sumY, hP.x_eq, hP.y_eq, hQ.ysubx_eq, hQ.xaddy_eq]
    ring

theorem Extended.sub (hP : Extended X Y Z T P) (hQ : Niels a b z c Q) :
    Completed ((Y + X) * a - (Y - X) * b) ((Y + X) * a + (Y - X) * b)
      (Z * z + Z * z - T * c) (Z * z + Z * z + T * c) (P - Q) := by
  have h := hP.add hQ.neg
  rwa [mul_neg, ← sub_eq_add_neg, sub_neg_eq_add, ← sub_eq_add_neg] at h

end Hc.EdwardsCurve
