import Mathlib.Algebra.Field.ZMod
import Hc.Foundation.EdwardsCoordinates

/-!
# Evaluating an Edwards curve over a prime field

The formulas on extended coordinates with natural numbers for the elements of `ZMod p`, in
a form that the kernel can run. They are used to check tables of precomputed points.
-/

namespace Hc

/-- A number of which the class modulo `p` is the difference. -/
def subMod (p a b : ℕ) : ℕ := (a + (p - b % p)) % p

theorem cast_subMod (p a b : ℕ) [NeZero p] : (subMod p a b : ZMod p) = a - b := by
  have hle : b % p ≤ p := (Nat.mod_lt _ (Nat.pos_of_neZero p)).le
  rw [subMod, ZMod.natCast_mod, Nat.cast_add, Nat.cast_sub hle, ZMod.natCast_self,
    ZMod.natCast_mod, zero_sub, sub_eq_add_neg]

/-- Extended coordinates as natural numbers. -/
structure ModularPoint where
  x : ℕ
  y : ℕ
  z : ℕ
  t : ℕ

namespace ModularPoint

/-- Doubling modulo `p`. -/
def double (p : ℕ) (P : ModularPoint) : ModularPoint :=
  match P with
  | ⟨x, y, z, _⟩ =>
    let a := x * x % p
    let b := y * y % p
    let e := 2 * x * y % p
    let h := (b + a) % p
    let g := subMod p b a
    let f := subMod p (2 * z * z % p) g
    ⟨e * f % p, h * g % p, g * f % p, e * h % p⟩

/-- Addition modulo `p` on the curve with coefficient `d`. -/
def add (p d : ℕ) (P Q : ModularPoint) : ModularPoint :=
  match P, Q with
  | ⟨x₁, y₁, z₁, t₁⟩, ⟨x₂, y₂, z₂, t₂⟩ =>
    let a := subMod p y₁ x₁ * subMod p y₂ x₂ % p
    let b := (y₁ + x₁) * (y₂ + x₂) % p
    let c := 2 * d * t₁ * t₂ % p
    let f := 2 * z₁ * z₂ % p
    let e := subMod p b a
    let h := (b + a) % p
    let g := (f + c) % p
    let f := subMod p f c
    ⟨e * f % p, h * g % p, g * f % p, e * h % p⟩

/-- The multiple of a point by the `k` low bits of `n`. -/
def smul (p d : ℕ) (P : ModularPoint) : ℕ → ℕ → ModularPoint
  | 0, _ => ⟨0, 1, 1, 0⟩
  | k + 1, n =>
    if n % 2 = 1 then add p d (double p (smul p d P k (n / 2))) P
    else double p (smul p d P k (n / 2))

/-- The point with `y - x = a` and `y + x = b`. -/
def ofNiels (p a b : ℕ) : ModularPoint :=
  ⟨2 * subMod p b a % p, 2 * (a + b) % p, 4, subMod p b a * (a + b) % p⟩

/-- The point has `y - x = a` and `y + x = b`. -/
def matchesNiels (p : ℕ) (P : ModularPoint) (a b : ℕ) : Bool :=
  decide (subMod p b a * P.z % p = 2 * P.x % p) && decide ((a + b) * P.z % p = 2 * P.y % p)

variable {p : ℕ} [Fact p.Prime] {E : EdwardsCurve (ZMod p)} {P Q : ModularPoint} {A B : E.Point}

/-- The coordinates are those of a point. -/
def Represents (P : ModularPoint) (A : E.Point) : Prop :=
  E.Extended (P.x : ZMod p) (P.y : ZMod p) (P.z : ZMod p) (P.t : ZMod p) A

theorem Represents.double (h : P.Represents A) : (P.double p).Represents (A + A) := by
  have hp : NeZero p := ⟨(Fact.out : p.Prime).ne_zero⟩
  have hsum := h.toProjective.double.extended
  unfold Represents ModularPoint.double
  simp only [ZMod.natCast_mod, Nat.cast_mul, Nat.cast_add, Nat.cast_ofNat, cast_subMod]
  convert hsum using 1 <;> ring

theorem Represents.iterate_double (h : P.Represents A) (k : ℕ) :
    ((ModularPoint.double p)^[k] P).Represents (2 ^ k • A) := by
  induction k with
  | zero => simpa using h
  | succ k ih =>
      rw [Function.iterate_succ_apply', pow_succ, mul_two, add_smul]
      exact ih.double

theorem Represents.add {d : ℕ} (hd : (d : ZMod p) = E.d) (hP : P.Represents A)
    (hQ : Q.Represents B) : (P.add p d Q).Represents (A + B) := by
  have hp : NeZero p := ⟨(Fact.out : p.Prime).ne_zero⟩
  have hsum := (EdwardsCurve.Extended.add hP hQ.niels).extended
  unfold Represents ModularPoint.add
  simp only [ZMod.natCast_mod, Nat.cast_mul, Nat.cast_add, Nat.cast_ofNat, cast_subMod, hd]
  convert hsum using 1 <;> ring

theorem Represents.smul {d : ℕ} (hd : (d : ZMod p) = E.d) (hP : P.Represents A) (k n : ℕ)
    (hn : n < 2 ^ k) : (P.smul p d k n).Represents (n • A) := by
  induction k generalizing n with
  | zero =>
      obtain rfl : n = 0 := by simpa using hn
      have hzero := EdwardsCurve.Extended.zero (E := E)
      simpa [Represents, ModularPoint.smul] using hzero
  | succ k ih =>
      have hhalf := (ih (n / 2) (by rw [pow_succ] at hn; omega)).double
      rw [← add_smul] at hhalf
      rw [ModularPoint.smul]
      split
      next hodd =>
        have hsum := hhalf.add hd hP
        rwa [← succ_nsmul, show n / 2 + n / 2 + 1 = n by omega] at hsum
      next heven => rwa [show n / 2 + n / 2 = n by omega] at hhalf

/-- A representative of the neutral element is recognised by its coordinates. -/
theorem Represents.eq_zero (h : P.Represents A) (hx : P.x % p = 0) (hy : P.y % p = P.z % p) :
    A = 0 := by
  have hxzero : (P.x : ZMod p) = 0 := (ZMod.natCast_eq_zero_iff _ _).mpr (Nat.dvd_of_mod_eq_zero hx)
  have hyz : (P.y : ZMod p) = P.z := (ZMod.natCast_eq_natCast_iff _ _ _).mpr hy
  have hAx := h.x_eq
  have hAy := h.y_eq
  rw [hxzero] at hAx
  rw [hyz] at hAy
  apply EdwardsCurve.Point.ext
  · exact (mul_eq_zero.mp hAx.symm).resolve_right h.z_ne_zero
  · exact (mul_right_cancel₀ h.z_ne_zero ((one_mul _).trans hAy)).symm

/-- The numbers `a` and `b` are `y - x` and `y + x`. -/
def IsNiels (a b : ℕ) (A : E.Point) : Prop :=
  (a : ZMod p) = A.y - A.x ∧ (b : ZMod p) = A.y + A.x

theorem IsNiels.ofNiels {a b : ℕ} (h : IsNiels a b A) : (ofNiels p a b).Represents A := by
  have hp : NeZero p := ⟨(Fact.out : p.Prime).ne_zero⟩
  obtain ⟨ha, hb⟩ := h
  unfold Represents ModularPoint.ofNiels
  simp only [ZMod.natCast_mod, Nat.cast_mul, Nat.cast_add, Nat.cast_ofNat, cast_subMod, ha, hb]
  refine ⟨⟨?_, by ring, by ring⟩, by ring⟩
  have hfour : (4 : ZMod p) = 2 * 2 := by norm_num
  rw [hfour]
  exact mul_ne_zero E.two_ne_zero E.two_ne_zero

theorem Represents.isNiels (hP : P.Represents A) {a b : ℕ}
    (h : matchesNiels p P a b = true) : IsNiels a b A := by
  have hp : NeZero p := ⟨(Fact.out : p.Prime).ne_zero⟩
  simp only [matchesNiels, Bool.and_eq_true, decide_eq_true_eq] at h
  have hx := congrArg (Nat.cast : ℕ → ZMod p) h.1
  have hy := congrArg (Nat.cast : ℕ → ZMod p) h.2
  simp only [ZMod.natCast_mod, Nat.cast_mul, Nat.cast_add, Nat.cast_ofNat, cast_subMod, hP.x_eq,
    hP.y_eq] at hx hy
  have hsub : (b : ZMod p) - a = 2 * A.x :=
    mul_right_cancel₀ hP.z_ne_zero (hx.trans (mul_assoc _ _ _).symm)
  have hadd : (a : ZMod p) + b = 2 * A.y :=
    mul_right_cancel₀ hP.z_ne_zero (hy.trans (mul_assoc _ _ _).symm)
  refine ⟨mul_left_cancel₀ E.two_ne_zero ?_, mul_left_cancel₀ E.two_ne_zero ?_⟩
  · linear_combination hadd - hsub
  · linear_combination hadd + hsub

end ModularPoint

end Hc
