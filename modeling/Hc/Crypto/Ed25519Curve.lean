import Hc.Crypto.Curve25519Field
import Hc.Foundation.EdwardsModular

/-!
# The group of Ed25519

The curve `-x² + y² = 1 + d x² y²` over the field with `2 ^ 255 - 19` elements, its base
point, and the order of the base point.
-/

namespace Hc.Ed25519

open Curve25519

/-- `d = -(121665/121666)`, as in the comment of the source. -/
def dNat : ℕ := 37095705934669439343138083508754565189542113879843219016388785533085940283555

/-- A square root of `-1`. -/
def iNat : ℕ := 19681161376707505956807079304988542015446066515923890162744021073123829784752

def d : F := dNat

theorem natCast_eq_of_mod {n m : ℕ} (h : n % p = m % p) : (n : F) = m :=
  (ZMod.natCast_eq_natCast_iff _ _ _).mpr h

theorem d_mul : d * 121666 = -121665 := by
  have h : ((dNat * 121666 + 121665 : ℕ) : F) = ((0 : ℕ) : F) := natCast_eq_of_mod (by decide)
  push_cast at h
  change (dNat : F) * 121666 = -121665
  linear_combination h

theorem i_sq : (iNat : F) * iNat = -1 := by
  have h : ((iNat * iNat + 1 : ℕ) : F) = ((0 : ℕ) : F) := natCast_eq_of_mod (by decide)
  push_cast at h
  linear_combination h

/-- Euler's criterion for `d`. -/
theorem d_not_isSquare : ¬ IsSquare d := by
  have hpow : powMod p 255 1 dNat (p / 2) % p = p - 1 := by decide +kernel
  have hne : (1 : F) ≠ -1 := by
    intro h
    have htwo : ((2 : ℕ) : F) = 0 := by
      push_cast
      linear_combination h
    exact absurd ((ZMod.natCast_eq_zero_iff _ _).mp htwo) (by decide)
  have heuler : d ^ (p / 2) = -1 := by
    rw [d, ← cast_powMod p 255 dNat (p / 2) (by decide), ← ZMod.natCast_mod, hpow,
      Nat.cast_sub (by decide), ZMod.natCast_self, Nat.cast_one, zero_sub]
  rintro ⟨r, hr⟩
  have hr0 : r ≠ 0 := by
    rintro rfl
    exact absurd ((ZMod.natCast_eq_zero_iff _ _).mp (hr.trans (mul_zero 0))) (by decide)
  have hone : d ^ (p / 2) = 1 := by
    rw [hr, ← pow_two, ← pow_mul]
    exact ZMod.pow_card_sub_one_eq_one hr0
  exact hne (hone.symm.trans heuler)

/-- The curve of Ed25519. -/
def curve : EdwardsCurve F where
  d := d
  not_isSquare_d := d_not_isSquare
  isSquare_neg_one := ⟨iNat, i_sq.symm⟩
  two_ne_zero := fun h => absurd ((ZMod.natCast_eq_zero_iff 2 p).mp h) (by decide)

@[simp] theorem curve_d : curve.d = d := rfl

abbrev Point := curve.Point

def baseX : ℕ := 15112221349535400772501151409588531511454012693041857206046113283949847762202

def baseY : ℕ := 46316835694926478169428394003475163141307993866256225615783033603165251855960

/-- The base point, as in the comment of the source. -/
def B : Point where
  x := baseX
  y := baseY
  on_curve := by
    have h : ((baseY ^ 2 : ℕ) : F) = ((1 + dNat * baseX ^ 2 * baseY ^ 2 + baseX ^ 2 : ℕ) : F) :=
      natCast_eq_of_mod (by decide +kernel)
    push_cast at h
    rw [curve_d, d]
    linear_combination h

/-- The order of the base point. -/
def L : ℕ := 2 ^ 252 + 27742317777372353535851937790883648493

/-- The base point in extended coordinates. -/
def baseModular : ModularPoint := ⟨baseX, baseY, 1, baseX * baseY % p⟩

theorem baseModular_represents : baseModular.Represents B := by
  refine ⟨⟨?_, ?_, ?_⟩, ?_⟩
  · simp [baseModular]
  · simp [baseModular, B]
  · simp [baseModular, B]
  · simp [baseModular, B]

theorem L_smul_B : L • B = 0 := by
  have h := baseModular_represents.smul (d := dNat) rfl 253 L (by decide)
  refine h.eq_zero ?_ ?_
  · decide +kernel
  · decide +kernel

end Hc.Ed25519
