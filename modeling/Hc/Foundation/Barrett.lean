import Mathlib.Data.Nat.ModEq
import Mathlib.Tactic.Ring
import Mathlib.Tactic.Linarith

/-!
# Barrett reduction

A quotient by `n` is estimated from the high part `x / b` and a reciprocal `mu` of `n` scaled
by `b * R`. The product may be short by an error `e`, as when its low columns are left out.
-/

namespace Hc

variable {n mu x t e : ℕ}

/-- The estimate is never too large. -/
theorem barrett_quotient_le (b R : ℕ) (hR : 0 < R) (hmu : n * mu ≤ b * R) (ht : t ≤ mu * (x / b)) :
    n * (t / R) ≤ x := by
  have hscaled : R * (n * (t / R)) ≤ R * x := by
    calc
      R * (n * (t / R)) = n * (R * (t / R)) := by ring
      _ ≤ n * (mu * (x / b)) := Nat.mul_le_mul_left n ((Nat.mul_div_le t R).trans ht)
      _ = n * mu * (x / b) := by ring
      _ ≤ b * R * (x / b) := Nat.mul_le_mul_right _ hmu
      _ = R * (b * (x / b)) := by ring
      _ ≤ R * x := Nat.mul_le_mul_left R (Nat.mul_div_le x b)
  exact Nat.le_of_mul_le_mul_left hscaled hR

/-- The estimate is at most two too small. -/
theorem lt_barrett_quotient (b R : ℕ) (hb : 0 < b) (hR : 0 < R) (hx : x < b * R)
    (hmu : b * R ≤ n * (mu + 1)) (ht : mu * (x / b) ≤ t + e) (he : n * e + R * b ≤ R * n) :
    x < n * (t / R) + 3 * n := by
  have hquot : x / b ≤ R := (Nat.div_lt_of_lt_mul hx).le
  have hlow : x < b * (x / b) + b := by
    have hmod := Nat.mod_lt x hb
    have hsplit := Nat.mod_add_div x b
    omega
  have hshort : t < R * (t / R) + R := by
    have hmod := Nat.mod_lt t hR
    have hsplit := Nat.mod_add_div t R
    omega
  have hscaled : R * x < R * (n * (t / R) + 3 * n) := by
    calc
      R * x < R * (b * (x / b) + b) := Nat.mul_lt_mul_of_pos_left hlow hR
      _ = b * R * (x / b) + R * b := by ring
      _ ≤ n * (mu + 1) * (x / b) + R * b := by gcongr
      _ = n * (mu * (x / b)) + n * (x / b) + R * b := by ring
      _ ≤ n * (t + e) + n * R + R * b := by gcongr
      _ ≤ n * (R * (t / R) + R) + n * R + (n * e + R * b) := by
        have hle : n * t ≤ n * (R * (t / R) + R) := Nat.mul_le_mul_left n hshort.le
        linarith
      _ ≤ n * (R * (t / R) + R) + n * R + R * n := Nat.add_le_add_left he _
      _ = R * (n * (t / R) + 3 * n) := by ring
  exact Nat.lt_of_mul_lt_mul_left hscaled

/-- A difference is found from its residues when it is small enough. -/
theorem residue_sub_eq {R y diff borrow : ℕ} (hle : y ≤ x) (hlt : x - y < R) (hdiff : diff < R)
    (h : diff + y % R = x % R + R * borrow) : diff = x - y := by
  have hmod : diff + y ≡ x - y + y [MOD R] := by
    rw [Nat.sub_add_cancel hle]
    calc
      diff + y ≡ diff + y % R [MOD R] := (Nat.mod_modEq y R).symm.add_left diff
      _ = x % R + R * borrow := h
      _ ≡ x % R [MOD R] := by simp [Nat.ModEq]
      _ ≡ x [MOD R] := Nat.mod_modEq x R
  exact (Nat.ModEq.add_right_cancel' y hmod).eq_of_lt_of_lt hdiff hlt

/-- Two conditional subtractions reduce a number below `3 * n`. -/
theorem sub_sub_eq_mod (hn : x < 3 * n) :
    let once := if x < n then x else x - n
    (if once < n then once else once - n) = x % n := by
  have hpos : 0 < n := by omega
  dsimp only
  split
  next hlt => rw [Nat.mod_eq_of_lt hlt]
  next hge =>
    rw [Nat.mod_eq_sub_mod (by omega)]
    split
    next hlt => rw [Nat.mod_eq_of_lt hlt]
    next hge' => rw [Nat.mod_eq_sub_mod (by omega), Nat.mod_eq_of_lt (by omega)]

end Hc
