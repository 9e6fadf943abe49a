import Mathlib.Algebra.Field.Basic
import Mathlib.Tactic.LinearCombination
import Mathlib.Tactic.Ring
import Hc.Foundation.Loop

/-!
# The Montgomery ladder

The ladder keeps two points of a Montgomery curve by their `x` coordinates, each
as a fraction `x : z`. One step doubles the first and adds the second to it; the
difference of the two is the base point with coordinate `u`. A swap by the bit
before the step and its undoing after it are merged between steps.

The formulas are bihomogeneous, so a ladder started from other fractions for the
same points ends in other fractions for the same results.
-/

namespace Hc

/-- Two points, each as a fraction. -/
@[ext]
structure Ladder (K : Type) where
  x2 : K
  z2 : K
  x3 : K
  z3 : K

namespace Ladder

variable {K : Type}

/-- The two points exchanged when `swap` is set. -/
def cswap (swap : Bool) (s : Ladder K) : Ladder K :=
  if swap then ⟨s.x3, s.z3, s.x2, s.z2⟩ else s

@[simp] theorem cswap_false (s : Ladder K) : cswap false s = s := rfl

@[simp] theorem cswap_true (s : Ladder K) : cswap true s = ⟨s.x3, s.z3, s.x2, s.z2⟩ := rfl

theorem cswap_cswap (b c : Bool) (s : Ladder K) : cswap b (cswap c s) = cswap (b ^^ c) s := by
  cases b with
  | false => simp
  | true =>
      cases c with
      | false => rfl
      | true => rfl

section Ring

variable [CommRing K]

/-- Double the first point and add the second to it, their difference being `u`. -/
def step (a24 u : K) (s : Ladder K) : Ladder K :=
  let a := s.x2 + s.z2
  let aa := a ^ 2
  let b := s.x2 - s.z2
  let bb := b ^ 2
  let e := aa - bb
  let c := s.x3 + s.z3
  let d := s.x3 - s.z3
  let da := d * a
  let cb := c * b
  { x2 := aa * bb
    z2 := e * (aa + a24 * e)
    x3 := (da + cb) ^ 2
    z3 := u * (da - cb) ^ 2 }

/-- The point at infinity and the base point. -/
def start (u : K) : Ladder K := ⟨1, 0, u, 1⟩

/-- One round for a bit: the bit chooses which point is doubled. -/
def round (a24 u : K) (bit : Bool) (s : Ladder K) : Ladder K :=
  cswap bit (step a24 u (cswap bit s))

/-- The rounds for the `i` low bits of `k`, from the top one down. -/
def rounds (a24 u : K) (k : ℕ) : ℕ → Ladder K → Ladder K :=
  countDown fun i s => round a24 u (k.testBit i) s

/-- The same rounds with the swaps deferred: `swap` says whether the two points
are exchanged at this moment. -/
def deferred (a24 u : K) (k : ℕ) : ℕ → Bool × Ladder K → Bool × Ladder K :=
  countDown fun i s => (k.testBit i, step a24 u (cswap (s.1 ^^ k.testBit i) s.2))

theorem rounds_succ (a24 u : K) (k i : ℕ) (s : Ladder K) :
    rounds a24 u k (i + 1) s = rounds a24 u k i (round a24 u (k.testBit i) s) := rfl

theorem deferred_eq_rounds (a24 u : K) (k i : ℕ) (s : Bool × Ladder K) :
    cswap (deferred a24 u k i s).1 (deferred a24 u k i s).2 =
      rounds a24 u k i (cswap s.1 s.2) := by
  refine countDown_rel (R := fun (s : Bool × Ladder K) t => cswap s.1 s.2 = t) ?_ i rfl
  rintro i s _ rfl
  rw [round, cswap_cswap, Bool.xor_comm]

/-! ## Other fractions for the same points -/

/-- The points of `t` are those of `s` with numerator and denominator scaled. -/
structure Scaled (α β : K) (s t : Ladder K) : Prop where
  x2 : t.x2 = α * s.x2
  z2 : t.z2 = α * s.z2
  x3 : t.x3 = β * s.x3
  z3 : t.z3 = β * s.z3

variable {α β a24 u : K} {s t : Ladder K}

theorem Scaled.cswap_true (h : Scaled α β s t) : Scaled β α (cswap true s) (cswap true t) :=
  ⟨h.x3, h.z3, h.x2, h.z2⟩

theorem Scaled.step (h : Scaled α β s t) :
    Scaled (α ^ 4) ((α * β) ^ 2) (step a24 u s) (step a24 u t) := by
  obtain ⟨hx2, hz2, hx3, hz3⟩ := h
  constructor
  all_goals
    simp only [Ladder.step, hx2, hz2, hx3, hz3]
    ring

/-- Whatever the bits, the fractions keep a common nonzero scale. -/
theorem Scaled.rounds [NoZeroDivisors K] (hα : α ≠ 0) (hβ : β ≠ 0) (h : Scaled α β s t)
    (k i : ℕ) : ∃ γ δ : K, γ ≠ 0 ∧ δ ≠ 0 ∧
      Scaled γ δ (rounds a24 u k i s) (rounds a24 u k i t) := by
  refine countDown_rel (R := fun s t => ∃ γ δ : K, γ ≠ 0 ∧ δ ≠ 0 ∧ Scaled γ δ s t) ?_ i
    ⟨α, β, hα, hβ, h⟩
  rintro i s t ⟨γ, δ, hγ, hδ, h⟩
  unfold round
  cases k.testBit i with
  | false => exact ⟨_, _, pow_ne_zero 4 hγ, pow_ne_zero 2 (mul_ne_zero hγ hδ), h.step⟩
  | true =>
      exact ⟨_, _, pow_ne_zero 2 (mul_ne_zero hδ hγ), pow_ne_zero 4 hδ,
        h.cswap_true.step.cswap_true⟩

/-! ## The base point zero -/

/-- A base coordinate of zero gives both points the denominator zero after any round. -/
theorem rounds_zero (a24 : K) (k i : ℕ) {s : Ladder K} (h2 : s.x2 * s.z2 = 0)
    (h3 : s.x3 * s.z3 = 0) : (rounds a24 0 k (i + 1) s).z2 = 0 := by
  -- After one round both denominators are zero, and that is kept.
  have hround : ∀ (bit : Bool) (s : Ladder K), s.x2 * s.z2 = 0 → s.x3 * s.z3 = 0 →
      (round a24 0 bit s).z2 = 0 ∧ (round a24 0 bit s).z3 = 0 := by
    intro bit s h2 h3
    cases bit with
    | false =>
        refine ⟨?_, zero_mul _⟩
        simp only [round, cswap_false, step]
        linear_combination 4 * ((s.x2 + s.z2) ^ 2 + a24 *
          ((s.x2 + s.z2) ^ 2 - (s.x2 - s.z2) ^ 2)) * h2
    | true =>
        refine ⟨zero_mul _, ?_⟩
        simp only [round, cswap_true, step]
        linear_combination 4 * ((s.x3 + s.z3) ^ 2 + a24 *
          ((s.x3 + s.z3) ^ 2 - (s.x3 - s.z3) ^ 2)) * h3
  induction i generalizing s with
  | zero => exact (hround _ _ h2 h3).1
  | succ i ih =>
      obtain ⟨hz2, hz3⟩ := hround (k.testBit (i + 1)) s h2 h3
      rw [rounds_succ]
      exact ih (by rw [hz2, mul_zero]) (by rw [hz3, mul_zero])

/-- A leading zero bit scales the second point by `4 u`. -/
theorem round_false_start (a24 u : K) :
    Scaled 1 (4 * u) (start u) (round a24 u false (start u)) := by
  constructor
  all_goals
    simp only [round, cswap_false, step, start]
    ring

end Ring

section Field

variable [Field K]

/-- The coordinate of the first point; a denominator of zero gives zero. -/
def result (s : Ladder K) : K := s.x2 * s.z2⁻¹

theorem Scaled.result_eq {α β : K} {s t : Ladder K} (hα : α ≠ 0) (h : Scaled α β s t) :
    t.result = s.result := by
  rw [result, result, h.x2, h.z2, mul_inv, mul_mul_mul_comm, mul_inv_cancel₀ hα, one_mul]

/-- A leading zero bit does not change the result. -/
theorem result_rounds_leading_zero (h4 : (4 : K) ≠ 0) (a24 u : K) (k i : ℕ)
    (hbit : k.testBit (i + 1) = false) :
    (rounds a24 u k (i + 2) (start u)).result = (rounds a24 u k (i + 1) (start u)).result := by
  rcases eq_or_ne u 0 with rfl | hu
  · have h2 : (start (0 : K)).x2 * (start (0 : K)).z2 = 0 := mul_zero _
    have h3 : (start (0 : K)).x3 * (start (0 : K)).z3 = 0 := zero_mul _
    rw [result, result, rounds_zero a24 k (i + 1) h2 h3, rounds_zero a24 k i h2 h3, inv_zero,
      mul_zero, mul_zero]
  · rw [rounds_succ, hbit]
    obtain ⟨γ, δ, hγ, -, hscaled⟩ : ∃ γ δ : K, γ ≠ 0 ∧ δ ≠ 0 ∧ Scaled γ δ
        (rounds a24 u k (i + 1) (start u)) (rounds a24 u k (i + 1) (round a24 u false (start u))) :=
      (round_false_start a24 u).rounds one_ne_zero (mul_ne_zero h4 hu) k (i + 1)
    exact hscaled.result_eq hγ

end Field

end Ladder

end Hc
