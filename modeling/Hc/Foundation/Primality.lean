import Mathlib.Data.List.Prime
import Mathlib.Data.Nat.ModEq
import Mathlib.NumberTheory.LucasPrimality

/-!
# Primality of large numbers by evaluation

Lucas's test with a modular exponentiation that the kernel can run: the prime
factors of `p - 1` are given with multiplicity, and each has to be known prime.
-/

namespace Hc

/-- `acc * base ^ e` modulo `m` by repeated squaring over the `k` low bits of `e`. -/
def powMod (m : ℕ) : ℕ → ℕ → ℕ → ℕ → ℕ
  | 0, acc, _, _ => acc
  | k + 1, acc, base, e =>
      powMod m k (if e % 2 = 1 then acc * base % m else acc) (base * base % m) (e / 2)

theorem powMod_modEq (m k acc base e : ℕ) (he : e < 2 ^ k) :
    powMod m k acc base e ≡ acc * base ^ e [MOD m] := by
  induction k generalizing acc base e with
  | zero =>
      have hzero : e = 0 := by simpa using he
      subst hzero
      simp only [powMod, pow_zero, Nat.mul_one]
      rfl
  | succ k ih =>
      have hhalf : e / 2 < 2 ^ k := by
        rw [pow_succ] at he
        omega
      have hsquare : (base * base % m) ^ (e / 2) ≡ base ^ (2 * (e / 2)) [MOD m] := by
        rw [pow_mul, pow_two]
        exact (Nat.mod_modEq _ _).pow _
      refine (ih _ _ _ hhalf).trans ?_
      split
      next hodd =>
        have hexp : base ^ e = base * base ^ (2 * (e / 2)) := by
          rw [← pow_succ']
          congr 1
          omega
        rw [hexp, ← Nat.mul_assoc]
        exact (Nat.mod_modEq _ _).mul hsquare
      next heven =>
        have hexp : e = 2 * (e / 2) := by omega
        rw [hexp, Nat.mul_div_cancel_left _ (by decide)]
        exact Nat.ModEq.mul_left acc hsquare

/-- A power modulo `m` in `ZMod m`. -/
theorem cast_powMod (m k base e : ℕ) (he : e < 2 ^ k) :
    (powMod m k 1 base e : ZMod m) = (base : ZMod m) ^ e := by
  have hmod := powMod_modEq m k 1 base e he
  rw [Nat.one_mul] at hmod
  rw [(ZMod.natCast_eq_natCast_iff _ _ _).mpr hmod, Nat.cast_pow]

/-- Lucas's test for `p` with witness `a`; `factors` multiply to `p - 1`. -/
def lucasTest (k p a : ℕ) (factors : List ℕ) : Bool :=
  decide (1 < p) && decide (p ≤ 2 ^ k) && decide (factors.prod = p - 1) &&
    decide (powMod p k 1 a (p - 1) % p = 1) &&
    factors.all fun q => decide (powMod p k 1 a ((p - 1) / q) % p ≠ 1)

theorem prime_of_lucasTest (k p a : ℕ) (factors : List ℕ) (hprime : ∀ q ∈ factors, q.Prime)
    (htest : lucasTest k p a factors = true) : p.Prime := by
  simp only [lucasTest, Bool.and_eq_true, decide_eq_true_eq, List.all_eq_true] at htest
  obtain ⟨⟨⟨⟨hone, hbits⟩, hprod⟩, hfull⟩, hpart⟩ := htest
  have hcast (e : ℕ) (he : e ≤ p - 1) :
      (a : ZMod p) ^ e = 1 ↔ powMod p k 1 a e % p = 1 := by
    have hunit : ((1 : ℕ) : ZMod p) = 1 := Nat.cast_one
    rw [← cast_powMod p k a e (by omega), ← hunit, ZMod.natCast_eq_natCast_iff, Nat.ModEq,
      Nat.mod_eq_of_lt hone]
  refine lucas_primality p (a : ZMod p) ((hcast _ le_rfl).mpr hfull) ?_
  intro q hq hdvd
  rw [← hprod] at hdvd
  obtain ⟨f, hf, hqf⟩ := (Prime.dvd_prod_iff hq.prime).mp hdvd
  have heq : q = f := (Nat.prime_dvd_prime_iff_eq hq (hprime f hf)).mp hqf
  subst heq
  rw [ne_eq, hcast _ (Nat.div_le_self _ _)]
  exact hpart q hf

end Hc
