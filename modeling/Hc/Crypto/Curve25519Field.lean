import Mathlib.FieldTheory.Finite.Basic
import Mathlib.Tactic.LinearCombination
import Mathlib.Tactic.Linarith
import Hc.Crypto.Curve25519
import Hc.Crypto.Curve25519Prime

/-!
# The limb code computes in the field

`a.Rep B x` says that the limbs `a` represent the field element `x`, that each
is at most `B`, and that nothing was lost in computing them. Every function of
the shared code has one lemma in this form. The bounds are numerals, so a
composition is checked by comparing them.
-/

namespace Hc.Curve25519

/-- The field of `2 ^ 255 - 19` elements. -/
abbrev F := ZMod p

/-- The number written by five digits in base `2 ^ 51`. -/
def digits (n0 n1 n2 n3 n4 : ℕ) : ℕ :=
  n0 + 2 ^ 51 * n1 + 2 ^ 102 * n2 + 2 ^ 153 * n3 + 2 ^ 204 * n4

namespace Fe

/-- The number in the limbs. -/
def value (a : Fe) : ℕ := digits a.l0.toNat a.l1.toNat a.l2.toNat a.l3.toNat a.l4.toNat

/-- Each limb is at most `B`, with nothing lost in computing it. -/
structure Bounded (a : Fe) (B : ℕ) : Prop where
  l0 : a.l0.Holds a.l0.toNat B
  l1 : a.l1.Holds a.l1.toNat B
  l2 : a.l2.Holds a.l2.toNat B
  l3 : a.l3.Holds a.l3.toNat B
  l4 : a.l4.Holds a.l4.toNat B

/-- The limbs represent `x`, each at most `B`, with nothing lost. -/
structure Rep (a : Fe) (B : ℕ) (x : F) : Prop extends a.Bounded B where
  value_eq : (a.value : F) = x

/-- No operation that led to these limbs lost bits. -/
def Exact (a : Fe) : Prop :=
  a.l0.exact = true ∧ a.l1.exact = true ∧ a.l2.exact = true ∧ a.l3.exact = true ∧
    a.l4.exact = true

variable {a b : Fe} {A B : ℕ} {x y : F}

theorem value_of_holds {n0 n1 n2 n3 n4 B0 B1 B2 B3 B4 : ℕ} (h0 : a.l0.Holds n0 B0)
    (h1 : a.l1.Holds n1 B1) (h2 : a.l2.Holds n2 B2) (h3 : a.l3.Holds n3 B3)
    (h4 : a.l4.Holds n4 B4) : a.value = digits n0 n1 n2 n3 n4 := by
  rw [value, h0.toNat_eq, h1.toNat_eq, h2.toNat_eq, h3.toNat_eq, h4.toNat_eq]

theorem Bounded.mono (ha : a.Bounded A) (hle : A ≤ B) : a.Bounded B :=
  ⟨ha.l0.mono hle, ha.l1.mono hle, ha.l2.mono hle, ha.l3.mono hle, ha.l4.mono hle⟩

theorem Bounded.limbs_le (ha : a.Bounded B) : a.l0.toNat ≤ B ∧ a.l1.toNat ≤ B ∧ a.l2.toNat ≤ B ∧
    a.l3.toNat ≤ B ∧ a.l4.toNat ≤ B :=
  ⟨ha.l0.le, ha.l1.le, ha.l2.le, ha.l3.le, ha.l4.le⟩

theorem Bounded.value_lt (ha : a.Bounded (2 ^ 63 - 1)) : a.value < 2 ^ 268 := by
  obtain ⟨h0, h1, h2, h3, h4⟩ := ha.limbs_le
  unfold value digits
  omega

theorem Bounded.exact (ha : a.Bounded A) : a.Exact :=
  ⟨ha.l0.exact, ha.l1.exact, ha.l2.exact, ha.l3.exact, ha.l4.exact⟩

namespace Rep

theorem mono (ha : a.Rep A x) (hle : A ≤ B) : a.Rep B x :=
  ⟨ha.toBounded.mono hle, ha.value_eq⟩

theorem of_holds {n0 n1 n2 n3 n4 : ℕ} (h0 : a.l0.Holds n0 B) (h1 : a.l1.Holds n1 B)
    (h2 : a.l2.Holds n2 B) (h3 : a.l3.Holds n3 B) (h4 : a.l4.Holds n4 B)
    (hvalue : (digits n0 n1 n2 n3 n4 : F) = x) : a.Rep B x := by
  refine ⟨⟨h0.toSelf, h1.toSelf, h2.toSelf, h3.toSelf, h4.toSelf⟩, ?_⟩
  rw [value_of_holds h0 h1 h2 h3 h4, hvalue]

end Rep

end Fe

theorem mask51 : (0x7FFFFFFFFFFFF : Word 64).Holds (2 ^ 51 - 1) (2 ^ 51 - 1) := Word.Holds.ofNat _

/-- `2 ^ 255 = 19` in the field, in the base of the limbs. -/
theorem base_pow_five : ((2 : F) ^ 51) ^ 5 = 19 := by
  have hp : ((2 ^ 255 : ℕ) : F) = ((p + 19 : ℕ) : F) := rfl
  rw [Nat.cast_add, ZMod.natCast_self, zero_add] at hp
  rw [← pow_mul]
  exact_mod_cast hp

theorem cast_digits (n0 n1 n2 n3 n4 : ℕ) :
    (digits n0 n1 n2 n3 n4 : F) = n0 + 2 ^ 51 * n1 + (2 ^ 51) ^ 2 * n2 + (2 ^ 51) ^ 3 * n3 +
      (2 ^ 51) ^ 4 * n4 := by
  unfold digits
  push_cast
  ring

theorem cast_eq_of_eq_add_mul {n m k : ℕ} (h : n = m + p * k) : (n : F) = m := by
  rw [h, Nat.cast_add, Nat.cast_mul, ZMod.natCast_self, zero_mul, add_zero]

theorem p_add : p + 19 = 2 ^ 255 := rfl

/-- The carries from limb to limb when the digits are put in range: the carry out
of the top one is the last. -/
def carries (n0 n1 n2 n3 n4 : ℕ) : ℕ × ℕ × ℕ × ℕ × ℕ :=
  let q0 := n0 / 2 ^ 51
  let q1 := (n1 + q0) / 2 ^ 51
  let q2 := (n2 + q1) / 2 ^ 51
  let q3 := (n3 + q2) / 2 ^ 51
  (q0, q1, q2, q3, (n4 + q3) / 2 ^ 51)

/-- Putting the digits in range only moves a multiple of `2 ^ 255` out. -/
theorem digits_carry {n0 n1 n2 n3 n4 q0 q1 q2 q3 q4 : ℕ}
    (hq : carries n0 n1 n2 n3 n4 = (q0, q1, q2, q3, q4)) :
    digits n0 n1 n2 n3 n4 = digits (n0 % 2 ^ 51) ((n1 + q0) % 2 ^ 51) ((n2 + q1) % 2 ^ 51)
      ((n3 + q2) % 2 ^ 51) ((n4 + q3) % 2 ^ 51) + 2 ^ 255 * q4 := by
  simp only [carries, Prod.mk.injEq] at hq
  obtain ⟨hq0, hq1, hq2, hq3, hq4⟩ := hq
  rw [hq0] at hq1 hq2 hq3 hq4
  rw [hq1] at hq2 hq3 hq4
  rw [hq2] at hq3 hq4
  rw [hq3] at hq4
  have h0 := hq0 ▸ Nat.mod_add_div n0 (2 ^ 51)
  have h1 := hq1 ▸ Nat.mod_add_div (n1 + q0) (2 ^ 51)
  have h2 := hq2 ▸ Nat.mod_add_div (n2 + q1) (2 ^ 51)
  have h3 := hq3 ▸ Nat.mod_add_div (n3 + q2) (2 ^ 51)
  have h4 := hq4 ▸ Nat.mod_add_div (n4 + q3) (2 ^ 51)
  unfold digits
  linear_combination -(h0 + 2 ^ 51 * h1 + 2 ^ 102 * h2 + 2 ^ 153 * h3 + 2 ^ 204 * h4)

theorem digits_mod_lt (n0 n1 n2 n3 n4 : ℕ) :
    digits (n0 % 2 ^ 51) (n1 % 2 ^ 51) (n2 % 2 ^ 51) (n3 % 2 ^ 51) (n4 % 2 ^ 51) < 2 ^ 255 := by
  unfold digits
  omega

theorem digits_mod {n0 n1 n2 n3 n4 q0 q1 q2 q3 q4 : ℕ}
    (hq : carries n0 n1 n2 n3 n4 = (q0, q1, q2, q3, q4)) :
    digits n0 n1 n2 n3 n4 % 2 ^ 255 = digits (n0 % 2 ^ 51) ((n1 + q0) % 2 ^ 51)
      ((n2 + q1) % 2 ^ 51) ((n3 + q2) % 2 ^ 51) ((n4 + q3) % 2 ^ 51) := by
  rw [digits_carry hq, Nat.add_mul_mod_self_left, Nat.mod_eq_of_lt (digits_mod_lt _ _ _ _ _)]

theorem digits_div {n0 n1 n2 n3 n4 q0 q1 q2 q3 q4 : ℕ}
    (hq : carries n0 n1 n2 n3 n4 = (q0, q1, q2, q3, q4)) :
    digits n0 n1 n2 n3 n4 / 2 ^ 255 = q4 := by
  rw [digits_carry hq, Nat.add_mul_div_left _ _ (by decide),
    Nat.div_eq_of_lt (digits_mod_lt _ _ _ _ _), Nat.zero_add]

theorem digits_add_zero (n0 n1 n2 n3 n4 k : ℕ) :
    digits (n0 + k) n1 n2 n3 n4 = digits n0 n1 n2 n3 n4 + k := by
  unfold digits
  ring

/-- Carrying the top back to the bottom times 19 keeps the field element. -/
theorem cast_digits_carry {n0 n1 n2 n3 n4 q0 q1 q2 q3 q4 : ℕ}
    (hq : carries n0 n1 n2 n3 n4 = (q0, q1, q2, q3, q4)) :
    (digits n0 n1 n2 n3 n4 : F) = (digits (n0 % 2 ^ 51 + q4 * 19) ((n1 + q0) % 2 ^ 51)
      ((n2 + q1) % 2 ^ 51) ((n3 + q2) % 2 ^ 51) ((n4 + q3) % 2 ^ 51) : ℕ) := by
  apply cast_eq_of_eq_add_mul (k := q4)
  have hp : p * q4 + 19 * q4 = 2 ^ 255 * q4 := by rw [← Nat.add_mul, p_add]
  rw [digits_carry hq, digits_add_zero]
  omega

/-- Inversion as the code does it. -/
theorem inv_eq_pow (x : F) : x⁻¹ = x ^ (p - 2) := by
  rcases eq_or_ne x 0 with rfl | hx
  · rw [inv_zero, zero_pow (by decide)]
  · have hone : x ^ (p - 2) * x = 1 := by
      rw [← pow_succ]
      exact ZMod.pow_card_sub_one_eq_one hx
    exact (eq_inv_of_mul_eq_one_left hone).symm

/-! ## Products -/

/-- The limbs of a product: only the second one may be longer than 51 bits. -/
structure Fe.Carried (a : Fe) (x : F) : Prop where
  l0 : a.l0.Holds a.l0.toNat (2 ^ 51 - 1)
  l1 : a.l1.Holds a.l1.toNat (2 ^ 51 + 2 ^ 13 - 1)
  l2 : a.l2.Holds a.l2.toNat (2 ^ 51 - 1)
  l3 : a.l3.Holds a.l3.toNat (2 ^ 51 - 1)
  l4 : a.l4.Holds a.l4.toNat (2 ^ 51 - 1)
  value_eq : (a.value : F) = x

theorem Fe.Carried.rep {a : Fe} {x : F} (ha : a.Carried x) : a.Rep (2 ^ 51 + 2 ^ 13 - 1) x :=
  ⟨⟨ha.l0.mono (by decide), ha.l1, ha.l2.mono (by decide), ha.l3.mono (by decide),
    ha.l4.mono (by decide)⟩, ha.value_eq⟩

/-- The carries after a product. -/
theorem carryProduct_carried {t0 t1 t2 t3 t4 : Word 128} {n0 n1 n2 n3 n4 : ℕ}
    (h0 : t0.Holds n0 (77 * 2 ^ 108)) (h1 : t1.Holds n1 (59 * 2 ^ 108))
    (h2 : t2.Holds n2 (41 * 2 ^ 108)) (h3 : t3.Holds n3 (23 * 2 ^ 108))
    (h4 : t4.Holds n4 (5 * 2 ^ 108)) :
    (carryProduct t0 t1 t2 t3 t4).Carried (digits n0 n1 n2 n3 n4 : F) := by
  have h1' := h1.add (((h0.shiftRight 51).cast (v := 64)).cast (v := 128))
  have h2' := h2.add (((h1'.shiftRight 51).cast (v := 64)).cast (v := 128))
  have h3' := h3.add (((h2'.shiftRight 51).cast (v := 64)).cast (v := 128))
  have h4' := h4.add (((h3'.shiftRight 51).cast (v := 64)).cast (v := 128))
  have hr0 := (h0.truncate_mask 51 mask51).add
    (((h4'.shiftRight 51).cast (v := 64)).mul (Word.Holds.ofNat 19))
  have hr1 := (h1'.truncate_mask 51 mask51).add (hr0.shiftRight 51)
  have hm0 := hr0.mask 51 mask51
  have hm2 := h2'.truncate_mask 51 mask51
  have hm3 := h3'.truncate_mask 51 mask51
  have hm4 := h4'.truncate_mask 51 mask51
  refine ⟨hm0.toSelf, (hr1.mono (by decide)).toSelf, hm2.toSelf, hm3.toSelf, hm4.toSelf, ?_⟩
  rw [Fe.value_of_holds (a := carryProduct t0 t1 t2 t3 t4) hm0 hr1 hm2 hm3 hm4]
  refine Eq.trans ?_ (cast_digits_carry rfl).symm
  -- The carry from the bottom limb to the next one is made in place.
  congr 1
  unfold digits
  omega

variable {a b : Fe} {x y : F}

theorem mul_carried (ha : a.Rep (2 ^ 54) x) (hb : b.Rep (2 ^ 54) y) :
    (mul a b).Carried (x * y) := by
  have h19 : (19 : Word 64).Holds 19 19 := Word.Holds.ofNat 19
  have ht0 := (hb.l0.mul128 ha.l0).add (((((hb.l4.mul h19).mul128 ha.l1).add
    ((hb.l1.mul h19).mul128 ha.l4)).add ((hb.l2.mul h19).mul128 ha.l3)).add
    ((hb.l3.mul h19).mul128 ha.l2))
  have ht1 := ((hb.l0.mul128 ha.l1).add (hb.l1.mul128 ha.l0)).add ((((hb.l4.mul h19).mul128
    ha.l2).add ((hb.l2.mul h19).mul128 ha.l4)).add ((hb.l3.mul h19).mul128 ha.l3))
  have ht2 := (((hb.l0.mul128 ha.l2).add (hb.l2.mul128 ha.l0)).add (hb.l1.mul128 ha.l1)).add
    (((hb.l4.mul h19).mul128 ha.l3).add ((hb.l3.mul h19).mul128 ha.l4))
  have ht3 := ((((hb.l0.mul128 ha.l3).add (hb.l3.mul128 ha.l0)).add (hb.l1.mul128 ha.l2)).add
    (hb.l2.mul128 ha.l1)).add ((hb.l4.mul h19).mul128 ha.l4)
  have ht4 := ((((hb.l0.mul128 ha.l4).add (hb.l4.mul128 ha.l0)).add (hb.l3.mul128 ha.l1)).add
    (hb.l1.mul128 ha.l3)).add (hb.l2.mul128 ha.l2)
  have hout := carryProduct_carried (ht0.mono (by decide)) (ht1.mono (by decide))
    (ht2.mono (by decide)) (ht3.mono (by decide)) (ht4.mono (by decide))
  refine ⟨hout.l0, hout.l1, hout.l2, hout.l3, hout.l4, hout.value_eq.trans ?_⟩
  have hbase := base_pow_five
  rw [← ha.value_eq, ← hb.value_eq, Fe.value, Fe.value, cast_digits, cast_digits, cast_digits]
  push_cast
  generalize (2 : F) ^ 51 = base at hbase ⊢
  generalize (a.l0.toNat : F) = a0, (a.l1.toNat : F) = a1, (a.l2.toNat : F) = a2,
    (a.l3.toNat : F) = a3, (a.l4.toNat : F) = a4
  generalize (b.l0.toNat : F) = b0, (b.l1.toNat : F) = b1, (b.l2.toNat : F) = b2,
    (b.l3.toNat : F) = b3, (b.l4.toNat : F) = b4
  linear_combination -((b4 * a1 + b1 * a4 + b2 * a3 + b3 * a2) +
    base * (b4 * a2 + b2 * a4 + b3 * a3) + base ^ 2 * (b4 * a3 + b3 * a4) +
    base ^ 3 * (b4 * a4)) * hbase

theorem mul_rep (ha : a.Rep (2 ^ 54) x) (hb : b.Rep (2 ^ 54) y) :
    (mul a b).Rep (2 ^ 51 + 2 ^ 13 - 1) (x * y) :=
  (mul_carried ha hb).rep

example : (mul ⟨3, 0, 0, 0, 0⟩ ⟨5, 0, 0, 0, 0⟩).value = 15 := by decide +kernel

theorem square_carried (ha : a.Rep (2 ^ 54) x) : (square a).Carried (x ^ 2) := by
  have h19 : (19 : Word 64).Holds 19 19 := Word.Holds.ofNat 19
  have h2 : (2 : Word 64).Holds 2 2 := Word.Holds.ofNat 2
  have hd0 := ha.l0.mul h2
  have hd1 := ha.l1.mul h2
  have hd2 := (ha.l2.mul h2).mul h19
  have hd419 := ha.l4.mul h19
  have hd4 := hd419.mul h2
  have ht0 := ((ha.l0.mul128 ha.l0).add (hd4.mul128 ha.l1)).add (hd2.mul128 ha.l3)
  have ht1 := ((hd0.mul128 ha.l1).add (hd4.mul128 ha.l2)).add (ha.l3.mul128 (ha.l3.mul h19))
  have ht2 := ((hd0.mul128 ha.l2).add (ha.l1.mul128 ha.l1)).add (hd4.mul128 ha.l3)
  have ht3 := ((hd0.mul128 ha.l3).add (hd1.mul128 ha.l2)).add (ha.l4.mul128 hd419)
  have ht4 := ((hd0.mul128 ha.l4).add (hd1.mul128 ha.l3)).add (ha.l2.mul128 ha.l2)
  have hout := carryProduct_carried (ht0.mono (by decide)) (ht1.mono (by decide))
    (ht2.mono (by decide)) (ht3.mono (by decide)) (ht4.mono (by decide))
  refine ⟨hout.l0, hout.l1, hout.l2, hout.l3, hout.l4, hout.value_eq.trans ?_⟩
  have hbase := base_pow_five
  rw [← ha.value_eq, Fe.value, cast_digits, cast_digits]
  push_cast
  generalize (2 : F) ^ 51 = base at hbase ⊢
  generalize (a.l0.toNat : F) = a0, (a.l1.toNat : F) = a1, (a.l2.toNat : F) = a2,
    (a.l3.toNat : F) = a3, (a.l4.toNat : F) = a4
  linear_combination -((2 * a1 * a4 + 2 * a2 * a3) + base * (2 * a2 * a4 + a3 * a3) +
    base ^ 2 * (2 * a3 * a4) + base ^ 3 * (a4 * a4)) * hbase

theorem square_rep (ha : a.Rep (2 ^ 54) x) : (square a).Rep (2 ^ 51 + 2 ^ 13 - 1) (x ^ 2) :=
  (square_carried ha).rep

theorem squareN_rep (ha : a.Rep (2 ^ 51 + 2 ^ 13 - 1) x) (n : ℕ) :
    (squareN a n).Rep (2 ^ 51 + 2 ^ 13 - 1) (x ^ 2 ^ n) := by
  induction n with
  | zero => simpa [squareN] using ha
  | succ n ih =>
      rw [squareN, Function.iterate_succ_apply', pow_succ 2 n, pow_mul]
      exact square_rep (ih.mono (by decide))

/-- Squaring from unreduced limbs. -/
theorem squareN_succ_carried (ha : a.Rep (2 ^ 54) x) (n : ℕ) :
    (squareN a (n + 1)).Carried (x ^ 2 ^ (n + 1)) := by
  induction n with
  | zero => exact square_carried ha
  | succ n ih =>
      rw [squareN, Function.iterate_succ_apply', pow_succ 2 (n + 1), pow_mul]
      exact square_carried (ih.rep.mono (by decide))

theorem squareN_succ_rep (ha : a.Rep (2 ^ 54) x) (n : ℕ) :
    (squareN a (n + 1)).Rep (2 ^ 51 + 2 ^ 13 - 1) (x ^ 2 ^ (n + 1)) :=
  (squareN_succ_carried ha n).rep

theorem squareN_one_rep (ha : a.Rep (2 ^ 54) x) :
    (squareN a 1).Rep (2 ^ 51 + 2 ^ 13 - 1) (x ^ 2) :=
  squareN_succ_rep ha 0

theorem mulScalar_rep {scalar : Word 64} {k : ℕ} (ha : a.Rep (2 ^ 54) x)
    (hk : scalar.Holds k (2 ^ 17)) :
    (mulScalar a scalar).Rep (2 ^ 51 + 2 ^ 25 - 1) (x * k) := by
  have h0 := ha.l0.mul128 hk
  have h1 := (ha.l1.mul128 hk).add (((h0.shiftRight 51).cast (v := 64)).cast (v := 128))
  have h2 := (ha.l2.mul128 hk).add (((h1.shiftRight 51).cast (v := 64)).cast (v := 128))
  have h3 := (ha.l3.mul128 hk).add (((h2.shiftRight 51).cast (v := 64)).cast (v := 128))
  have h4 := (ha.l4.mul128 hk).add (((h3.shiftRight 51).cast (v := 64)).cast (v := 128))
  have hr0 := (h0.truncate_mask 51 mask51).add
    (((h4.shiftRight 51).cast (v := 64)).mul (Word.Holds.ofNat 19))
  refine Fe.Rep.of_holds (hr0.mono (by decide)) ((h1.truncate_mask 51 mask51).mono (by decide))
    ((h2.truncate_mask 51 mask51).mono (by decide))
    ((h3.truncate_mask 51 mask51).mono (by decide))
    ((h4.truncate_mask 51 mask51).mono (by decide)) ?_
  rw [← ha.value_eq, ← Nat.cast_mul]
  symm
  have hp := p_add
  have hvalue : a.value * k = digits (a.l0.toNat * k) (a.l1.toNat * k) (a.l2.toNat * k)
      (a.l3.toNat * k) (a.l4.toNat * k) := by
    unfold Fe.value digits
    ring
  rw [hvalue]
  generalize a.l0.toNat * k = n0
  generalize a.l1.toNat * k = n1
  generalize a.l2.toNat * k = n2
  generalize a.l3.toNat * k = n3
  generalize a.l4.toNat * k = n4
  exact cast_digits_carry rfl

/-! ## Powers -/

/-- One link of the addition chain: square `n` times, then multiply. -/
theorem squareMul_carried {c d : Fe} {k m e : ℕ} (hc : c.Rep (2 ^ 51 + 2 ^ 13 - 1) (x ^ k))
    (hd : d.Rep (2 ^ 54) (x ^ m)) (n : ℕ) (he : k * 2 ^ n + m = e := by decide) :
    (mul (squareN c n) d).Carried (x ^ e) := by
  have h := mul_carried ((squareN_rep hc n).mono (by decide)) hd
  rwa [← pow_mul, ← pow_add, he] at h

theorem squareMul_rep {c d : Fe} {k m e : ℕ} (hc : c.Rep (2 ^ 51 + 2 ^ 13 - 1) (x ^ k))
    (hd : d.Rep (2 ^ 54) (x ^ m)) (n : ℕ) (he : k * 2 ^ n + m = e := by decide) :
    (mul (squareN c n) d).Rep (2 ^ 51 + 2 ^ 13 - 1) (x ^ e) :=
  (squareMul_carried hc hd n he).rep

theorem pow11PowTwo250mtwo0_rep {z : Fe} (hz : z.Rep (2 ^ 54) x) :
    (pow11PowTwo250mtwo0 z).1.Rep (2 ^ 51 + 2 ^ 13 - 1) (x ^ 11) ∧
      (pow11PowTwo250mtwo0 z).2.Rep (2 ^ 51 + 2 ^ 13 - 1) (x ^ (2 ^ 250 - 1)) := by
  have hle : 2 ^ 51 + 2 ^ 13 - 1 ≤ 2 ^ 54 := by decide
  have hz1 : z.Rep (2 ^ 54) (x ^ 1) := by rwa [pow_one]
  have h2 := squareN_one_rep hz
  have h9 := squareMul_rep h2 hz1 2 (e := 9)
  have h11 := mul_rep (h9.mono hle) (h2.mono hle)
  rw [← pow_add] at h11
  have h31 := squareMul_rep h11 (h9.mono hle) 1 (e := 2 ^ 5 - 1)
  have h10 := squareMul_rep h31 (h31.mono hle) 5 (e := 2 ^ 10 - 1)
  have h20 := squareMul_rep h10 (h10.mono hle) 10 (e := 2 ^ 20 - 1)
  have h40 := squareMul_rep h20 (h20.mono hle) 20 (e := 2 ^ 40 - 1)
  have h50 := squareMul_rep h40 (h10.mono hle) 10 (e := 2 ^ 50 - 1)
  have h100 := squareMul_rep h50 (h50.mono hle) 50 (e := 2 ^ 100 - 1)
  have h200 := squareMul_rep h100 (h100.mono hle) 100 (e := 2 ^ 200 - 1)
  have h250 := squareMul_rep h200 (h50.mono hle) 50 (e := 2 ^ 250 - 1)
  exact ⟨h11, h250⟩

theorem invert_carried {z : Fe} (hz : z.Rep (2 ^ 54) x) : (invert z).Carried (x ^ (p - 2)) := by
  obtain ⟨ha, hb⟩ := pow11PowTwo250mtwo0_rep hz
  exact squareMul_carried hb (ha.mono (by decide)) 5

/-- `curve25519_invert` computes the inverse, and 0 for 0. -/
theorem invert_rep {z : Fe} (hz : z.Rep (2 ^ 54) x) :
    (invert z).Rep (2 ^ 51 + 2 ^ 13 - 1) x⁻¹ := by
  rw [inv_eq_pow]
  exact (invert_carried hz).rep

theorem powTwo252m3_carried {z : Fe} (hz : z.Rep (2 ^ 54) x) :
    (powTwo252m3 z).Carried (x ^ (2 ^ 252 - 3)) := by
  have hz1 : z.Rep (2 ^ 54) (x ^ 1) := by rwa [pow_one]
  exact squareMul_carried (pow11PowTwo250mtwo0_rep hz).2 hz1 2

theorem powTwo252m3_rep {z : Fe} (hz : z.Rep (2 ^ 54) x) :
    (powTwo252m3 z).Rep (2 ^ 51 + 2 ^ 13 - 1) (x ^ (2 ^ 252 - 3)) :=
  (powTwo252m3_carried hz).rep

example : (squareN ⟨2, 0, 0, 0, 0⟩ 5).value = 2 ^ 32 := by decide +kernel

/-! ## Sums and differences -/

theorem addNoReduce_rep {A B : ℕ} (ha : a.Rep A x) (hb : b.Rep B y) (h : A + B < 2 ^ 64) :
    (addNoReduce a b).Rep (A + B) (x + y) := by
  refine Fe.Rep.of_holds (ha.l0.add hb.l0 h) (ha.l1.add hb.l1 h) (ha.l2.add hb.l2 h)
    (ha.l3.add hb.l3 h) (ha.l4.add hb.l4 h) ?_
  rw [← ha.value_eq, ← hb.value_eq, ← Nat.cast_add]
  congr 1
  unfold Fe.value digits
  ring

/-- A subtraction with the offset `k * p`, written in limbs `c0, c, c, c, c`. -/
theorem subOffset_rep {c0 c : Word 64} {n0 n A B : ℕ} (hc0 : c0.Holds n0 n) (hc : c.Holds n n)
    (ha : a.Rep A x) (hb : b.Rep B y) (h : A + n < 2 ^ 64) (hB : B ≤ n0)
    (hoffset : (digits n0 n n n n : F) = 0) :
    (subOffset c0 c a b).Rep (A + n) (x - y) := by
  have hle0 := hc0.le
  obtain ⟨hl0, hl1, hl2, hl3, hl4⟩ := hb.limbs_le
  refine Fe.Rep.of_holds ((ha.l0.add hc0 h).sub hb.l0 (by omega))
    ((ha.l1.add hc h).sub hb.l1 (by omega)) ((ha.l2.add hc h).sub hb.l2 (by omega))
    ((ha.l3.add hc h).sub hb.l3 (by omega)) ((ha.l4.add hc h).sub hb.l4 (by omega)) ?_
  rw [eq_sub_iff_add_eq, ← ha.value_eq, ← hb.value_eq, ← add_zero (a.value : F), ← hoffset,
    ← Nat.cast_add, ← Nat.cast_add]
  congr 1
  unfold Fe.value digits
  omega

theorem subNoReduce_rep {A : ℕ} (ha : a.Rep A x) (hb : b.Rep (2 ^ 52 - 38) y)
    (h : A + (2 ^ 52 - 2) < 2 ^ 64) : (subNoReduce a b).Rep (A + (2 ^ 52 - 2)) (x - y) := by
  have hc0 : (0x0FFFFFFFFFFFDA : Word 64).Holds (2 ^ 52 - 38) (2 ^ 52 - 2) :=
    (Word.Holds.ofNat (2 ^ 52 - 38)).mono (by decide)
  refine subOffset_rep hc0 (Word.Holds.ofNat _) ha hb h le_rfl ?_
  exact (ZMod.natCast_eq_zero_iff _ _).mpr ⟨2, by decide⟩

theorem subNoReduceFourP_rep {A : ℕ} (ha : a.Rep A x) (hb : b.Rep (2 ^ 53 - 76) y)
    (h : A + (2 ^ 53 - 4) < 2 ^ 64) : (subNoReduceFourP a b).Rep (A + (2 ^ 53 - 4)) (x - y) := by
  have hc0 : (0x1FFFFFFFFFFFB4 : Word 64).Holds (2 ^ 53 - 76) (2 ^ 53 - 4) :=
    (Word.Holds.ofNat (2 ^ 53 - 76)).mono (by decide)
  refine subOffset_rep hc0 (Word.Holds.ofNat _) ha hb h le_rfl ?_
  exact (ZMod.natCast_eq_zero_iff _ _).mpr ⟨4, by decide⟩

example : (subNoReduceFourP ⟨1, 0, 0, 0, 0⟩ ⟨2, 0, 0, 0, 0⟩).value = 4 * p - 1 := by decide +kernel

/-! ## Reduction -/

/-- What one pass of carries leaves, as a function of the number in the limbs. -/
structure CarryPassSpec (a c : Fe) : Prop where
  l0 : c.l0.Holds (a.value % 2 ^ 51 + a.value / 2 ^ 255 * 19) (2 ^ 51 + 2 ^ 17 - 1)
  l1 : c.l1.Holds c.l1.toNat (2 ^ 51 - 1)
  l2 : c.l2.Holds c.l2.toNat (2 ^ 51 - 1)
  l3 : c.l3.Holds c.l3.toNat (2 ^ 51 - 1)
  l4 : c.l4.Holds c.l4.toNat (2 ^ 51 - 1)
  value_eq : c.value = a.value % 2 ^ 255 + a.value / 2 ^ 255 * 19

theorem carryPass_spec (ha : a.Bounded (2 ^ 63 - 1)) : CarryPassSpec a (carryPass a) := by
  have h1 := ha.l1.add (ha.l0.shiftRight 51)
  have h2 := ha.l2.add (h1.shiftRight 51)
  have h3 := ha.l3.add (h2.shiftRight 51)
  have h4 := ha.l4.add (h3.shiftRight 51)
  have h0 := (ha.l0.mask 51 mask51).add ((h4.shiftRight 51).mul (Word.Holds.ofNat 19))
  have hr1 := h1.mask 51 mask51
  have hr2 := h2.mask 51 mask51
  have hr3 := h3.mask 51 mask51
  have hr4 := h4.mask 51 mask51
  have hlow : a.value % 2 ^ 51 = a.l0.toNat % 2 ^ 51 := by
    unfold Fe.value digits
    omega
  have hhigh : a.value / 2 ^ 255 = _ := digits_div rfl
  have hrest : a.value % 2 ^ 255 = _ := digits_mod rfl
  refine ⟨?_, hr1.toSelf, hr2.toSelf, hr3.toSelf, hr4.toSelf, ?_⟩
  · rw [hlow, hhigh]
    exact h0.mono (by decide)
  · rw [Fe.value_of_holds (a := carryPass a) h0 hr1 hr2 hr3 hr4, digits_add_zero, hhigh, hrest]

theorem CarryPassSpec.bounded {c : Fe} (hc : CarryPassSpec a c) :
    c.Bounded (2 ^ 51 + 2 ^ 17 - 1) :=
  ⟨hc.l0.toSelf, hc.l1.mono (by decide),
    hc.l2.mono (by decide), hc.l3.mono (by decide), hc.l4.mono (by decide)⟩

theorem carryPass_rep (ha : a.Rep (2 ^ 63 - 1) x) : (carryPass a).Rep (2 ^ 51 + 2 ^ 17 - 1) x := by
  have hpass := carryPass_spec ha.toBounded
  refine ⟨hpass.bounded, ?_⟩
  rw [← ha.value_eq, hpass.value_eq]
  symm
  apply cast_eq_of_eq_add_mul (k := a.value / 2 ^ 255)
  have hp := p_add
  have hsplit := Nat.mod_add_div a.value (2 ^ 255)
  generalize a.value / 2 ^ 255 = q at *
  have hpq : p * q + 19 * q = 2 ^ 255 * q := by rw [← Nat.add_mul, hp]
  omega

theorem add_rep {A B : ℕ} (ha : a.Rep A x) (hb : b.Rep B y) (h : A + B ≤ 2 ^ 63 - 1) :
    (add a b).Rep (2 ^ 51 + 2 ^ 17 - 1) (x + y) :=
  carryPass_rep ((addNoReduce_rep ha hb (h.trans_lt (by decide))).mono h)

theorem sub_rep {A : ℕ} (ha : a.Rep A x) (hb : b.Rep (2 ^ 52 - 38) y)
    (h : A + (2 ^ 52 - 2) ≤ 2 ^ 63 - 1) : (sub a b).Rep (2 ^ 51 + 2 ^ 17 - 1) (x - y) :=
  carryPass_rep ((subNoReduce_rep ha hb (h.trans_lt (by decide))).mono h)

/-- The limbs hold the digits of the number `n`, each below `2 ^ 51`. -/
structure Fe.Canonical (a : Fe) (n : ℕ) : Prop extends a.Bounded (2 ^ 51 - 1) where
  value_eq : a.value = n

/-- The last step of the reduction takes the offset of 19 away. -/
theorem removeOffset_canonical {n : ℕ} (ha : a.Bounded (2 ^ 51 + 2 ^ 17 - 1))
    (hvalue : a.value = n + 19) (hn : n < p) : (removeOffset a).Canonical n := by
  have hbit : (0x8000000000000 : Word 64).Holds (2 ^ 51) (2 ^ 51) := Word.Holds.ofNat _
  have hc0 : (0x8000000000000 - 19 : Word 64).Holds (2 ^ 51 - 19) (2 ^ 51) :=
    hbit.sub (Word.Holds.ofNat 19) (by decide)
  have hc : (0x8000000000000 - 1 : Word 64).Holds (2 ^ 51 - 1) (2 ^ 51) :=
    hbit.sub (Word.Holds.ofNat 1) (by decide)
  have h0 := ha.l0.add hc0
  have h1 := (ha.l1.add hc).add (h0.shiftRight 51)
  have h2 := (ha.l2.add hc).add (h1.shiftRight 51)
  have h3 := (ha.l3.add hc).add (h2.shiftRight 51)
  have h4 := (ha.l4.add hc).add (h3.shiftRight 51)
  have hr0 := h0.mask 51 mask51
  have hr1 := h1.mask 51 mask51
  have hr2 := h2.mask 51 mask51
  have hr3 := h3.mask 51 mask51
  have hr4 := h4.mask 51 mask51
  refine ⟨⟨hr0.toSelf, hr1.toSelf, hr2.toSelf, hr3.toSelf, hr4.toSelf⟩, ?_⟩
  rw [Fe.value_of_holds (a := removeOffset a) hr0 hr1 hr2 hr3 hr4]
  -- With the offset the number is `n + 2 ^ 255`, and the masks drop the `2 ^ 255`.
  have hsum : digits (a.l0.toNat + (2 ^ 51 - 19)) (a.l1.toNat + (2 ^ 51 - 1))
      (a.l2.toNat + (2 ^ 51 - 1)) (a.l3.toNat + (2 ^ 51 - 1)) (a.l4.toNat + (2 ^ 51 - 1)) =
      n + 2 ^ 255 := by
    unfold Fe.value at hvalue
    unfold digits at *
    omega
  have hp := p_add
  rw [← digits_mod rfl, hsum, Nat.add_mod_right, Nat.mod_eq_of_lt (by omega)]

/-- What one pass does to the number keeps its residue. -/
theorem pass_mod_p (n : ℕ) : (n % 2 ^ 255 + n / 2 ^ 255 * 19) % p = n % p := by
  have hp : p * (n / 2 ^ 255) + 19 * (n / 2 ^ 255) = 2 ^ 255 * (n / 2 ^ 255) := by
    rw [← Nat.add_mul, p_add]
  have hsplit := Nat.mod_add_div n (2 ^ 255)
  have hn : n = n % 2 ^ 255 + n / 2 ^ 255 * 19 + p * (n / 2 ^ 255) := by omega
  conv_rhs => rw [hn, Nat.add_mul_mod_self_left]

/-- The third pass, made on the number plus 19, subtracts the modulus when that is due. -/
theorem pass_add_offset {n : ℕ} (hn : n < 2 ^ 255) :
    (n + 19) % 2 ^ 255 + (n + 19) / 2 ^ 255 * 19 = n % p + 19 := by
  have hp := p_add
  rcases Nat.lt_or_ge n p with hlt | hge
  · rw [Nat.mod_eq_of_lt hlt, Nat.mod_eq_of_lt (by omega), Nat.div_eq_of_lt (by omega)]
  · have hsub : n % p = n - p := by
      rw [Nat.mod_eq_sub_mod hge, Nat.mod_eq_of_lt (by omega)]
    omega

/-- `curve25519_reduce` leaves the digits of the canonical value. -/
theorem reduce_canonical (ha : a.Bounded (2 ^ 63 - 1)) :
    (reduce a).Canonical (a.value % p) := by
  have h1 := carryPass_spec ha
  have h2 := carryPass_spec (h1.bounded.mono (by decide))
  have hv1 := h1.value_eq
  have hv2 := h2.value_eq
  have hvalue : a.value < 2 ^ 268 := ha.value_lt
  have hlt2 : (carryPass (carryPass a)).value < 2 ^ 255 := by omega
  have h19 := h2.l0.toSelf.add (Word.Holds.ofNat 19)
  have hb : ({ carryPass (carryPass a) with l0 := (carryPass (carryPass a)).l0 + 19 } : Fe).Bounded
      (2 ^ 63 - 1) :=
    ⟨h19.toSelf.mono (by decide), h2.l1.mono (by decide), h2.l2.mono (by decide),
      h2.l3.mono (by decide), h2.l4.mono (by decide)⟩
  have h3 := carryPass_spec hb
  have hvb := Fe.value_of_holds (a := { carryPass (carryPass a) with
    l0 := (carryPass (carryPass a)).l0 + 19 }) h19 h2.l1 h2.l2 h2.l3 h2.l4
  rw [digits_add_zero] at hvb
  refine removeOffset_canonical h3.bounded ?_ (Nat.mod_lt _ (by decide))
  rw [h3.value_eq, hvb]
  change ((carryPass (carryPass a)).value + 19) % 2 ^ 255 +
    ((carryPass (carryPass a)).value + 19) / 2 ^ 255 * 19 = _
  rw [pass_add_offset hlt2, hv2, pass_mod_p, hv1, pass_mod_p]

theorem reduce_rep_canonical (ha : a.Rep (2 ^ 63 - 1) x) : (reduce a).Canonical x.val := by
  have h := reduce_canonical ha.toBounded
  rwa [← ZMod.val_natCast, ha.value_eq] at h

/-! ## Loads and stores -/

/-- Storing canonical limbs writes the number, least significant byte first. -/
theorem store_eq {n : ℕ} (ha : a.Canonical n) : store a = leBytes 32 n := by
  obtain ⟨h0, h1, h2, h3, h4⟩ := ha.limbs_le
  have hvalue := ha.value_eq
  have hw0 := ha.l0.pack ha.l1 51 (by omega) (by decide)
  have hw1 := (ha.l1.shiftRight 13).pack ha.l2 38 (by omega) (by decide)
  have hw2 := (ha.l2.shiftRight 26).pack ha.l3 25 (by omega) (by decide)
  have hw3 := (ha.l3.shiftRight 39).pack ha.l4 12 (by omega) (by decide)
  unfold Fe.value digits at hvalue
  refine storeU64_four ?_ ?_ ?_ ?_
  · rw [hw0.toNat_eq]
    omega
  · rw [hw1.toNat_eq]
    omega
  · rw [hw2.toNat_eq]
    omega
  · rw [hw3.toNat_eq]
    omega

theorem digits_of_nat (n : ℕ) : digits (n % 2 ^ 51) (n / 2 ^ 51 % 2 ^ 51) (n / 2 ^ 102 % 2 ^ 51)
    (n / 2 ^ 153 % 2 ^ 51) (n / 2 ^ 204 % 2 ^ 51) = n % 2 ^ 255 := by
  unfold digits
  omega

/-- The number of a load: the top bit of the 32 bytes is ignored. -/
theorem load_canonical (bytes : List UInt8) :
    (load bytes).Canonical (leNat bytes % 2 ^ 255) := by
  have h0 := (loadU64_holds bytes 0).mask 51 mask51
  have h1 := ((loadU64_holds bytes 6).shiftRight 3).mask 51 mask51
  have h2 := ((loadU64_holds bytes 12).shiftRight 6).mask 51 mask51
  have h3 := ((loadU64_holds bytes 19).shiftRight 1).mask 51 mask51
  have h4 := ((loadU64_holds bytes 24).shiftRight 12).mask 51 mask51
  refine ⟨⟨h0.toSelf, h1.toSelf, h2.toSelf, h3.toSelf, h4.toSelf⟩, ?_⟩
  rw [Fe.value_of_holds (a := load bytes) h0 h1 h2 h3 h4, ← digits_of_nat,
    div_mod_div_mod _ _ _ _ _ (by decide), div_mod_div_mod _ _ _ _ _ (by decide),
    div_mod_div_mod _ _ _ _ _ (by decide), div_mod_div_mod _ _ _ _ _ (by decide),
    Nat.mod_mod_of_dvd _ (pow_dvd_pow 2 (by decide : 51 ≤ 64)), Nat.mul_zero, pow_zero,
    Nat.div_one]

theorem load_rep (bytes : List UInt8) :
    (load bytes).Rep (2 ^ 51 - 1) ((leNat bytes % 2 ^ 255 : ℕ) : F) := by
  have h := load_canonical bytes
  exact ⟨h.toBounded, by rw [h.value_eq]⟩

/-- There is one vector of canonical limbs for a number. -/
theorem Fe.Canonical.unique {n : ℕ} (ha : a.Canonical n) (hb : b.Canonical n) : a = b := by
  have hva := ha.value_eq
  have hvb := hb.value_eq
  unfold Fe.value digits at hva hvb
  obtain ⟨ha0, ha1, ha2, ha3, ha4⟩ := ha.limbs_le
  obtain ⟨hb0, hb1, hb2, hb3, hb4⟩ := hb.limbs_le
  have h0 : a.l0 = b.l0 := Word.ext_toNat (ha.l0.exact.trans hb.l0.exact.symm) (by omega)
  have h1 : a.l1 = b.l1 := Word.ext_toNat (ha.l1.exact.trans hb.l1.exact.symm) (by omega)
  have h2 : a.l2 = b.l2 := Word.ext_toNat (ha.l2.exact.trans hb.l2.exact.symm) (by omega)
  have h3 : a.l3 = b.l3 := Word.ext_toNat (ha.l3.exact.trans hb.l3.exact.symm) (by omega)
  have h4 : a.l4 = b.l4 := Word.ext_toNat (ha.l4.exact.trans hb.l4.exact.symm) (by omega)
  obtain ⟨a0, a1, a2, a3, a4⟩ := a
  obtain ⟨b0, b1, b2, b3, b4⟩ := b
  exact Fe.mk.injEq .. ▸ ⟨h0, h1, h2, h3, h4⟩

/-- Stored limbs are loaded again. -/
theorem load_store {n : ℕ} (ha : a.Canonical n) : load (store a) = a := by
  have hlt : n < 2 ^ 255 := by
    have hvalue := ha.value_eq
    unfold Fe.value digits at hvalue
    obtain ⟨h0, h1, h2, h3, h4⟩ := ha.limbs_le
    omega
  have h := load_canonical (store a)
  rw [store_eq ha, leNat_leBytes, Nat.mod_eq_of_lt (hlt.trans (by decide)),
    Nat.mod_eq_of_lt hlt] at h
  rw [store_eq ha]
  exact h.unique ha

/-- The reduced limbs of any limbs are the only ones for the remainder; they are stored as its
bytes and loaded from them again, and a load is the number of the low 255 bits. -/
theorem reduce_store_load (ha : a.Bounded (2 ^ 63 - 1)) (bytes : Bytes 32) :
    ((reduce a).Canonical (a.value % p) ∧ a.value % p < p ∧
        ∀ b : Fe, b.Canonical (a.value % p) → b = reduce a) ∧
      store (reduce a) = leBytes 32 (a.value % p) ∧
      (load bytes.toList).Canonical (leNat bytes.toList % 2 ^ 255) ∧
      load (store (reduce a)) = reduce a := by
  have hreduce := reduce_canonical ha
  have hpos : 0 < p := by decide
  exact ⟨⟨hreduce, Nat.mod_lt _ hpos, fun b hb => hb.unique hreduce⟩, store_eq hreduce,
    load_canonical bytes.toList, load_store hreduce⟩

theorem reduce_store_load_modulus :
    (reduce ⟨0x7FFFFFFFFFFED, 0x7FFFFFFFFFFFF, 0x7FFFFFFFFFFFF, 0x7FFFFFFFFFFFF,
      0x7FFFFFFFFFFFF⟩).Canonical 0 := by
  have hmodulus : Fe.value ⟨0x7FFFFFFFFFFED, 0x7FFFFFFFFFFFF, 0x7FFFFFFFFFFFF, 0x7FFFFFFFFFFFF,
    0x7FFFFFFFFFFFF⟩ % p = 0 := by decide +kernel
  have h := reduce_store_load (a := ⟨0x7FFFFFFFFFFED, 0x7FFFFFFFFFFFF, 0x7FFFFFFFFFFFF,
    0x7FFFFFFFFFFFF, 0x7FFFFFFFFFFFF⟩) ⟨⟨rfl, rfl, by decide⟩, ⟨rfl, rfl, by decide⟩,
    ⟨rfl, rfl, by decide⟩, ⟨rfl, rfl, by decide⟩, ⟨rfl, rfl, by decide⟩⟩
    (List.Vector.replicate 32 0)
  rw [hmodulus] at h
  exact h.1.1

/-! ## The conditional swap -/

theorem cSwapLimb_eq {a b : Word 64} (ha : a.exact = true) (hb : b.exact = true) (swap : Bool) :
    cSwapLimb ((0 : Word 64).wrapSub (if swap then 1 else 0)) a b =
      if swap then (b, a) else (a, b) := by
  obtain ⟨abits, aexact⟩ := a
  obtain ⟨bbits, bexact⟩ := b
  simp only at ha hb
  subst ha hb
  cases swap with
  | false =>
      refine Prod.ext (Word.ext_toNat rfl ?_) (Word.ext_toNat rfl ?_)
      · simp [cSwapLimb]
      · simp [cSwapLimb]
  | true =>
      have hmask : ((0 : Word 64).wrapSub 1).bits = BitVec.allOnes 64 := by decide
      have hx : ((0 : Word 64).wrapSub 1 &&& (⟨abits, true⟩ ^^^ ⟨bbits, true⟩)) =
          ⟨abits ^^^ bbits, true⟩ := by
        change Word.mk (((0 : Word 64).wrapSub 1).bits &&& (abits ^^^ bbits)) true = _
        rw [hmask, BitVec.allOnes_and]
      change (Word.mk abits true ^^^ ((0 : Word 64).wrapSub 1 &&& _),
        Word.mk bbits true ^^^ ((0 : Word 64).wrapSub 1 &&& _)) = _
      rw [hx]
      refine Prod.ext (Word.ext_toNat rfl ?_) (Word.ext_toNat rfl ?_)
      · change (abits ^^^ (abits ^^^ bbits)).toNat = bbits.toNat
        rw [← BitVec.xor_assoc, BitVec.xor_self, BitVec.zero_xor]
      · change (bbits ^^^ (abits ^^^ bbits)).toNat = abits.toNat
        rw [BitVec.xor_comm abits, ← BitVec.xor_assoc, BitVec.xor_self, BitVec.zero_xor]

theorem cSwap_eq (ha : a.Exact) (hb : b.Exact) (swap : Bool) :
    cSwap a b (if swap then 1 else 0) = if swap then (b, a) else (a, b) := by
  obtain ⟨ha0, ha1, ha2, ha3, ha4⟩ := ha
  obtain ⟨hb0, hb1, hb2, hb3, hb4⟩ := hb
  unfold cSwap
  simp only [cSwapLimb_eq ha0 hb0, cSwapLimb_eq ha1 hb1, cSwapLimb_eq ha2 hb2, cSwapLimb_eq ha3 hb3,
    cSwapLimb_eq ha4 hb4]
  cases swap with
  | false => rfl
  | true => rfl

end Hc.Curve25519
