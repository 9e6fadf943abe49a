import Hc.Crypto.Ed25519Modm
import Hc.Crypto.Ed25519Curve
import Hc.Foundation.Barrett

/-!
# Arithmetic modulo the group order

What the `ed25519_modm` functions compute as a function of the numbers in the limbs. The
ghost flags are part of the statements, so no sum of partial products overflows.
-/

namespace Hc.Ed25519

open Word (mul128)

/-- The number in the limbs. -/
def Scalar.value (s : Scalar) : ℕ :=
  s.l0.toNat + 2 ^ 56 * s.l1.toNat + 2 ^ 112 * s.l2.toNat + 2 ^ 168 * s.l3.toNat +
    2 ^ 224 * s.l4.toNat

/-- The limbs hold the digits of the number `n`, the top one having `width` bits. -/
structure Scalar.Holds (s : Scalar) (width n : ℕ) : Prop where
  l0 : s.l0.Holds s.l0.toNat (2 ^ 56 - 1)
  l1 : s.l1.Holds s.l1.toNat (2 ^ 56 - 1)
  l2 : s.l2.Holds s.l2.toNat (2 ^ 56 - 1)
  l3 : s.l3.Holds s.l3.toNat (2 ^ 56 - 1)
  l4 : s.l4.Holds s.l4.toNat (2 ^ width - 1)
  value_eq : s.value = n

/-- The limbs hold the digits of the number `n` below `2 ^ 256`. -/
abbrev Scalar.Canonical (s : Scalar) (n : ℕ) : Prop := s.Holds 32 n

theorem Scalar.value_of_holds {s : Scalar} {n0 n1 n2 n3 n4 B0 B1 B2 B3 B4 : ℕ}
    (h0 : s.l0.Holds n0 B0) (h1 : s.l1.Holds n1 B1) (h2 : s.l2.Holds n2 B2)
    (h3 : s.l3.Holds n3 B3) (h4 : s.l4.Holds n4 B4) :
    s.value = n0 + 2 ^ 56 * n1 + 2 ^ 112 * n2 + 2 ^ 168 * n3 + 2 ^ 224 * n4 := by
  rw [Scalar.value, h0.toNat_eq, h1.toNat_eq, h2.toNat_eq, h3.toNat_eq, h4.toNat_eq]

/-- The width of the top limb follows from a bound on the number. -/
theorem Scalar.holds_of_lt {s : Scalar} {n0 n1 n2 n3 n4 B width n : ℕ}
    (h0 : s.l0.Holds n0 (2 ^ 56 - 1)) (h1 : s.l1.Holds n1 (2 ^ 56 - 1))
    (h2 : s.l2.Holds n2 (2 ^ 56 - 1)) (h3 : s.l3.Holds n3 (2 ^ 56 - 1)) (h4 : s.l4.Holds n4 B)
    (hn : n0 + 2 ^ 56 * n1 + 2 ^ 112 * n2 + 2 ^ 168 * n3 + 2 ^ 224 * n4 = n)
    (hlt : n < 2 ^ (224 + width)) : s.Holds width n := by
  have htop : n4 ≤ 2 ^ width - 1 := by
    rw [pow_add] at hlt
    generalize 2 ^ width = W at hlt ⊢
    omega
  exact ⟨h0.toSelf, h1.toSelf, h2.toSelf, h3.toSelf, (h4.tighten htop).toSelf,
    (Scalar.value_of_holds h0 h1 h2 h3 h4).trans hn⟩

/-- A number cut off at the width of the limbs. -/
theorem Scalar.holds_mod {s : Scalar} {n0 n1 n2 n3 n4 B width n : ℕ}
    (h0 : s.l0.Holds n0 (2 ^ 56 - 1)) (h1 : s.l1.Holds n1 (2 ^ 56 - 1))
    (h2 : s.l2.Holds n2 (2 ^ 56 - 1)) (h3 : s.l3.Holds n3 (2 ^ 56 - 1)) (h4 : s.l4.Holds n4 B)
    (hn : n0 + 2 ^ 56 * n1 + 2 ^ 112 * n2 + 2 ^ 168 * n3 + 2 ^ 224 * n4 = n % 2 ^ (224 + width)) :
    s.Holds width (n % 2 ^ (224 + width)) :=
  Scalar.holds_of_lt h0 h1 h2 h3 h4 hn (Nat.mod_lt _ (pow_pos two_pos _))

theorem Scalar.Holds.limbs_le {s : Scalar} {width n : ℕ} (hs : s.Holds width n) :
    s.l0.toNat ≤ 2 ^ 56 - 1 ∧ s.l1.toNat ≤ 2 ^ 56 - 1 ∧ s.l2.toNat ≤ 2 ^ 56 - 1 ∧
      s.l3.toNat ≤ 2 ^ 56 - 1 ∧ s.l4.toNat ≤ 2 ^ width - 1 :=
  ⟨hs.l0.le, hs.l1.le, hs.l2.le, hs.l3.le, hs.l4.le⟩

theorem Scalar.Holds.value_lt {s : Scalar} {width n : ℕ} (hs : s.Holds width n) :
    n < 2 ^ (224 + width) := by
  obtain ⟨h0, h1, h2, h3, h4⟩ := hs.limbs_le
  have hpos : 0 < 2 ^ width := Nat.two_pow_pos width
  rw [← hs.value_eq, Scalar.value, pow_add]
  generalize 2 ^ width = W at h4 hpos ⊢
  omega

theorem Scalar.Holds.narrow {s : Scalar} {width width' n : ℕ} (hs : s.Holds width n)
    (hlt : n < 2 ^ (224 + width')) : s.Holds width' n :=
  Scalar.holds_of_lt hs.l0 hs.l1 hs.l2 hs.l3 hs.l4 hs.value_eq hlt

theorem Scalar.Holds.widen {s : Scalar} {width width' n : ℕ} (hs : s.Holds width n)
    (hle : width ≤ width') : s.Holds width' n :=
  hs.narrow (hs.value_lt.trans_le (Nat.pow_le_pow_right (by decide) (Nat.add_le_add_left hle 224)))

theorem mask56 : (0xffffffffffffff : Word 64).Holds (2 ^ 56 - 1) (2 ^ 56 - 1) := Word.Holds.ofNat _

theorem mask40 : (0x0000ffffffffff : Word 64).Holds (2 ^ 40 - 1) (2 ^ 40 - 1) := Word.Holds.ofNat _

theorem modm_canonical : modm.Canonical L :=
  ⟨⟨rfl, rfl, by decide⟩, ⟨rfl, rfl, by decide⟩, ⟨rfl, rfl, by decide⟩, ⟨rfl, rfl, by decide⟩,
    ⟨rfl, rfl, by decide⟩, by decide⟩

/-- `L` beside the powers of two of the reduction. -/
theorem L_bounds :
    3 * L < 2 ^ (224 + 32) ∧ 3 * L < 2 ^ (224 + 40) ∧
      L * 2 ^ 226 + 2 ^ (224 + 40) * 2 ^ 248 ≤ 2 ^ (224 + 40) * L := by
  decide +kernel

/-- `mu = floor(b ^ (k * 2) / m)`. -/
theorem modmMu_holds : modmMu.Holds 40 (2 ^ 248 * 2 ^ (224 + 40) / L) :=
  ⟨⟨rfl, rfl, by decide⟩, ⟨rfl, rfl, by decide⟩, ⟨rfl, rfl, by decide⟩, ⟨rfl, rfl, by decide⟩,
    ⟨rfl, rfl, by decide⟩, by decide +kernel⟩

/-! ## Differences -/

theorem subLimb_spec (width : ℕ) {x pb : Word 64} {n m : ℕ} (hx : x.Holds n (2 ^ width - 1))
    (hpb : pb.Holds m (2 ^ width)) (hwidth : width ≤ 62) :
    ∃ diff borrow, (subLimb width x pb).1.Holds diff (2 ^ width - 1) ∧
      (subLimb width x pb).2.Holds borrow 1 ∧ diff + m = n + 2 ^ width * borrow := by
  have hpow : 2 ^ width ≤ 2 ^ 62 := Nat.pow_le_pow_right (by decide) hwidth
  have hpos : 0 < 2 ^ width := Nat.two_pow_pos width
  have hn := hx.le
  have hm := hpb.le
  have hexact : (x.wrapSub pb).exact = true := by simp [hx.exact, hpb.exact]
  have hdiff : (x.wrapSub pb).toNat = (2 ^ 64 - m + n) % 2 ^ 64 := by
    rw [Word.toNat_wrapSub, hx.toNat_eq, hpb.toNat_eq]
  have hborrow : (subLimb width x pb).2.toNat = (x.wrapSub pb).toNat / 2 ^ 63 :=
    Word.toNat_shiftRight _ _
  have hlimb : (subLimb width x pb).1.toNat =
      ((x.wrapSub pb).toNat + (x.wrapSub pb).toNat / 2 ^ 63 * 2 ^ width % 2 ^ 64) % 2 ^ 64 := by
    simp only [subLimb, Word.toNat_wrapAdd, Word.toNat_shiftLeft, Word.toNat_shiftRight]
  have hexact1 : (subLimb width x pb).1.exact = true := by
    simp [subLimb, hx.exact, hpb.exact]
  rw [hdiff] at hborrow hlimb
  rcases Nat.lt_or_ge n m with hlt | hge
  · have hneg : (2 ^ 64 - m + n) % 2 ^ 64 = 2 ^ 64 - m + n := Nat.mod_eq_of_lt (by omega)
    have hone : (2 ^ 64 - m + n) / 2 ^ 63 = 1 := by omega
    have hshift : 1 * 2 ^ width % 2 ^ 64 = 2 ^ width := by
      rw [one_mul, Nat.mod_eq_of_lt (by omega)]
    have hwrap : 2 ^ 64 - m + n + 2 ^ width = n + 2 ^ width - m + 2 ^ 64 := by omega
    rw [hneg, hone] at hborrow hlimb
    rw [hshift, hwrap, Nat.add_mod_right, Nat.mod_eq_of_lt (by omega)] at hlimb
    exact ⟨n + 2 ^ width - m, 1, ⟨hexact1, hlimb, by omega⟩, ⟨hexact, hborrow, le_rfl⟩, by omega⟩
  · have hwrap : 2 ^ 64 - m + n = n - m + 2 ^ 64 := by omega
    have hnonneg : (2 ^ 64 - m + n) % 2 ^ 64 = n - m := by
      rw [hwrap, Nat.add_mod_right, Nat.mod_eq_of_lt (by omega)]
    have hzero : (n - m) / 2 ^ 63 = 0 := Nat.div_eq_of_lt (by omega)
    rw [hnonneg, hzero, Nat.zero_mul, Nat.zero_mod, Nat.add_zero, Nat.mod_eq_of_lt (by omega)]
      at hlimb
    rw [hnonneg, hzero] at hborrow
    exact ⟨n - m, 0, ⟨hexact1, hlimb, by omega⟩, ⟨hexact, hborrow, by omega⟩, by omega⟩

theorem subLimbs_spec (width : ℕ) {x y : Scalar} {n m : ℕ} (hx : x.Holds width n)
    (hy : y.Holds width m) (hwidth : width ≤ 62) :
    ∃ diff borrow, (subLimbs width x y).1.Holds width diff ∧
      (subLimbs width x y).2.Holds borrow 1 ∧ diff + m = n + 2 ^ (224 + width) * borrow := by
  have hpos : 0 < 2 ^ width := Nat.two_pow_pos width
  have hone : 1 + (2 ^ width - 1) = 2 ^ width := by omega
  have hpow : 2 ^ width ≤ 2 ^ 62 := Nat.pow_le_pow_right (by decide) hwidth
  obtain ⟨d0, b0, hd0, hb0, he0⟩ := subLimb_spec 56 hx.l0 (hy.l0.mono (by decide)) (by decide)
  obtain ⟨d1, b1, hd1, hb1, he1⟩ := subLimb_spec 56 hx.l1 ((hb0.add hy.l1).mono (by decide))
    (by decide)
  obtain ⟨d2, b2, hd2, hb2, he2⟩ := subLimb_spec 56 hx.l2 ((hb1.add hy.l2).mono (by decide))
    (by decide)
  obtain ⟨d3, b3, hd3, hb3, he3⟩ := subLimb_spec 56 hx.l3 ((hb2.add hy.l3).mono (by decide))
    (by decide)
  obtain ⟨d4, b4, hd4, hb4, he4⟩ := subLimb_spec width hx.l4
    ((hb3.add hy.l4 (by omega)).mono hone.le) hwidth
  have hvalue : (subLimbs width x y).1.value = _ := Scalar.value_of_holds hd0 hd1 hd2 hd3 hd4
  refine ⟨_, b4, ⟨hd0.toSelf, hd1.toSelf, hd2.toSelf, hd3.toSelf, hd4.toSelf, rfl⟩, hb4, ?_⟩
  have htop : 2 ^ 224 * d4 + 2 ^ 224 * (b3 + y.l4.toNat) =
      2 ^ 224 * x.l4.toNat + 2 ^ 224 * 2 ^ width * b4 := by
    rw [← Nat.mul_add, he4]
    ring
  rw [hvalue, ← hx.value_eq, ← hy.value_eq, Scalar.value, Scalar.value, pow_add]
  generalize 2 ^ 224 * 2 ^ width * b4 = T at htop ⊢
  omega

/-- A limb is kept when the mask is zero. -/
theorem select_keep {x t mask : Word 64} {n A : ℕ} (hx : x.Holds n A) (ht : t.exact = true)
    (hmask : mask.Holds 0 0) : (x ^^^ (mask &&& (x ^^^ t))).Holds n A := by
  refine ⟨by simp [hx.exact, ht, hmask.exact], ?_, hx.le⟩
  simp [hx.toNat_eq, hmask.toNat_eq]

/-- A limb is replaced when the mask is all ones. -/
theorem select_take {x t mask : Word 64} {n A : ℕ} (hx : x.exact = true) (ht : t.Holds n A)
    (hmask : mask.Holds (2 ^ 64 - 1) (2 ^ 64 - 1)) : (x ^^^ (mask &&& (x ^^^ t))).Holds n A := by
  have hlt := (x ^^^ t).toNat_lt
  refine ⟨by simp [hx, ht.exact, hmask.exact], ?_, ht.le⟩
  rw [Word.toNat_xor, Word.toNat_and, hmask.toNat_eq, Nat.and_comm, Nat.and_two_pow_sub_one_eq_mod,
    Nat.mod_eq_of_lt hlt, Word.toNat_xor, ← Nat.xor_assoc, Nat.xor_self, Nat.zero_xor, ht.toNat_eq]

/-- `ed25519_modm_reduce` subtracts the order once if it can. -/
theorem modmReduce_spec {r : Scalar} {n : ℕ} (hr : r.Canonical n) :
    (modmReduce r).Canonical (if n < L then n else n - L) := by
  obtain ⟨diff, borrow, ht, hb, hdiff⟩ := subLimbs_spec 32 hr modm_canonical (by decide)
  have hle := hb.le
  have hn := hr.value_lt
  have ht' := ht.value_lt
  have hmask : ((subLimbs 32 r modm).2.wrapSub 1).toNat = (2 ^ 64 - 1 + borrow) % 2 ^ 64 := by
    rw [Word.toNat_wrapSub, hb.toNat_eq]
    rfl
  have hexact : ((subLimbs 32 r modm).2.wrapSub 1).exact = true := by simp [hb.exact]
  obtain rfl | rfl : borrow = 1 ∨ borrow = 0 := by omega
  · have hkeep : ((subLimbs 32 r modm).2.wrapSub 1).Holds 0 0 := ⟨hexact, hmask, le_rfl⟩
    rw [if_pos (by omega)]
    exact Scalar.holds_of_lt (select_keep hr.l0 ht.l0.exact hkeep)
      (select_keep hr.l1 ht.l1.exact hkeep) (select_keep hr.l2 ht.l2.exact hkeep)
      (select_keep hr.l3 ht.l3.exact hkeep) (select_keep hr.l4 ht.l4.exact hkeep) hr.value_eq hn
  · have htake : ((subLimbs 32 r modm).2.wrapSub 1).Holds (2 ^ 64 - 1) (2 ^ 64 - 1) :=
      ⟨hexact, hmask, le_rfl⟩
    rw [if_neg (by omega), show n - L = diff by omega]
    exact Scalar.holds_of_lt (select_take hr.l0.exact ht.l0 htake)
      (select_take hr.l1.exact ht.l1 htake) (select_take hr.l2.exact ht.l2 htake)
      (select_take hr.l3.exact ht.l3 htake) (select_take hr.l4.exact ht.l4 htake) ht.value_eq ht'

example : (modmReduce modm).value = 0 := by decide +kernel

/-! ## Columns of partial products -/

theorem carry56_holds {c : Word 128} {n A : ℕ} (hc : c.Holds n A)
    (hA : A < 2 ^ 119 := by decide) : (carry56 c).Holds (n / 2 ^ 56) (2 ^ 63) := by
  have hle : A / 2 ^ 56 ≤ 2 ^ 63 := by omega
  exact (((hc.shiftRight 56).mono hle).cast (v := 64)).cast (v := 128)

theorem joinColumns_holds (k : ℕ) {low : Word 64} {c next : Word 128} {n m A B C : ℕ}
    (hlow : low.Holds (2 ^ (56 - k) - 1) C) (hc : c.Holds n A) (hnext : next.Holds m B)
    (hk : k ≤ 56) :
    (joinColumns k low c next).Holds (n % 2 ^ 56 / 2 ^ k + 2 ^ (56 - k) * (m % 2 ^ k))
      (2 ^ 56 - 1) := by
  have hsplit : 2 ^ 56 = 2 ^ k * 2 ^ (56 - k) := by rw [← pow_add, Nat.add_sub_cancel' hk]
  have hleft : ((c.truncate 64 >>> k) &&& low).toNat = n % 2 ^ 56 / 2 ^ k := by
    rw [Word.toNat_and, Word.toNat_shiftRight, Word.toNat_truncate, hc.toNat_eq, hlow.toNat_eq,
      Nat.and_two_pow_sub_one_eq_mod, hsplit, Nat.mod_mul_right_div_self]
    have h := div_mod_div_mod n 0 64 k (56 - k) (by omega)
    simpa using h
  have hright : ((next.truncate 64 <<< (56 - k)) &&& 0xffffffffffffff).toNat =
      2 ^ (56 - k) * (m % 2 ^ k) := by
    rw [Word.toNat_and, Word.toNat_shiftLeft, Word.toNat_truncate, hnext.toNat_eq,
      mask56.toNat_eq, Nat.and_two_pow_sub_one_eq_mod,
      Nat.mod_mod_of_dvd _ (pow_dvd_pow 2 (by decide : 56 ≤ 64)), hsplit, Nat.mul_comm,
      Nat.mul_comm (2 ^ k), Nat.mul_mod_mul_left,
      Nat.mod_mod_of_dvd _ (pow_dvd_pow 2 (by omega : k ≤ 64))]
  have hlt : n % 2 ^ 56 / 2 ^ k < 2 ^ (56 - k) := by
    apply Nat.div_lt_of_lt_mul
    rw [← hsplit]
    exact Nat.mod_lt _ (Nat.two_pow_pos 56)
  have hmod : m % 2 ^ k < 2 ^ k := Nat.mod_lt _ (Nat.two_pow_pos k)
  refine ⟨by simp [joinColumns, hc.exact, hnext.exact, hlow.exact], ?_, ?_⟩
  · rw [joinColumns, Word.toNat_or, hleft, hright, Nat.or_comm, Nat.add_comm,
      Nat.two_pow_add_eq_or_of_lt hlt]
  · have hle : 2 ^ (56 - k) * (m % 2 ^ k + 1) ≤ 2 ^ 56 := by
      rw [hsplit, Nat.mul_comm (2 ^ k)]
      exact Nat.mul_le_mul_left _ hmod
    rw [Nat.mul_succ] at hle
    omega

/-- The limbs joined from five columns: the number shifted right by `k` bits. -/
theorem joinColumns_value (k : ℕ) (hk : k = 24 ∨ k = 40) (c0 c1 c2 c3 c4 : ℕ) :
    (c0 % 2 ^ 56 / 2 ^ k + 2 ^ (56 - k) * (c1 % 2 ^ k)) +
      2 ^ 56 * (c1 % 2 ^ 56 / 2 ^ k + 2 ^ (56 - k) * (c2 % 2 ^ k)) +
      2 ^ 112 * (c2 % 2 ^ 56 / 2 ^ k + 2 ^ (56 - k) * (c3 % 2 ^ k)) +
      2 ^ 168 * (c3 % 2 ^ 56 / 2 ^ k + 2 ^ (56 - k) * (c4 % 2 ^ k)) + 2 ^ 224 * (c4 / 2 ^ k) =
    (c0 % 2 ^ 56 + 2 ^ 56 * (c1 % 2 ^ 56) + 2 ^ 112 * (c2 % 2 ^ 56) + 2 ^ 168 * (c3 % 2 ^ 56) +
      2 ^ 224 * c4) / 2 ^ k := by
  have hlow (c : ℕ) : c % 2 ^ k = c % 2 ^ 56 % 2 ^ k :=
    (Nat.mod_mod_of_dvd c (pow_dvd_pow 2 (by omega))).symm
  rw [hlow c1, hlow c2, hlow c3]
  generalize c0 % 2 ^ 56 = n0, c1 % 2 ^ 56 = n1, c2 % 2 ^ 56 = n2, c3 % 2 ^ 56 = n3
  rcases hk with rfl | rfl <;> omega

theorem joinColumns_spec (k width : ℕ) (hk : k = 24 ∨ k = 40) {low : Word 64}
    {c0 c1 c2 c3 c4 : Word 128} {n0 n1 n2 n3 n4 A : ℕ} (hlow : low.Holds (2 ^ (56 - k) - 1) A)
    (h0 : c0.Holds n0 A) (h1 : c1.Holds n1 A) (h2 : c2.Holds n2 A) (h3 : c3.Holds n3 A)
    (h4 : c4.Holds n4 (2 ^ 86))
    (hlt : (n0 % 2 ^ 56 + 2 ^ 56 * (n1 % 2 ^ 56) + 2 ^ 112 * (n2 % 2 ^ 56) +
      2 ^ 168 * (n3 % 2 ^ 56) + 2 ^ 224 * n4) / 2 ^ k < 2 ^ (224 + width)) :
    Scalar.Holds ⟨joinColumns k low c0 c1, joinColumns k low c1 c2, joinColumns k low c2 c3,
      joinColumns k low c3 c4, (c4 >>> k).cast 64⟩ width
      ((n0 % 2 ^ 56 + 2 ^ 56 * (n1 % 2 ^ 56) + 2 ^ 112 * (n2 % 2 ^ 56) +
        2 ^ 168 * (n3 % 2 ^ 56) + 2 ^ 224 * n4) / 2 ^ k) := by
  have hk56 : k ≤ 56 := by omega
  have htop : 2 ^ 86 / 2 ^ k < 2 ^ 64 := by rcases hk with rfl | rfl <;> decide
  exact Scalar.holds_of_lt (joinColumns_holds k hlow h0 h1 hk56)
    (joinColumns_holds k hlow h1 h2 hk56) (joinColumns_holds k hlow h2 h3 hk56)
    (joinColumns_holds k hlow h3 h4 hk56) ((h4.shiftRight k).cast (v := 64) htop)
    (joinColumns_value k hk n0 n1 n2 n3 n4) hlt

/-- Carries between columns keep the number. -/
theorem carry_value {n0 n1 n2 n3 n4 c1 c2 c3 c4 : ℕ} (h1 : c1 = n0 / 2 ^ 56 + n1)
    (h2 : c2 = c1 / 2 ^ 56 + n2) (h3 : c3 = c2 / 2 ^ 56 + n3) (h4 : c4 = c3 / 2 ^ 56 + n4) :
    n0 % 2 ^ 56 + 2 ^ 56 * (c1 % 2 ^ 56) + 2 ^ 112 * (c2 % 2 ^ 56) + 2 ^ 168 * (c3 % 2 ^ 56) +
      2 ^ 224 * c4 = n0 + 2 ^ 56 * n1 + 2 ^ 112 * n2 + 2 ^ 168 * n3 + 2 ^ 224 * n4 := by
  omega

/-- The sums of the partial products of equal weight. -/
def column (x y : Scalar) : ℕ → ℕ
  | 0 => x.l0.toNat * y.l0.toNat
  | 1 => x.l0.toNat * y.l1.toNat + x.l1.toNat * y.l0.toNat
  | 2 => x.l0.toNat * y.l2.toNat + x.l2.toNat * y.l0.toNat + x.l1.toNat * y.l1.toNat
  | 3 => x.l0.toNat * y.l3.toNat + x.l3.toNat * y.l0.toNat + x.l1.toNat * y.l2.toNat +
      x.l2.toNat * y.l1.toNat
  | 4 => x.l0.toNat * y.l4.toNat + x.l4.toNat * y.l0.toNat + x.l3.toNat * y.l1.toNat +
      x.l1.toNat * y.l3.toNat + x.l2.toNat * y.l2.toNat
  | 5 => x.l4.toNat * y.l1.toNat + x.l1.toNat * y.l4.toNat + x.l2.toNat * y.l3.toNat +
      x.l3.toNat * y.l2.toNat
  | 6 => x.l4.toNat * y.l2.toNat + x.l2.toNat * y.l4.toNat + x.l3.toNat * y.l3.toNat
  | 7 => x.l4.toNat * y.l3.toNat + x.l3.toNat * y.l4.toNat
  | 8 => x.l4.toNat * y.l4.toNat
  | _ => 0

theorem value_mul (x y : Scalar) :
    x.value * y.value = column x y 0 + 2 ^ 56 * column x y 1 + 2 ^ 112 * column x y 2 +
      2 ^ 168 * column x y 3 + 2 ^ 224 * (column x y 4 + 2 ^ 56 * column x y 5 +
        2 ^ 112 * column x y 6 + 2 ^ 168 * column x y 7 + 2 ^ 224 * column x y 8) := by
  unfold Scalar.value
  simp only [column]
  ring

section Columns

variable {x y : Scalar} {n m k A : ℕ} {c : Word 128}

theorem column0_holds (hx : x.Holds 40 n) (hy : y.Holds 40 m) :
    (mul128 x.l0 y.l0).Holds (column x y 0) (2 ^ 118) :=
  (hx.l0.mul128 hy.l0).mono (by decide)

theorem column1_holds (hx : x.Holds 40 n) (hy : y.Holds 40 m) (hc : c.Holds k (2 ^ 118)) :
    (carry56 c + mul128 x.l0 y.l1 + mul128 x.l1 y.l0).Holds
      (k / 2 ^ 56 + column x y 1) (2 ^ 118) := by
  have h := ((carry56_holds hc).add (hx.l0.mul128 hy.l1)).add (hx.l1.mul128 hy.l0)
  exact (h.mono (by decide)).congr (by simp only [column]; ring)

theorem column2_holds (hx : x.Holds 40 n) (hy : y.Holds 40 m) (hc : c.Holds k (2 ^ 118)) :
    (carry56 c + mul128 x.l0 y.l2 + mul128 x.l2 y.l0 + mul128 x.l1 y.l1).Holds
      (k / 2 ^ 56 + column x y 2) (2 ^ 118) := by
  have h := (((carry56_holds hc).add (hx.l0.mul128 hy.l2)).add (hx.l2.mul128 hy.l0)).add
    (hx.l1.mul128 hy.l1)
  exact (h.mono (by decide)).congr (by simp only [column]; ring)

theorem column3_holds (hx : x.Holds 40 n) (hy : y.Holds 40 m) (hc : c.Holds k (2 ^ 118)) :
    (carry56 c + mul128 x.l0 y.l3 + mul128 x.l3 y.l0 + mul128 x.l1 y.l2 +
      mul128 x.l2 y.l1).Holds (k / 2 ^ 56 + column x y 3) (2 ^ 118) := by
  have h := ((((carry56_holds hc).add (hx.l0.mul128 hy.l3)).add (hx.l3.mul128 hy.l0)).add
    (hx.l1.mul128 hy.l2)).add (hx.l2.mul128 hy.l1)
  exact (h.mono (by decide)).congr (by simp only [column]; ring)

theorem column4_holds (hx : x.Holds 40 n) (hy : y.Holds 40 m) (hc : c.Holds k (2 ^ 118)) :
    (carry56 c + mul128 x.l0 y.l4 + mul128 x.l4 y.l0 + mul128 x.l3 y.l1 + mul128 x.l1 y.l3 +
      mul128 x.l2 y.l2).Holds (k / 2 ^ 56 + column x y 4) (2 ^ 118) := by
  have h := (((((carry56_holds hc).add (hx.l0.mul128 hy.l4)).add (hx.l4.mul128 hy.l0)).add
    (hx.l3.mul128 hy.l1)).add (hx.l1.mul128 hy.l3)).add (hx.l2.mul128 hy.l2)
  exact (h.mono (by decide)).congr (by simp only [column]; ring)

/-- The carry out of the low four columns. -/
theorem carry_div {n0 n1 n2 n3 c1 c2 c3 rest : ℕ} (h1 : c1 = n0 / 2 ^ 56 + n1)
    (h2 : c2 = c1 / 2 ^ 56 + n2) (h3 : c3 = c2 / 2 ^ 56 + n3) :
    (n0 + 2 ^ 56 * n1 + 2 ^ 112 * n2 + 2 ^ 168 * n3 + 2 ^ 224 * rest) / 2 ^ 224 =
      c3 / 2 ^ 56 + rest := by
  omega

/-- The limbs of a product truncated to 264 bits. -/
theorem carry_mod {n0 n1 n2 n3 n4 n5 n6 n7 n8 c1 c2 c3 c4 : ℕ} (h1 : c1 = n0 / 2 ^ 56 + n1)
    (h2 : c2 = c1 / 2 ^ 56 + n2) (h3 : c3 = c2 / 2 ^ 56 + n3) (h4 : c4 = c3 / 2 ^ 56 + n4) :
    n0 % 2 ^ 56 + 2 ^ 56 * (c1 % 2 ^ 56) + 2 ^ 112 * (c2 % 2 ^ 56) + 2 ^ 168 * (c3 % 2 ^ 56) +
      2 ^ 224 * (c4 % 2 ^ 40) = (n0 + 2 ^ 56 * n1 + 2 ^ 112 * n2 + 2 ^ 168 * n3 +
        2 ^ 224 * (n4 + 2 ^ 56 * n5 + 2 ^ 112 * n6 + 2 ^ 168 * n7 + 2 ^ 224 * n8)) %
          2 ^ (224 + 40) := by
  rw [pow_add, Nat.mod_mul, carry_div h1 h2 h3]
  have hlow : (n0 + 2 ^ 56 * n1 + 2 ^ 112 * n2 + 2 ^ 168 * n3) % 2 ^ 224 = n0 % 2 ^ 56 +
      2 ^ 56 * (c1 % 2 ^ 56) + 2 ^ 112 * (c2 % 2 ^ 56) + 2 ^ 168 * (c3 % 2 ^ 56) := by omega
  rw [Nat.add_mul_mod_self_left, hlow]
  congr 2
  omega

theorem barrettProduct_spec {q3 : Scalar} {n : ℕ} (hq : q3.Holds 40 n) :
    (barrettProduct q3).Holds 40 (L * n % 2 ^ (224 + 40)) := by
  have hm := modm_canonical.widen (by decide : 32 ≤ 40)
  have h0 := column0_holds hm hq
  have h1 := column1_holds hm hq h0
  have h2 := column2_holds hm hq h1
  have h3 := column3_holds hm hq h2
  have h4 := column4_holds hm hq h3
  refine Scalar.holds_mod (h0.truncate_mask 56 mask56) (h1.truncate_mask 56 mask56)
    (h2.truncate_mask 56 mask56) (h3.truncate_mask 56 mask56) (h4.truncate_mask 40 mask40) ?_
  rw [← hm.value_eq, ← hq.value_eq, value_mul]
  exact carry_mod rfl rfl rfl rfl

example : (barrettProduct ⟨1, 0, 0, 0, 0⟩).value = L := by decide +kernel

theorem column5_holds (hx : x.Holds 40 n) (hy : y.Holds 40 m) (hc : c.Holds k (2 ^ 118)) :
    (carry56 c + mul128 x.l4 y.l1 + mul128 x.l1 y.l4 + mul128 x.l2 y.l3 +
      mul128 x.l3 y.l2).Holds (k / 2 ^ 56 + column x y 5) (2 ^ 118) := by
  have h := ((((carry56_holds hc).add (hx.l4.mul128 hy.l1)).add (hx.l1.mul128 hy.l4)).add
    (hx.l2.mul128 hy.l3)).add (hx.l3.mul128 hy.l2)
  exact (h.mono (by decide)).congr (by simp only [column]; ring)

theorem column6_holds (hx : x.Holds 40 n) (hy : y.Holds 40 m) (hc : c.Holds k (2 ^ 118)) :
    (carry56 c + mul128 x.l4 y.l2 + mul128 x.l2 y.l4 + mul128 x.l3 y.l3).Holds
      (k / 2 ^ 56 + column x y 6) (2 ^ 118) := by
  have h := (((carry56_holds hc).add (hx.l4.mul128 hy.l2)).add (hx.l2.mul128 hy.l4)).add
    (hx.l3.mul128 hy.l3)
  exact (h.mono (by decide)).congr (by simp only [column]; ring)

theorem column7_holds (hx : x.Holds 40 n) (hy : y.Holds 40 m) (hc : c.Holds k (2 ^ 118)) :
    (carry56 c + mul128 x.l4 y.l3 + mul128 x.l3 y.l4).Holds
      (k / 2 ^ 56 + column x y 7) (2 ^ 118) := by
  have h := ((carry56_holds hc).add (hx.l4.mul128 hy.l3)).add (hx.l3.mul128 hy.l4)
  exact (h.mono (by decide)).congr (by simp only [column]; ring)

theorem column8_holds (hx : x.Holds 40 n) (hy : y.Holds 40 m) (hc : c.Holds k (2 ^ 118)) :
    (carry56 c + mul128 x.l4 y.l4).Holds (k / 2 ^ 56 + column x y 8) (2 ^ 86) :=
  ((carry56_holds hc).add (hx.l4.mul128 hy.l4)).mono (by decide)

end Columns

/-! ## Barrett reduction -/

/-- The quotient is that of the product with `mu` without its three lowest columns. -/
theorem barrettQuotient_spec {q1 : Scalar} {n : ℕ} (hq : q1.Holds 40 n) :
    ∃ t, t ≤ 2 ^ 248 * 2 ^ (224 + 40) / L * n ∧
      2 ^ 248 * 2 ^ (224 + 40) / L * n ≤ t + 2 ^ 226 ∧
      (barrettQuotient q1).Holds 40 (t / 2 ^ (224 + 40)) := by
  have hmu := modmMu_holds
  have hc : (mul128 modmMu.l0 q1.l3 + mul128 modmMu.l3 q1.l0 + mul128 modmMu.l1 q1.l2 +
      mul128 modmMu.l2 q1.l1).Holds (column modmMu q1 3) (2 ^ 118) :=
    ((((hmu.l0.mul128 hq.l3).add (hmu.l3.mul128 hq.l0)).add (hmu.l1.mul128 hq.l2)).add
      (hmu.l2.mul128 hq.l1)).mono (by decide)
  have h0 := column4_holds hmu hq hc
  have h1 := column5_holds hmu hq h0
  have h2 := column6_holds hmu hq h1
  have h3 := column7_holds hmu hq h2
  have h4 := column8_holds hmu hq h3
  have hdropped : column modmMu q1 0 + 2 ^ 56 * column modmMu q1 1 +
      2 ^ 112 * column modmMu q1 2 ≤ 2 ^ 226 := by
    have h00 := (hmu.l0.mul128 hq.l0).le
    have h01 := (hmu.l0.mul128 hq.l1).le
    have h10 := (hmu.l1.mul128 hq.l0).le
    have h02 := (hmu.l0.mul128 hq.l2).le
    have h11 := (hmu.l1.mul128 hq.l1).le
    have h20 := (hmu.l2.mul128 hq.l0).le
    simp only [column]
    omega
  have hvalue : 2 ^ 248 * 2 ^ (224 + 40) / L * n = modmMu.value * q1.value := by
    rw [hmu.value_eq, hq.value_eq]
  have hlt : 2 ^ 248 * 2 ^ (224 + 40) / L * n < 2 ^ (224 + 40) * 2 ^ (224 + 40) :=
    Nat.mul_lt_mul'' hmu.value_lt hq.value_lt
  have hquot := joinColumns_spec 40 40 (.inr rfl) (Word.Holds.ofNat 0xffff |>.mono (by decide))
    h0 h1 h2 h3 h4
  rw [carry_value rfl rfl rfl rfl] at hquot
  rw [hvalue, value_mul] at hlt ⊢
  generalize column modmMu q1 0 = n0, column modmMu q1 1 = n1, column modmMu q1 2 = n2,
    column modmMu q1 3 = n3, column modmMu q1 4 = n4, column modmMu q1 5 = n5,
    column modmMu q1 6 = n6, column modmMu q1 7 = n7, column modmMu q1 8 = n8 at *
  refine ⟨2 ^ 168 * n3 + 2 ^ 224 * (n4 + 2 ^ 56 * n5 + 2 ^ 112 * n6 + 2 ^ 168 * n7 + 2 ^ 224 * n8),
    by omega, by omega, ?_⟩
  have hdiv : (2 ^ 168 * n3 + 2 ^ 224 * (n4 + 2 ^ 56 * n5 + 2 ^ 112 * n6 + 2 ^ 168 * n7 +
      2 ^ 224 * n8)) / 2 ^ (224 + 40) = (n3 / 2 ^ 56 + n4 + 2 ^ 56 * n5 + 2 ^ 112 * n6 +
        2 ^ 168 * n7 + 2 ^ 224 * n8) / 2 ^ 40 := by
    rw [pow_add, ← Nat.div_div_eq_div_mul]
    congr 1
    omega
  rw [hdiv]
  apply hquot
  rw [← hdiv]
  exact Nat.div_lt_of_lt_mul (lt_of_le_of_lt (by omega) hlt)

/-- The high five columns of a product. -/
theorem carry_high {n0 n1 n2 n3 n4 n5 n6 n7 n8 c1 c2 c3 c4 c5 c6 c7 c8 : ℕ}
    (h1 : c1 = n0 / 2 ^ 56 + n1) (h2 : c2 = c1 / 2 ^ 56 + n2) (h3 : c3 = c2 / 2 ^ 56 + n3)
    (h4 : c4 = c3 / 2 ^ 56 + n4) (h5 : c5 = c4 / 2 ^ 56 + n5) (h6 : c6 = c5 / 2 ^ 56 + n6)
    (h7 : c7 = c6 / 2 ^ 56 + n7) (h8 : c8 = c7 / 2 ^ 56 + n8) :
    c4 % 2 ^ 56 + 2 ^ 56 * (c5 % 2 ^ 56) + 2 ^ 112 * (c6 % 2 ^ 56) + 2 ^ 168 * (c7 % 2 ^ 56) +
      2 ^ 224 * c8 = (n0 + 2 ^ 56 * n1 + 2 ^ 112 * n2 + 2 ^ 168 * n3 +
        2 ^ 224 * (n4 + 2 ^ 56 * n5 + 2 ^ 112 * n6 + 2 ^ 168 * n7 + 2 ^ 224 * n8)) / 2 ^ 224 := by
  rw [carry_div h1 h2 h3, carry_value h5 h6 h7 h8, h4]
  ring

/-- `ed25519_modm_barrettReduce` from the high and the low part of a number. -/
theorem barrettReduce_spec {q1 r1 : Scalar} {x : ℕ} (hx : x < 2 ^ 248 * 2 ^ (224 + 40))
    (hq : q1.Holds 40 (x / 2 ^ 248)) (hr : r1.Holds 40 (x % 2 ^ (224 + 40))) :
    (barrettReduce q1 r1).Canonical (x % L) := by
  obtain ⟨t, hle, hge, hquot⟩ := barrettQuotient_spec hq
  have hlow : L * (t / 2 ^ (224 + 40)) ≤ x :=
    barrett_quotient_le (2 ^ 248) (2 ^ (224 + 40)) (pow_pos two_pos _) (Nat.mul_div_le _ _) hle
  obtain ⟨hcanonical, hwide, herror⟩ := L_bounds
  have hmu : 2 ^ 248 * 2 ^ (224 + 40) ≤ L * (2 ^ 248 * 2 ^ (224 + 40) / L + 1) :=
    (Nat.lt_mul_div_succ _ (by decide)).le
  have hhigh : x < L * (t / 2 ^ (224 + 40)) + 3 * L :=
    lt_barrett_quotient (2 ^ 248) (2 ^ (224 + 40)) (pow_pos two_pos _)
      (pow_pos two_pos _) hx hmu hge
      herror
  obtain ⟨diff, borrow, hdiff, -, heq⟩ := subLimbs_spec 40 hr (barrettProduct_spec hquot)
    (by decide)
  have hvalue : diff = x - L * (t / 2 ^ (224 + 40)) :=
    residue_sub_eq hlow ((Nat.sub_lt_left_of_lt_add hlow hhigh).trans hwide) hdiff.value_lt heq
  have hsmall : diff < 3 * L := by omega
  have hmod : diff % L = x % L := by
    rw [hvalue, Nat.sub_mul_mod hlow]
  have hr : (subLimbs 40 r1 (barrettProduct (barrettQuotient q1))).1.Canonical diff :=
    hdiff.narrow (lt_trans hsmall hcanonical)
  have h := modmReduce_spec (modmReduce_spec hr)
  rwa [sub_sub_eq_mod hsmall, hmod] at h

/-- `ed25519_modm_mul`. -/
theorem modmMul_spec {x y : Scalar} {n m : ℕ} (hx : x.Canonical n) (hy : y.Canonical m) :
    (modmMul x y).Canonical (n * m % L) := by
  have hx' := hx.widen (by decide : 32 ≤ 40)
  have hy' := hy.widen (by decide : 32 ≤ 40)
  have h0 := column0_holds hx' hy'
  have h1 := column1_holds hx' hy' h0
  have h2 := column2_holds hx' hy' h1
  have h3 := column3_holds hx' hy' h2
  have h4 := column4_holds hx' hy' h3
  have h5 := column5_holds hx' hy' h4
  have h6 := column6_holds hx' hy' h5
  have h7 := column7_holds hx' hy' h6
  have h8 := column8_holds hx' hy' h7
  have hlt : n * m < 2 ^ 248 * 2 ^ (224 + 40) :=
    (Nat.mul_lt_mul'' hx.value_lt hy.value_lt).trans_eq (by rw [← pow_add, ← pow_add])
  have hvalue : n * m = x.value * y.value := by rw [hx.value_eq, hy.value_eq]
  refine barrettReduce_spec hlt ?_ ?_
  · have hquot := joinColumns_spec 24 40 (.inl rfl)
      (Word.Holds.ofNat 0xffffffff |>.mono (by decide)) h4 h5 h6 h7 h8
    rw [carry_high rfl rfl rfl rfl rfl rfl rfl rfl, ← value_mul, ← hvalue,
      Nat.div_div_eq_div_mul, show 2 ^ 224 * 2 ^ 24 = 2 ^ 248 from (pow_add 2 224 24).symm] at hquot
    exact hquot (Nat.div_lt_of_lt_mul hlt)
  · refine Scalar.holds_mod (h0.truncate_mask 56 mask56) (h1.truncate_mask 56 mask56)
      (h2.truncate_mask 56 mask56) (h3.truncate_mask 56 mask56) (h4.truncate_mask 40 mask40) ?_
    rw [hvalue, value_mul]
    exact carry_mod rfl rfl rfl rfl

example : (modmMul ⟨3, 0, 0, 0, 0⟩ ⟨5, 0, 0, 0, 0⟩).value = 15 := by decide +kernel

/-- `ed25519_modm_add` of reduced scalars. -/
theorem modmAdd_spec {x y : Scalar} {n m : ℕ} (hx : x.Canonical n) (hy : y.Canonical m)
    (hn : n < L) (hm : m < L) : (modmAdd x y).Canonical ((n + m) % L) := by
  have h0 := hx.l0.add hy.l0
  have h1 := ((h0.shiftRight 56).add hx.l1).add hy.l1
  have h2 := ((h1.shiftRight 56).add hx.l2).add hy.l2
  have h3 := ((h2.shiftRight 56).add hx.l3).add hy.l3
  have h4 := ((h3.shiftRight 56).add hx.l4).add hy.l4
  have hlt : n + m < 2 ^ (224 + 32) := lt_trans (by omega) L_bounds.1
  have hxvalue := hx.value_eq
  have hyvalue := hy.value_eq
  unfold Scalar.value at hxvalue hyvalue
  have hvalue : (n + m) % L = if n + m < L then n + m else n + m - L := by
    split
    next hlt => rw [Nat.mod_eq_of_lt hlt]
    next hge => rw [Nat.mod_eq_sub_mod (by omega), Nat.mod_eq_of_lt (by omega)]
  rw [hvalue]
  refine modmReduce_spec (Scalar.holds_of_lt (h0.mask 56 mask56) (h1.mask 56 mask56)
    (h2.mask 56 mask56) (h3.mask 56 mask56) h4 ?_ hlt)
  omega

/-! ## Loads and stores -/

theorem limbs_of_nat (n width : ℕ) : n % 2 ^ 56 + 2 ^ 56 * (n / 2 ^ 56 % 2 ^ 56) +
    2 ^ 112 * (n / 2 ^ 112 % 2 ^ 56) + 2 ^ 168 * (n / 2 ^ 168 % 2 ^ 56) +
    2 ^ 224 * (n / 2 ^ 224 % 2 ^ width) = n % 2 ^ (224 + width) := by
  rw [pow_add, Nat.mod_mul]
  congr 1
  omega

/-- Bits of a number that lie in two of its 64-bit words. -/
theorem funnel_holds (bytes : List UInt8) (i k : ℕ) (hk : k ≤ 64 := by decide) :
    (((loadU64 bytes (8 * i) >>> k) ||| (loadU64 bytes (8 * (i + 1)) <<< (64 - k))) &&&
      0xffffffffffffff).Holds (leNat bytes / 2 ^ (64 * i + k) % 2 ^ 56) (2 ^ 56 - 1) := by
  have h0 := loadU64_holds bytes (8 * i)
  have h1 := loadU64_holds bytes (8 * (i + 1))
  rw [show 8 * (8 * (i + 1)) = 8 * (8 * i) + 64 by ring, pow_add, ← Nat.div_div_eq_div_mul] at h1
  have h := (h0.funnel h1 k hk).mask 56 mask56
  rw [Nat.mod_mod_of_dvd _ (pow_dvd_pow 2 (by decide : 56 ≤ 64)), Nat.div_div_eq_div_mul,
    ← pow_add] at h
  exact h.congr (by rw [show 8 * (8 * i) + k = 64 * i + k by ring])

/-- The bits of a word from a place on. -/
theorem wordTop_holds (bytes : List UInt8) (i k : ℕ) (hk : k ≤ 64 := by decide) :
    (loadU64 bytes i >>> k).Holds (leNat bytes / 2 ^ (8 * i + k) % 2 ^ (64 - k))
      (2 ^ (64 - k) - 1) := by
  have hword : 2 ^ 64 = 2 ^ k * 2 ^ (64 - k) := by rw [← pow_add, Nat.add_sub_cancel' hk]
  have hvalue : leNat bytes / 2 ^ (8 * i) % 2 ^ 64 / 2 ^ k =
      leNat bytes / 2 ^ (8 * i + k) % 2 ^ (64 - k) := by
    rw [hword, Nat.mod_mul_right_div_self, Nat.div_div_eq_div_mul, ← pow_add]
  have h := ((loadU64_holds bytes i).shiftRight k).congr hvalue
  exact h.tighten (Nat.le_sub_one_of_lt (Nat.mod_lt _ (Nat.two_pow_pos _)))

theorem lowLimb_holds (bytes : List UInt8) : (loadU64 bytes 0 &&& 0xffffffffffffff).Holds
    (leNat bytes % 2 ^ 56) (2 ^ 56 - 1) := by
  have h := (loadU64_holds bytes 0).mask 56 mask56
  rwa [Nat.mul_zero, pow_zero, Nat.div_one,
    Nat.mod_mod_of_dvd _ (pow_dvd_pow 2 (by decide : 56 ≤ 64))] at h

/-- The load of 32 bytes keeps all their bits. -/
theorem modmLoad32_spec (bytes : List UInt8) :
    (modmLoad32 bytes).Canonical (leNat bytes % 2 ^ (224 + 32)) := by
  refine Scalar.holds_mod (lowLimb_holds bytes) (funnel_holds bytes 0 56) (funnel_holds bytes 1 48)
    (funnel_holds bytes 2 40) (wordTop_holds bytes 24 32) ?_
  exact limbs_of_nat (leNat bytes) 32

/-- The top limb of `r1`: 32 bits of one word and eight of the next. -/
theorem loadTop_holds (bytes : List UInt8) :
    ((loadU64 bytes 24 >>> 32) ||| ((loadU64 bytes 32 <<< 32) &&& 0x0000ffffffffff)).Holds
      (leNat bytes / 2 ^ 224 % 2 ^ 40) (2 ^ 40 - 1) := by
  have hlow := wordTop_holds bytes 24 32
  have hhigh := ((loadU64_holds bytes 32).shiftLeft 32).mask 40 mask40
  have hfield : leNat bytes / 2 ^ (8 * 32) % 2 ^ 64 * 2 ^ 32 % 2 ^ 64 % 2 ^ 40 =
      2 ^ 32 * (leNat bytes / 2 ^ 256 % 2 ^ 8) := by omega
  have hlt : leNat bytes / 2 ^ (8 * 24 + 32) % 2 ^ (64 - 32) < 2 ^ 32 :=
    Nat.mod_lt _ (by decide)
  have hvalue : leNat bytes / 2 ^ (8 * 24 + 32) % 2 ^ (64 - 32) |||
      leNat bytes / 2 ^ (8 * 32) % 2 ^ 64 * 2 ^ 32 % 2 ^ 64 % 2 ^ 40 =
        leNat bytes / 2 ^ 224 % 2 ^ 40 := by
    rw [hfield, Nat.or_comm, ← Nat.two_pow_add_eq_or_of_lt hlt]
    omega
  exact (hlow.or hhigh (by rw [hvalue]; omega)).congr hvalue

/-- The load of 64 bytes reduces their number. -/
theorem modmLoad_true_spec (bytes : List UInt8) (hlength : bytes.length = 64) :
    (modmLoad bytes true).Canonical (leNat bytes % L) := by
  have hlt : leNat bytes < 2 ^ 248 * 2 ^ (224 + 40) := by
    have h := leNat_lt bytes
    rw [hlength] at h
    exact h.trans_eq (by rw [← pow_add, show 256 = 2 ^ 8 from rfl, ← pow_mul])
  have hhigh : leNat bytes / 2 ^ 248 < 2 ^ (224 + 40) := Nat.div_lt_of_lt_mul hlt
  have hdiv (k : ℕ) : leNat bytes / 2 ^ (248 + k) = leNat bytes / 2 ^ 248 / 2 ^ k := by
    rw [pow_add, Nat.div_div_eq_div_mul]
  refine barrettReduce_spec hlt ?_ ?_
  · have hmod := limbs_of_nat (leNat bytes / 2 ^ 248) 40
    rw [Nat.mod_eq_of_lt hhigh] at hmod
    refine Scalar.holds_of_lt (funnel_holds bytes 3 56) (funnel_holds bytes 4 48)
      (funnel_holds bytes 5 40) (funnel_holds bytes 6 32) (wordTop_holds bytes 56 24) ?_ hhigh
    rw [show 64 * 4 + 48 = 248 + 56 from rfl, hdiv, show 64 * 5 + 40 = 248 + 112 from rfl, hdiv,
      show 64 * 6 + 32 = 248 + 168 from rfl, hdiv, show 8 * 56 + 24 = 248 + 224 from rfl, hdiv]
    exact hmod
  · refine Scalar.holds_mod (lowLimb_holds bytes) (funnel_holds bytes 0 56)
      (funnel_holds bytes 1 48) (funnel_holds bytes 2 40) (loadTop_holds bytes) ?_
    exact limbs_of_nat (leNat bytes) 40

/-- `ed25519_modm_store`. -/
theorem modmStore_eq {s : Scalar} {n : ℕ} (hs : s.Canonical n) : modmStore s = leBytes 32 n := by
  have hvalue := hs.value_eq
  obtain ⟨h0, h1, h2, h3, h4⟩ := hs.limbs_le
  have h01 := (hs.l0.pack hs.l1 56 (by omega) (by decide)).toNat_eq
  have h12 := ((hs.l1.shiftRight 8).pack hs.l2 48 (by omega) (by decide)).toNat_eq
  have h23 := ((hs.l2.shiftRight 16).pack hs.l3 40 (by omega) (by decide)).toNat_eq
  have h34 := ((hs.l3.shiftRight 24).pack hs.l4 32 (by omega) (by decide)).toNat_eq
  unfold Scalar.value at hvalue
  apply storeU64_four
  · rw [h01]
    omega
  · rw [h12]
    omega
  · rw [h23]
    omega
  · rw [h34]
    omega

/-- The limbs of the remainder of `n` modulo the order, which are stored as its 32 bytes. -/
structure Scalar.Residue (s : Scalar) (n : ℕ) : Prop where
  canonical : s.Canonical (n % L)
  lt : s.value < L
  store_eq : modmStore s = leBytes 32 (n % L)

theorem Scalar.Residue.of_canonical {s : Scalar} {n : ℕ} (hs : s.Canonical (n % L)) :
    s.Residue n := by
  have hpos : 0 < L := by decide
  exact ⟨hs, hs.value_eq ▸ Nat.mod_lt n hpos, modmStore_eq hs⟩

/-- Loads, products and sums are exact modulo the order. -/
theorem modm_residue (bytes : Bytes 64) {x y z : Scalar} {n m k : ℕ} (hx : x.Canonical n)
    (hn : n < L) (hy : y.Canonical m) (hz : z.Canonical k) (hk : k < L) :
    (modmLoad bytes.toList true).Residue (leNat bytes.toList) ∧
      (modmMul x y).Residue (n * m) ∧ (modmAdd x z).Residue (n + k) :=
  ⟨.of_canonical (modmLoad_true_spec bytes.toList bytes.toList_length),
    .of_canonical (modmMul_spec hx hy),
    .of_canonical (modmAdd_spec hx hz hn hk)⟩

theorem modm_residue_five_seven :
    (modmLoad (List.replicate 64 255) true).Residue (leNat (List.replicate 64 255)) ∧
      (modmMul (modmLoad32 [5]) (modmLoad32 [7])).Residue (5 * 7) ∧
      (modmAdd (modmLoad32 [5]) (modmLoad32 [3])).Residue (5 + 3) :=
  modm_residue ⟨List.replicate 64 255, rfl⟩ (modmLoad32_spec [5]) (by decide)
    (modmLoad32_spec [7]) (modmLoad32_spec [3]) (by decide)

end Hc.Ed25519
