import Mathlib.Tactic.Linarith
import Mathlib.Tactic.Zify
import Hc.Crypto.Poly1305

/-!
# Limb arithmetic of the Poly1305 block loop

One iteration keeps the limbs bounded (`Reduced`), loses no bits, and computes
`foldTop (limbProduct …)`: the product with every weight `2 ^ 132` replaced by
`20`, whose part above bit 130 is folded back once with weight `5`. Knowing the
exact value, not only its residue, is what later decides which representative
of a residue the code ends up with.
-/

namespace Hc.Poly1305

/-- The modulus `2 ^ 130 - 5`. -/
def p : ℕ := 2 ^ 130 - 5

/-- The number in the limbs `h`. -/
def State.hValue (s : State) : ℕ := s.h0.toNat + 2 ^ 44 * s.h1.toNat + 2 ^ 88 * s.h2.toNat

/-- The number in the limbs `r`. -/
def State.rValue (s : State) : ℕ := s.r0.toNat + 2 ^ 44 * s.r1.toNat + 2 ^ 88 * s.r2.toNat

/-- Bounds on the limbs that hold between blocks, and no bits lost so far. -/
structure Reduced (s : State) : Prop where
  r0 : s.r0.Holds s.r0.toNat 0xFFC0FFFFFFF
  r1 : s.r1.Holds s.r1.toNat 0xFFFFFC0FFFF
  r2 : s.r2.Holds s.r2.toNat 0x00FFFFFFC0F
  h0 : s.h0.Holds s.h0.toNat (2 ^ 44 - 1)
  h1 : s.h1.Holds s.h1.toNat (2 ^ 44 + 2 ^ 20 - 1)
  h2 : s.h2.Holds s.h2.toNat (2 ^ 42 - 1)

/-- Fold what exceeds 130 bits back to the bottom, using `2 ^ 130 ≡ 5`. -/
def foldTop (n : ℕ) : ℕ := n % 2 ^ 130 + 5 * (n / 2 ^ 130)

/-- The product of two numbers in limbs, as `d0`, `d1` and `d2` have it. -/
def limbProduct (x0 x1 x2 r0 r1 r2 : ℕ) : ℕ :=
  (x0 * r0 + x1 * (r2 * 20) + x2 * (r1 * 20)) +
    2 ^ 44 * (x0 * r1 + x1 * r0 + x2 * (r2 * 20)) +
    2 ^ 88 * (x0 * r2 + x1 * r1 + x2 * r0)

theorem foldTop_mod (n : ℕ) : foldTop n % p = n % p := by
  unfold foldTop p
  omega

theorem limbProduct_mod (x0 x1 x2 r0 r1 r2 : ℕ) :
    limbProduct x0 x1 x2 r0 r1 r2 % p =
      (x0 + 2 ^ 44 * x1 + 2 ^ 88 * x2) * (r0 + 2 ^ 44 * r1 + 2 ^ 88 * r2) % p := by
  have hp : p + 5 = 2 ^ 130 := rfl
  have hexpand : (x0 + 2 ^ 44 * x1 + 2 ^ 88 * x2) * (r0 + 2 ^ 44 * r1 + 2 ^ 88 * r2) =
      limbProduct x0 x1 x2 r0 r1 r2 +
        p * (4 * (x1 * r2 + x2 * r1) + 2 ^ 46 * (x2 * r2)) := by
    have hcast : (p : ℤ) = 2 ^ 130 - 5 := by
      have hcast := congrArg (Nat.cast : ℕ → ℤ) hp
      push_cast at hcast
      linarith
    zify
    rw [hcast]
    unfold limbProduct
    push_cast
    ring
  rw [hexpand, Nat.add_mul_mod_self_left]

/-! ## The three limbs of a 128-bit number -/

theorem mask44 : (0xFFFFFFFFFFF : Word 64).Holds (2 ^ 44 - 1) (2 ^ 44 - 1) := Word.Holds.ofNat _

theorem mask42 : (0x3FFFFFFFFFF : Word 64).Holds (2 ^ 42 - 1) (2 ^ 42 - 1) := Word.Holds.ofNat _

section Split

variable {t0 t1 : Word 64} {n : ℕ}

theorem split0 (ht0 : t0.Holds (n % 2 ^ 64) (2 ^ 64 - 1)) :
    (t0 &&& 0xFFFFFFFFFFF).Holds (n % 2 ^ 44) (2 ^ 44 - 1) := by
  have hmask := ht0.mask 44 mask44
  rwa [Nat.mod_mod_of_dvd _ (pow_dvd_pow 2 (by decide))] at hmask

theorem split1 (ht0 : t0.Holds (n % 2 ^ 64) (2 ^ 64 - 1))
    (ht1 : t1.Holds (n / 2 ^ 64 % 2 ^ 64) (2 ^ 64 - 1)) :
    (((t0 >>> 44) ||| (t1 <<< 20)) &&& 0xFFFFFFFFFFF).Holds (n / 2 ^ 44 % 2 ^ 44)
      (2 ^ 44 - 1) := by
  have hmask := (ht0.funnel ht1 44).mask 44 mask44
  rwa [Nat.mod_mod_of_dvd _ (pow_dvd_pow 2 (by decide))] at hmask

theorem split2 (hn : n < 2 ^ 128) (ht1 : t1.Holds (n / 2 ^ 64 % 2 ^ 64) (2 ^ 64 - 1)) :
    ((t1 >>> 24) &&& 0x3FFFFFFFFFF).Holds (n / 2 ^ 88) (2 ^ 40 - 1) := by
  have hmask := (ht1.shiftRight 24).mask 42 mask42
  have hvalue : n / 2 ^ 64 % 2 ^ 64 / 2 ^ 24 % 2 ^ 42 = n / 2 ^ 88 := by omega
  rw [hvalue] at hmask
  exact hmask.tighten (by omega)

end Split

theorem loadU64_zero_holds (bytes : List UInt8) :
    (loadU64 bytes 0).Holds (leNat bytes % 2 ^ 64) (2 ^ 64 - 1) := by
  simpa using loadU64_holds bytes 0

/-! ## One block -/

/-- The two values of `hibit`: bit 128 of a full block, or nothing for the padded last one. -/
theorem or_hibit_holds {t hibit : Word 64} {n b : ℕ} (ht : t.Holds n (2 ^ 40 - 1))
    (hhibit : hibit.Holds b (2 ^ 40)) (hb : b = 0 ∨ b = 2 ^ 40) :
    (t ||| hibit).Holds (n + b) (2 ^ 41 - 1) := by
  have hn := ht.le
  have hor : n ||| b = n + b := by
    rcases hb with rfl | rfl
    · rw [Nat.or_zero, Nat.add_zero]
    · have hadd := Nat.two_pow_add_eq_or_of_lt (i := 40) (b := n) (by omega) 1
      rw [Nat.mul_one] at hadd
      rw [Nat.or_comm, ← hadd, Nat.add_comm]
  have hle : n + b ≤ 2 ^ 41 - 1 := by
    rcases hb with rfl | rfl <;> omega
  have hholds := ht.or hhibit (k := 2 ^ 41 - 1) (by rw [hor]; exact hle)
  rwa [hor] at hholds

/-- The partial reduction of `d0 + 2 ^ 44 * d1 + 2 ^ 88 * d2`, carry by carry. -/
theorem carries_eq_foldTop (d0 d1 d2 : ℕ) :
    (d0 % 2 ^ 44 + (d2 + (d1 + d0 / 2 ^ 44) / 2 ^ 44) / 2 ^ 42 * 5) % 2 ^ 44 +
        2 ^ 44 * ((d1 + d0 / 2 ^ 44) % 2 ^ 44 +
          (d0 % 2 ^ 44 + (d2 + (d1 + d0 / 2 ^ 44) / 2 ^ 44) / 2 ^ 42 * 5) / 2 ^ 44) +
        2 ^ 88 * ((d2 + (d1 + d0 / 2 ^ 44) / 2 ^ 44) % 2 ^ 42) =
      foldTop (d0 + 2 ^ 44 * d1 + 2 ^ 88 * d2) := by
  unfold foldTop
  omega

/-- What one iteration computes, for every reduced state and every 16-byte block. -/
theorem blockStep_spec {s : State} (hs : Reduced s) {hibit : Word 64} {b : ℕ}
    (hhibit : hibit.Holds b (2 ^ 40)) (hb : b = 0 ∨ b = 2 ^ 40) (block : List UInt8)
    (hlength : block.length = 16) :
    Reduced (blockStep hibit s block) ∧
      (blockStep hibit s block).rValue = s.rValue ∧
      (blockStep hibit s block).hValue =
        foldTop (limbProduct (s.h0.toNat + leNat block % 2 ^ 44)
          (s.h1.toNat + leNat block / 2 ^ 44 % 2 ^ 44)
          (s.h2.toNat + (leNat block / 2 ^ 88 + b)) s.r0.toNat s.r1.toNat s.r2.toNat) := by
  have hlt : leNat block < 2 ^ 128 := by
    have hlt := leNat_lt block
    rw [hlength] at hlt
    exact hlt
  have ht0 := loadU64_zero_holds block
  have ht1 := loadU64_holds block 8
  have hs1 := hs.r1.mul (Word.Holds.ofNat 20)
  have hs2 := hs.r2.mul (Word.Holds.ofNat 20)
  have hx0 := hs.h0.add (split0 ht0)
  have hx1 := hs.h1.add (split1 ht0 ht1)
  have hx2 := hs.h2.add (or_hibit_holds (split2 hlt ht1) hhibit hb)
  have hd0 := ((hx0.mul128 hs.r0).add (hx1.mul128 hs2)).add (hx2.mul128 hs1)
  have hd1 := ((hx0.mul128 hs.r1).add (hx1.mul128 hs.r0)).add (hx2.mul128 hs2)
  have hd2 := ((hx0.mul128 hs.r2).add (hx1.mul128 hs.r1)).add (hx2.mul128 hs.r0)
  have hd1' := hd1.add (((hd0.shiftRight 44).cast (v := 64)).cast (v := 128))
  have hd2' := hd2.add (((hd1'.shiftRight 44).cast (v := 64)).cast (v := 128))
  have hn0 := (hd0.truncate_mask 44 mask44).add
    (((hd2'.shiftRight 42).cast (v := 64)).mul (Word.Holds.ofNat 5))
  have hh0 := hn0.mask 44 mask44
  have hh1 := (hd1'.truncate_mask 44 mask44).add (hn0.shiftRight 44)
  have hh2 := hd2'.truncate_mask 42 mask42
  refine ⟨⟨hs.r0, hs.r1, hs.r2, ?_, ?_, ?_⟩, rfl, ?_⟩
  · exact Word.Holds.self hh0.exact (hh0.toNat_eq.trans_le hh0.le)
  · exact Word.Holds.self hh1.exact (hh1.toNat_eq.trans_le (hh1.le.trans (by decide)))
  · exact Word.Holds.self hh2.exact (hh2.toNat_eq.trans_le hh2.le)
  · have hvalue : (blockStep hibit s block).hValue = _ + 2 ^ 44 * _ + 2 ^ 88 * _ :=
      congrArg₂ (· + ·) (congrArg₂ (· + ·) hh0.toNat_eq (congrArg (2 ^ 44 * ·) hh1.toNat_eq))
        (congrArg (2 ^ 88 * ·) hh2.toNat_eq)
    rw [hvalue]
    exact carries_eq_foldTop _ _ _

end Hc.Poly1305
