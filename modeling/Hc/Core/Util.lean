import Mathlib.Data.Nat.Bitwise

/-!
# Numbers and texts

The macros of `hc/core/hc/math.c` and the conversions of `hc/core/hc/util.c`.
-/

namespace Hc

/-- `math_ALIGN_FORWARD`, where the low bits of a power of two are cleared. -/
def alignForward (x align : ℕ) : ℕ := (x + (align - 1)) / align * align

theorem le_alignForward {x align : ℕ} (hpos : 0 < align) : x ≤ alignForward x align := by
  have hdiv := Nat.div_add_mod (x + (align - 1)) align
  have hmod := Nat.mod_lt (x + (align - 1)) hpos
  rw [alignForward, Nat.mul_comm]
  omega

theorem alignForward_mono {x y align : ℕ} (h : x ≤ y) :
    alignForward x align ≤ alignForward y align :=
  Nat.mul_le_mul_right _ (Nat.div_le_div_right (Nat.add_le_add_right h _))

theorem dvd_alignForward (x align : ℕ) : align ∣ alignForward x align := ⟨_, Nat.mul_comm _ _⟩

/-- Among the multiples that are not below the number it is the least. -/
theorem alignForward_le {x align k : ℕ} (hpos : 0 < align) (hdvd : align ∣ k) (hle : x ≤ k) :
    alignForward x align ≤ k := by
  obtain ⟨n, rfl⟩ := hdvd
  have hlt : x + (align - 1) < (n + 1) * align := by
    rw [Nat.succ_mul, Nat.mul_comm]
    omega
  have hdiv : (x + (align - 1)) / align ≤ n := Nat.le_of_lt_succ (Nat.div_lt_of_lt_mul (by
    rwa [Nat.mul_comm]))
  rw [alignForward, Nat.mul_comm align]
  exact Nat.mul_le_mul_right align hdiv

/-- Clearing the low bits of a number rounds it down. -/
theorem and_two_pow_sub_two_pow {x j w : ℕ} (hj : j < w) (hx : x < 2 ^ w) :
    x &&& (2 ^ w - 2 ^ j) = x / 2 ^ j * 2 ^ j := by
  have hones : 2 ^ j = 2 ^ j - 1 + 1 := (Nat.sub_add_cancel Nat.one_le_two_pow).symm
  have hlt : 2 ^ j - 1 < 2 ^ w := (Nat.sub_le _ _).trans_lt (Nat.pow_lt_pow_right (by decide) hj)
  rw [← Nat.shiftRight_eq_div_pow, ← Nat.shiftLeft_eq]
  apply Nat.eq_of_testBit_eq
  intro i
  rw [Nat.testBit_and, Nat.testBit_shiftLeft, Nat.testBit_shiftRight, hones,
    Nat.testBit_two_pow_sub_succ hlt, Nat.testBit_two_pow_sub_one]
  by_cases hij : i < j
  · simp [hij, Nat.not_le.mpr hij]
  · by_cases hi : i < w
    · simp [hi, hij, Nat.not_lt.mp hij]
    · have hbit : x.testBit i = false := Nat.testBit_lt_two_pow
        (hx.trans_le (Nat.pow_le_pow_right (by decide) (Nat.not_lt.mp hi)))
      simp [hbit, Nat.not_lt.mp hij]

/-- `math_ALIGN_FORWARD` of a `uint64_t`. -/
def alignForward64 (x align : UInt64) : UInt64 := (x + (align - 1)) &&& ~~~(align - 1)

/-- The words round up as the numbers do, if the result fits. -/
theorem toNat_alignForward64 {x align : UInt64} {j : ℕ} (halign : align.toNat = 2 ^ j)
    (hlt : alignForward x.toNat align.toNat < 2 ^ 64) :
    (alignForward64 x align).toNat = alignForward x.toNat align.toNat := by
  have hone : (1 : UInt64).toNat = 1 := rfl
  have hpos : 1 ≤ 2 ^ j := Nat.one_le_two_pow
  have hsub : (align - 1).toNat = 2 ^ j - 1 := by
    rw [UInt64.toNat_sub_of_le _ _ (by rw [UInt64.le_iff_toNat_le, hone]; omega), halign, hone]
  have hj : j < 64 := (Nat.pow_lt_pow_iff_right (by decide)).mp (halign ▸ align.toNat_lt)
  have hdvd : 2 ^ j ∣ 2 ^ 64 := Nat.pow_dvd_pow 2 hj.le
  -- The sum fits: otherwise the multiple would be at least the one at the end of the range.
  have hsum : x.toNat + (2 ^ j - 1) < 2 ^ 64 := by
    by_contra hge
    have hle : 2 ^ 64 / 2 ^ j * 2 ^ j ≤ (x.toNat + (2 ^ j - 1)) / 2 ^ j * 2 ^ j :=
      Nat.mul_le_mul_right _ (Nat.div_le_div_right (Nat.not_lt.mp hge))
    rw [Nat.div_mul_cancel hdvd] at hle
    rw [alignForward, halign] at hlt
    exact absurd hlt (Nat.not_lt.mpr hle)
  have hmask : (~~~(align - 1)).toNat = 2 ^ 64 - 2 ^ j := by
    have hnot : (~~~(align - 1)).toNat = 2 ^ 64 - 1 - (align - 1).toNat :=
      BitVec.toNat_not
    rw [hnot, hsub]
    omega
  have hadd : (x + (align - 1)).toNat = x.toNat + (2 ^ j - 1) := by
    rw [UInt64.toNat_add, hsub, Nat.mod_eq_of_lt hsum]
  rw [alignForward64, UInt64.toNat_and, hadd, hmask, and_two_pow_sub_two_pow hj hsum, alignForward,
    halign]

/-- The bytes of a text. -/
def ascii (text : String) : List UInt8 := text.toList.map fun c => UInt8.ofNat c.toNat

/-- `util_uintToStr`. -/
def uintToStr (number : ℕ) : List UInt8 :=
  (Nat.toDigits 10 number).map fun c => UInt8.ofNat c.toNat

/-- `util_hexTable`. -/
def hexTable : List UInt8 := ascii "0123456789ABCDEF"

/-- The loop of `util_strToUint`: the number of characters parsed and the number, or
`none` when it does not fit in 64 bits. -/
def strToUintLoop : List UInt8 → ℕ → ℕ → Option (ℕ × ℕ)
  | [], result, i => some (i, result)
  | c :: rest, result, i =>
    if 48 ≤ c.toNat ∧ c.toNat ≤ 57 then
      let digitValue := c.toNat - 48
      if result > (2 ^ 64 - 1 - digitValue) / 10 then
        none
      else
        strToUintLoop rest (result * 10 + digitValue) (i + 1)
    else
      some (i, result)

/-- `util_strToUint`. -/
def strToUint (buffer : List UInt8) : Option (ℕ × ℕ) := strToUintLoop buffer 0 0

end Hc
