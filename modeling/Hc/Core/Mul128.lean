import Hc.Foundation.Word

/-!
# Products of 128 bits

`hc/core/hc/compilerRt/mul128.c`, which takes the place of the native product on wasm32. The four
products of 32-bit halves are added in columns of 32 bits.
-/

namespace Hc.Mul128

open Word

/-- `union mul128_u128`: the second word is the high one. -/
structure U128 where
  u64_0 : Word 64
  u64_1 : Word 64

/-- The two words read as `u128`. -/
def U128.u128 (result : U128) : Word 128 :=
  ⟨result.u64_1.bits ++ result.u64_0.bits, result.u64_0.exact && result.u64_1.exact⟩

/-- `mul128_64x64`. -/
def mul128_64x64 (a b : Word 64) : Word 128 :=
  let u64_0 := (a &&& 0xFFFFFFFF) * (b &&& 0xFFFFFFFF)
  let temp := u64_0 >>> 32
  let u64_0 := u64_0 &&& 0xFFFFFFFF
  let temp := temp + (a >>> 32) * (b &&& 0xFFFFFFFF)
  let u64_0 := u64_0 + ((temp &&& 0xFFFFFFFF) <<< 32)
  let u64_1 := temp >>> 32
  let temp := u64_0 >>> 32
  let u64_0 := u64_0 &&& 0xFFFFFFFF
  let temp := temp + (b >>> 32) * (a &&& 0xFFFFFFFF)
  let u64_0 := u64_0 + ((temp &&& 0xFFFFFFFF) <<< 32)
  let u64_1 := u64_1 + (temp >>> 32)
  let u64_1 := u64_1 + (a >>> 32) * (b >>> 32)
  U128.u128 ⟨u64_0, u64_1⟩

theorem mask32 : (0xFFFFFFFF : Word 64).Holds (2 ^ 32 - 1) (2 ^ 32 - 1) := Word.Holds.ofNat _

theorem U128.holds {u64_0 u64_1 : Word 64} {low high A B : ℕ} (hlow : u64_0.Holds low A)
    (hhigh : u64_1.Holds high B) :
    (U128.u128 ⟨u64_0, u64_1⟩).Holds (low + 2 ^ 64 * high) (2 ^ 128 - 1) := by
  have hlt : u64_0.bits.toNat < 2 ^ 64 := u64_0.toNat_lt
  have hvalue : (U128.u128 ⟨u64_0, u64_1⟩).toNat = low + 2 ^ 64 * high := by
    change (u64_1.bits ++ u64_0.bits).toNat = _
    rw [BitVec.toNat_append, ← Nat.shiftLeft_add_eq_or_of_lt hlt, Nat.shiftLeft_eq, Nat.add_comm,
      Nat.mul_comm]
    exact congrArg₂ (fun low high => low + 2 ^ 64 * high) hlow.toNat_eq hhigh.toNat_eq
  refine ⟨?_, hvalue, ?_⟩
  · change (u64_0.exact && u64_1.exact) = true
    rw [hlow.exact, hhigh.exact]
    rfl
  · rw [← hvalue]
    exact Nat.le_sub_one_of_lt (U128.u128 ⟨u64_0, u64_1⟩).toNat_lt

/-- The low half of a word shifted up to the high one. -/
theorem lowHalf_shiftLeft {t : Word 64} {n B : ℕ} (ht : t.Holds n B) :
    ((t &&& 0xFFFFFFFF) <<< 32).Holds (n % 2 ^ 32 * 2 ^ 32) ((2 ^ 32 - 1) * 2 ^ 32) := by
  have hshift := (ht.mask 32 mask32).shiftLeft 32
  have hvalue : n % 2 ^ 32 * 2 ^ 32 % 2 ^ 64 = n % 2 ^ 32 * 2 ^ 32 := by omega
  exact (hshift.congr hvalue).tighten (by omega)

/-- The three columns have the value of the product. -/
theorem columns_eq {x0 x1 y0 y1 temp1 temp2 : ℕ} (h1 : temp1 = x0 * y0 / 2 ^ 32 + x1 * y0)
    (h2 : temp2 = temp1 % 2 ^ 32 + y1 * x0) :
    x0 * y0 % 2 ^ 32 + temp2 % 2 ^ 32 * 2 ^ 32 +
        2 ^ 64 * (temp1 / 2 ^ 32 + temp2 / 2 ^ 32 + x1 * y1) =
      (x0 + 2 ^ 32 * x1) * (y0 + 2 ^ 32 * y1) := by
  have hexpand : (x0 + 2 ^ 32 * x1) * (y0 + 2 ^ 32 * y1) =
      x0 * y0 + 2 ^ 32 * (x1 * y0 + y1 * x0) + 2 ^ 64 * (x1 * y1) := by ring
  rw [hexpand]
  omega

/-- The function loses no bits, and the result is the product. -/
theorem mul128_64x64_holds {a b : Word 64} {n m : ℕ} (ha : a.Holds n (2 ^ 64 - 1))
    (hb : b.Holds m (2 ^ 64 - 1)) : (mul128_64x64 a b).Holds (n * m) (2 ^ 128 - 1) := by
  have ha0 := ha.mask 32 mask32
  have ha1 := ha.shiftRight 32
  have hb0 := hb.mask 32 mask32
  have hb1 := hb.shiftRight 32
  have hlow := ha0.mul hb0
  have htemp1 := (hlow.shiftRight 32).add (ha1.mul hb0)
  have hcolumn1 := (hlow.mask 32 mask32).add (lowHalf_shiftLeft htemp1)
  have htemp2 := (hcolumn1.shiftRight 32).add (hb1.mul ha0)
  have hcolumn2 := (hcolumn1.mask 32 mask32).add (lowHalf_shiftLeft htemp2)
  have hhigh := ((htemp1.shiftRight 32).add (htemp2.shiftRight 32)).add (ha1.mul hb1)
  have hresult := U128.holds hcolumn2 hhigh
  have hcarry : ∀ x t : ℕ, (x % 2 ^ 32 + t % 2 ^ 32 * 2 ^ 32) / 2 ^ 32 = t % 2 ^ 32 ∧
      (x % 2 ^ 32 + t % 2 ^ 32 * 2 ^ 32) % 2 ^ 32 = x % 2 ^ 32 := by omega
  have hsplit : ∀ x : ℕ, x % 2 ^ 32 + 2 ^ 32 * (x / 2 ^ 32) = x := fun x => Nat.mod_add_div x _
  rw [(hcarry _ _).1, (hcarry _ _).2, columns_eq rfl rfl, hsplit, hsplit] at hresult
  exact hresult

/-- On exact words the function is the product that the models of the other functions have, and so
they are right on wasm32 too. -/
theorem mul128_64x64_eq_mul128 {a b : Word 64} (ha : a.exact = true) (hb : b.exact = true) :
    mul128_64x64 a b = mul128 a b := by
  have hwasm := mul128_64x64_holds (Holds.self ha (Nat.le_sub_one_of_lt a.toNat_lt))
    (Holds.self hb (Nat.le_sub_one_of_lt b.toNat_lt))
  have hnative := Holds.mul128 (Holds.self ha (Nat.le_sub_one_of_lt a.toNat_lt))
    (Holds.self hb (Nat.le_sub_one_of_lt b.toNat_lt))
  exact Word.ext_toNat (hwasm.exact.trans hnative.exact.symm)
    (hwasm.toNat_eq.trans hnative.toNat_eq.symm)

/-- For all operands the result is the native product. Its flag is set: none of the products and
sums on the way wraps. -/
theorem mul128_64x64_eq (a b : BitVec 64) :
    mul128_64x64 ⟨a, true⟩ ⟨b, true⟩ = ⟨a.setWidth 128 * b.setWidth 128, true⟩ := by
  have ha : (⟨a, true⟩ : Word 64).Holds a.toNat (2 ^ 64 - 1) :=
    ⟨rfl, rfl, Nat.le_sub_one_of_lt a.isLt⟩
  have hb : (⟨b, true⟩ : Word 64).Holds b.toNat (2 ^ 64 - 1) :=
    ⟨rfl, rfl, Nat.le_sub_one_of_lt b.isLt⟩
  have hproduct := mul128_64x64_holds ha hb
  have hlt : a.toNat * b.toNat < 2 ^ 64 * 2 ^ 64 := Nat.mul_lt_mul'' a.isLt b.isLt
  rw [← pow_add] at hlt
  have hnative : (a.setWidth 128 * b.setWidth 128).toNat = a.toNat * b.toNat := by
    rw [BitVec.toNat_mul, BitVec.toNat_setWidth_of_le (by decide),
      BitVec.toNat_setWidth_of_le (by decide), Nat.mod_eq_of_lt hlt]
  exact Word.ext_toNat hproduct.exact (hproduct.toNat_eq.trans hnative.symm)

example : mul128_64x64 0xFFFFFFFFFFFFFFFF 0xFFFFFFFFFFFFFFFF =
    0xFFFFFFFFFFFFFFFE0000000000000001 := by decide

end Hc.Mul128
