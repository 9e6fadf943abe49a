import Mathlib.Data.Nat.Bitwise
import Mathlib.Tactic.Ring

/-!
# Machine words that remember whether an operation lost bits

A `Word w` is a machine word of `w` bits together with a ghost flag. The bits
evolve as the hardware does: every operation wraps modulo `2 ^ w`. The flag
stays `true` as long as no addition, subtraction, multiplication or checked
conversion has produced a value that did not fit, so one model of a piece of
arithmetic code says both what it computes and whether it ever overflowed.

Shifts, masks and truncations select bits on purpose and never clear the flag.
The operations named `wrap…` are the ones the code means to wrap.
-/

namespace Hc

/-- A machine word and the ghost flag recording that nothing was lost so far. -/
structure Word (w : ℕ) where
  bits : BitVec w
  exact : Bool
deriving DecidableEq, Repr

namespace Word

variable {w v : ℕ}

/-- The unsigned value of a word. -/
def toNat (x : Word w) : ℕ := x.bits.toNat

/-- A literal; its flag is set. -/
def lit (w n : ℕ) : Word w := ⟨BitVec.ofNat w n, true⟩

instance (n : ℕ) : OfNat (Word w) n := ⟨lit w n⟩

instance : Inhabited (Word w) := ⟨lit w 0⟩

instance : Add (Word w) where
  add a b := ⟨a.bits + b.bits, a.exact && b.exact && decide (a.toNat + b.toNat < 2 ^ w)⟩

instance : Sub (Word w) where
  sub a b := ⟨a.bits - b.bits, a.exact && b.exact && decide (b.toNat ≤ a.toNat)⟩

instance : Mul (Word w) where
  mul a b := ⟨a.bits * b.bits, a.exact && b.exact && decide (a.toNat * b.toNat < 2 ^ w)⟩

instance : AndOp (Word w) where
  and a b := ⟨a.bits &&& b.bits, a.exact && b.exact⟩

instance : OrOp (Word w) where
  or a b := ⟨a.bits ||| b.bits, a.exact && b.exact⟩

instance : XorOp (Word w) where
  xor a b := ⟨a.bits ^^^ b.bits, a.exact && b.exact⟩

instance : Complement (Word w) where
  complement a := ⟨~~~a.bits, a.exact⟩

instance : HShiftRight (Word w) ℕ (Word w) where
  hShiftRight a n := ⟨a.bits >>> n, a.exact⟩

instance : HShiftLeft (Word w) ℕ (Word w) where
  hShiftLeft a n := ⟨a.bits <<< n, a.exact⟩

/-- Addition that is meant to wrap. -/
def wrapAdd (a b : Word w) : Word w := ⟨a.bits + b.bits, a.exact && b.exact⟩

/-- Subtraction that is meant to wrap. -/
def wrapSub (a b : Word w) : Word w := ⟨a.bits - b.bits, a.exact && b.exact⟩

/-- Conversion to another width that selects the low bits on purpose. -/
def truncate (v : ℕ) (a : Word w) : Word v := ⟨a.bits.setWidth v, a.exact⟩

/-- Conversion to another width that is meant to keep the value. -/
def cast (v : ℕ) (a : Word w) : Word v :=
  ⟨a.bits.setWidth v, a.exact && decide (a.toNat < 2 ^ v)⟩

theorem toNat_lt (x : Word w) : x.toNat < 2 ^ w := x.bits.isLt

theorem ext_toNat {x y : Word w} (hexact : x.exact = y.exact) (htoNat : x.toNat = y.toNat) :
    x = y := by
  cases x
  cases y
  simp only [mk.injEq]
  exact ⟨BitVec.eq_of_toNat_eq htoNat, hexact⟩

/-! ## Values of the operations -/

section Values

@[simp] theorem toNat_lit (n : ℕ) : (lit w n).toNat = n % 2 ^ w := BitVec.toNat_ofNat n w

@[simp] theorem toNat_ofNat (n : ℕ) : (no_index (OfNat.ofNat n : Word w)).toNat = n % 2 ^ w :=
  BitVec.toNat_ofNat n w

@[simp] theorem toNat_and (a b : Word w) : (a &&& b).toNat = a.toNat &&& b.toNat :=
  BitVec.toNat_and a.bits b.bits

@[simp] theorem toNat_or (a b : Word w) : (a ||| b).toNat = a.toNat ||| b.toNat :=
  BitVec.toNat_or a.bits b.bits

@[simp] theorem toNat_xor (a b : Word w) : (a ^^^ b).toNat = a.toNat ^^^ b.toNat :=
  BitVec.toNat_xor a.bits b.bits

@[simp] theorem toNat_shiftRight (a : Word w) (n : ℕ) : (a >>> n).toNat = a.toNat / 2 ^ n := by
  change (a.bits >>> n).toNat = _
  rw [BitVec.toNat_ushiftRight, Nat.shiftRight_eq_div_pow]
  rfl

@[simp] theorem toNat_shiftLeft (a : Word w) (n : ℕ) :
    (a <<< n).toNat = a.toNat * 2 ^ n % 2 ^ w := by
  change (a.bits <<< n).toNat = _
  rw [BitVec.toNat_shiftLeft, Nat.shiftLeft_eq]
  rfl

@[simp] theorem toNat_wrapAdd (a b : Word w) :
    (a.wrapAdd b).toNat = (a.toNat + b.toNat) % 2 ^ w :=
  BitVec.toNat_add a.bits b.bits

@[simp] theorem toNat_wrapSub (a b : Word w) :
    (a.wrapSub b).toNat = (2 ^ w - b.toNat + a.toNat) % 2 ^ w :=
  BitVec.toNat_sub a.bits b.bits

@[simp] theorem toNat_truncate (a : Word w) : (a.truncate v).toNat = a.toNat % 2 ^ v :=
  BitVec.toNat_setWidth v a.bits

@[simp] theorem toNat_complement (a : Word w) : (~~~a).toNat = 2 ^ w - 1 - a.toNat :=
  BitVec.toNat_not

@[simp] theorem exact_lit (n : ℕ) : (lit w n).exact = true := rfl

@[simp] theorem exact_ofNat (n : ℕ) : (no_index (OfNat.ofNat n : Word w)).exact = true := rfl

@[simp] theorem exact_and (a b : Word w) : (a &&& b).exact = (a.exact && b.exact) := rfl

@[simp] theorem exact_or (a b : Word w) : (a ||| b).exact = (a.exact && b.exact) := rfl

@[simp] theorem exact_xor (a b : Word w) : (a ^^^ b).exact = (a.exact && b.exact) := rfl

@[simp] theorem exact_complement (a : Word w) : (~~~a).exact = a.exact := rfl

@[simp] theorem exact_shiftRight (a : Word w) (n : ℕ) : (a >>> n).exact = a.exact := rfl

@[simp] theorem exact_shiftLeft (a : Word w) (n : ℕ) : (a <<< n).exact = a.exact := rfl

@[simp] theorem exact_wrapAdd (a b : Word w) : (a.wrapAdd b).exact = (a.exact && b.exact) := rfl

@[simp] theorem exact_wrapSub (a b : Word w) : (a.wrapSub b).exact = (a.exact && b.exact) := rfl

@[simp] theorem exact_truncate (a : Word w) : (a.truncate v).exact = a.exact := rfl

end Values

/-! ## Bounded values

`x.Holds n B` carries a numeric bound next to the value, so that the side
condition of every operation is a closed comparison of numerals. -/

/-- Nothing was lost in computing `x`, and it holds the number `n`, at most `B`. -/
structure Holds (x : Word w) (n B : ℕ) : Prop where
  exact : x.exact = true
  toNat_eq : x.toNat = n
  le : n ≤ B

namespace Holds

variable {a b : Word w} {n m A B k : ℕ}

theorem mono (ha : a.Holds n A) (hle : A ≤ B) : a.Holds n B :=
  ⟨ha.exact, ha.toNat_eq, ha.le.trans hle⟩

theorem tighten (ha : a.Holds n A) (hle : n ≤ B) : a.Holds n B :=
  ⟨ha.exact, ha.toNat_eq, hle⟩

theorem congr (ha : a.Holds n A) (h : n = m) : a.Holds m A := h ▸ ha

theorem self (hexact : a.exact = true) (hle : a.toNat ≤ A) : a.Holds a.toNat A :=
  ⟨hexact, rfl, hle⟩

theorem toSelf (ha : a.Holds n A) : a.Holds a.toNat A :=
  ⟨ha.exact, rfl, ha.toNat_eq.trans_le ha.le⟩

theorem lit (n : ℕ) (hn : n < 2 ^ w := by decide) : (Word.lit w n).Holds n n :=
  ⟨rfl, by rw [toNat_lit, Nat.mod_eq_of_lt hn], le_rfl⟩

theorem ofNat (n : ℕ) (hn : n < 2 ^ w := by decide) : (OfNat.ofNat n : Word w).Holds n n :=
  Holds.lit n hn

theorem add (ha : a.Holds n A) (hb : b.Holds m B) (h : A + B < 2 ^ w := by decide) :
    (a + b).Holds (n + m) (A + B) := by
  have hle : n + m ≤ A + B := Nat.add_le_add ha.le hb.le
  have hlt : a.toNat + b.toNat < 2 ^ w := by
    rw [ha.toNat_eq, hb.toNat_eq]
    exact lt_of_le_of_lt hle h
  refine ⟨?_, ?_, hle⟩
  · change (a.exact && b.exact && decide (a.toNat + b.toNat < 2 ^ w)) = true
    simp [ha.exact, hb.exact, hlt]
  · change (a.bits + b.bits).toNat = _
    rw [BitVec.toNat_add, ← ha.toNat_eq, ← hb.toNat_eq]
    exact Nat.mod_eq_of_lt hlt

theorem mul (ha : a.Holds n A) (hb : b.Holds m B) (h : A * B < 2 ^ w := by decide) :
    (a * b).Holds (n * m) (A * B) := by
  have hle : n * m ≤ A * B := Nat.mul_le_mul ha.le hb.le
  have hlt : a.toNat * b.toNat < 2 ^ w := by
    rw [ha.toNat_eq, hb.toNat_eq]
    exact lt_of_le_of_lt hle h
  refine ⟨?_, ?_, hle⟩
  · change (a.exact && b.exact && decide (a.toNat * b.toNat < 2 ^ w)) = true
    simp [ha.exact, hb.exact, hlt]
  · change (a.bits * b.bits).toNat = _
    rw [BitVec.toNat_mul, ← ha.toNat_eq, ← hb.toNat_eq]
    exact Nat.mod_eq_of_lt hlt

theorem sub (ha : a.Holds n A) (hb : b.Holds m B) (h : m ≤ n) :
    (a - b).Holds (n - m) A := by
  have hle : b.toNat ≤ a.toNat := by
    rw [ha.toNat_eq, hb.toNat_eq]
    exact h
  refine ⟨?_, ?_, (Nat.sub_le n m).trans ha.le⟩
  · change (a.exact && b.exact && decide (b.toNat ≤ a.toNat)) = true
    simp [ha.exact, hb.exact, hle]
  · change (a.bits - b.bits).toNat = _
    rw [BitVec.toNat_sub_of_le (BitVec.le_def.mpr hle), ← ha.toNat_eq, ← hb.toNat_eq]
    rfl

theorem shiftRight (ha : a.Holds n A) (k : ℕ) : (a >>> k).Holds (n / 2 ^ k) (A / 2 ^ k) :=
  ⟨ha.exact, by rw [toNat_shiftRight, ha.toNat_eq], Nat.div_le_div_right ha.le⟩

/-- Masking with `2 ^ k - 1`, written as any literal of that value. -/
theorem mask (ha : a.Holds n A) (k : ℕ) (hb : b.Holds (2 ^ k - 1) B) :
    (a &&& b).Holds (n % 2 ^ k) (2 ^ k - 1) := by
  refine ⟨by simp [ha.exact, hb.exact], ?_, ?_⟩
  · rw [toNat_and, ha.toNat_eq, hb.toNat_eq, Nat.and_two_pow_sub_one_eq_mod]
  · exact Nat.le_sub_one_of_lt (Nat.mod_lt _ (Nat.two_pow_pos k))

theorem shiftLeft (ha : a.Holds n A) (k : ℕ) :
    (a <<< k).Holds (n * 2 ^ k % 2 ^ w) (2 ^ w - 1) :=
  ⟨ha.exact, by rw [toNat_shiftLeft, ha.toNat_eq],
    Nat.le_sub_one_of_lt (Nat.mod_lt _ (Nat.two_pow_pos w))⟩

theorem and (ha : a.Holds n A) (hb : b.Holds m B) : (a &&& b).Holds (n &&& m) B :=
  ⟨by simp [ha.exact, hb.exact], by rw [toNat_and, ha.toNat_eq, hb.toNat_eq],
    Nat.and_le_right.trans hb.le⟩

/-- Two fields side by side in one word; what is shifted out at the top is dropped. -/
theorem pack (ha : a.Holds n A) (hb : b.Holds m B) (k : ℕ) (hn : n < 2 ^ k) (hk : k ≤ w) :
    (a ||| (b <<< k)).Holds ((n + 2 ^ k * m) % 2 ^ w) (2 ^ w - 1) := by
  have hsplit : 2 ^ w = 2 ^ k * 2 ^ (w - k) := by rw [← pow_add, Nat.add_sub_cancel' hk]
  have hfield : m * 2 ^ k % 2 ^ w = 2 ^ k * (m % 2 ^ (w - k)) := by
    rw [Nat.mul_comm, hsplit, Nat.mul_mod_mul_left]
  have hvalue : (n + 2 ^ k * m) % 2 ^ w = n ||| 2 ^ k * (m % 2 ^ (w - k)) := by
    rw [Nat.or_comm, ← Nat.two_pow_add_eq_or_of_lt hn, hsplit, Nat.mod_mul,
      Nat.add_mul_mod_self_left, Nat.mod_eq_of_lt hn, Nat.add_mul_div_left _ _ (Nat.two_pow_pos k),
      Nat.div_eq_of_lt hn, Nat.zero_add, Nat.add_comm]
  refine ⟨by simp [ha.exact, hb.exact], ?_,
    Nat.le_sub_one_of_lt (Nat.mod_lt _ (Nat.two_pow_pos w))⟩
  rw [toNat_or, toNat_shiftLeft, ha.toNat_eq, hb.toNat_eq, hfield, hvalue]

/-- Bits `k` and up of a number given by its two low words. -/
theorem funnel (ha : a.Holds (n % 2 ^ w) A) (hb : b.Holds (n / 2 ^ w % 2 ^ w) B)
    (k : ℕ) (hk : k ≤ w := by decide) :
    ((a >>> k) ||| (b <<< (w - k))).Holds (n / 2 ^ k % 2 ^ w) (2 ^ w - 1) := by
  have hsplit : 2 ^ w = 2 ^ k * 2 ^ (w - k) := by rw [← pow_add, Nat.add_sub_cancel' hk]
  have hlow : n % 2 ^ w / 2 ^ k = n / 2 ^ k % 2 ^ (w - k) := by
    rw [hsplit, Nat.mod_mul_right_div_self]
  have hhigh : n / 2 ^ w = n / 2 ^ k / 2 ^ (w - k) := by rw [hsplit, Nat.div_div_eq_div_mul]
  have hpacked := (ha.shiftRight k).pack hb (w - k)
    (by rw [hlow]; exact Nat.mod_lt _ (Nat.two_pow_pos _)) (Nat.sub_le w k)
  have hvalue : (n % 2 ^ w / 2 ^ k + 2 ^ (w - k) * (n / 2 ^ w % 2 ^ w)) % 2 ^ w =
      n / 2 ^ k % 2 ^ w := by
    rw [hlow, hhigh, Nat.add_mod, Nat.mul_mod, Nat.mod_mod, ← Nat.mul_mod, ← Nat.add_mod,
      Nat.mod_add_div]
  rwa [hvalue] at hpacked

theorem or (ha : a.Holds n A) (hb : b.Holds m B) (h : n ||| m ≤ k) :
    (a ||| b).Holds (n ||| m) k :=
  ⟨by simp [ha.exact, hb.exact], by rw [toNat_or, ha.toNat_eq, hb.toNat_eq], h⟩

theorem cast (ha : a.Holds n A) (h : A < 2 ^ v := by decide) : (a.cast v).Holds n A := by
  have hlt : a.toNat < 2 ^ v := by
    rw [ha.toNat_eq]
    exact lt_of_le_of_lt ha.le h
  refine ⟨?_, ?_, ha.le⟩
  · simp [Word.cast, ha.exact, hlt]
  · change (a.bits.setWidth v).toNat = n
    rw [BitVec.toNat_setWidth, ← ha.toNat_eq]
    exact Nat.mod_eq_of_lt hlt

/-- The low bits of a truncation; the mask makes the lost ones irrelevant. -/
theorem truncate_mask (ha : a.Holds n A) (k : ℕ) {b : Word v} (hb : b.Holds (2 ^ k - 1) B)
    (hk : k ≤ v := by decide) : (a.truncate v &&& b).Holds (n % 2 ^ k) (2 ^ k - 1) := by
  refine ⟨by simp [ha.exact, hb.exact], ?_, ?_⟩
  · rw [toNat_and, toNat_truncate, ha.toNat_eq, hb.toNat_eq, Nat.and_two_pow_sub_one_eq_mod,
      Nat.mod_mod_of_dvd _ (pow_dvd_pow 2 hk)]
  · exact Nat.le_sub_one_of_lt (Nat.mod_lt _ (Nat.two_pow_pos k))

end Holds

/-- The 128-bit product of two 64-bit words. -/
def mul128 (a b : Word 64) : Word 128 := a.cast 128 * b.cast 128

theorem Holds.mul128 {a b : Word 64} {n m A B : ℕ} (ha : a.Holds n A) (hb : b.Holds m B)
    (hA : A < 2 ^ 128 := by decide) (hB : B < 2 ^ 128 := by decide)
    (h : A * B < 2 ^ 128 := by decide) : (Word.mul128 a b).Holds (n * m) (A * B) :=
  (ha.cast hA).mul (hb.cast hB) h

end Word

end Hc
