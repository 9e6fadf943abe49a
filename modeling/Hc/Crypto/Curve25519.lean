import Hc.Foundation.Bytes

/-!
# The code shared by X25519 and Ed25519

`hc/core/hc/crypto/curve25519.c`: numbers modulo `2 ^ 255 - 19` in five limbs of
51 bits. The functions read their arguments before they overwrite them, so each
one is modelled by the value it leaves in `out`, also when `out` is an argument.
-/

namespace Hc.Curve25519

/-- `uint64_t[5]`. -/
structure Fe where
  l0 : Word 64
  l1 : Word 64
  l2 : Word 64
  l3 : Word 64
  l4 : Word 64
deriving DecidableEq

/-- `curve25519_zero`. -/
def zero : Fe := ⟨0, 0, 0, 0, 0⟩

/-- The limbs `{1}`. -/
def one : Fe := ⟨1, 0, 0, 0, 0⟩

/-- `curve25519_load`. -/
def load (bytes : List UInt8) : Fe where
  l0 := loadU64 bytes 0 &&& 0x7FFFFFFFFFFFF
  l1 := (loadU64 bytes 6 >>> 3) &&& 0x7FFFFFFFFFFFF
  l2 := (loadU64 bytes 12 >>> 6) &&& 0x7FFFFFFFFFFFF
  l3 := (loadU64 bytes 19 >>> 1) &&& 0x7FFFFFFFFFFFF
  l4 := (loadU64 bytes 24 >>> 12) &&& 0x7FFFFFFFFFFFF

/-- `curve25519_store`: the 32 bytes written. -/
def store (a : Fe) : List UInt8 :=
  storeU64 (a.l0 ||| (a.l1 <<< 51)) ++ storeU64 ((a.l1 >>> 13) ||| (a.l2 <<< 38)) ++
    storeU64 ((a.l2 >>> 26) ||| (a.l3 <<< 25)) ++ storeU64 ((a.l3 >>> 39) ||| (a.l4 <<< 12))

/-- One pass of carries from limb to limb and from the top, times 19, to the
bottom. The source repeats it in `curve25519_reduce`, `curve25519_add` and
`curve25519_sub`. -/
def carryPass (a : Fe) : Fe :=
  let a1 := a.l1 + (a.l0 >>> 51)
  let a0 := a.l0 &&& 0x7FFFFFFFFFFFF
  let a2 := a.l2 + (a1 >>> 51)
  let a1 := a1 &&& 0x7FFFFFFFFFFFF
  let a3 := a.l3 + (a2 >>> 51)
  let a2 := a2 &&& 0x7FFFFFFFFFFFF
  let a4 := a.l4 + (a3 >>> 51)
  let a3 := a3 &&& 0x7FFFFFFFFFFFF
  let a0 := a0 + (a4 >>> 51) * 19
  let a4 := a4 &&& 0x7FFFFFFFFFFFF
  ⟨a0, a1, a2, a3, a4⟩

/-- The end of `curve25519_reduce`: remove the offset of `2 ^ 255` that decides
whether the modulus is subtracted. -/
def removeOffset (a : Fe) : Fe :=
  let a0 := a.l0 + (0x8000000000000 - 19)
  let a1 := a.l1 + (0x8000000000000 - 1)
  let a2 := a.l2 + (0x8000000000000 - 1)
  let a3 := a.l3 + (0x8000000000000 - 1)
  let a4 := a.l4 + (0x8000000000000 - 1)
  let a1 := a1 + (a0 >>> 51)
  let a2 := a2 + (a1 >>> 51)
  let a3 := a3 + (a2 >>> 51)
  let a4 := a4 + (a3 >>> 51)
  ⟨a0 &&& 0x7FFFFFFFFFFFF, a1 &&& 0x7FFFFFFFFFFFF, a2 &&& 0x7FFFFFFFFFFFF,
    a3 &&& 0x7FFFFFFFFFFFF, a4 &&& 0x7FFFFFFFFFFFF⟩

/-- `curve25519_reduce`. -/
def reduce (a : Fe) : Fe :=
  let a := carryPass (carryPass a)
  let a := carryPass { a with l0 := a.l0 + 19 }
  removeOffset a

/-- One limb of `curve25519_cSwap`. -/
def cSwapLimb (swap a b : Word 64) : Word 64 × Word 64 :=
  let x := swap &&& (a ^^^ b)
  (a ^^^ x, b ^^^ x)

/-- `curve25519_cSwap`: the new values of `a` and `b`. -/
def cSwap (a b : Fe) (shouldSwap : Word 64) : Fe × Fe :=
  let swap := (0 : Word 64).wrapSub shouldSwap
  let s0 := cSwapLimb swap a.l0 b.l0
  let s1 := cSwapLimb swap a.l1 b.l1
  let s2 := cSwapLimb swap a.l2 b.l2
  let s3 := cSwapLimb swap a.l3 b.l3
  let s4 := cSwapLimb swap a.l4 b.l4
  (⟨s0.1, s1.1, s2.1, s3.1, s4.1⟩, ⟨s0.2, s1.2, s2.2, s3.2, s4.2⟩)

/-- `curve25519_addNoReduce`. -/
def addNoReduce (a b : Fe) : Fe :=
  ⟨a.l0 + b.l0, a.l1 + b.l1, a.l2 + b.l2, a.l3 + b.l3, a.l4 + b.l4⟩

/-- `curve25519_add`. -/
def add (a b : Fe) : Fe := carryPass (addNoReduce a b)

/-- `a` plus a multiple of the modulus in limbs, minus `b`. -/
def subOffset (c0 c : Word 64) (a b : Fe) : Fe :=
  ⟨a.l0 + c0 - b.l0, a.l1 + c - b.l1, a.l2 + c - b.l2, a.l3 + c - b.l3, a.l4 + c - b.l4⟩

/-- `curve25519_subNoReduce`. -/
def subNoReduce (a b : Fe) : Fe := subOffset 0x0FFFFFFFFFFFDA 0x0FFFFFFFFFFFFE a b

/-- `curve25519_sub`. -/
def sub (a b : Fe) : Fe := carryPass (subNoReduce a b)

/-- `curve25519_subNoReduceFourP`. -/
def subNoReduceFourP (a b : Fe) : Fe := subOffset 0x1FFFFFFFFFFFB4 0x1FFFFFFFFFFFFC a b

/-- `curve25519_mulScalar`. -/
def mulScalar (a : Fe) (scalar : Word 64) : Fe :=
  let x0 := Word.mul128 a.l0 scalar
  let x1 := Word.mul128 a.l1 scalar + ((x0 >>> 51).cast 64).cast 128
  let x2 := Word.mul128 a.l2 scalar + ((x1 >>> 51).cast 64).cast 128
  let x3 := Word.mul128 a.l3 scalar + ((x2 >>> 51).cast 64).cast 128
  let x4 := Word.mul128 a.l4 scalar + ((x3 >>> 51).cast 64).cast 128
  let out0 := x0.truncate 64 &&& 0x7FFFFFFFFFFFF
  ⟨out0 + (x4 >>> 51).cast 64 * 19,
    x1.truncate 64 &&& 0x7FFFFFFFFFFFF, x2.truncate 64 &&& 0x7FFFFFFFFFFFF,
    x3.truncate 64 &&& 0x7FFFFFFFFFFFF, x4.truncate 64 &&& 0x7FFFFFFFFFFFF⟩

/-- The carries at the end of `curve25519_mul` and of each round of `curve25519_squareN`. -/
def carryProduct (t0 t1 t2 t3 t4 : Word 128) : Fe :=
  let r0 := t0.truncate 64 &&& 0x7FFFFFFFFFFFF
  let t1 := t1 + ((t0 >>> 51).cast 64).cast 128
  let r1 := t1.truncate 64 &&& 0x7FFFFFFFFFFFF
  let t2 := t2 + ((t1 >>> 51).cast 64).cast 128
  let r2 := t2.truncate 64 &&& 0x7FFFFFFFFFFFF
  let t3 := t3 + ((t2 >>> 51).cast 64).cast 128
  let r3 := t3.truncate 64 &&& 0x7FFFFFFFFFFFF
  let t4 := t4 + ((t3 >>> 51).cast 64).cast 128
  let r4 := t4.truncate 64 &&& 0x7FFFFFFFFFFFF
  let r0 := r0 + (t4 >>> 51).cast 64 * 19
  let r1 := r1 + (r0 >>> 51)
  let r0 := r0 &&& 0x7FFFFFFFFFFFF
  ⟨r0, r1, r2, r3, r4⟩

/-- `curve25519_mul`. -/
def mul (a b : Fe) : Fe :=
  let r0 := b.l0
  let r1 := b.l1
  let r2 := b.l2
  let r3 := b.l3
  let r4 := b.l4
  let s0 := a.l0
  let s1 := a.l1
  let s2 := a.l2
  let s3 := a.l3
  let s4 := a.l4
  let t0 := Word.mul128 r0 s0
  let t1 := Word.mul128 r0 s1 + Word.mul128 r1 s0
  let t2 := Word.mul128 r0 s2 + Word.mul128 r2 s0 + Word.mul128 r1 s1
  let t3 := Word.mul128 r0 s3 + Word.mul128 r3 s0 + Word.mul128 r1 s2 + Word.mul128 r2 s1
  let t4 := Word.mul128 r0 s4 + Word.mul128 r4 s0 + Word.mul128 r3 s1 + Word.mul128 r1 s3 +
    Word.mul128 r2 s2
  let r4 := r4 * 19
  let r1 := r1 * 19
  let r2 := r2 * 19
  let r3 := r3 * 19
  let t0 := t0 + (Word.mul128 r4 s1 + Word.mul128 r1 s4 + Word.mul128 r2 s3 + Word.mul128 r3 s2)
  let t1 := t1 + (Word.mul128 r4 s2 + Word.mul128 r2 s4 + Word.mul128 r3 s3)
  let t2 := t2 + (Word.mul128 r4 s3 + Word.mul128 r3 s4)
  let t3 := t3 + Word.mul128 r4 s4
  carryProduct t0 t1 t2 t3 t4

/-- One round of `curve25519_squareN`. -/
def square (a : Fe) : Fe :=
  let r0 := a.l0
  let r1 := a.l1
  let r2 := a.l2
  let r3 := a.l3
  let r4 := a.l4
  let d0 := r0 * 2
  let d1 := r1 * 2
  let d2 := r2 * 2 * 19
  let d419 := r4 * 19
  let d4 := d419 * 2
  carryProduct (Word.mul128 r0 r0 + Word.mul128 d4 r1 + Word.mul128 d2 r3)
    (Word.mul128 d0 r1 + Word.mul128 d4 r2 + Word.mul128 r3 (r3 * 19))
    (Word.mul128 d0 r2 + Word.mul128 r1 r1 + Word.mul128 d4 r3)
    (Word.mul128 d0 r3 + Word.mul128 d1 r2 + Word.mul128 r4 d419)
    (Word.mul128 d0 r4 + Word.mul128 d1 r3 + Word.mul128 r2 r2)

/-- `curve25519_squareN`; the code is never called with `n = 0`. -/
def squareN (a : Fe) (n : ℕ) : Fe := square^[n] a

/-- `_curve25519_pow11PowTwo250mtwo0`: the values of `a` and `b`. -/
def pow11PowTwo250mtwo0 (z : Fe) : Fe × Fe :=
  let a := squareN z 1
  let t0 := squareN a 2
  let b := mul t0 z
  let a := mul b a
  let t0 := squareN a 1
  let b := mul t0 b
  let t0 := squareN b 5
  let b := mul t0 b
  let t0 := squareN b 10
  let c := mul t0 b
  let t0 := squareN c 20
  let t0 := mul t0 c
  let t0 := squareN t0 10
  let b := mul t0 b
  let t0 := squareN b 50
  let c := mul t0 b
  let t0 := squareN c 100
  let t0 := mul t0 c
  let t0 := squareN t0 50
  let b := mul t0 b
  (a, b)

/-- `curve25519_invert`. -/
def invert (z : Fe) : Fe :=
  let ab := pow11PowTwo250mtwo0 z
  mul (squareN ab.2 5) ab.1

/-- `curve25519_powTwo252m3`. -/
def powTwo252m3 (z : Fe) : Fe :=
  let ab := pow11PowTwo250mtwo0 z
  mul (squareN ab.2 2) z

end Hc.Curve25519
