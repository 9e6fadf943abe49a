import Hc.Foundation.Bytes

/-!
# Scalars of Ed25519

The `ed25519_modm` part of `hc/core/hc/crypto/ed25519.c`: arithmetic modulo the group
order in limbs of 56 bits, and the two recodings into signed digits. A function that is
called with `out` among its arguments reads them before it overwrites them.
-/

namespace Hc.Ed25519

open Word (mul128)

/-- `uint64_t[5]` with limbs of 56 bits. -/
structure Scalar where
  l0 : Word 64
  l1 : Word 64
  l2 : Word 64
  l3 : Word 64
  l4 : Word 64
deriving DecidableEq

/-- `ed25519_modm_m`. -/
def modm : Scalar := ⟨0x12631a5cf5d3ed, 0xf9dea2f79cd658, 0x000000000014de, 0, 0x00000010000000⟩

/-- `ed25519_modm_mu`. -/
def modmMu : Scalar :=
  ⟨0x9ce5a30a2c131b, 0x215d086329a7ed, 0xffffffffeb2106, 0xffffffffffffff, 0x00000fffffffff⟩

/-! ## Arithmetic -/

/-- One limb of a difference: the limb, and the borrow from the next one. -/
def subLimb (width : ℕ) (x pb : Word 64) : Word 64 × Word 64 :=
  let b := x.wrapSub pb >>> 63
  ((x.wrapSub pb).wrapAdd (b <<< width), b)

/-- The difference of two scalars, the top limb having `width` bits, and the borrow. -/
def subLimbs (width : ℕ) (x y : Scalar) : Scalar × Word 64 :=
  let t0 := subLimb 56 x.l0 y.l0
  let t1 := subLimb 56 x.l1 (t0.2 + y.l1)
  let t2 := subLimb 56 x.l2 (t1.2 + y.l2)
  let t3 := subLimb 56 x.l3 (t2.2 + y.l3)
  let t4 := subLimb width x.l4 (t3.2 + y.l4)
  (⟨t0.1, t1.1, t2.1, t3.1, t4.1⟩, t4.2)

/-- `ed25519_modm_reduce`. -/
def modmReduce (r : Scalar) : Scalar :=
  let t := subLimbs 32 r modm
  let mask := t.2.wrapSub 1
  ⟨r.l0 ^^^ (mask &&& (r.l0 ^^^ t.1.l0)), r.l1 ^^^ (mask &&& (r.l1 ^^^ t.1.l1)),
    r.l2 ^^^ (mask &&& (r.l2 ^^^ t.1.l2)), r.l3 ^^^ (mask &&& (r.l3 ^^^ t.1.l3)),
    r.l4 ^^^ (mask &&& (r.l4 ^^^ t.1.l4))⟩

/-- `(uint64_t)(c >> 56)` as a summand of the next column. -/
def carry56 (c : Word 128) : Word 128 := ((c >>> 56).cast 64).cast 128

/-- The bits of a limb that starts at bit `k` of one column and goes on in the next. -/
def joinColumns (k : ℕ) (low : Word 64) (c next : Word 128) : Word 64 :=
  ((c.truncate 64 >>> k) &&& low) |||
    ((next.truncate 64 <<< (56 - k)) &&& 0xffffffffffffff)

/-- `ed25519_modm_barrettReduce`: `q3`. -/
def barrettQuotient (q1 : Scalar) : Scalar :=
  let mu := modmMu
  let c := mul128 mu.l0 q1.l3 + mul128 mu.l3 q1.l0 + mul128 mu.l1 q1.l2 + mul128 mu.l2 q1.l1
  let c0 := carry56 c + mul128 mu.l0 q1.l4 + mul128 mu.l4 q1.l0 + mul128 mu.l3 q1.l1 +
    mul128 mu.l1 q1.l3 + mul128 mu.l2 q1.l2
  let c1 := carry56 c0 + mul128 mu.l4 q1.l1 + mul128 mu.l1 q1.l4 + mul128 mu.l2 q1.l3 +
    mul128 mu.l3 q1.l2
  let c2 := carry56 c1 + mul128 mu.l4 q1.l2 + mul128 mu.l2 q1.l4 + mul128 mu.l3 q1.l3
  let c3 := carry56 c2 + mul128 mu.l4 q1.l3 + mul128 mu.l3 q1.l4
  let c4 := carry56 c3 + mul128 mu.l4 q1.l4
  ⟨joinColumns 40 0xffff c0 c1, joinColumns 40 0xffff c1 c2, joinColumns 40 0xffff c2 c3,
    joinColumns 40 0xffff c3 c4, (c4 >>> 40).cast 64⟩

/-- `ed25519_modm_barrettReduce`: `r2`, the product of `m` and `q3` modulo `2 ^ 264`. -/
def barrettProduct (q3 : Scalar) : Scalar :=
  let m := modm
  let c0 := mul128 m.l0 q3.l0
  let c1 := carry56 c0 + mul128 m.l0 q3.l1 + mul128 m.l1 q3.l0
  let c2 := carry56 c1 + mul128 m.l0 q3.l2 + mul128 m.l2 q3.l0 + mul128 m.l1 q3.l1
  let c3 := carry56 c2 + mul128 m.l0 q3.l3 + mul128 m.l3 q3.l0 + mul128 m.l1 q3.l2 +
    mul128 m.l2 q3.l1
  let c4 := carry56 c3 + mul128 m.l0 q3.l4 + mul128 m.l4 q3.l0 + mul128 m.l3 q3.l1 +
    mul128 m.l1 q3.l3 + mul128 m.l2 q3.l2
  ⟨c0.truncate 64 &&& 0xffffffffffffff, c1.truncate 64 &&& 0xffffffffffffff,
    c2.truncate 64 &&& 0xffffffffffffff, c3.truncate 64 &&& 0xffffffffffffff,
    c4.truncate 64 &&& 0x0000ffffffffff⟩

/-- `ed25519_modm_barrettReduce`. -/
def barrettReduce (q1 r1 : Scalar) : Scalar :=
  let r := (subLimbs 40 r1 (barrettProduct (barrettQuotient q1))).1
  modmReduce (modmReduce r)

/-- `ed25519_modm_add`. -/
def modmAdd (x y : Scalar) : Scalar :=
  let c0 := x.l0 + y.l0
  let c1 := (c0 >>> 56) + x.l1 + y.l1
  let c2 := (c1 >>> 56) + x.l2 + y.l2
  let c3 := (c2 >>> 56) + x.l3 + y.l3
  modmReduce ⟨c0 &&& 0xffffffffffffff, c1 &&& 0xffffffffffffff, c2 &&& 0xffffffffffffff,
    c3 &&& 0xffffffffffffff, (c3 >>> 56) + x.l4 + y.l4⟩

/-- `ed25519_modm_mul`. -/
def modmMul (x y : Scalar) : Scalar :=
  let c0 := mul128 x.l0 y.l0
  let c1 := carry56 c0 + mul128 x.l0 y.l1 + mul128 x.l1 y.l0
  let c2 := carry56 c1 + mul128 x.l0 y.l2 + mul128 x.l2 y.l0 + mul128 x.l1 y.l1
  let c3 := carry56 c2 + mul128 x.l0 y.l3 + mul128 x.l3 y.l0 + mul128 x.l1 y.l2 + mul128 x.l2 y.l1
  let c4 := carry56 c3 + mul128 x.l0 y.l4 + mul128 x.l4 y.l0 + mul128 x.l3 y.l1 +
    mul128 x.l1 y.l3 + mul128 x.l2 y.l2
  let c5 := carry56 c4 + mul128 x.l4 y.l1 + mul128 x.l1 y.l4 + mul128 x.l2 y.l3 + mul128 x.l3 y.l2
  let c6 := carry56 c5 + mul128 x.l4 y.l2 + mul128 x.l2 y.l4 + mul128 x.l3 y.l3
  let c7 := carry56 c6 + mul128 x.l4 y.l3 + mul128 x.l3 y.l4
  let c8 := carry56 c7 + mul128 x.l4 y.l4
  let r1 : Scalar := ⟨c0.truncate 64 &&& 0xffffffffffffff, c1.truncate 64 &&& 0xffffffffffffff,
    c2.truncate 64 &&& 0xffffffffffffff, c3.truncate 64 &&& 0xffffffffffffff,
    c4.truncate 64 &&& 0x0000ffffffffff⟩
  let q1 : Scalar := ⟨joinColumns 24 0xffffffff c4 c5, joinColumns 24 0xffffffff c5 c6,
    joinColumns 24 0xffffffff c6 c7, joinColumns 24 0xffffffff c7 c8, (c8 >>> 24).cast 64⟩
  barrettReduce q1 r1

/-! ## Loads and stores -/

/-- The limbs of the low 32 bytes in `ed25519_modm_load`. -/
def modmLoad32 (bytes : List UInt8) : Scalar :=
  let x0 := loadU64 bytes 0
  let x1 := loadU64 bytes 8
  let x2 := loadU64 bytes 16
  let x3 := loadU64 bytes 24
  ⟨x0 &&& 0xffffffffffffff, ((x0 >>> 56) ||| (x1 <<< 8)) &&& 0xffffffffffffff,
    ((x1 >>> 48) ||| (x2 <<< 16)) &&& 0xffffffffffffff,
    ((x2 >>> 40) ||| (x3 <<< 24)) &&& 0xffffffffffffff, x3 >>> 32⟩

/-- `ed25519_modm_load`. -/
def modmLoad (bytes : List UInt8) (size64 : Bool) : Scalar :=
  let out := modmLoad32 bytes
  if !size64 then out
  else
    let x3 := loadU64 bytes 24
    let x4 := loadU64 bytes 32
    let x5 := loadU64 bytes 40
    let x6 := loadU64 bytes 48
    let x7 := loadU64 bytes 56
    let out := { out with l4 := out.l4 ||| ((x4 <<< 32) &&& 0x0000ffffffffff) }
    let q1 : Scalar := ⟨((x3 >>> 56) ||| (x4 <<< 8)) &&& 0xffffffffffffff,
      ((x4 >>> 48) ||| (x5 <<< 16)) &&& 0xffffffffffffff,
      ((x5 >>> 40) ||| (x6 <<< 24)) &&& 0xffffffffffffff,
      ((x6 >>> 32) ||| (x7 <<< 32)) &&& 0xffffffffffffff, x7 >>> 24⟩
    barrettReduce q1 out

/-- `ed25519_modm_store`: the 32 bytes written. -/
def modmStore (s : Scalar) : List UInt8 :=
  storeU64 (s.l0 ||| (s.l1 <<< 56)) ++ storeU64 ((s.l1 >>> 8) ||| (s.l2 <<< 48)) ++
    storeU64 ((s.l2 >>> 16) ||| (s.l3 <<< 40)) ++ storeU64 ((s.l3 >>> 24) ||| (s.l4 <<< 32))

/-! ## Signed digits -/

/-- A number stored in an `int8_t`. -/
def int8 (x : ℤ) : ℤ := x.bmod 256

/-- `count` digits of `width` bits of a limb, least significant first. -/
def limbDigits (width count : ℕ) (v : Word 64) : List ℤ :=
  (List.range count).map fun j => ((v.toNat >>> (width * j)) % 2 ^ width : ℕ)

/-- The 256 bits of a scalar in digits of `width` bits. -/
def scalarDigits (width : ℕ) (s : Scalar) : List ℤ :=
  limbDigits width (56 / width) s.l0 ++ limbDigits width (56 / width) s.l1 ++
    limbDigits width (56 / width) s.l2 ++ limbDigits width (56 / width) s.l3 ++
    limbDigits width (32 / width) s.l4

/-- The loop of `_ed25519_modm_window4` that makes the digits signed, at `r[i] = d` with the
rest of the array. -/
def window4Loop : ℤ → ℤ → List ℤ → List ℤ
  | d, carry, [] => [int8 (d + carry)]
  | d, carry, next :: rest =>
    let d := int8 (d + carry)
    let next := int8 (next + d / 2 ^ 4)
    let d := d % 16
    let carry := d / 2 ^ 3
    int8 (d - carry * 2 ^ 4) :: window4Loop next carry rest

/-- `_ed25519_modm_window4`. -/
def window4 (s : Scalar) : List ℤ :=
  let r := scalarDigits 4 s
  window4Loop (r.headD 0) 0 r.tail

/-- The loop over `k` in `ed25519_modm_window`, from `r[k]` on: the first zero becomes
one, and the digits before it zero. -/
def ripple : List ℤ → List ℤ
  | [] => []
  | d :: rest => if d = 0 then 1 :: rest else 0 :: ripple rest

/-- The loop over `b` in `ed25519_modm_window` for `n` values of `b`: the new `r[j]`, and
the array from `r[j + b]` on. -/
def windowMerge (m : ℤ) : ℕ → ℕ → ℤ → List ℤ → ℤ × List ℤ
  | 0, _, d, rest => (d, rest)
  | _ + 1, _, d, [] => (d, [])
  | n + 1, b, d, e :: rest =>
    let x := d + e * 2 ^ b
    if x ≤ m then
      let r := windowMerge m n (b + 1) (int8 x) rest
      (r.1, 0 :: r.2)
    else
      let x := d - e * 2 ^ b
      if x ≥ -m then
        let rest := ripple (e :: rest)
        let r := windowMerge m n (b + 1) (int8 x) rest.tail
        (r.1, rest.headD 0 :: r.2)
      else if e ≠ 0 then
        (d, e :: rest)
      else
        let r := windowMerge m n (b + 1) d rest
        (r.1, e :: r.2)

/-- The loop over `j` in `ed25519_modm_window`, from `r[j]` on; `n` digits are left. -/
def windowLoop (m : ℤ) : ℕ → List ℤ → List ℤ
  | 0, r => r
  | _ + 1, [] => []
  | n + 1, d :: rest =>
    if d = 0 then
      d :: windowLoop m n rest
    else
      let bEnd := if n + 1 > 7 then 7 else n + 1
      let r := windowMerge m (bEnd - 1) 1 d rest
      r.1 :: windowLoop m n r.2

/-- `ed25519_modm_window`. -/
def window (s : Scalar) (m : ℤ) : List ℤ := windowLoop m 256 (scalarDigits 1 s)

end Hc.Ed25519
