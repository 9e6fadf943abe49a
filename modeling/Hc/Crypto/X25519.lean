import Hc.Crypto.Curve25519
import Hc.Crypto.Curve25519Prime
import Hc.Foundation.MontgomeryLadder

/-!
# X25519

The code of `hc/core/hc/crypto/x25519.c`, and the function of RFC 7748 section 5
that it is meant to compute.
-/

namespace Hc.X25519

open Curve25519

/-- The clamping of a secret: the three lowest bits and the highest are cleared,
and the second highest is set. -/
def clamp (e : List UInt8) : List UInt8 :=
  let e := e.modify 0 (· &&& 248)
  let e := e.modify 31 (· &&& 127)
  e.modify 31 (· ||| 64)

/-- The local variables of `_x25519_mul` between two iterations. -/
structure MulState where
  x0 : Fe
  z0 : Fe
  x1 : Fe
  z1 : Fe
  swap : Word 64

/-- `(n[i >> 3] >> (i & 7)) & 1`. -/
def bit (n : List UInt8) (i : ℕ) : Word 64 :=
  Word.lit 64 (((byteAt n (i >>> 3)).toNat >>> (i &&& 7)) &&& 1)

/-- The arithmetic of one iteration of `_x25519_mul`. -/
def mulArith (q x0 z0 x1 z1 : Fe) : Fe × Fe × Fe × Fe :=
  let a := addNoReduce x0 z0
  let b := subNoReduce x1 z1
  let b := mul a b
  let a := squareN a 1
  let x0 := subNoReduce x0 z0
  let z1 := addNoReduce x1 z1
  let z1 := mul z1 x0
  let x0 := squareN x0 1
  let x1 := addNoReduce z1 b
  let x1 := squareN x1 1
  let z1 := subNoReduce z1 b
  let z1 := squareN z1 1
  let z1 := mul z1 q
  let b := subNoReduce a x0
  let x0 := mul a x0
  let z0 := mulScalar b 121665
  let z0 := addNoReduce z0 a
  let z0 := mul b z0
  (x0, z0, x1, z1)

/-- One iteration of `_x25519_mul`. -/
def mulStep (n : List UInt8) (q : Fe) (i : ℕ) (s : MulState) : MulState :=
  let swap := s.swap ^^^ bit n i
  let x := cSwap s.x0 s.x1 swap
  let z := cSwap s.z0 s.z1 swap
  let r := mulArith q x.1 z.1 x.2 z.2
  ⟨r.1, r.2.1, r.2.2.1, r.2.2.2, bit n i⟩

/-- The iterations of `_x25519_mul` for the bits below `i`. -/
def mulLoop (n : List UInt8) (q : Fe) : ℕ → MulState → MulState := countDown (mulStep n q)

/-- The variables before the loop of `_x25519_mul`. -/
def mulInit (q : Fe) : MulState := ⟨one, zero, q, one, 0⟩

/-- `_x25519_mul`: the values of `outX` and `outZ`. -/
def mulPoint (n : List UInt8) (q : Fe) : Fe × Fe :=
  let s := mulLoop n q 256 (mulInit q)
  ((cSwap s.x0 s.x1 s.swap).1, (cSwap s.z0 s.z1 s.swap).1)

/-- The limbs that `x25519` stores. -/
def x25519Limbs (secret pub : Bytes 32) : Fe :=
  let e := clamp secret.toList
  let bp := load pub.toList
  let xz := mulPoint e bp
  let z := invert xz.2
  let z := mul xz.1 z
  reduce z

/-- `x25519`: the 32 bytes written to `out`. -/
def x25519 (secret pub : Bytes 32) : List UInt8 := store (x25519Limbs secret pub)

/-- `x25519_ecdhBasepoint`. -/
def ecdhBasepoint : Bytes 32 := ⟨9 :: List.replicate 31 0, rfl⟩

end Hc.X25519

namespace Hc.Rfc7748

/-- `decodeScalar25519`. -/
def decodeScalar (bytes : List UInt8) : ℕ := 2 ^ 254 + 8 * (leNat bytes / 8 % 2 ^ 251)

/-- `decodeUCoordinate`: the top bit is ignored and the number taken modulo `p`. -/
def decodeUCoordinate (bytes : List UInt8) : ZMod Curve25519.p := (leNat bytes % 2 ^ 255 : ℕ)

/-- `encodeUCoordinate`. -/
def encodeUCoordinate (u : ZMod Curve25519.p) : List UInt8 := leBytes 32 u.val

/-- The constant of the ladder, `(486662 - 2) / 4`. -/
def a24 : ZMod Curve25519.p := 121665

/-- The scalar multiplication of section 5. -/
def mul (k : ℕ) (u : ZMod Curve25519.p) : ZMod Curve25519.p :=
  let s := Ladder.deferred a24 u k 255 (false, Ladder.start u)
  let r := Ladder.cswap s.1 s.2
  r.x2 * r.z2 ^ (Curve25519.p - 2)

/-- The function X25519. -/
def x25519 (secret pub : Bytes 32) : List UInt8 :=
  encodeUCoordinate (mul (decodeScalar secret.toList) (decodeUCoordinate pub.toList))

end Hc.Rfc7748
