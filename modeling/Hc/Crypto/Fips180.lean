import Mathlib.Data.Fin.VecNotation
import Mathlib.Data.Nat.NthRoot.Defs
import Hc.Foundation.MerkleDamgard

/-!
# The secure hash standard

FIPS 180-4 for messages of whole bytes: SHA-1, SHA-256, SHA-384 and SHA-512, with the names
of the standard. The constants of SHA-2 are given by what the standard says they are.
-/

namespace Hc.Fips180

variable {w : ℕ}

/-! ## Functions -/

def Ch (x y z : BitVec w) : BitVec w := (x &&& y) ^^^ (~~~x &&& z)

def Maj (x y z : BitVec w) : BitVec w := (x &&& y) ^^^ (x &&& z) ^^^ (y &&& z)

def Parity (x y z : BitVec w) : BitVec w := x ^^^ y ^^^ z

/-- The first eighty primes. -/
def primes : List ℕ :=
  [2, 3, 5, 7, 11, 13, 17, 19, 23, 29, 31, 37, 41, 43, 47, 53, 59, 61, 67, 71, 73, 79, 83, 89,
    97, 101, 103, 107, 109, 113, 127, 131, 137, 139, 149, 151, 157, 163, 167, 173, 179, 181, 191,
    193, 197, 199, 211, 223, 227, 229, 233, 239, 241, 251, 257, 263, 269, 271, 277, 281, 283,
    293, 307, 311, 313, 317, 331, 337, 347, 349, 353, 359, 367, 373, 379, 383, 389, 397, 401, 409]

/-- The first `w` bits of the fractional part of the `e`-th root of prime number `t`. -/
def fractionalRoot (e w t : ℕ) : BitVec w :=
  BitVec.ofNat w (Nat.nthRoot e (primes.getD t 0 * 2 ^ (e * w)))

/-! ## SHA-2 -/

/-- What differs between SHA-256 and SHA-512. -/
structure Sha2 (w : ℕ) where
  numRounds : ℕ
  bigSigma0 : BitVec w → BitVec w
  bigSigma1 : BitVec w → BitVec w
  sigma0 : BitVec w → BitVec w
  sigma1 : BitVec w → BitVec w

def sha2With32 : Sha2 32 where
  numRounds := 64
  bigSigma0 x := x.rotateRight 2 ^^^ x.rotateRight 13 ^^^ x.rotateRight 22
  bigSigma1 x := x.rotateRight 6 ^^^ x.rotateRight 11 ^^^ x.rotateRight 25
  sigma0 x := x.rotateRight 7 ^^^ x.rotateRight 18 ^^^ x >>> 3
  sigma1 x := x.rotateRight 17 ^^^ x.rotateRight 19 ^^^ x >>> 10

def sha2With64 : Sha2 64 where
  numRounds := 80
  bigSigma0 x := x.rotateRight 28 ^^^ x.rotateRight 34 ^^^ x.rotateRight 39
  bigSigma1 x := x.rotateRight 14 ^^^ x.rotateRight 18 ^^^ x.rotateRight 41
  sigma0 x := x.rotateRight 1 ^^^ x.rotateRight 8 ^^^ x >>> 7
  sigma1 x := x.rotateRight 19 ^^^ x.rotateRight 61 ^^^ x >>> 6

/-- The working variables of SHA-2. -/
structure Vars8 (w : ℕ) where
  a : BitVec w
  b : BitVec w
  c : BitVec w
  d : BitVec w
  e : BitVec w
  f : BitVec w
  g : BitVec w
  h : BitVec w

namespace Sha2

/-- The message schedule. -/
def W (self : Sha2 w) (M : ℕ → BitVec w) (t : ℕ) : BitVec w :=
  if t < 16 then M t
  else self.sigma1 (W self M (t - 2)) + W self M (t - 7) + self.sigma0 (W self M (t - 15)) +
    W self M (t - 16)
termination_by t

/-- Round `t`. -/
def round (self : Sha2 w) (M : ℕ → BitVec w) (v : Vars8 w) (t : ℕ) : Vars8 w :=
  let T1 := v.h + self.bigSigma1 v.e + Ch v.e v.f v.g + fractionalRoot 3 w t + self.W M t
  let T2 := self.bigSigma0 v.a + Maj v.a v.b v.c
  ⟨T1 + T2, v.a, v.b, v.c, v.d + T1, v.e, v.f, v.g⟩

/-- The intermediate hash value after a block. -/
def compress (self : Sha2 w) (H : Fin 8 → BitVec w) (block : List UInt8) : Fin 8 → BitVec w :=
  let M (i : ℕ) := loadBE w block (w / 8 * i)
  let start : Vars8 w := ⟨H 0, H 1, H 2, H 3, H 4, H 5, H 6, H 7⟩
  let v := (List.range self.numRounds).foldl (self.round M) start
  ![H 0 + v.a, H 1 + v.b, H 2 + v.c, H 3 + v.d, H 4 + v.e, H 5 + v.f, H 6 + v.g, H 7 + v.h]

end Sha2

def sha256 (message : List UInt8) : List UInt8 :=
  (List.ofFn (MerkleDamgard.digest 64 8 sha2With32.compress
    (fun i => fractionalRoot 2 32 i.val) message)).flatMap storeBE

def sha512 (message : List UInt8) : List UInt8 :=
  (List.ofFn (MerkleDamgard.digest 128 16 sha2With64.compress
    (fun i => fractionalRoot 2 64 i.val) message)).flatMap storeBE

/-- SHA-384 starts from the ninth to the sixteenth prime and drops two words. -/
def sha384 (message : List UInt8) : List UInt8 :=
  ((List.ofFn (MerkleDamgard.digest 128 16 sha2With64.compress
    (fun i => fractionalRoot 2 64 (i.val + 8)) message)).flatMap storeBE).take 48

/-! ## SHA-1 -/

/-- The working variables of SHA-1. -/
structure Vars5 where
  a : BitVec 32
  b : BitVec 32
  c : BitVec 32
  d : BitVec 32
  e : BitVec 32

namespace Sha1

def f (t : ℕ) : BitVec 32 → BitVec 32 → BitVec 32 → BitVec 32 :=
  if t < 20 then Ch else if t < 40 then Parity else if t < 60 then Maj else Parity

def K (t : ℕ) : BitVec 32 :=
  if t < 20 then 0x5a827999 else if t < 40 then 0x6ed9eba1
  else if t < 60 then 0x8f1bbcdc else 0xca62c1d6

/-- The message schedule. -/
def W (M : ℕ → BitVec 32) (t : ℕ) : BitVec 32 :=
  if t < 16 then M t
  else (W M (t - 3) ^^^ W M (t - 8) ^^^ W M (t - 14) ^^^ W M (t - 16)).rotateLeft 1
termination_by t

/-- Round `t`. -/
def round (M : ℕ → BitVec 32) (v : Vars5) (t : ℕ) : Vars5 :=
  let T := v.a.rotateLeft 5 + f t v.b v.c v.d + v.e + K t + W M t
  ⟨T, v.a, v.b.rotateLeft 30, v.c, v.d⟩

/-- The intermediate hash value after a block. -/
def compress (H : Fin 5 → BitVec 32) (block : List UInt8) : Fin 5 → BitVec 32 :=
  let M (i : ℕ) := loadBE 32 block (4 * i)
  let v := (List.range 80).foldl (round M) ⟨H 0, H 1, H 2, H 3, H 4⟩
  ![H 0 + v.a, H 1 + v.b, H 2 + v.c, H 3 + v.d, H 4 + v.e]

end Sha1

def sha1 (message : List UInt8) : List UInt8 :=
  (List.ofFn (MerkleDamgard.digest 64 8 Sha1.compress
    ![0x67452301, 0xefcdab89, 0x98badcfe, 0x10325476, 0xc3d2e1f0] message)).flatMap storeBE

end Hc.Fips180
