import Hc.Crypto.Fips180

/-!
# SHA-256 and SHA-512

`hc/core/hc/crypto/sha256.c` and `sha512.c`. The two files differ in the width of a word, in
the shift counts, in the tables and in the size of the length field. The working variables
are kept in an array `r` of which every round uses the eight words from `r[i]` on.
-/

namespace Hc

namespace Sha2

variable {w : ℕ}

/-- What differs between the two files in `_blocks`. -/
structure Params (w : ℕ) where
  SIGMA0_A : BitVec w → BitVec w
  SIGMA1_A : BitVec w → BitVec w
  SIGMA0_B : BitVec w → BitVec w
  SIGMA1_B : BitVec w → BitVec w
  /-- `_sha256_round` and `_sha512_round`. -/
  round : List (BitVec w)

/-- `_sha256_CH` and `_sha512_CH`. -/
def CH (x y z : BitVec w) : BitVec w := z ^^^ (x &&& (y ^^^ z))

/-- `_sha256_MAJ` and `_sha512_MAJ`. -/
def MAJ (x y z : BitVec w) : BitVec w := (x &&& (y ^^^ z)) ^^^ (y &&& z)

/-- The arrays `w` and `r` of `_blocks`. -/
structure Arrays (width : ℕ) where
  w : ℕ → BitVec width
  r : ℕ → BitVec width

/-- One iteration of the round loop, with `rounds` iterations in all. -/
def blockRound (params : Params w) (rounds : ℕ) (self : Arrays w) (i : ℕ) : Arrays w :=
  let r := self.r
  let x := r i + self.w i + params.round.getD i 0 + params.SIGMA1_B (r (i + 3)) +
    CH (r (i + 3)) (r (i + 2)) (r (i + 1))
  let r := Function.update r (i + 4) (r (i + 4) + x)
  let r := Function.update r (i + 8) (x + params.SIGMA0_B (r (i + 7)) +
    MAJ (r (i + 7)) (r (i + 6)) (r (i + 5)))
  if i < rounds - 16 then
    ⟨Function.update self.w (i + 16)
      (self.w i + self.w (i + 9) + params.SIGMA1_A (self.w (i + 14)) +
      params.SIGMA0_A (self.w (i + 1))), r⟩
  else ⟨self.w, r⟩

/-- One iteration of the loop of `_sha256_blocks` and `_sha512_blocks`. -/
def block (params : Params w) (rounds : ℕ) (state : Fin 8 → BitVec w) (input : List UInt8) :
    Fin 8 → BitVec w :=
  let start : Arrays w :=
    ⟨fun i => if i < 16 then loadBE w input (w / 8 * i) else 0,
      fun j => if h : j < 8 then state (Fin.rev ⟨j, h⟩) else 0⟩
  let r := ((List.range rounds).foldl (blockRound params rounds) start).r
  fun i => state i + r (rounds + 7 - i)

end Sha2

/-- `struct sha256`: the buffer, and `state` with `blockCounter`. -/
abbrev Sha256 := BlockStream ((Fin 8 → BitVec 32) × BitVec 64) 64

namespace Sha256

def params : Sha2.Params 32 where
  SIGMA0_A x := x.rotateRight 7 ^^^ x.rotateRight 18 ^^^ x >>> 3
  SIGMA1_A x := x.rotateRight 17 ^^^ x.rotateRight 19 ^^^ x >>> 10
  SIGMA0_B x := x.rotateRight 2 ^^^ x.rotateRight 13 ^^^ x.rotateRight 22
  SIGMA1_B x := x.rotateRight 6 ^^^ x.rotateRight 11 ^^^ x.rotateRight 25
  round :=
    [0x428a2f98, 0x71374491, 0xb5c0fbcf, 0xe9b5dba5,
      0x3956c25b, 0x59f111f1, 0x923f82a4, 0xab1c5ed5,
      0xd807aa98, 0x12835b01, 0x243185be, 0x550c7dc3,
      0x72be5d74, 0x80deb1fe, 0x9bdc06a7, 0xc19bf174,
      0xe49b69c1, 0xefbe4786, 0x0fc19dc6, 0x240ca1cc,
      0x2de92c6f, 0x4a7484aa, 0x5cb0a9dc, 0x76f988da,
      0x983e5152, 0xa831c66d, 0xb00327c8, 0xbf597fc7,
      0xc6e00bf3, 0xd5a79147, 0x06ca6351, 0x14292967,
      0x27b70a85, 0x2e1b2138, 0x4d2c6dfc, 0x53380d13,
      0x650a7354, 0x766a0abb, 0x81c2c92e, 0x92722c85,
      0xa2bfe8a1, 0xa81a664b, 0xc24b8b70, 0xc76c51a3,
      0xd192e819, 0xd6990624, 0xf40e3585, 0x106aa070,
      0x19a4c116, 0x1e376c08, 0x2748774c, 0x34b0bcb5,
      0x391c0cb3, 0x4ed8aa4a, 0x5b9cca4f, 0x682e6ff3,
      0x748f82ee, 0x78a5636f, 0x84c87814, 0x8cc70208,
      0x90befffa, 0xa4506ceb, 0xbef9a3f7, 0xc67178f2]

/-- One block in `_sha256_blocks`. -/
def block : (Fin 8 → BitVec 32) → List UInt8 → Fin 8 → BitVec 32 := Sha2.block params 64

/-- `sha256_init`. The buffer keeps whatever it held before. -/
def init (self : Sha256) : Sha256 :=
  { self with
    state := (![0x6a09e667, 0xbb67ae85, 0x3c6ef372, 0xa54ff53a,
      0x510e527f, 0x9b05688c, 0x1f83d9ab, 0x5be0cd19], 0)
    bufferSize := 0 }

/-- `sha256_update`. -/
def update (self : Sha256) (input : List UInt8) : Sha256 :=
  BlockStream.update 6 (MerkleDamgard.countBlocks 64 block) self input

/-- The `numBits` stored by `sha256_finish`. -/
def storeBits (blockCounter : BitVec 64) (bufferSize : ℕ) : List UInt8 :=
  storeBE (((blockCounter <<< 6) + BitVec.ofNat 64 bufferSize) <<< 3)

/-- `sha256_finish`: the bytes of `hash`. -/
def finish (self : Sha256) : List UInt8 :=
  (List.ofFn (MerkleDamgard.finish 8 block storeBits self)).flatMap storeBE

end Sha256

/-- `struct sha512`. -/
abbrev Sha512 := BlockStream ((Fin 8 → BitVec 64) × BitVec 64) 128

namespace Sha512

def params : Sha2.Params 64 where
  SIGMA0_A x := x.rotateRight 1 ^^^ x.rotateRight 8 ^^^ x >>> 7
  SIGMA1_A x := x.rotateRight 19 ^^^ x.rotateRight 61 ^^^ x >>> 6
  SIGMA0_B x := x.rotateRight 28 ^^^ x.rotateRight 34 ^^^ x.rotateRight 39
  SIGMA1_B x := x.rotateRight 14 ^^^ x.rotateRight 18 ^^^ x.rotateRight 41
  round :=
    [0x428a2f98d728ae22, 0x7137449123ef65cd, 0xb5c0fbcfec4d3b2f, 0xe9b5dba58189dbbc,
      0x3956c25bf348b538, 0x59f111f1b605d019, 0x923f82a4af194f9b, 0xab1c5ed5da6d8118,
      0xd807aa98a3030242, 0x12835b0145706fbe, 0x243185be4ee4b28c, 0x550c7dc3d5ffb4e2,
      0x72be5d74f27b896f, 0x80deb1fe3b1696b1, 0x9bdc06a725c71235, 0xc19bf174cf692694,
      0xe49b69c19ef14ad2, 0xefbe4786384f25e3, 0x0fc19dc68b8cd5b5, 0x240ca1cc77ac9c65,
      0x2de92c6f592b0275, 0x4a7484aa6ea6e483, 0x5cb0a9dcbd41fbd4, 0x76f988da831153b5,
      0x983e5152ee66dfab, 0xa831c66d2db43210, 0xb00327c898fb213f, 0xbf597fc7beef0ee4,
      0xc6e00bf33da88fc2, 0xd5a79147930aa725, 0x06ca6351e003826f, 0x142929670a0e6e70,
      0x27b70a8546d22ffc, 0x2e1b21385c26c926, 0x4d2c6dfc5ac42aed, 0x53380d139d95b3df,
      0x650a73548baf63de, 0x766a0abb3c77b2a8, 0x81c2c92e47edaee6, 0x92722c851482353b,
      0xa2bfe8a14cf10364, 0xa81a664bbc423001, 0xc24b8b70d0f89791, 0xc76c51a30654be30,
      0xd192e819d6ef5218, 0xd69906245565a910, 0xf40e35855771202a, 0x106aa07032bbd1b8,
      0x19a4c116b8d2d0c8, 0x1e376c085141ab53, 0x2748774cdf8eeb99, 0x34b0bcb5e19b48a8,
      0x391c0cb3c5c95a63, 0x4ed8aa4ae3418acb, 0x5b9cca4f7763e373, 0x682e6ff3d6b2b8a3,
      0x748f82ee5defb2fc, 0x78a5636f43172f60, 0x84c87814a1f0ab72, 0x8cc702081a6439ec,
      0x90befffa23631e28, 0xa4506cebde82bde9, 0xbef9a3f7b2c67915, 0xc67178f2e372532b,
      0xca273eceea26619c, 0xd186b8c721c0c207, 0xeada7dd6cde0eb1e, 0xf57d4f7fee6ed178,
      0x06f067aa72176fba, 0x0a637dc5a2c898a6, 0x113f9804bef90dae, 0x1b710b35131c471b,
      0x28db77f523047d84, 0x32caab7b40c72493, 0x3c9ebe0a15c9bebc, 0x431d67c49c100d4c,
      0x4cc5d4becb3e42b6, 0x597f299cfc657e2a, 0x5fcb6fab3ad6faec, 0x6c44198c4a475817]

/-- One block in `_sha512_blocks`. -/
def block : (Fin 8 → BitVec 64) → List UInt8 → Fin 8 → BitVec 64 := Sha2.block params 80

/-- `sha512_init`. -/
def init (self : Sha512) : Sha512 :=
  { self with
    state := (![0x6a09e667f3bcc908, 0xbb67ae8584caa73b, 0x3c6ef372fe94f82b, 0xa54ff53a5f1d36f1,
      0x510e527fade682d1, 0x9b05688c2b3e6c1f, 0x1f83d9abfb41bd6b, 0x5be0cd19137e2179], 0)
    bufferSize := 0 }

/-- `sha512_init384`. -/
def init384 (self : Sha512) : Sha512 :=
  { self with
    state := (![0xcbbb9d5dc1059ed8, 0x629a292a367cd507, 0x9159015a3070dd17, 0x152fecd8f70e5939,
      0x67332667ffc00b31, 0x8eb44a8768581511, 0xdb0c2e0d64f98fa7, 0x47b5481dbefa4fa4], 0)
    bufferSize := 0 }

/-- `sha512_update`. -/
def update (self : Sha512) (input : List UInt8) : Sha512 :=
  BlockStream.update 7 (MerkleDamgard.countBlocks 128 block) self input

/-- The `numBits` stored by `sha512_finish`, its two halves one after the other. -/
def storeBits (blockCounter : BitVec 64) (bufferSize : ℕ) : List UInt8 :=
  let numBits : BitVec 128 :=
    ((blockCounter.setWidth 128 <<< 7) + BitVec.ofNat 128 bufferSize) <<< 3
  storeBE ((numBits >>> 64).setWidth 64) ++ storeBE (numBits.setWidth 64)

/-- `sha512_finish`: the bytes of `hash`. -/
def finish (self : Sha512) : List UInt8 :=
  (List.ofFn (MerkleDamgard.finish 16 block storeBits self)).flatMap storeBE

end Sha512

end Hc
