import Hc.Foundation.BlockStream

/-!
# The Poly1305 code

`hc/core/hc/crypto/poly1305.c`: the accumulator is kept in limbs of 44, 44 and
42 bits that are only partially reduced after each block, and carried out in
full once, at the end. The buffering of incomplete blocks is the one shared
with the hashes, `BlockStream.update`.
-/

namespace Hc.Poly1305

/-- `r`, `h` and `pad` of `struct poly1305`. -/
structure State where
  r0 : Word 64
  r1 : Word 64
  r2 : Word 64
  h0 : Word 64
  h1 : Word 64
  h2 : Word 64
  pad0 : Word 64
  pad1 : Word 64

end Poly1305

/-- `struct poly1305`. -/
abbrev Poly1305 := BlockStream Poly1305.State 16

namespace Poly1305

/-- One iteration of the loop of `_poly1305_blocks`: `h = (h + m) * r`, partially
reduced modulo `2 ^ 130 - 5`. -/
def blockStep (hibit : Word 64) (self : State) (block : List UInt8) : State :=
  let s1 := self.r1 * 20
  let s2 := self.r2 * 20
  -- h += m[i]
  let t0 := loadU64 block 0
  let t1 := loadU64 block 8
  let h0 := self.h0 + (t0 &&& 0xFFFFFFFFFFF)
  let h1 := self.h1 + (((t0 >>> 44) ||| (t1 <<< 20)) &&& 0xFFFFFFFFFFF)
  let h2 := self.h2 + (((t1 >>> 24) &&& 0x3FFFFFFFFFF) ||| hibit)
  -- h *= r
  let d0 := Word.mul128 h0 self.r0 + Word.mul128 h1 s2 + Word.mul128 h2 s1
  let d1 := Word.mul128 h0 self.r1 + Word.mul128 h1 self.r0 + Word.mul128 h2 s2
  let d2 := Word.mul128 h0 self.r2 + Word.mul128 h1 self.r1 + Word.mul128 h2 self.r0
  -- (partial) h %= p
  let h0 := d0.truncate 64 &&& 0xFFFFFFFFFFF
  let d1 := d1 + ((d0 >>> 44).cast 64).cast 128
  let h1 := d1.truncate 64 &&& 0xFFFFFFFFFFF
  let d2 := d2 + ((d1 >>> 44).cast 64).cast 128
  let h2 := d2.truncate 64 &&& 0x3FFFFFFFFFF
  let h0 := h0 + (d2 >>> 42).cast 64 * 5
  let h1 := h1 + (h0 >>> 44)
  let h0 := h0 &&& 0xFFFFFFFFFFF
  { self with h0, h1, h2 }

/-- `_poly1305_blocks`. -/
def blocks (hibit : Word 64) (self : State) (input : List UInt8) (numBlocks : ℕ) : State :=
  absorbBlocks 16 (blockStep hibit) numBlocks self input

/-- `poly1305_init`. The buffer keeps whatever it held before. -/
def init (self : Poly1305) (key : Bytes 32) : Poly1305 :=
  let t0 := loadU64 key.toList 0
  let t1 := loadU64 key.toList 8
  { self with
    bufferSize := 0
    state :=
      { r0 := t0 &&& 0xFFC0FFFFFFF
        r1 := ((t0 >>> 44) ||| (t1 <<< 20)) &&& 0xFFFFFC0FFFF
        r2 := (t1 >>> 24) &&& 0x00FFFFFFC0F
        h0 := 0
        h1 := 0
        h2 := 0
        pad0 := loadU64 key.toList 16
        pad1 := loadU64 key.toList 24 } }

/-- `poly1305_update`. -/
def update (self : Poly1305) (input : List UInt8) : Poly1305 :=
  BlockStream.update 4 (blocks 0x10000000000) self input

/-- The last, incomplete block of `poly1305_finish`, padded with a one byte and zeros. -/
def lastBlock (self : Poly1305) : State :=
  if self.bufferSize > 0 then
    let i := self.bufferSize
    let buffer := self.buffer.write i [1]
    let i := i + 1
    let buffer := buffer.write i (List.replicate (16 - i) 0)
    blocks 0 self.state buffer.toList 1
  else self.state

/-- Three limbs of 44, 44 and 42 bits. -/
structure Limbs where
  l0 : Word 64
  l1 : Word 64
  l2 : Word 64

/-- `poly1305_finish`, "Fully carry h". -/
def carry (h : Limbs) : Limbs :=
  let h2 := h.l2 + (h.l1 >>> 44)
  let h1 := h.l1 &&& 0xFFFFFFFFFFF
  let h0 := h.l0 + (h2 >>> 42) * 5
  let h2 := h2 &&& 0x3FFFFFFFFFF
  let h1 := h1 + (h0 >>> 44)
  let h0 := h0 &&& 0xFFFFFFFFFFF
  let h2 := h2 + (h1 >>> 44)
  let h1 := h1 &&& 0xFFFFFFFFFFF
  let h0 := h0 + (h2 >>> 42) * 5
  let h2 := h2 &&& 0x3FFFFFFFFFF
  let h1 := h1 + (h0 >>> 44)
  let h0 := h0 &&& 0xFFFFFFFFFFF
  ⟨h0, h1, h2⟩

/-- `poly1305_finish`, "Compute h + -p" and the selection after it. The
subtraction of `0x80000000000` is meant to wrap below zero. -/
def select (h : Limbs) : Limbs :=
  let g0 := h.l0 + 5
  let g1 := h.l1 + (g0 >>> 44)
  let g2 := (h.l2 + (g1 >>> 44)).wrapSub 0x80000000000
  let g0 := g0 &&& 0xFFFFFFFFFFF
  let g1 := g1 &&& 0xFFFFFFFFFFF
  let c := (g2 >>> 63).wrapSub 1
  let g0 := g0 &&& c
  let g1 := g1 &&& c
  let g2 := g2 &&& c
  let c := ~~~c
  ⟨(h.l0 &&& c) ||| g0, (h.l1 &&& c) ||| g1, (h.l2 &&& c) ||| g2⟩

/-- `poly1305_finish`, from "h = (h + pad)" on. -/
def addPad (h : Limbs) (t0 t1 : Word 64) : List UInt8 :=
  let h0 := h.l0 + (t0 &&& 0xFFFFFFFFFFF)
  let h1 := h.l1 + ((((t0 >>> 44) ||| (t1 <<< 20)) &&& (0xFFFFFFFFFFF : Word 64)) + (h0 >>> 44))
  let h2 := h.l2 + (((t1 >>> 24) &&& (0x3FFFFFFFFFF : Word 64)) + (h1 >>> 44))
  let h0 := h0 &&& 0xFFFFFFFFFFF
  let h1 := h1 &&& 0xFFFFFFFFFFF
  let h2 := h2 &&& 0x3FFFFFFFFFF
  -- mac = h % (2^128)
  let h0 := h0 ||| (h1 <<< 44)
  let h1 := (h1 >>> 20) ||| (h2 <<< 24)
  storeU64 h0 ++ storeU64 h1

/-- `poly1305_finish`: the bytes stored in `mac`. -/
def finish (self : Poly1305) : List UInt8 :=
  let state := lastBlock self
  addPad (select (carry ⟨state.h0, state.h1, state.h2⟩)) state.pad0 state.pad1

end Poly1305

end Hc
