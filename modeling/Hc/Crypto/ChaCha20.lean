import Mathlib.Data.Fintype.BigOperators
import Hc.Foundation.Bytes

/-!
# ChaCha20

`hc/core/hc/crypto/chacha20.c` with the original layout of counter and nonce, and the loop that
`hc/examples/ssh/client.c` encrypts and decrypts with: every 64 bytes are combined with the next
block.
-/

namespace Hc

/-- `union chacha20` after `chacha20_init`: the constants are left out. -/
structure ChaCha20 where
  key : Bytes 32
  blockCounter : BitVec 64
  nonce : Bytes 8

namespace ChaCha20

/-- `_chacha20_QUARTER_ROUND` on four of the words. -/
def quarterRound (x : Vector (BitVec 32) 16) (a b c d : Fin 16) : Vector (BitVec 32) 16 :=
  let x := x.set a (x[a] + x[b])
  let x := x.set d ((x[d] ^^^ x[a]).rotateLeft 16)
  let x := x.set c (x[c] + x[d])
  let x := x.set b ((x[b] ^^^ x[c]).rotateLeft 12)
  let x := x.set a (x[a] + x[b])
  let x := x.set d ((x[d] ^^^ x[a]).rotateLeft 8)
  let x := x.set c (x[c] + x[d])
  x.set b ((x[b] ^^^ x[c]).rotateLeft 7)

/-- One iteration of the loop of `chacha20_block`. -/
def doubleRound (x : Vector (BitVec 32) 16) : Vector (BitVec 32) 16 :=
  let x := quarterRound x 0 4 8 12
  let x := quarterRound x 1 5 9 13
  let x := quarterRound x 2 6 10 14
  let x := quarterRound x 3 7 11 15
  let x := quarterRound x 0 5 10 15
  let x := quarterRound x 1 6 11 12
  let x := quarterRound x 2 7 8 13
  quarterRound x 3 4 9 14

/-- The bytes of the union. -/
def bytes (self : ChaCha20) : List UInt8 :=
  leBytes 8 0x3320646e61707865 ++ leBytes 8 0x6b20657479622d32 ++ self.key.toList ++
    storeLE self.blockCounter ++ self.nonce.toList

/-- The words `u32` of the union. -/
def words (self : ChaCha20) : Vector (BitVec 32) 16 := .ofFn fun i => loadLE 32 self.bytes (4 * i)

/-- `chacha20_block`. -/
def block (self : ChaCha20) : Bytes 64 :=
  let rounds := doubleRound^[10] self.words
  ⟨(List.ofFn fun i : Fin 16 => rounds[i] + self.words[i]).flatMap storeLE, by
    rw [List.length_flatMap]
    simp⟩

/-- The first 32 bytes of a block, which are the key of a MAC. -/
def macKey (self : ChaCha20) : Bytes 32 :=
  ⟨self.block.toList.take 32, by simp⟩

/-- The cipher with the nonce of a packet. -/
def withNonce (self : ChaCha20) (sequenceNumber : BitVec 32) : ChaCha20 :=
  { self with nonce := ⟨beBytes 8 sequenceNumber.toNat, length_beBytes 8 _⟩ }

/-- The cipher with its counter set to 0. -/
def reset (self : ChaCha20) : ChaCha20 := { self with blockCounter := 0 }

/-- Bytes combined with the first ones of a block. -/
def xorBytes (data stream : List UInt8) : List UInt8 := List.zipWith (· ^^^ ·) data stream

/-- The cipher for the next block. -/
def next (self : ChaCha20) : ChaCha20 := { self with blockCounter := self.blockCounter + 1 }

/-- The loop over a packet from the byte behind its size on. The combined bytes are words in the
code; the size of a packet is a multiple of four. -/
def crypt (self : ChaCha20) (data : List UInt8) : ChaCha20 × List UInt8 :=
  let iEnd := min data.length 64
  let head := xorBytes (data.take iEnd) self.next.block.toList
  if iEnd = data.length then (self.next, head)
  else
    let (self, rest) := self.next.crypt (data.drop iEnd)
    (self, head ++ rest)
termination_by data.length
decreasing_by
  rw [List.length_drop]
  omega

/-! ## The way back -/

theorem length_xorBytes {data stream : List UInt8} (h : data.length ≤ stream.length) :
    (xorBytes data stream).length = data.length := by
  rw [xorBytes, List.length_zipWith]
  omega

theorem xorBytes_xorBytes {data stream : List UInt8} (h : data.length ≤ stream.length) :
    xorBytes (xorBytes data stream) stream = data := by
  induction data generalizing stream with
  | nil => rfl
  | cons d data ih =>
      cases stream with
      | nil => cases h
      | cons k stream =>
          have hrest := ih (Nat.le_of_succ_le_succ h)
          rw [xorBytes, xorBytes] at hrest
          rw [xorBytes, xorBytes, List.zipWith_cons_cons, List.zipWith_cons_cons, hrest]
          congr 1
          rw [UInt8.xor_assoc, UInt8.xor_self, UInt8.xor_zero]

theorem length_block (self : ChaCha20) : self.block.toList.length = 64 := self.block.toList_length

variable {data : List UInt8} (self : ChaCha20)

theorem crypt_of_le (h : data.length ≤ 64) :
    self.crypt data = (self.next, xorBytes data self.next.block.toList) := by
  rw [crypt, Nat.min_eq_left h, List.take_length]
  exact if_pos rfl

theorem crypt_of_gt (h : 64 < data.length) :
    self.crypt data = ((self.next.crypt (data.drop 64)).1,
      xorBytes (data.take 64) self.next.block.toList ++ (self.next.crypt (data.drop 64)).2) := by
  rw [crypt, Nat.min_eq_right h.le]
  exact if_neg h.ne

theorem length_xorBytes_block (cipher : ChaCha20) (h : data.length ≤ 64) :
    (xorBytes data cipher.block.toList).length = data.length :=
  length_xorBytes (by rwa [length_block])

/-- The size of the data is kept, and of the cipher only the counter changes. -/
theorem crypt_spec : (self.crypt data).2.length = data.length ∧
    (self.crypt data).1.reset = self.reset := by
  induction hn : data.length using Nat.strong_induction_on generalizing data self with
  | h n ih =>
      subst hn
      rcases Nat.lt_or_ge 64 data.length with hgt | hle
      · have hdrop : (data.drop 64).length < data.length := by
          rw [List.length_drop]
          omega
        obtain ⟨hlength, hcipher⟩ := ih _ hdrop self.next rfl
        have htake : (data.take 64).length = 64 := List.length_take_of_le hgt.le
        rw [crypt_of_gt self hgt, List.length_append, length_xorBytes_block _ htake.le, hlength,
          htake, List.length_drop]
        exact ⟨by omega, hcipher⟩
      · rw [crypt_of_le self hle]
        exact ⟨length_xorBytes_block _ hle, rfl⟩

/-- The loop decrypts what it has encrypted. -/
theorem crypt_crypt : (self.crypt (self.crypt data).2).2 = data := by
  induction hn : data.length using Nat.strong_induction_on generalizing data self with
  | h n ih =>
      subst hn
      have hlength := (@crypt_spec data self).1
      rcases Nat.lt_or_ge 64 data.length with hgt | hle
      · have hdrop : (data.drop 64).length < data.length := by
          rw [List.length_drop]
          omega
        have htake : (data.take 64).length = 64 := List.length_take_of_le hgt.le
        have hhead := (length_xorBytes_block self.next htake.le).trans htake
        rw [crypt_of_gt self (hgt.trans_eq hlength.symm), crypt_of_gt self hgt,
          List.take_left' hhead, List.drop_left' hhead, ih _ hdrop self.next rfl,
          xorBytes_xorBytes (by rw [length_block]; exact htake.le), List.take_append_drop]
      · rw [crypt_of_le self (hlength.le.trans hle), crypt_of_le self hle]
        exact xorBytes_xorBytes (by rwa [length_block])

end ChaCha20

end Hc
