import Hc.Foundation.BlockStream

/-!
# Iterated hashes

A hash consumes its message in blocks of `N` bytes after appending a one bit, zeros and the
length of the message in bits. `digest` says that of a whole message; `finish` is the code that
completes the last block of a `BlockStream` with a block counter.
-/

namespace Hc.MerkleDamgard

variable {σ : Type} {N : ℕ}

/-! ## Whole messages -/

/-- What is appended to a message of `length` bytes: a one bit, the smallest number of zeros
that leads to a block boundary, and the number of bits in `lengthSize` bytes. -/
def padding (N lengthSize length : ℕ) : List UInt8 :=
  0x80 :: (List.replicate ((N - (length + 1 + lengthSize) % N) % N) 0 ++
    beBytes lengthSize (8 * length))

/-- The hash of a message before it is written out: the padded message is compressed block
by block from the initial value. -/
def digest (N lengthSize : ℕ) (compress : σ → List UInt8 → σ) (initial : σ)
    (message : List UInt8) : σ :=
  let padded := message ++ padding N lengthSize message.length
  absorbBlocks N compress (padded.length / N) initial padded

/-! ## Streams -/

/-- Consume whole blocks and count them. -/
def countBlocks (N : ℕ) (compress : σ → List UInt8 → σ) (self : σ × BitVec 64)
    (input : List UInt8) (numBlocks : ℕ) : σ × BitVec 64 :=
  (absorbBlocks N compress numBlocks self.1 input, self.2 + BitVec.ofNat 64 numBlocks)

/-- Complete the last block. `storeBits` writes the number of bits from the block counter and
the size of the buffer. -/
def finish (lengthSize : ℕ) (compress : σ → List UInt8 → σ)
    (storeBits : BitVec 64 → ℕ → List UInt8) (self : BlockStream (σ × BitVec 64) N) : σ :=
  let numBits := storeBits self.state.2 self.bufferSize
  let buffer := self.buffer.write self.bufferSize [0x80]
  let bufferSize := self.bufferSize + 1
  let (state, buffer, bufferSize) :=
    if bufferSize > N - lengthSize then
      let buffer := buffer.write bufferSize (List.replicate (N - bufferSize) 0)
      (compress self.state.1 buffer.toList, buffer, 0)
    else (self.state.1, buffer, bufferSize)
  let buffer := buffer.write bufferSize (List.replicate (N - lengthSize - bufferSize) 0)
  let buffer := buffer.write (N - lengthSize) numBits
  compress state buffer.toList

variable {lengthSize : ℕ} {compress : σ → List UInt8 → σ}
  {storeBits : BitVec 64 → ℕ → List UInt8}

/-- Counting is one more component of the state. -/
theorem countBlocks_eq (compress : σ → List UInt8 → σ) (self : σ × BitVec 64)
    (input : List UInt8) (k : ℕ) :
    countBlocks N compress self input k =
      absorbBlocks N (fun self block => (compress self.1 block, self.2 + 1)) k self input := by
  induction k generalizing self input with
  | zero => simp [countBlocks, absorbBlocks]
  | succ k ih =>
      rw [absorbBlocks, ← ih]
      simp only [countBlocks, absorbBlocks, Prod.mk.injEq, true_and]
      rw [Nat.add_comm, BitVec.ofNat_add, BitVec.add_assoc]
      rfl

/-- Two writes that follow each other up to the end of the array. -/
theorem toList_write_write (buffer : Bytes N) (offset k : ℕ) (zeros bits : List UInt8)
    (hzeros : offset + zeros.length = k) (hbits : k + bits.length = N) :
    ((buffer.write offset zeros).write k bits).toList =
      buffer.toList.take offset ++ zeros ++ bits := by
  have hlength := (buffer.write offset zeros).toList_length
  subst hzeros
  rw [Bytes.toList_write _ _ _ hbits.le, Bytes.take_write _ _ _ (by omega),
    List.drop_of_length_le (by omega), List.append_nil]

/-- The number of zeros in the padding, by the size of the incomplete block. -/
theorem numZeros_eq {size : ℕ} (hsize : size < N) (hlengthSize : lengthSize < N) :
    (N - (size + 1 + lengthSize) % N) % N =
      if size + 1 > N - lengthSize then N - (size + 1) + (N - lengthSize)
      else N - lengthSize - (size + 1) := by
  split
  next hspill =>
    have hmod : (size + 1 + lengthSize) % N = size + 1 + lengthSize - N := by
      rw [Nat.mod_eq_sub_mod (by omega), Nat.mod_eq_of_lt (by omega)]
    rw [hmod, Nat.mod_eq_of_lt (by omega)]
    omega
  next hfits =>
    rcases Nat.lt_or_ge (size + 1 + lengthSize) N with hlt | hge
    · rw [Nat.mod_eq_of_lt hlt, Nat.mod_eq_of_lt (by omega)]
      omega
    · rw [show size + 1 + lengthSize = N by omega, Nat.mod_self, Nat.sub_zero, Nat.mod_self]
      omega

/-- The counter of a stream that absorbed a message. -/
theorem absorbBlocks_count (k : ℕ) (start : σ) (input : List UInt8) :
    absorbBlocks N (fun self block => (compress self.1 block, self.2 + 1)) k (start, 0#64) input =
      (absorbBlocks N compress k start input, BitVec.ofNat 64 k) := by
  rw [← countBlocks_eq, countBlocks, BitVec.zero_add]

theorem absorbBlocks_single (hN : 0 < N) (state : σ) {block : List UInt8}
    (hblock : block.length = N) :
    absorbBlocks N compress (block.length / N) state block = compress state block := by
  rw [hblock, Nat.div_self hN, absorbBlocks, absorbBlocks, List.take_of_length_le hblock.le]

theorem absorbBlocks_pair (hN : 0 < N) (state : σ) {first second : List UInt8}
    (hfirst : first.length = N) (hsecond : second.length = N) :
    absorbBlocks N compress ((first ++ second).length / N) state (first ++ second) =
      compress (compress state first) second := by
  have hjoin := absorbBlocks_join compress hN state first second (by rw [hfirst, Nat.mod_self])
  rw [← hjoin, absorbBlocks_single hN _ hsecond, absorbBlocks_single hN _ hfirst]

section Finish

variable {start : σ} {self : BlockStream (σ × BitVec 64) N} {message : List UInt8}

/-- The whole blocks of the message come first; what is left is the buffer and the padding. -/
theorem digest_eq_pending (hN : 0 < N)
    (habsorbed : self.Absorbed (fun self block => (compress self.1 block, self.2 + 1))
      (start, 0#64) message) :
    digest N lengthSize compress start message =
      absorbBlocks N compress ((self.pending ++ padding N lengthSize message.length).length / N)
        self.state.1 (self.pending ++ padding N lengthSize message.length) := by
  have hlength := Nat.div_add_mod' message.length N
  have hstate := habsorbed.state_eq
  rw [absorbBlocks_count] at hstate
  have hwhole : (message.take (message.length / N * N)).length = message.length / N * N := by
    rw [List.length_take]
    omega
  have hjoin := absorbBlocks_join compress hN start (message.take (message.length / N * N))
    (self.pending ++ padding N lengthSize message.length) (by rw [hwhole, Nat.mul_mod_left])
  have hpre := absorbBlocks_append compress (message.length / N) start
    (message.take (message.length / N * N)) (message.drop (message.length / N * N)) hwhole.ge
  rw [List.take_append_drop] at hpre
  rw [hwhole, Nat.mul_div_cancel _ hN, ← hpre, habsorbed.pending_eq, ← List.append_assoc,
    List.take_append_drop] at hjoin
  rw [hstate, habsorbed.pending_eq, hjoin]
  rfl

/-- The padding by the size of the incomplete block. -/
theorem padding_eq (hlengthSize : lengthSize < N)
    (habsorbed : self.Absorbed (fun self block => (compress self.1 block, self.2 + 1))
      (start, 0#64) message) :
    padding N lengthSize message.length = 0x80 :: (List.replicate
      (if self.bufferSize + 1 > N - lengthSize
        then N - (self.bufferSize + 1) + (N - lengthSize)
        else N - lengthSize - (self.bufferSize + 1)) 0 ++
      beBytes lengthSize (8 * message.length)) := by
  have hsize : self.bufferSize < N := habsorbed.bufferSize_eq ▸ Nat.mod_lt _ (by omega)
  have hmod : (message.length + 1 + lengthSize) % N = (self.bufferSize + 1 + lengthSize) % N := by
    rw [habsorbed.bufferSize_eq, Nat.add_assoc, Nat.add_assoc, Nat.mod_add_mod]
  rw [padding, hmod, numZeros_eq hsize hlengthSize]

/-- The buffer and the first byte of the padding. -/
theorem take_write_marked (hsize : self.bufferSize < N) :
    (self.buffer.write self.bufferSize [0x80]).toList.take (self.bufferSize + 1) =
      self.pending ++ [0x80] :=
  Bytes.take_write self.buffer self.bufferSize [0x80] hsize

theorem length_pending (hsize : self.bufferSize < N) : self.pending.length = self.bufferSize := by
  rw [BlockStream.pending, List.length_take, self.buffer.toList_length]
  omega

/-- The length has room behind the incomplete block. -/
theorem finish_fits (hsize : self.bufferSize < N) (hfits : self.bufferSize + 1 ≤ N - lengthSize)
    {bits : List UInt8} (hstore : storeBits self.state.2 self.bufferSize = bits)
    (hbits : N - lengthSize + bits.length = N) :
    finish lengthSize compress storeBits self = compress self.state.1
      (self.pending ++ [0x80] ++
        List.replicate (N - lengthSize - (self.bufferSize + 1)) 0 ++ bits) := by
  have hlast := toList_write_write (self.buffer.write self.bufferSize [0x80])
    (self.bufferSize + 1) (N - lengthSize)
    (List.replicate (N - lengthSize - (self.bufferSize + 1)) 0) bits
    (by rw [List.length_replicate]; omega) hbits
  rw [take_write_marked hsize] at hlast
  unfold finish
  simp only [if_neg (Nat.not_lt.mpr hfits), hstore]
  rw [hlast]

/-- The zeros fill the incomplete block and most of another one. -/
theorem finish_spills (hsize : self.bufferSize < N) (hspill : self.bufferSize + 1 > N - lengthSize)
    {bits : List UInt8} (hstore : storeBits self.state.2 self.bufferSize = bits)
    (hbits : N - lengthSize + bits.length = N) :
    finish lengthSize compress storeBits self = compress
      (compress self.state.1
        (self.pending ++ [0x80] ++ List.replicate (N - (self.bufferSize + 1)) 0))
      (List.replicate (N - lengthSize) 0 ++ bits) := by
  have hfirst := toList_write_write (self.buffer.write self.bufferSize [0x80])
    (self.bufferSize + 1) N (List.replicate (N - (self.bufferSize + 1)) 0) []
    (by rw [List.length_replicate]; omega) rfl
  have hsecond := toList_write_write ((self.buffer.write self.bufferSize [0x80]).write
    (self.bufferSize + 1) (List.replicate (N - (self.bufferSize + 1)) 0)) 0 (N - lengthSize)
    (List.replicate (N - lengthSize - 0) 0) bits (by rw [List.length_replicate]; omega) hbits
  rw [Bytes.write_nil, take_write_marked hsize, List.append_nil] at hfirst
  rw [List.take_zero, List.nil_append, Nat.sub_zero] at hsecond
  unfold finish
  simp only [if_pos hspill, Nat.sub_zero, hstore]
  rw [hsecond, hfirst]

/-- Completing the last block of a stream gives the hash of all it absorbed. -/
theorem finish_eq (hlengthSize : lengthSize < N)
    (habsorbed : self.Absorbed (fun self block => (compress self.1 block, self.2 + 1))
      (start, 0#64) message)
    (hbits : storeBits (BitVec.ofNat 64 (message.length / N)) (message.length % N) =
      beBytes lengthSize (8 * message.length)) :
    finish lengthSize compress storeBits self = digest N lengthSize compress start message := by
  have hN : 0 < N := by omega
  have hsize : self.bufferSize < N := habsorbed.bufferSize_eq ▸ Nat.mod_lt _ hN
  have hpending := length_pending hsize
  have hstored : N - lengthSize + (beBytes lengthSize (8 * message.length)).length = N := by
    rw [length_beBytes]
    omega
  have hstate := habsorbed.state_eq
  rw [absorbBlocks_count] at hstate
  have hstore : storeBits self.state.2 self.bufferSize = beBytes lengthSize
      (8 * message.length) := by
    rw [hstate, habsorbed.bufferSize_eq]
    exact hbits
  rw [digest_eq_pending hN habsorbed, padding_eq hlengthSize habsorbed]
  generalize beBytes lengthSize (8 * message.length) = bits at hstored hstore
  split
  next hspill =>
    have hblocks : self.pending ++ 0x80 :: (List.replicate
        (N - (self.bufferSize + 1) + (N - lengthSize)) 0 ++ bits) =
        (self.pending ++ [0x80] ++ List.replicate (N - (self.bufferSize + 1)) 0) ++
        (List.replicate (N - lengthSize) 0 ++ bits) := by
      rw [List.replicate_add]
      simp only [List.append_assoc, List.cons_append, List.nil_append]
    rw [finish_spills hsize hspill hstore hstored, hblocks, absorbBlocks_pair hN]
    · simp only [List.length_append, List.length_replicate, hpending, List.length_singleton]
      omega
    · simp only [List.length_append, List.length_replicate, hstored]
  next hfits =>
    have hblock : self.pending ++ 0x80 :: (List.replicate
        (N - lengthSize - (self.bufferSize + 1)) 0 ++ bits) =
        self.pending ++ [0x80] ++ List.replicate (N - lengthSize - (self.bufferSize + 1)) 0 ++
          bits := by
      simp only [List.append_assoc, List.cons_append, List.nil_append]
    rw [finish_fits hsize (Nat.not_lt.mp hfits) hstore hstored, hblock, absorbBlocks_single hN]
    simp only [List.length_append, List.length_replicate, hpending, List.length_singleton]
    omega

end Finish

/-- A fresh stream, fed in any chunks and completed, gives the hash of their concatenation. -/
theorem finish_foldl_update (shift : ℕ) (hN : N = 2 ^ shift) (hlengthSize : lengthSize < N)
    {start : σ} {self : BlockStream (σ × BitVec 64) N} (hsize : self.bufferSize = 0)
    (hstate : self.state = (start, 0#64)) (chunks : List (List UInt8))
    (hbits : storeBits (BitVec.ofNat 64 (chunks.flatten.length / N)) (chunks.flatten.length % N) =
      beBytes lengthSize (8 * chunks.flatten.length)) :
    finish lengthSize compress storeBits
        (chunks.foldl (BlockStream.update shift (countBlocks N compress)) self) =
      digest N lengthSize compress start chunks.flatten := by
  have habsorbed := BlockStream.foldl_update_absorbed hN (countBlocks_eq compress)
    (BlockStream.absorbed_nil _ self hsize hstate) chunks
  rw [List.nil_append] at habsorbed
  exact finish_eq hlengthSize habsorbed hbits

end Hc.MerkleDamgard
