import Hc.Foundation.Bytes

/-!
# Buffered block-wise consumption of a byte stream

Hashes and message authentication codes consume their input in blocks of `N`
bytes and keep the bytes of an incomplete block in a buffer between calls.
`update` is that buffering code, generic in the state and in the function that
consumes whole blocks. `Absorbed` is its invariant; it does not mention how the
stream was cut, and every `update` keeps it.
-/

namespace Hc

/-- The state `σ` of a block consumer with its buffer of one block. -/
structure BlockStream (σ : Type) (N : ℕ) where
  state : σ
  bufferSize : ℕ
  buffer : Bytes N

/-- Consume the first `k` blocks of a byte string, one at a time. -/
def absorbBlocks {σ : Type} (N : ℕ) (absorb : σ → List UInt8 → σ) : ℕ → σ → List UInt8 → σ
  | 0, state, _ => state
  | k + 1, state, input =>
      absorbBlocks N absorb k (absorb state (input.take N)) (input.drop N)

namespace BlockStream

variable {σ : Type} {N : ℕ}

/-- The part of an update that works on the input directly: consume the whole
blocks and keep the remainder. `N` is a power of two, `2 ^ shift`. -/
def updateBlocks (shift : ℕ) (blocks : σ → List UInt8 → ℕ → σ) (self : BlockStream σ N)
    (input : List UInt8) : BlockStream σ N :=
  let size := input.length
  let numBlocks := size >>> shift
  let state := if numBlocks > 0 then blocks self.state input numBlocks else self.state
  let bufferSize := size &&& (N - 1)
  let buffer :=
    if bufferSize > 0 then self.buffer.write 0 (input.drop (size - bufferSize)) else self.buffer
  ⟨state, bufferSize, buffer⟩

/-- Feed `input` to the consumer, completing a buffered block first. -/
def update (shift : ℕ) (blocks : σ → List UInt8 → ℕ → σ) (self : BlockStream σ N)
    (input : List UInt8) : BlockStream σ N :=
  if self.bufferSize > 0 then
    let numToRead := N - self.bufferSize
    let numToRead := if numToRead > input.length then input.length else numToRead
    let buffer := self.buffer.write self.bufferSize (input.take numToRead)
    let bufferSize := self.bufferSize + numToRead
    if bufferSize < N then ⟨self.state, bufferSize, buffer⟩
    else
      updateBlocks shift blocks ⟨blocks self.state buffer.toList 1, bufferSize, buffer⟩
        (input.drop numToRead)
  else updateBlocks shift blocks self input

/-- The bytes of the incomplete block. -/
def pending (self : BlockStream σ N) : List UInt8 := self.buffer.toList.take self.bufferSize

end BlockStream

section Absorb

variable {σ : Type} {N : ℕ} (absorb : σ → List UInt8 → σ)

theorem absorbBlocks_add (j k : ℕ) (state : σ) (input : List UInt8) :
    absorbBlocks N absorb (j + k) state input =
      absorbBlocks N absorb k (absorbBlocks N absorb j state input) (input.drop (j * N)) := by
  induction j generalizing state input with
  | zero => simp [absorbBlocks]
  | succ j ih =>
      rw [Nat.succ_add, absorbBlocks, ih, absorbBlocks, List.drop_drop]
      congr 2
      ring

/-- Blocks past the end of the input do not matter. -/
theorem absorbBlocks_append (k : ℕ) (state : σ) (input rest : List UInt8)
    (hlength : k * N ≤ input.length) :
    absorbBlocks N absorb k state (input ++ rest) = absorbBlocks N absorb k state input := by
  induction k generalizing state input with
  | zero => rfl
  | succ k ih =>
      have hblock : N ≤ input.length := by
        rw [Nat.succ_mul] at hlength
        omega
      have hrest : k * N ≤ (input.drop N).length := by
        rw [List.length_drop]
        rw [Nat.succ_mul] at hlength
        omega
      rw [absorbBlocks, absorbBlocks, List.take_append_of_le_length hblock,
        List.drop_append_of_le_length hblock, ih _ _ hrest]

/-- Consuming one stream and then another is consuming their concatenation. -/
theorem absorbBlocks_join (hN : 0 < N) (state : σ) (first second : List UInt8)
    (hfirst : first.length % N = 0) :
    absorbBlocks N absorb (second.length / N)
        (absorbBlocks N absorb (first.length / N) state first) second =
      absorbBlocks N absorb ((first ++ second).length / N) state (first ++ second) := by
  have hsize : first.length / N * N = first.length := Nat.div_mul_cancel
    (Nat.dvd_of_mod_eq_zero hfirst)
  have hcount : (first ++ second).length / N = first.length / N + second.length / N := by
    rw [List.length_append, Nat.add_div hN, hfirst, if_neg]
    · rfl
    · rw [Nat.zero_add, not_le]
      exact Nat.mod_lt _ hN
  rw [hcount, absorbBlocks_add, absorbBlocks_append absorb _ _ _ _ hsize.le, hsize,
    List.drop_left]

end Absorb

namespace BlockStream

variable {σ : Type} {N : ℕ}

/-- The state has consumed the complete blocks of `message` from `start`, and the
buffer holds the rest of it. -/
structure Absorbed (absorb : σ → List UInt8 → σ) (start : σ) (stream : BlockStream σ N)
    (message : List UInt8) : Prop where
  bufferSize_eq : stream.bufferSize = message.length % N
  pending_eq : stream.pending = message.drop (message.length / N * N)
  state_eq : stream.state = absorbBlocks N absorb (message.length / N) start message

section Update

variable {shift : ℕ} {blocks : σ → List UInt8 → ℕ → σ} {absorb : σ → List UInt8 → σ}

theorem absorbed_nil (start : σ) (self : BlockStream σ N) (hsize : self.bufferSize = 0)
    (hstate : self.state = start) : Absorbed absorb start self [] := by
  refine ⟨?_, ?_, ?_⟩
  · simp [hsize]
  · simp [pending, hsize]
  · simp [hstate, absorbBlocks]

/-- The direct part of an update, started on a block boundary. -/
theorem updateBlocks_absorbed (hN : N = 2 ^ shift)
    (hblocks : ∀ state input k, blocks state input k = absorbBlocks N absorb k state input)
    {start : σ} {self : BlockStream σ N} {message : List UInt8} (input : List UInt8)
    (haligned : message.length % N = 0)
    (hstate : self.state = absorbBlocks N absorb (message.length / N) start message) :
    Absorbed absorb start (updateBlocks shift blocks self input) (message ++ input) := by
  have hpos : 0 < N := hN ▸ Nat.two_pow_pos shift
  have hcount : input.length >>> shift = input.length / N := by
    rw [Nat.shiftRight_eq_div_pow, hN]
  have hremainder : input.length &&& (N - 1) = input.length % N := by
    rw [hN, Nat.and_two_pow_sub_one_eq_mod]
  have hmod : (message ++ input).length % N = input.length % N := by
    rw [List.length_append, Nat.add_mod, haligned, Nat.zero_add, Nat.mod_mod]
  have hinput := Nat.div_add_mod' input.length N
  have hdiv : (message ++ input).length / N * N = message.length + input.length / N * N := by
    have hmessage := Nat.div_add_mod' message.length N
    have hall := Nat.div_add_mod' (message ++ input).length N
    rw [hmod] at hall
    rw [List.length_append] at hall ⊢
    omega
  have hlt : input.length % N < N := Nat.mod_lt _ hpos
  refine ⟨?_, ?_, ?_⟩
  · rw [hmod, ← hremainder]
    rfl
  · have hdrop : (message ++ input).drop ((message ++ input).length / N * N) =
        input.drop (input.length / N * N) := by
      rw [hdiv, List.drop_append, List.drop_of_length_le (by omega), List.nil_append]
      congr 1
      omega
    have hkeep : input.length - input.length % N = input.length / N * N := by omega
    rw [hdrop]
    unfold pending updateBlocks
    simp only [hremainder, hkeep]
    split
    next hsome =>
      have hsize : (input.drop (input.length / N * N)).length = input.length % N := by
        rw [List.length_drop]
        omega
      have hwritten := Bytes.take_write self.buffer 0 (input.drop (input.length / N * N))
        (by rw [hsize]; omega)
      rw [Nat.zero_add, hsize, List.take_zero, List.nil_append] at hwritten
      exact hwritten
    next hnone =>
      have hzero : input.length % N = 0 := by omega
      have hfull : input.length ≤ input.length / N * N := by omega
      rw [hzero, List.take_zero, List.drop_of_length_le hfull]
  · rw [← absorbBlocks_join absorb hpos start message input haligned, ← hstate]
    unfold updateBlocks
    simp only [hcount, hblocks]
    split
    next => rfl
    next hnone =>
      have hzero : input.length / N = 0 := Nat.eq_zero_of_not_pos hnone
      rw [hzero, absorbBlocks]

section Fill

variable {start : σ} {self : BlockStream σ N} {message : List UInt8} {data : List UInt8}

theorem div_add_bufferSize (habsorbed : Absorbed absorb start self message) :
    message.length / N * N + self.bufferSize = message.length := by
  rw [habsorbed.bufferSize_eq]
  exact Nat.div_add_mod' message.length N

/-- The buffer after bytes were stored behind the incomplete block. -/
theorem take_write_pending (habsorbed : Absorbed absorb start self message)
    (hfits : self.bufferSize + data.length ≤ N) :
    (self.buffer.write self.bufferSize data).toList.take (self.bufferSize + data.length) =
      (message ++ data).drop (message.length / N * N) := by
  have hmessage := div_add_bufferSize habsorbed
  rw [Bytes.take_write _ _ _ hfits, List.drop_append_of_le_length (by omega),
    ← habsorbed.pending_eq]
  rfl

/-- Bytes that do not complete the block are kept in the buffer. -/
theorem absorbed_of_short (habsorbed : Absorbed absorb start self message)
    (hshort : self.bufferSize + data.length < N) :
    Absorbed absorb start
      ⟨self.state, self.bufferSize + data.length, self.buffer.write self.bufferSize data⟩
      (message ++ data) := by
  have hmessage := div_add_bufferSize habsorbed
  have hpos : 0 < N := by omega
  have hsize : (message ++ data).length =
      self.bufferSize + data.length + message.length / N * N := by
    rw [List.length_append]
    omega
  have hcount : (message ++ data).length / N = message.length / N := by
    rw [hsize, Nat.add_mul_div_right _ _ hpos, Nat.div_eq_of_lt hshort, Nat.zero_add]
  refine ⟨?_, ?_, ?_⟩
  · rw [hsize, Nat.add_mul_mod_self_right, Nat.mod_eq_of_lt hshort]
  · rw [hcount]
    exact take_write_pending habsorbed hshort.le
  · rw [hcount, absorbBlocks_append absorb _ _ _ _ (by omega)]
    exact habsorbed.state_eq

/-- Bytes that complete the block: it is consumed, and the message is aligned. -/
theorem aligned_of_full (habsorbed : Absorbed absorb start self message)
    (hpos : 0 < N) (hfull : self.bufferSize + data.length = N) :
    (message ++ data).length % N = 0 ∧
      absorbBlocks N absorb 1 self.state (self.buffer.write self.bufferSize data).toList =
        absorbBlocks N absorb ((message ++ data).length / N) start (message ++ data) := by
  have hmessage := div_add_bufferSize habsorbed
  have hsize : (message ++ data).length = message.length / N * N + N := by
    rw [List.length_append]
    omega
  have hblock := take_write_pending habsorbed hfull.le
  rw [hfull, List.take_of_length_le (List.Vector.toList_length _).le] at hblock
  constructor
  · rw [hsize, Nat.add_mod_right, Nat.mul_mod_left]
  · rw [hsize, Nat.add_div_right _ hpos, Nat.mul_div_cancel _ hpos, absorbBlocks_add,
      absorbBlocks_append absorb _ _ _ _ (by omega), ← habsorbed.state_eq, ← hblock]

end Fill

/-- Every update extends the absorbed message by its input. -/
theorem update_absorbed (hN : N = 2 ^ shift)
    (hblocks : ∀ state input k, blocks state input k = absorbBlocks N absorb k state input)
    {start : σ} {self : BlockStream σ N} {message : List UInt8}
    (habsorbed : Absorbed absorb start self message) (input : List UInt8) :
    Absorbed absorb start (update shift blocks self input) (message ++ input) := by
  have hpos : 0 < N := hN ▸ Nat.two_pow_pos shift
  have hlt : self.bufferSize < N := habsorbed.bufferSize_eq ▸ Nat.mod_lt _ hpos
  unfold update
  split
  next hbuffered =>
    generalize hread : (if N - self.bufferSize > input.length then input.length
      else N - self.bufferSize) = numToRead
    have hlength : (input.take numToRead).length = numToRead := by
      rw [List.length_take]
      split at hread <;> omega
    simp only [hread]
    split
    next hshort =>
      -- The whole input fits into the buffer: no block is completed.
      have hall : numToRead = input.length := by
        split at hread <;> omega
      rw [hall] at hshort ⊢
      rw [List.take_length]
      exact absorbed_of_short habsorbed hshort
    next hfull =>
      -- The buffered block is completed; the rest of the input starts aligned.
      have hfill : self.bufferSize + (input.take numToRead).length = N := by
        split at hread <;> omega
      obtain ⟨haligned, hstate⟩ := aligned_of_full habsorbed hpos hfill
      have hsplit : message ++ input = (message ++ input.take numToRead) ++
          input.drop numToRead := by
        rw [List.append_assoc, List.take_append_drop]
      rw [hsplit]
      apply updateBlocks_absorbed hN hblocks _ haligned
      exact (hblocks _ _ 1).trans hstate
  next hempty =>
    have haligned : message.length % N = 0 := by
      rw [← habsorbed.bufferSize_eq]
      omega
    exact updateBlocks_absorbed hN hblocks input haligned habsorbed.state_eq

/-- Any sequence of updates absorbs the concatenation of the inputs, empty ones included. -/
theorem foldl_update_absorbed (hN : N = 2 ^ shift)
    (hblocks : ∀ state input k, blocks state input k = absorbBlocks N absorb k state input)
    {start : σ} {self : BlockStream σ N} {message : List UInt8}
    (habsorbed : Absorbed absorb start self message) (chunks : List (List UInt8)) :
    Absorbed absorb start (chunks.foldl (update shift blocks) self)
      (message ++ chunks.flatten) := by
  induction chunks generalizing self message with
  | nil => simpa using habsorbed
  | cons chunk chunks ih =>
      have hstep := update_absorbed hN hblocks habsorbed chunk
      simpa only [List.foldl_cons, List.flatten_cons, List.append_assoc] using ih hstep

end Update

end BlockStream

end Hc
