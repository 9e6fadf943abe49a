import Mathlib.Data.Nat.ModEq
import Hc.Crypto.Poly1305Blocks

/-!
# The Poly1305 tag

The tag of RFC 8439, section 2.5, against the one the code stores. The code
compares the carried accumulator with `2 ^ 43` in its top limb where `2 ^ 42`
was needed, so the last subtraction of `2 ^ 130 - 5` is never selected and the
accumulator is used as it is. Which inputs this affects is read off the exact
value of every block step: a nonempty message under a nonzero `r` never leaves
an accumulator below 5, so the residues 0 to 4 are exactly the ones stored
unreduced.
-/

namespace Hc.Poly1305

namespace Rfc8439

/-- `clamp` of section 2.5: the mask applied to the first half of the key. -/
def clamp (r : ℕ) : ℕ := r &&& 0x0ffffffc0ffffffc0ffffffc0fffffff

/-- The secret multiplier of a key. -/
def multiplier (key : Bytes 32) : ℕ := clamp (leNat (key.toList.take 16))

/-- The number of a block: a one byte is added beyond its last byte. -/
def blockNumber (message : List UInt8) (i : ℕ) : ℕ :=
  leNat ((message.drop (i * 16)).take 16 ++ [1])

/-- The accumulator after the first `k` blocks. -/
def accumulate (r : ℕ) (message : List UInt8) (k : ℕ) : ℕ :=
  (List.range k).foldl (fun a i => r * (a + blockNumber message i) % p) 0

/-- The accumulator after all blocks, the last one possibly partial. -/
def accumulator (r : ℕ) (message : List UInt8) : ℕ :=
  accumulate r message ((message.length + 15) / 16)

/-- `poly1305_mac`. -/
def tag (key : Bytes 32) (message : List UInt8) : List UInt8 :=
  leBytes 16 (accumulator (multiplier key) message + leNat (key.toList.drop 16))

theorem accumulate_succ (r : ℕ) (message : List UInt8) (k : ℕ) :
    accumulate r message (k + 1) = r * (accumulate r message k + blockNumber message k) % p := by
  unfold accumulate
  rw [List.range_succ, List.foldl_append]
  rfl

end Rfc8439

open Rfc8439

/-! ## The key -/

theorem and_of_mod {a c k : ℕ} (hc : c < 2 ^ k) : a % 2 ^ k &&& c = a &&& c := by
  have hmod := Nat.and_mod_two_pow (a := a) (b := c) (n := k)
  rw [Nat.mod_eq_of_lt hc, Nat.mod_eq_of_lt (lt_of_le_of_lt Nat.and_le_right hc)] at hmod
  exact hmod.symm

/-- The limbs of the clamped number are its limbs under the limbs of the mask. -/
theorem clamp_eq_limbs (n : ℕ) :
    clamp n = (n &&& 0xFFC0FFFFFFF) + 2 ^ 44 * (n / 2 ^ 44 &&& 0xFFFFFC0FFFF) +
      2 ^ 88 * (n / 2 ^ 88 &&& 0x00FFFFFFC0F) := by
  have hlow : clamp n % 2 ^ 44 = n &&& 0xFFC0FFFFFFF := by
    rw [clamp, Nat.and_mod_two_pow]
    exact and_of_mod (c := 0xFFC0FFFFFFF) (by decide)
  have hmid : clamp n / 2 ^ 44 % 2 ^ 44 = n / 2 ^ 44 &&& 0xFFFFFC0FFFF := by
    rw [clamp, Nat.and_div_two_pow, Nat.and_mod_two_pow]
    exact and_of_mod (c := 0xFFFFFC0FFFF) (by decide)
  have hhigh : clamp n / 2 ^ 88 = n / 2 ^ 88 &&& 0x00FFFFFFC0F := by
    rw [clamp, Nat.and_div_two_pow]
  omega

/-- The clamped first half of the key, from the two words loaded from it. -/
theorem clamp_eq_words (n : ℕ) :
    clamp (n % 2 ^ 128) = (n % 2 ^ 64 &&& 0xFFC0FFFFFFF) +
      2 ^ 44 * (n / 2 ^ 44 % 2 ^ 64 &&& 0xFFFFFC0FFFF) +
      2 ^ 88 * (n / 2 ^ 64 % 2 ^ 64 / 2 ^ 24 &&& 0x00FFFFFFC0F) := by
  have hmid : n % 2 ^ 128 / 2 ^ 44 = n / 2 ^ 44 % 2 ^ 84 := by omega
  have hhigh : n / 2 ^ 64 % 2 ^ 64 / 2 ^ 24 = n % 2 ^ 128 / 2 ^ 88 := by omega
  rw [clamp_eq_limbs, hmid, hhigh, and_of_mod (k := 128) (c := 0xFFC0FFFFFFF) (by decide),
    and_of_mod (k := 64) (c := 0xFFC0FFFFFFF) (by decide),
    and_of_mod (k := 84) (c := 0xFFFFFC0FFFF) (by decide),
    and_of_mod (k := 64) (c := 0xFFFFFC0FFFF) (by decide)]

/-- The state `poly1305_init` leaves behind. -/
structure Initial (s : State) (key : Bytes 32) : Prop where
  reduced : Reduced s
  rValue_eq : s.rValue = multiplier key
  hValue_eq : s.hValue = 0
  pad0 : s.pad0.Holds (leNat (key.toList.drop 16) % 2 ^ 64) (2 ^ 64 - 1)
  pad1 : s.pad1.Holds (leNat (key.toList.drop 16) / 2 ^ 64 % 2 ^ 64) (2 ^ 64 - 1)

theorem init_initial (self : Poly1305) (key : Bytes 32) : Initial (init self key).state key := by
  have ht0 := loadU64_zero_holds key.toList
  have ht1 := loadU64_holds key.toList 8
  have hr0 := ht0.and (Word.Holds.ofNat (w := 64) 0xFFC0FFFFFFF)
  have hr1 := (ht0.funnel ht1 44).and (Word.Holds.ofNat (w := 64) 0xFFFFFC0FFFF)
  have hr2 := (ht1.shiftRight 24).and (Word.Holds.ofNat (w := 64) 0x00FFFFFFC0F)
  have hpad (offset : ℕ) (hoffset : 16 ≤ offset) :
      leNat key.toList / 2 ^ (8 * offset) =
        leNat (key.toList.drop 16) / 2 ^ (8 * (offset - 16)) := by
    have hdrop := leNat_drop key.toList 16
    have hpow : 2 ^ (8 * offset) = 256 ^ 16 * 2 ^ (8 * (offset - 16)) := by
      rw [show (256 : ℕ) = 2 ^ 8 from rfl, ← pow_mul, ← pow_add]
      congr 1
      omega
    rw [hdrop, Nat.div_div_eq_div_mul, hpow]
  refine ⟨⟨?_, ?_, ?_, ?_, ?_, ?_⟩, ?_, rfl, ?_, ?_⟩
  · exact Word.Holds.self hr0.exact (hr0.toNat_eq.trans_le hr0.le)
  · exact Word.Holds.self hr1.exact (hr1.toNat_eq.trans_le hr1.le)
  · exact Word.Holds.self hr2.exact (hr2.toNat_eq.trans_le hr2.le)
  · exact Word.Holds.self rfl (Nat.zero_le _)
  · exact Word.Holds.self rfl (Nat.zero_le _)
  · exact Word.Holds.self rfl (Nat.zero_le _)
  · have hvalue : (init self key).state.rValue = _ + 2 ^ 44 * _ + 2 ^ 88 * _ :=
      congrArg₂ (· + ·) (congrArg₂ (· + ·) hr0.toNat_eq (congrArg (2 ^ 44 * ·) hr1.toNat_eq))
        (congrArg (2 ^ 88 * ·) hr2.toNat_eq)
    have hlow : leNat (key.toList.take 16) = leNat key.toList % 2 ^ 128 := leNat_take _ 16
    rw [hvalue, multiplier, hlow, clamp_eq_words]
  · have hload := loadU64_holds key.toList 16
    rw [hpad 16 (by decide), Nat.sub_self, Nat.mul_zero, pow_zero, Nat.div_one] at hload
    exact hload
  · have hload := loadU64_holds key.toList 24
    rw [hpad 24 (by decide)] at hload
    exact hload

/-! ## Blocks -/

/-- The state after `k` blocks whose RFC accumulator is `a`. Only a multiplier
of zero or an empty prefix leaves an accumulator below 5. -/
structure Tracks (s : State) (r k a : ℕ) : Prop where
  reduced : Reduced s
  rValue_eq : s.rValue = r
  residue : s.hValue % p = a
  zero : k = 0 ∨ r = 0 → s.hValue = 0
  large : k ≠ 0 → r ≠ 0 → 5 ≤ s.hValue

theorem Initial.tracks {s : State} {key : Bytes 32} (hs : Initial s key) :
    Tracks s (multiplier key) 0 0 :=
  ⟨hs.reduced, hs.rValue_eq, by rw [hs.hValue_eq]; rfl, fun _ => hs.hValue_eq,
    fun hne => absurd rfl hne⟩

theorem limbProduct_large {x0 x1 x2 r0 r1 r2 : ℕ} (hx : 5 ≤ x0 + 2 ^ 44 * x1 + 2 ^ 88 * x2)
    (hr : r0 + 2 ^ 44 * r1 + 2 ^ 88 * r2 ≠ 0) : 5 ≤ limbProduct x0 x1 x2 r0 r1 r2 := by
  unfold limbProduct
  have hr : 0 < r0 ∨ 0 < r1 ∨ 0 < r2 := by omega
  rcases hr with hr | hr | hr
  · have h0 := Nat.le_mul_of_pos_right x0 hr
    have h1 := Nat.le_mul_of_pos_right x1 hr
    have h2 := Nat.le_mul_of_pos_right x2 hr
    omega
  · have h0 := Nat.le_mul_of_pos_right x0 hr
    have h1 := Nat.le_mul_of_pos_right x1 hr
    have h2 := Nat.mul_le_mul_left x2 (Nat.mul_le_mul_right 20 hr)
    omega
  · have h0 := Nat.le_mul_of_pos_right x0 hr
    have h1 := Nat.mul_le_mul_left x1 (Nat.mul_le_mul_right 20 hr)
    have h2 := Nat.mul_le_mul_left x2 (Nat.mul_le_mul_right 20 hr)
    omega

theorem foldTop_large {n : ℕ} (hn : 5 ≤ n) : 5 ≤ foldTop n := by
  unfold foldTop
  omega

/-- One block, for a full block (`b = 2 ^ 40`) and for a padded one (`b = 0`) alike. -/
theorem blockStep_tracks {s : State} {r k a : ℕ} (hs : Tracks s r k a) {hibit : Word 64} {b : ℕ}
    (hhibit : hibit.Holds b (2 ^ 40)) (hb : b = 0 ∨ b = 2 ^ 40) (block : List UInt8)
    (hlength : block.length = 16) (hblock : 5 ≤ leNat block + 2 ^ 88 * b) :
    Tracks (blockStep hibit s block) r (k + 1) (r * (a + (leNat block + 2 ^ 88 * b)) % p) := by
  obtain ⟨hreduced, hrValue, hhValue⟩ := blockStep_spec hs.reduced hhibit hb block hlength
  have hsum : s.h0.toNat + leNat block % 2 ^ 44 +
      2 ^ 44 * (s.h1.toNat + leNat block / 2 ^ 44 % 2 ^ 44) +
      2 ^ 88 * (s.h2.toNat + (leNat block / 2 ^ 88 + b)) =
        s.hValue + (leNat block + 2 ^ 88 * b) := by
    unfold State.hValue
    omega
  refine ⟨hreduced, hrValue.trans hs.rValue_eq, ?_, ?_, ?_⟩
  · rw [hhValue, foldTop_mod, limbProduct_mod, hsum, ← hs.residue, ← hs.rValue_eq]
    change (s.hValue + _) * s.rValue % p = _
    rw [Nat.mul_comm]
    exact Nat.ModEq.mul_left _ (Nat.ModEq.add_right _ (Nat.mod_modEq _ _).symm)
  · intro hzero
    have hr : r = 0 := by omega
    have hr0 : s.r0.toNat = 0 ∧ s.r1.toNat = 0 ∧ s.r2.toNat = 0 := by
      have hvalue := hs.rValue_eq
      unfold State.rValue at hvalue
      omega
    rw [hhValue, hr0.1, hr0.2.1, hr0.2.2]
    simp [limbProduct, foldTop]
  · intro _ hr
    rw [hhValue]
    apply foldTop_large
    apply limbProduct_large
    · rw [hsum]
      omega
    · rw [← hs.rValue_eq] at hr
      exact hr

theorem hibit_holds : (0x10000000000 : Word 64).Holds (2 ^ 40) (2 ^ 40) := Word.Holds.ofNat _

/-- The full blocks of a message. -/
theorem absorbBlocks_tracks {s : State} {r : ℕ} (hs : Tracks s r 0 0) (message : List UInt8)
    (k : ℕ) (hk : k * 16 ≤ message.length) :
    Tracks (absorbBlocks 16 (blockStep 0x10000000000) k s message) r k
      (accumulate r message k) := by
  induction k with
  | zero => exact hs
  | succ k ih =>
      have hprev := ih (by omega)
      have hlength : ((message.drop (k * 16)).take 16).length = 16 := by
        rw [List.length_take, List.length_drop]
        omega
      have hnumber : blockNumber message k =
          leNat ((message.drop (k * 16)).take 16) + 2 ^ 88 * 2 ^ 40 := by
        rw [blockNumber, leNat_append, hlength]
        simp
      rw [absorbBlocks_add, accumulate_succ, hnumber]
      exact blockStep_tracks hprev hibit_holds (Or.inr rfl) _ hlength (by omega)

theorem blocks_pads (hibit : Word 64) (s : State) (input : List UInt8) (k : ℕ) :
    (absorbBlocks 16 (blockStep hibit) k s input).pad0 = s.pad0 ∧
      (absorbBlocks 16 (blockStep hibit) k s input).pad1 = s.pad1 := by
  induction k generalizing s input with
  | zero => exact ⟨rfl, rfl⟩
  | succ k ih => exact ih (blockStep hibit s (input.take 16)) (input.drop 16)

/-- The whole message: the full blocks and the padded rest. -/
theorem lastBlock_tracks {self : Poly1305} {s : State} {r : ℕ} {message : List UInt8}
    (habsorbed : self.Absorbed (blockStep 0x10000000000) s message) (hs : Tracks s r 0 0) :
    Tracks (lastBlock self) r ((message.length + 15) / 16) (accumulator r message) := by
  have hfull := absorbBlocks_tracks hs message (message.length / 16) (Nat.div_mul_le_self _ _)
  rw [← habsorbed.state_eq] at hfull
  have hsize := habsorbed.bufferSize_eq
  unfold lastBlock accumulator
  split
  next hsome =>
    have hpending := habsorbed.pending_eq
    have hcount : (message.length + 15) / 16 = message.length / 16 + 1 := by omega
    have hlt : self.bufferSize < 16 := by omega
    have hone : self.bufferSize + ([1] : List UInt8).length ≤ 16 := hlt
    have hfits : self.bufferSize + 1 + (List.replicate (16 - (self.bufferSize + 1))
      (0 : UInt8)).length
        = 16 := by
      rw [List.length_replicate]
      omega
    -- The padded buffer is the pending bytes, the one byte and zeros up to the block size.
    have hbuffer : ((self.buffer.write self.bufferSize [1]).write (self.bufferSize + 1)
        (List.replicate (16 - (self.bufferSize + 1)) 0)).toList =
          message.drop (message.length / 16 * 16) ++ [1] ++
            List.replicate (16 - (self.bufferSize + 1)) 0 := by
      have hwritten := Bytes.take_write (self.buffer.write self.bufferSize [1])
        (self.bufferSize + 1) (List.replicate (16 - (self.bufferSize + 1)) 0) hfits.le
      rw [hfits, List.take_of_length_le (List.Vector.toList_length _).le] at hwritten
      have hfirst := Bytes.take_write self.buffer self.bufferSize [1] hone
      rw [List.length_singleton] at hfirst
      rw [hwritten, hfirst, ← hpending]
      rfl
    have hrest : (message.drop (message.length / 16 * 16)).take 16 =
        message.drop (message.length / 16 * 16) := by
      apply List.take_of_length_le
      rw [List.length_drop]
      omega
    have hnumber : leNat ((self.buffer.write self.bufferSize [1]).write (self.bufferSize + 1)
        (List.replicate (16 - (self.bufferSize + 1)) 0)).toList =
          blockNumber message (message.length / 16) := by
      rw [hbuffer, leNat_append, leNat_replicate_zero, Nat.mul_zero, Nat.add_zero, blockNumber,
        hrest]
    have hnonzero : 5 ≤ blockNumber message (message.length / 16) := by
      have hlength : 0 < (message.drop (message.length / 16 * 16)).length := by
        rw [List.length_drop]
        omega
      have hpow : 256 ^ 1 ≤ 256 ^ (message.drop (message.length / 16 * 16)).length :=
        Nat.pow_le_pow_right (by decide) hlength
      rw [blockNumber, hrest, leNat_append]
      simp only [leNat_cons, leNat_nil]
      change 5 ≤ _ + _ * 1
      omega
    have hstep := blockStep_tracks hfull (Word.Holds.ofNat (w := 64) 0 |>.mono (Nat.zero_le _))
      (Or.inl rfl)
      ((self.buffer.write self.bufferSize [1]).write (self.bufferSize + 1)
        (List.replicate (16 - (self.bufferSize + 1)) 0)).toList
      (List.Vector.toList_length _) (by rw [hnumber]; exact hnonzero)
    rw [Nat.mul_zero, Nat.add_zero, hnumber] at hstep
    rw [hcount, accumulate_succ]
    have htake : ∀ bytes : Bytes 16, bytes.toList.take 16 = bytes.toList := fun bytes =>
      List.take_of_length_le (List.Vector.toList_length bytes).le
    simp only [blocks, absorbBlocks, htake]
    exact hstep
  next hnone =>
    have hcount : (message.length + 15) / 16 = message.length / 16 := by omega
    rw [hcount]
    exact hfull

/-! ## The end of the computation -/

/-- The full carry subtracts the modulus exactly when the value has more than 130 bits. -/
theorem carry_spec {h : Limbs} {n0 n1 n2 : ℕ} (h0 : h.l0.Holds n0 (2 ^ 44 - 1))
    (h1 : h.l1.Holds n1 (2 ^ 44 + 2 ^ 20 - 1)) (h2 : h.l2.Holds n2 (2 ^ 42 - 1)) :
    ∃ c0 c1 c2, (carry h).l0.Holds c0 (2 ^ 44 - 1) ∧ (carry h).l1.Holds c1 (2 ^ 44 - 1) ∧
      (carry h).l2.Holds c2 (2 ^ 42 - 1) ∧
      c0 + 2 ^ 44 * c1 + 2 ^ 88 * c2 =
        if n0 + 2 ^ 44 * n1 + 2 ^ 88 * n2 < 2 ^ 130 then n0 + 2 ^ 44 * n1 + 2 ^ 88 * n2
        else n0 + 2 ^ 44 * n1 + 2 ^ 88 * n2 - p := by
  have ha2 := h2.add (h1.shiftRight 44)
  have ha1 := h1.mask 44 mask44
  have ha0 := h0.add ((ha2.shiftRight 42).mul (Word.Holds.ofNat 5))
  have hb2 := ha2.mask 42 mask42
  have hb1 := ha1.add (ha0.shiftRight 44)
  have hb0 := ha0.mask 44 mask44
  have hc2 := hb2.add (hb1.shiftRight 44)
  have hc1 := hb1.mask 44 mask44
  have hc0 := hb0.add ((hc2.shiftRight 42).mul (Word.Holds.ofNat 5))
  have hd2 := hc2.mask 42 mask42
  have hd1 := hc1.add (hc0.shiftRight 44)
  have hd0 := hc0.mask 44 mask44
  have hn0 := h0.le
  have hn1 := h1.le
  have hn2 := h2.le
  -- A second carry out of the bottom limb needs the first one, which leaves that limb small.
  refine ⟨_, _, _, hd0, hd1.tighten ?_, hd2, ?_⟩
  · omega
  · unfold p
    split <;> omega

/-- The comparison limb is `2 ^ 43`, so the selection always keeps `h`. -/
theorem select_spec {h : Limbs} {n0 n1 n2 : ℕ} (h0 : h.l0.Holds n0 (2 ^ 44 - 1))
    (h1 : h.l1.Holds n1 (2 ^ 44 - 1)) (h2 : h.l2.Holds n2 (2 ^ 42 - 1)) : select h = h := by
  have hg0 := h0.add (Word.Holds.ofNat 5)
  have hg1 := h1.add (hg0.shiftRight 44)
  have hg2 := h2.add (hg1.shiftRight 44)
  have hmask : (((h.l2 + ((h.l1 +
    ((h.l0 + 5) >>> 44)) >>> 44)).wrapSub 0x80000000000) >>> 63).wrapSub
      1 = Word.lit 64 0 := by
    have hle := hg2.le
    apply Word.ext_toNat
    · simp only [Word.exact_wrapSub, Word.exact_shiftRight, Word.exact_ofNat, Bool.and_true,
        Word.exact_lit]
      exact hg2.exact
    · have hvalue : (h.l2 + ((h.l1 + ((h.l0 + 5) >>> 44)) >>> 44)).toNat = _ := hg2.toNat_eq
      simp only [Word.toNat_wrapSub, Word.toNat_shiftRight, Word.toNat_ofNat, Word.toNat_lit,
        hvalue]
      omega
  have hkeep (x g : Word 64) (hx : x.exact = true) (hg : g.exact = true) :
      (x &&& ~~~Word.lit 64 0) ||| (g &&& Word.lit 64 0) = x := by
    have hlt := x.toNat_lt
    apply Word.ext_toNat
    · simp [hx, hg]
    · simp only [Word.toNat_or, Word.toNat_and, Word.toNat_complement, Word.toNat_lit,
        Nat.zero_mod, Nat.and_zero, Nat.or_zero, Nat.sub_zero]
      rw [Nat.and_two_pow_sub_one_eq_mod, Nat.mod_eq_of_lt hlt]
  unfold select
  simp only [hmask]
  rw [hkeep _ _ h0.exact (hg0.mask 44 mask44).exact, hkeep _ _ h1.exact (hg1.mask 44 mask44).exact,
    hkeep _ _ h2.exact]
  rw [Word.exact_wrapSub, Word.exact_ofNat, Bool.and_true]
  exact hg2.exact

/-- Adding the second half of the key, modulo `2 ^ 128`. -/
theorem addPad_spec {h : Limbs} {t0 t1 : Word 64} {n0 n1 n2 s : ℕ}
    (h0 : h.l0.Holds n0 (2 ^ 44 - 1)) (h1 : h.l1.Holds n1 (2 ^ 44 - 1))
    (h2 : h.l2.Holds n2 (2 ^ 42 - 1)) (hs : s < 2 ^ 128)
    (ht0 : t0.Holds (s % 2 ^ 64) (2 ^ 64 - 1)) (ht1 : t1.Holds (s / 2 ^ 64 % 2 ^ 64) (2 ^ 64 - 1)) :
    addPad h t0 t1 = leBytes 16 (n0 + 2 ^ 44 * n1 + 2 ^ 88 * n2 + s) := by
  have ha0 := h0.add (split0 ht0)
  have ha1 := h1.add ((split1 ht0 ht1).add (ha0.shiftRight 44))
  have ha2 := h2.add ((split2 hs ht1).add (ha1.shiftRight 44))
  have hb0 := ha0.mask 44 mask44
  have hb1 := ha1.mask 44 mask44
  have hb2 := ha2.mask 42 mask42
  have hlow := hb0.pack hb1 44 (Nat.mod_lt _ (by decide)) (by decide)
  have hhigh := (hb1.shiftRight 20).pack hb2 24
    (Nat.div_lt_of_lt_mul (Nat.mod_lt _ (by decide))) (by decide)
  have hn0 := h0.le
  have hn1 := h1.le
  have hn2 := h2.le
  apply leNat_injective
  · simp [addPad, storeU64]
  · have hbytes : addPad h t0 t1 = leBytes 8 _ ++ leBytes 8 _ :=
      congrArg₂ (fun low high => leBytes 8 low ++ leBytes 8 high) hlow.toNat_eq hhigh.toNat_eq
    rw [hbytes, leNat_append, leNat_leBytes, leNat_leBytes, leNat_leBytes, length_leBytes]
    omega

/-- The accumulator as the code ends with it. -/
theorem finish_spec {self : Poly1305} {s : State} {key : Bytes 32} {message : List UInt8}
    (hs : Initial s key)
    (habsorbed : self.Absorbed (blockStep 0x10000000000) s message) :
    ∃ n, n < 2 ^ 130 ∧ n % p = accumulator (multiplier key) message ∧
      (message = [] ∨ multiplier key = 0 → n = 0) ∧
      (message ≠ [] → multiplier key ≠ 0 → 5 ≤ n) ∧
      finish self = leBytes 16 (n + leNat (key.toList.drop 16)) := by
  have htracks := lastBlock_tracks habsorbed hs.tracks
  have hpads : (lastBlock self).pad0 = s.pad0 ∧ (lastBlock self).pad1 = s.pad1 := by
    have hfull := blocks_pads 0x10000000000 s message (message.length / 16)
    rw [← habsorbed.state_eq] at hfull
    unfold lastBlock
    split
    next => exact hfull
    next => exact hfull
  have hpad : leNat (key.toList.drop 16) < 2 ^ 128 := by
    have hlt := leNat_lt (key.toList.drop 16)
    rw [List.length_drop, List.Vector.toList_length] at hlt
    exact hlt
  have hempty : message = [] ↔ (message.length + 15) / 16 = 0 := by
    rw [← List.length_eq_zero_iff]
    omega
  obtain ⟨c0, c1, c2, hc0, hc1, hc2, hc⟩ :=
    carry_spec (h := ⟨(lastBlock self).h0, (lastBlock self).h1, (lastBlock self).h2⟩)
      htracks.reduced.h0 htracks.reduced.h1 htracks.reduced.h2
  change _ = (if (lastBlock self).hValue < 2 ^ 130 then (lastBlock self).hValue
    else (lastBlock self).hValue - p) at hc
  have hresidue := htracks.residue
  have hle0 := hc0.le
  have hle1 := hc1.le
  have hle2 := hc2.le
  refine ⟨c0 + 2 ^ 44 * c1 + 2 ^ 88 * c2, by omega, ?_, ?_, ?_, ?_⟩
  · rw [hc, ← hresidue]
    split
    next => rfl
    next hbig => exact (Nat.mod_eq_sub_mod (by unfold p; omega)).symm
  · intro hzero
    have hvalue := htracks.zero (by rw [← hempty]; exact hzero)
    rw [hc, hvalue, if_pos (by decide)]
  · intro hne hr
    have hlarge := htracks.large (mt hempty.mpr hne) hr
    rw [hc]
    split
    next => exact hlarge
    next hbig =>
      unfold p
      omega
  · unfold finish
    simp only [select_spec hc0 hc1 hc2]
    rw [hpads.1, hpads.2]
    exact addPad_spec hc0 hc1 hc2 hpad hs.pad0 hs.pad1

theorem accumulator_lt (r : ℕ) (message : List UInt8) : accumulator r message < p := by
  unfold accumulator
  generalize (message.length + 15) / 16 = k
  cases k with
  | zero =>
      change 0 < p
      decide
  | succ k =>
      rw [accumulate_succ]
      exact Nat.mod_lt _ (by decide)

/-! ## Sequences of calls -/

theorem foldl_update_absorbed (self : Poly1305) (key : Bytes 32) (chunks : List (List UInt8)) :
    (chunks.foldl update (init self key)).Absorbed (blockStep 0x10000000000) (init self key).state
      chunks.flatten := by
  have hstart : (init self key).Absorbed (blockStep 0x10000000000) (init self key).state [] :=
    BlockStream.absorbed_nil _ _ rfl rfl
  have habsorbed : (chunks.foldl update (init self key)).Absorbed (blockStep 0x10000000000)
      (init self key).state ([] ++ chunks.flatten) :=
    BlockStream.foldl_update_absorbed (by decide) (fun _ _ _ => rfl) hstart chunks
  rwa [List.nil_append] at habsorbed

theorem update_absorbed (self : Poly1305) (key : Bytes 32) (message : List UInt8) :
    (update (init self key) message).Absorbed (blockStep 0x10000000000) (init self key).state
      message := by
  have habsorbed := foldl_update_absorbed self key [message]
  rwa [List.flatten_singleton] at habsorbed

/-- What holds between the calls when the bytes `data` were passed so far. -/
structure Between (self : Poly1305) (key : Bytes 32) (data : List UInt8) : Prop where
  bufferSize_lt : self.bufferSize < 16
  bufferSize_eq : self.bufferSize = data.length % 16
  pending_eq : self.buffer.toList.take self.bufferSize = data.drop (data.length - self.bufferSize)
  reduced : Reduced self.state
  rValue_eq : self.state.rValue = multiplier key
  residue : self.state.hValue % p = accumulate (multiplier key) data (data.length / 16)

theorem between_of_absorbed {self : Poly1305} {s : State} {key : Bytes 32} {data : List UInt8}
    (hs : Initial s key) (habsorbed : self.Absorbed (blockStep 0x10000000000) s data) :
    Between self key data := by
  have hblocks := absorbBlocks_tracks hs.tracks data (data.length / 16) (Nat.div_mul_le_self _ _)
  rw [← habsorbed.state_eq] at hblocks
  have hsize := habsorbed.bufferSize_eq
  have hcomplete : data.length / 16 * 16 = data.length - self.bufferSize := by omega
  have hpending := habsorbed.pending_eq
  rw [hcomplete] at hpending
  exact {
    bufferSize_lt := by omega
    bufferSize_eq := hsize
    pending_eq := hpending
    reduced := hblocks.reduced
    rValue_eq := hblocks.rValue_eq
    residue := hblocks.residue }

theorem length_finish_update (self : Poly1305) (key : Bytes 32) (message : List UInt8) :
    (finish (update (init self key) message)).length = 16 := by
  obtain ⟨n, -, -, -, -, hfinish⟩ :=
    finish_spec (init_initial self key) (update_absorbed self key message)
  rw [hfinish, length_leBytes]

/-- Two structures that have absorbed the same message under the same key end with the same tag,
whatever they held before and however the message was split. -/
theorem finish_congr {self self' : Poly1305} {s s' : State} {key : Bytes 32}
    {message : List UInt8} (hs : Initial s key) (hs' : Initial s' key)
    (habsorbed : self.Absorbed (blockStep 0x10000000000) s message)
    (habsorbed' : self'.Absorbed (blockStep 0x10000000000) s' message) :
    finish self = finish self' := by
  obtain ⟨n, hlt, hresidue, hzero, hlarge, hfinish⟩ := finish_spec hs habsorbed
  obtain ⟨n', hlt', hresidue', hzero', hlarge', hfinish'⟩ := finish_spec hs' habsorbed'
  -- From 5 on there are as many accumulators as residues.
  have hn : n = n' := by
    by_cases hempty : message = [] ∨ multiplier key = 0
    · rw [hzero hempty, hzero' hempty]
    · obtain ⟨hmessage, hr⟩ := not_or.mp hempty
      have hge := hlarge hmessage hr
      have hge' := hlarge' hmessage hr
      unfold p at hresidue hresidue'
      omega
  rw [hfinish, hfinish', hn]

/-- What the structure held before `poly1305_init` makes no difference. -/
theorem finish_update_congr (self self' : Poly1305) (key : Bytes 32) (message : List UInt8) :
    finish (update (init self key) message) = finish (update (init self' key) message) :=
  finish_congr (init_initial self key) (init_initial self' key) (update_absorbed self key message)
    (update_absorbed self' key message)

/-- After every sequence of calls the structure is as it has to be between two of them, and where
the message was split makes no difference to the result. -/
theorem foldl_update_between (self self' : Poly1305) (key : Bytes 32)
    (chunks : List (List UInt8)) :
    Between (chunks.foldl update (init self key)) key chunks.flatten ∧
      finish (chunks.foldl update (init self key)) =
        finish (update (init self' key) chunks.flatten) := by
  have hinitial := init_initial self key
  have habsorbed := foldl_update_absorbed self key chunks
  refine ⟨between_of_absorbed hinitial habsorbed, ?_⟩
  exact finish_congr hinitial (init_initial self' key) habsorbed
    (update_absorbed self' key chunks.flatten)

/-- For every key, message and split of the message, whatever the buffer held
before, the stored bytes are the tag exactly when the canonical accumulator is
at least 5 or no product was ever formed. -/
theorem finish_eq_tag_iff (self : Poly1305) (key : Bytes 32) (chunks : List (List UInt8)) :
    finish (chunks.foldl update (init self key)) = tag key chunks.flatten ↔
      chunks.flatten = [] ∨ multiplier key = 0 ∨
        5 ≤ accumulator (multiplier key) chunks.flatten := by
  obtain ⟨n, hlt, hresidue, hzero, hlarge, hfinish⟩ :=
    finish_spec (init_initial self key) (foldl_update_absorbed self key chunks)
  have hbound := accumulator_lt (multiplier key) chunks.flatten
  -- A 130-bit accumulator is its residue or, below 5, the residue plus the modulus.
  have hcases : n = accumulator (multiplier key) chunks.flatten ∨
      n = accumulator (multiplier key) chunks.flatten + p := by
    unfold p at hresidue hbound ⊢
    omega
  have heq : finish (chunks.foldl update (init self key)) = tag key chunks.flatten ↔
      n = accumulator (multiplier key) chunks.flatten := by
    rw [hfinish, tag]
    constructor
    · intro hbytes
      have hvalues := congrArg leNat hbytes
      rw [leNat_leBytes, leNat_leBytes] at hvalues
      unfold p at hcases
      omega
    · intro hn
      rw [hn]
  rw [heq]
  constructor
  · intro hn
    by_contra hnot
    push Not at hnot
    have hbig := hlarge hnot.1 hnot.2.1
    omega
  · rintro (hempty | hr | hbig)
    · have hn := hzero (Or.inl hempty)
      have hacc : accumulator (multiplier key) chunks.flatten = 0 := by
        rw [← hresidue, hn]
        rfl
      omega
    · have hn := hzero (Or.inr hr)
      have hacc : accumulator (multiplier key) chunks.flatten = 0 := by
        rw [← hresidue, hn]
        rfl
      omega
    · unfold p at hcases
      omega

/-- The key with `r = 1` and `s = 0`. -/
def unitKey : Bytes 32 := ⟨1 :: List.replicate 31 0, rfl⟩

/-- Three blocks whose numbers add up to the modulus. -/
def modulusMessage : List UInt8 :=
  0xFB :: List.replicate 15 0xFF ++ List.replicate 32 0

/-- The code stores `2 ^ 128 - 5` where the tag is zero. -/
theorem finish_ne_tag_modulusMessage :
    ¬ ∀ (self : Poly1305) (key : Bytes 32) (chunks : List (List UInt8)),
      finish (chunks.foldl update (init self key)) = tag key chunks.flatten := by
  intro hall
  let blank : Poly1305 := ⟨⟨0, 0, 0, 0, 0, 0, 0, 0⟩, 0, ⟨List.replicate 16 0, rfl⟩⟩
  have hstored : finish (update (init blank unitKey) modulusMessage) =
      0xFB :: List.replicate 15 0xFF := by decide +kernel
  have htag : tag unitKey modulusMessage = List.replicate 16 0 := by decide +kernel
  have hsame := hall blank unitKey [modulusMessage]
  rw [List.foldl_cons, List.foldl_nil, List.flatten_singleton, hstored, htag] at hsame
  exact absurd hsame (by decide)

end Hc.Poly1305
