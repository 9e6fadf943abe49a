import Hc.Crypto.Fips180

/-!
# SHA-1

`hc/core/hc/crypto/sha1.c`. As in the other hashes every round uses a window of the array
`r`, here of five words; the schedule is made before the rounds.
-/

namespace Hc

/-- `struct sha1`: the buffer, and `state` with `blockCounter`. -/
abbrev Sha1 := BlockStream ((Fin 5 → BitVec 32) × BitVec 64) 64

namespace Sha1

/-- The arrays `w` and `r` of `_sha1_blocks`. -/
structure Arrays where
  w : ℕ → BitVec 32
  r : ℕ → BitVec 32

/-- The loop that fills `w[16]` to `w[79]`. -/
def scheduleStep (self : Arrays) (i : ℕ) : Arrays :=
  let w := self.w
  { self with
    w := Function.update w (i + 16)
      ((w (i + 13) ^^^ w (i + 8) ^^^ w (i + 2) ^^^ w i).rotateLeft 1) }

/-- The body of the four loops over the rounds, with their constant and function. -/
def blockRound (constant : BitVec 32) (f : BitVec 32 → BitVec 32 → BitVec 32 → BitVec 32)
    (self : Arrays) (i : ℕ) : Arrays :=
  let r := self.r
  let r := Function.update r (i + 5) (r i + self.w i + constant + (r (i + 4)).rotateLeft 5 +
    f (r (i + 3)) (r (i + 2)) (r (i + 1)))
  { self with r := Function.update r (i + 3) ((r (i + 3)).rotateLeft 30) }

local instance neZero_five : NeZero 5 := ⟨by decide⟩

/-- One iteration of the loop of `_sha1_blocks`. -/
def block (state : Fin 5 → BitVec 32) (input : List UInt8) : Fin 5 → BitVec 32 :=
  let self : Arrays :=
    ⟨fun i => if i < 16 then loadBE 32 input (4 * i) else 0,
      fun j => if h : j < 5 then state (Fin.rev ⟨j, h⟩) else 0⟩
  let self := (List.range 64).foldl scheduleStep self
  let self := (List.range' 0 20).foldl
    (blockRound 0x5A827999 fun b c d => (b &&& (c ^^^ d)) ^^^ d) self
  let self := (List.range' 20 20).foldl (blockRound 0x6ED9EBA1 fun b c d => b ^^^ c ^^^ d) self
  let self := (List.range' 40 20).foldl
    (blockRound 0x8F1BBCDC fun b c d => ((b ||| c) &&& d) ||| (b &&& c)) self
  let self := (List.range' 60 20).foldl (blockRound 0xCA62C1D6 fun b c d => b ^^^ c ^^^ d) self
  ![state 0 + self.r 84, state 1 + self.r 83, state 2 + self.r 82, state 3 + self.r 81,
    state 4 + self.r 80]

/-- `sha1_init`. The buffer keeps whatever it held before. -/
def init (self : Sha1) : Sha1 :=
  { self with
    state := (![0x67452301, 0xEFCDAB89, 0x98BADCFE, 0x10325476, 0xC3D2E1F0], 0)
    bufferSize := 0 }

/-- `sha1_update`. -/
def update (self : Sha1) (input : List UInt8) : Sha1 :=
  BlockStream.update 6 (MerkleDamgard.countBlocks 64 block) self input

/-- The `numBits` stored by `sha1_finish`. -/
def storeBits (blockCounter : BitVec 64) (bufferSize : ℕ) : List UInt8 :=
  storeBE (((blockCounter <<< 6) + BitVec.ofNat 64 bufferSize) <<< 3)

/-- `sha1_finish`: the bytes of `hash`. -/
def finish (self : Sha1) : List UInt8 :=
  (List.ofFn (MerkleDamgard.finish 8 block storeBits self)).flatMap storeBE

/-! ## The schedule -/

open Fips180 (Ch Maj Parity Vars5)

theorem W_add_sixteen (M : ℕ → BitVec 32) (i : ℕ) :
    Fips180.Sha1.W M (i + 16) = (Fips180.Sha1.W M (i + 13) ^^^ Fips180.Sha1.W M (i + 8) ^^^
      Fips180.Sha1.W M (i + 2) ^^^ Fips180.Sha1.W M i).rotateLeft 1 := by
  rw [Fips180.Sha1.W, if_neg (by omega)]
  simp only [Nat.add_sub_cancel, show i + 16 - 3 = i + 13 by omega,
    show i + 16 - 8 = i + 8 by omega, show i + 16 - 14 = i + 2 by omega]

/-- The loop computes the schedule of the standard. -/
theorem foldl_scheduleStep {M : ℕ → BitVec 32} (self : Arrays) (hw : ∀ t < 16, self.w t = M t)
    (n : ℕ) : ((List.range n).foldl scheduleStep self).r = self.r ∧
      ∀ t < n + 16, ((List.range n).foldl scheduleStep self).w t = Fips180.Sha1.W M t := by
  induction n with
  | zero =>
      refine ⟨rfl, fun t ht => ?_⟩
      rw [Fips180.Sha1.W, if_pos (by omega)]
      exact hw t (by omega)
  | succ n ih =>
      obtain ⟨hr, ih⟩ := ih
      rw [List.range_succ, List.foldl_append, List.foldl_cons, List.foldl_nil]
      refine ⟨hr, fun t ht => ?_⟩
      generalize (List.range n).foldl scheduleStep self = arrays at ih ⊢
      unfold scheduleStep
      by_cases hnew : t = n + 16
      · subst hnew
        simp only [Function.update_self]
        rw [ih _ (by omega), ih _ (by omega), ih _ (by omega), ih _ (by omega), W_add_sixteen]
      · simp only [Function.update_of_ne hnew]
        exact ih t (by omega)

/-! ## The rounds -/

theorem ch_eq (x y z : BitVec 32) : (x &&& (y ^^^ z)) ^^^ z = Ch x y z := by
  apply BitVec.eq_of_getLsbD_eq
  intro i hi
  simp only [Ch, BitVec.getLsbD_xor, BitVec.getLsbD_and, BitVec.getLsbD_not, hi]
  cases x.getLsbD i <;> cases y.getLsbD i <;> cases z.getLsbD i <;> rfl

theorem maj_eq (x y z : BitVec 32) : ((x ||| y) &&& z) ||| (x &&& y) = Maj x y z := by
  apply BitVec.eq_of_getLsbD_eq
  intro i hi
  simp only [Maj, BitVec.getLsbD_xor, BitVec.getLsbD_and, BitVec.getLsbD_or]
  cases x.getLsbD i <;> cases y.getLsbD i <;> cases z.getLsbD i <;> rfl

/-- The arrays before round `i`. -/
structure Window (M : ℕ → BitVec 32) (arrays : Arrays) (i : ℕ) (v : Vars5) : Prop where
  e : arrays.r i = v.e
  d : arrays.r (i + 1) = v.d
  c : arrays.r (i + 2) = v.c
  b : arrays.r (i + 3) = v.b
  a : arrays.r (i + 4) = v.a
  schedule : ∀ t < 80, arrays.w t = Fips180.Sha1.W M t

variable {M : ℕ → BitVec 32} {arrays : Arrays} {constant : BitVec 32}
  {f : BitVec 32 → BitVec 32 → BitVec 32 → BitVec 32}

/-- What a round writes to `r`. -/
theorem blockRound_r (constant : BitVec 32) (f : BitVec 32 → BitVec 32 → BitVec 32 → BitVec 32)
    (arrays : Arrays) (i : ℕ) : (blockRound constant f arrays i).r =
      Function.update (Function.update arrays.r (i + 5) (arrays.r i + arrays.w i + constant +
        (arrays.r (i + 4)).rotateLeft 5 + f (arrays.r (i + 3)) (arrays.r (i + 2))
          (arrays.r (i + 1)))) (i + 3) ((arrays.r (i + 3)).rotateLeft 30) := by
  unfold blockRound
  simp only
  rw [Function.update_of_ne (by omega)]

theorem blockRound_window {i : ℕ} {v : Vars5} (hwindow : Window M arrays i v) (hi : i < 80)
    (hconstant : constant = Fips180.Sha1.K i) (hf : f = Fips180.Sha1.f i) :
    Window M (blockRound constant f arrays i) (i + 1) (Fips180.Sha1.round M v i) := by
  have hkeep (k : ℕ) (hthree : k ≠ 3) (hfive : k ≠ 5) :
      (blockRound constant f arrays i).r (i + k) = arrays.r (i + k) := by
    rw [blockRound_r, Function.update_of_ne (by omega), Function.update_of_ne (by omega)]
  constructor
  case e => exact (hkeep 1 (by decide) (by decide)).trans hwindow.d
  case d => exact (hkeep 2 (by decide) (by decide)).trans hwindow.c
  case c =>
    change (blockRound constant f arrays i).r (i + 3) = _
    rw [blockRound_r, Function.update_self, hwindow.b]
    rfl
  case b => exact (hkeep 4 (by decide) (by decide)).trans hwindow.a
  case a =>
    change (blockRound constant f arrays i).r (i + 5) = _
    rw [blockRound_r, Function.update_of_ne (by omega), Function.update_self, hwindow.e, hwindow.d,
      hwindow.c, hwindow.b, hwindow.a, hwindow.schedule i hi, hconstant, hf]
    unfold Fips180.Sha1.round
    simp only
    ac_rfl
  case schedule => exact hwindow.schedule

/-- One of the four loops, over `n` rounds with the same constant and function. -/
theorem foldl_blockRound_window (constant : BitVec 32)
    (f : BitVec 32 → BitVec 32 → BitVec 32 → BitVec 32) {first : ℕ} {v : Vars5}
    (hwindow : Window M arrays first v) (n : ℕ) (hn : first + n ≤ 80)
    (hconstant : ∀ i, first ≤ i → i < first + n → constant = Fips180.Sha1.K i)
    (hf : ∀ i, first ≤ i → i < first + n → f = Fips180.Sha1.f i) :
    Window M ((List.range' first n).foldl (blockRound constant f) arrays) (first + n)
      ((List.range' first n).foldl (Fips180.Sha1.round M) v) := by
  induction n with
  | zero => exact hwindow
  | succ n ih =>
      rw [List.range'_concat, List.foldl_append, List.foldl_append, Nat.one_mul]
      refine blockRound_window (ih (by omega) (fun i hle hi => hconstant i hle (by omega))
        (fun i hle hi => hf i hle (by omega))) (by omega) ?_ ?_
      · exact hconstant _ (by omega) (by omega)
      · exact hf _ (by omega) (by omega)

/-- The code compresses a block as the standard does. -/
theorem block_eq : block = Fips180.Sha1.compress := by
  funext state input
  have hrange : List.range 80 = List.range' 0 20 ++ List.range' 20 20 ++ List.range' 40 20 ++
      List.range' 60 20 := by decide
  obtain ⟨hr, hschedule⟩ := foldl_scheduleStep (M := fun i => loadBE 32 input (4 * i))
    ⟨fun i => if i < 16 then loadBE 32 input (4 * i) else 0,
      fun j => if h : j < 5 then state (Fin.rev ⟨j, h⟩) else 0⟩ (fun t ht => if_pos ht) 64
  have hstart : Window _ _ 0 ⟨state 0, state 1, state 2, state 3, state 4⟩ :=
    ⟨congrFun hr 0, congrFun hr 1, congrFun hr 2, congrFun hr 3, congrFun hr 4, hschedule⟩
  have h20 := foldl_blockRound_window 0x5A827999 (fun b c d => (b &&& (c ^^^ d)) ^^^ d) hstart 20
    (by decide) (fun i hle hi => by rw [Fips180.Sha1.K, if_pos (by omega)])
    (fun i hle hi => by
      rw [Fips180.Sha1.f, if_pos (by omega)]
      funext b c d
      exact ch_eq b c d)
  have h40 := foldl_blockRound_window 0x6ED9EBA1 (fun b c d => b ^^^ c ^^^ d) h20 20
    (by decide) (fun i hle hi => by rw [Fips180.Sha1.K, if_neg (by omega), if_pos (by omega)])
    (fun i hle hi => by
      rw [Fips180.Sha1.f, if_neg (by omega), if_pos (by omega)]
      rfl)
  have h60 := foldl_blockRound_window 0x8F1BBCDC
    (fun b c d => ((b ||| c) &&& d) ||| (b &&& c)) h40 20
    (by decide)
    (fun i hle hi => by
      rw [Fips180.Sha1.K, if_neg (by omega), if_neg (by omega), if_pos (by omega)])
    (fun i hle hi => by
      rw [Fips180.Sha1.f, if_neg (by omega), if_neg (by omega), if_pos (by omega)]
      funext b c d
      exact maj_eq b c d)
  have h80 := foldl_blockRound_window 0xCA62C1D6 (fun b c d => b ^^^ c ^^^ d) h60 20
    (by decide)
    (fun i hle hi => by
      rw [Fips180.Sha1.K, if_neg (by omega), if_neg (by omega), if_neg (by omega)])
    (fun i hle hi => by
      rw [Fips180.Sha1.f, if_neg (by omega), if_neg (by omega), if_neg (by omega)]
      rfl)
  unfold block Fips180.Sha1.compress
  simp only [hrange, List.foldl_append]
  rw [← h80.a, ← h80.b, ← h80.c, ← h80.d, ← h80.e]

end Sha1

end Hc
