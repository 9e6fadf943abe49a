import Hc.Core.Util
import Hc.Crypto.Curve25519Field
import Hc.Crypto.X25519

/-!
# X25519 computes the function of RFC 7748

The limbs of one iteration follow the ladder step over the field, within bounds
that every operation of the iteration keeps. The code runs one iteration more
than the RFC, for the cleared bit 255; the ladder theory shows that a leading
zero bit does not change the result.
-/

namespace Hc.X25519

open Curve25519

variable {q x0 z0 x1 z1 : Fe} {u : F} {s : Ladder F}

/-- The bound on the limbs between two operations. -/
abbrev bound : ℕ := 2 ^ 51 + 2 ^ 13 - 1

/-- The arithmetic of one iteration is the ladder step, and it loses nothing. -/
theorem mulArith_rep (hq : q.Rep bound u) (hx0 : x0.Rep bound s.x2) (hz0 : z0.Rep bound s.z2)
    (hx1 : x1.Rep bound s.x3) (hz1 : z1.Rep bound s.z3) :
    (mulArith q x0 z0 x1 z1).1.Rep bound (s.step Rfc7748.a24 u).x2 ∧
    (mulArith q x0 z0 x1 z1).2.1.Rep bound (s.step Rfc7748.a24 u).z2 ∧
    (mulArith q x0 z0 x1 z1).2.2.1.Rep bound (s.step Rfc7748.a24 u).x3 ∧
    (mulArith q x0 z0 x1 z1).2.2.2.Rep bound (s.step Rfc7748.a24 u).z3 := by
  have ha := addNoReduce_rep hx0 hz0 (by decide)
  have hd := subNoReduce_rep hx1 (hz1.mono (by decide)) (by decide)
  have hda := mul_rep (ha.mono (by decide)) (hd.mono (by decide))
  have haa := squareN_one_rep (ha.mono (by decide))
  have hb := subNoReduce_rep hx0 (hz0.mono (by decide)) (by decide)
  have hc := addNoReduce_rep hx1 hz1 (by decide)
  have hcb := mul_rep (hc.mono (by decide)) (hb.mono (by decide))
  have hbb := squareN_one_rep (hb.mono (by decide))
  have hsum := addNoReduce_rep hcb hda (by decide)
  have hx3 := squareN_one_rep (hsum.mono (by decide))
  have hdiff := subNoReduce_rep hcb (hda.mono (by decide)) (by decide)
  have hsquare := squareN_one_rep (hdiff.mono (by decide))
  have hz3 := mul_rep (hsquare.mono (by decide)) (hq.mono (by decide))
  have he := subNoReduce_rep haa (hbb.mono (by decide)) (by decide)
  have hx2 := mul_rep (haa.mono (by decide)) (hbb.mono (by decide))
  have hk : (121665 : Word 64).Holds 121665 (2 ^ 17) := (Word.Holds.ofNat 121665).mono (by decide)
  have hscaled := mulScalar_rep (he.mono (by decide)) hk
  have hfactor := addNoReduce_rep hscaled haa (by decide)
  have hz2 := mul_rep (he.mono (by decide)) (hfactor.mono (by decide))
  unfold mulArith
  refine ⟨⟨hx2.toBounded, hx2.value_eq.trans ?_⟩, ⟨hz2.toBounded, hz2.value_eq.trans ?_⟩,
    ⟨hx3.toBounded, hx3.value_eq.trans ?_⟩, ⟨hz3.toBounded, hz3.value_eq.trans ?_⟩⟩
  all_goals simp only [Ladder.step, Rfc7748.a24, Nat.cast_ofNat]
  all_goals ring

/-! ## The loop -/

/-- The variables between two iterations represent a ladder whose swap is deferred. -/
structure MulRep (m : MulState) (s : Bool × Ladder F) : Prop where
  x0 : m.x0.Rep bound s.2.x2
  z0 : m.z0.Rep bound s.2.z2
  x1 : m.x1.Rep bound s.2.x3
  z1 : m.z1.Rep bound s.2.z3
  swap : m.swap = if s.1 then 1 else 0

theorem bit_eq (n : List UInt8) (i : ℕ) :
    bit n i = if (leNat n).testBit i then 1 else 0 := by
  have hbyte : ((byteAt n (i >>> 3)).toNat >>> (i &&& 7)) &&& 1 = leNat n / 2 ^ i % 2 := by
    rw [byteAt_toNat, Nat.and_one_is_mod, Nat.shiftRight_eq_div_pow, Nat.shiftRight_eq_div_pow,
      show (7 : ℕ) = 2 ^ 3 - 1 from rfl, Nat.and_two_pow_sub_one_eq_mod,
      show (256 : ℕ) = 2 ^ 8 from rfl, ← pow_mul]
    have hfield := div_mod_div_mod (leNat n) (8 * (i / 2 ^ 3)) 8 (i % 2 ^ 3) 1 (by omega)
    rwa [pow_one, show 8 * (i / 2 ^ 3) + i % 2 ^ 3 = i by omega] at hfield
  rw [bit, hbyte, Nat.testBit_eq_decide_div_mod_eq]
  rcases Nat.mod_two_eq_zero_or_one (leNat n / 2 ^ i) with h | h
  · rw [h]
    rfl
  · rw [h]
    rfl

theorem swap_xor (b c : Bool) :
    ((if b then 1 else 0 : Word 64) ^^^ (if c then 1 else 0)) = if b ^^ c then 1 else 0 := by
  cases b with
  | false =>
      cases c with
      | false => decide
      | true => decide
  | true =>
      cases c with
      | false => decide
      | true => decide

/-- Swapping the limbs swaps the points. -/
theorem MulRep.cSwap {m : MulState} {s : Bool × Ladder F} (h : MulRep m s) (swap : Bool) :
    (cSwap m.x0 m.x1 (if swap then 1 else 0)).1.Rep bound (s.2.cswap swap).x2 ∧
    (cSwap m.z0 m.z1 (if swap then 1 else 0)).1.Rep bound (s.2.cswap swap).z2 ∧
    (cSwap m.x0 m.x1 (if swap then 1 else 0)).2.Rep bound (s.2.cswap swap).x3 ∧
    (cSwap m.z0 m.z1 (if swap then 1 else 0)).2.Rep bound (s.2.cswap swap).z3 := by
  rw [cSwap_eq h.x0.exact h.x1.exact, cSwap_eq h.z0.exact h.z1.exact]
  cases swap with
  | false => exact ⟨h.x0, h.z0, h.x1, h.z1⟩
  | true => exact ⟨h.x1, h.z1, h.x0, h.z0⟩

theorem mulStep_rep {m : MulState} {s : Bool × Ladder F} (n : List UInt8) (hq : q.Rep bound u)
    (h : MulRep m s) (i : ℕ) :
    MulRep (mulStep n q i m) ((leNat n).testBit i,
      (s.2.cswap (s.1 ^^ (leNat n).testBit i)).step Rfc7748.a24 u) := by
  have hswap : m.swap ^^^ bit n i = if s.1 ^^ (leNat n).testBit i then 1 else 0 := by
    rw [h.swap, bit_eq, swap_xor]
  obtain ⟨hx0, hz0, hx1, hz1⟩ := h.cSwap (s.1 ^^ (leNat n).testBit i)
  rw [← hswap] at hx0 hz0 hx1 hz1
  obtain ⟨rx0, rz0, rx1, rz1⟩ := mulArith_rep hq hx0 hz0 hx1 hz1
  exact ⟨rx0, rz0, rx1, rz1, bit_eq n i⟩

theorem mulLoop_rep {m : MulState} {s : Bool × Ladder F} (n : List UInt8) (hq : q.Rep bound u)
    (h : MulRep m s) (i : ℕ) :
    MulRep (mulLoop n q i m) (Ladder.deferred Rfc7748.a24 u (leNat n) i s) :=
  countDown_rel (R := MulRep) (fun i _ _ h => mulStep_rep n hq h i) i h

theorem one_rep : one.Rep bound 1 := by
  refine Fe.Rep.of_holds ((Word.Holds.ofNat 1).mono (by decide))
    ((Word.Holds.ofNat 0).mono (by decide))
    ((Word.Holds.ofNat 0).mono (by decide)) ((Word.Holds.ofNat 0).mono (by decide))
    ((Word.Holds.ofNat 0).mono (by decide)) ?_
  simp [digits]

theorem zero_rep : zero.Rep bound 0 := by
  have h0 : (0 : Word 64).Holds 0 bound := (Word.Holds.ofNat 0).mono (by decide)
  refine Fe.Rep.of_holds h0 h0 h0 h0 h0 ?_
  simp [digits]

theorem mulInit_rep (hq : q.Rep bound u) : MulRep (mulInit q) (false, Ladder.start u) :=
  ⟨one_rep, zero_rep, hq, one_rep, rfl⟩

/-- `_x25519_mul` computes a fraction for the ladder over all 256 bits. -/
theorem mulPoint_rep (n : List UInt8) (hq : q.Rep bound u) :
    (mulPoint n q).1.Rep bound
      (Ladder.rounds Rfc7748.a24 u (leNat n) 256 (Ladder.start u)).x2 ∧
    (mulPoint n q).2.Rep bound
      (Ladder.rounds Rfc7748.a24 u (leNat n) 256 (Ladder.start u)).z2 := by
  have h := mulLoop_rep n hq (mulInit_rep hq) 256
  have hswap := h.cSwap (Ladder.deferred Rfc7748.a24 u (leNat n) 256 (false, Ladder.start u)).1
  rw [← h.swap, Ladder.deferred_eq_rounds] at hswap
  exact ⟨hswap.1, hswap.2.1⟩

/-! ## The scalar -/

theorem toNat_and_248 (b : UInt8) : (b &&& 248).toNat = 8 * (b.toNat / 8) := by
  rw [UInt8.toNat_and, Nat.mul_comm]
  exact and_two_pow_sub_two_pow (j := 3) (by decide) b.toNat_lt

theorem toNat_and_127_or_64 (b : UInt8) : (b &&& 127 ||| 64).toNat = 64 + b.toNat % 64 := by
  have hall : ∀ k : Fin 256, (k.val &&& 127 ||| 64) = 64 + k.val % 64 := by decide +kernel
  rw [UInt8.toNat_or, UInt8.toNat_and]
  exact hall ⟨b.toNat, b.toNat_lt⟩

/-- Clamping on the bytes is clamping of the number. -/
theorem leNat_clamp (e : List UInt8) (hlength : e.length = 32) :
    leNat (clamp e) = Rfc7748.decodeScalar e := by
  obtain ⟨low, rest, rfl⟩ : ∃ low rest, e = low :: rest := by
    cases e with
    | nil => simp at hlength
    | cons low rest => exact ⟨low, rest, rfl⟩
  obtain ⟨mid, high, rfl⟩ : ∃ mid high, rest = mid ++ [high] :=
    ⟨rest.dropLast, rest.getLast (by rintro rfl; simp at hlength),
      (List.dropLast_append_getLast _).symm⟩
  have hmid : mid.length = 30 := by simpa using hlength
  have hclamp : clamp (low :: (mid ++ [high])) =
      (low &&& 248) :: (mid ++ [high &&& 127 ||| 64]) := by
    have hlast (f : UInt8 → UInt8) (b : UInt8) : (mid ++ [b]).modify 30 f = mid ++ [f b] := by
      rw [List.modify_eq_take_drop, ← hmid, List.take_left, List.drop_left]
      rfl
    simp [clamp, List.modify_cons, hlast]
  have hmidlt := leNat_lt mid
  have hlow := low.toNat_lt
  have hhigh := high.toNat_lt
  rw [hclamp, Rfc7748.decodeScalar]
  simp only [leNat_cons, leNat_append, leNat_nil, hmid, toNat_and_248, toNat_and_127_or_64] at *
  omega

/-! ## The whole function -/

/-- The variables after the iterations with index `j` and up. -/
def mulRun (n : List UInt8) (q : Fe) (j : ℕ) : MulState :=
  countDown (fun i => mulStep n q (i + j)) (256 - j) (mulInit q)

/-- No operation that led to these variables lost bits. -/
def MulState.Exact (m : MulState) : Prop :=
  m.x0.Exact ∧ m.z0.Exact ∧ m.x1.Exact ∧ m.z1.Exact ∧ m.swap.exact = true

theorem MulRep.exact {m : MulState} {s : Bool × Ladder F} (h : MulRep m s) : m.Exact := by
  refine ⟨h.x0.exact, h.z0.exact, h.x1.exact, h.z1.exact, ?_⟩
  rw [h.swap]
  split
  next => rfl
  next => rfl

theorem mulRun_rep (n : List UInt8) (hq : q.Rep bound u) (j : ℕ) :
    ∃ s, MulRep (mulRun n q j) s := by
  refine countDown_rel (R := fun m (_ : Unit) => ∃ s, MulRep m s) (g := fun _ t => t) ?_ _
    (t := ()) ⟨_, mulInit_rep hq⟩
  rintro i m _ ⟨s, h⟩
  exact ⟨_, mulStep_rep n hq h (i + j)⟩

/-- The bits of a clamped scalar above 254 are zero. -/
theorem testBit_decodeScalar (bytes : List UInt8) :
    (Rfc7748.decodeScalar bytes).testBit 255 = false := by
  apply Nat.testBit_lt_two_pow
  have hlt : leNat bytes / 8 % 2 ^ 251 < 2 ^ 251 := Nat.mod_lt _ (by decide)
  unfold Rfc7748.decodeScalar
  omega

theorem x25519Limbs_canonical (secret pub : Bytes 32) :
    (x25519Limbs secret pub).Canonical (Rfc7748.mul (Rfc7748.decodeScalar secret.toList)
      (Rfc7748.decodeUCoordinate pub.toList)).val := by
  have hq : (load pub.toList).Rep bound (Rfc7748.decodeUCoordinate pub.toList) :=
    (load_rep pub.toList).mono (by decide)
  obtain ⟨hx, hz⟩ := mulPoint_rep (clamp secret.toList) hq
  have hmul := mul_rep (hx.mono (by decide)) ((invert_rep (hz.mono (by decide))).mono (by decide))
  have hresult := reduce_rep_canonical (hmul.mono (by decide))
  rw [leNat_clamp _ secret.toList_length] at hresult
  have h4 : (4 : F) ≠ 0 := by decide
  have hladder : (Ladder.rounds Rfc7748.a24 (Rfc7748.decodeUCoordinate pub.toList) _ 256
      (Ladder.start _)).result = _ := Ladder.result_rounds_leading_zero h4 _ _ _ 254
    (testBit_decodeScalar secret.toList)
  rw [Ladder.result, Ladder.result] at hladder
  rw [hladder, ← Ladder.cswap_false (Ladder.start _), ← Ladder.deferred_eq_rounds _ _ _ 255
    (false, Ladder.start _), inv_eq_pow] at hresult
  exact hresult

/-- The code writes the X25519 function of RFC 7748, and no iteration of the
ladder and no later step loses bits. -/
theorem x25519_eq_rfc7748 (secret pub : Bytes 32) :
    x25519 secret pub = Rfc7748.x25519 secret pub ∧
    (∀ j, (mulRun (clamp secret.toList) (load pub.toList) j).Exact) ∧
    (x25519Limbs secret pub).Exact := by
  have hlimbs := x25519Limbs_canonical secret pub
  refine ⟨store_eq hlimbs, ?_, hlimbs.toBounded.exact⟩
  intro j
  obtain ⟨s, hs⟩ := mulRun_rep (clamp secret.toList) ((load_rep pub.toList).mono (by decide)) j
  exact hs.exact

end Hc.X25519
