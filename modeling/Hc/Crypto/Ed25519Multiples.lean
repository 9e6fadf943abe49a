import Hc.Crypto.Ed25519Points

/-!
# The precomputed multiples of the base point

Every entry of the two tables is the point that it should be. Each entry is compared with
the sum or the multiple of earlier entries, modulo the prime and by evaluation.
-/

namespace Hc.Ed25519

open Curve25519 ModularPoint EdwardsCurve

/-- The number in a sequence of words. -/
def wordsNat : List (Word 64) → ℕ
  | [] => 0
  | w :: words => w.toNat + 2 ^ 64 * wordsNat words

/-- The words of an entry of `ed25519_ge_nielsBaseMultiples`. -/
def baseEntry (n : ℕ) : List (Word 64) := (nielsBaseMultiples.getD n []).map (Word.lit 64)

/-- One of the three numbers in an entry. -/
def packedNat (packed : List (Word 64)) (k : ℕ) : ℕ := wordsNat ((packed.drop (4 * k)).take 4)

/-- The multiple of the base point in an entry. -/
def baseMultiple (n : ℕ) : ℕ := (n % 8 + 1) * 256 ^ (n / 8)

/-- The first entry of the row of an entry. -/
def rowStart (n : ℕ) : ℕ := 8 * (n / 8)

/-- The point that an entry is compared with. -/
def expectedBase (n : ℕ) : ModularPoint :=
  let entry (n : ℕ) := ofNiels p (packedNat (baseEntry n) 0) (packedNat (baseEntry n) 1)
  if n = 0 then baseModular
  else if n % 8 = 0 then
    (ModularPoint.double p)^[5] (entry (n - 1))
  else ModularPoint.add p dNat (entry (n - 1)) (entry (rowStart n))

/-- The check of one entry; the first row has `2 x y` where the others have `2 d x y`. -/
def checkBase (n : ℕ) : Bool :=
  let a := packedNat (baseEntry n) 0
  let b := packedNat (baseEntry n) 1
  let c := packedNat (baseEntry n) 2
  decide ((baseEntry n).length = 12) && decide (a < 2 ^ 255) && decide (b < 2 ^ 255) &&
    decide (c < 2 ^ 255) && matchesNiels p (expectedBase n) a b &&
    decide (2 * c % p = (if n < 8 then 1 else dNat) * (subMod p b a * (a + b)) % p)

theorem checkBase_all : ∀ n < 256, checkBase n = true := by decide +kernel

/-- Every entry is the multiple of the base point that its place says. -/
theorem isNiels_base (n : ℕ) (hn : n < 256) :
    IsNiels (packedNat (baseEntry n) 0) (packedNat (baseEntry n) 1) (baseMultiple n • B) := by
  induction n using Nat.strong_induction_on with
  | _ n ih =>
      have hcheck := checkBase_all n hn
      simp only [checkBase, Bool.and_eq_true] at hcheck
      refine Represents.isNiels ?_ hcheck.1.2
      unfold expectedBase
      split
      next hzero =>
        rw [hzero, show baseMultiple 0 = 1 from rfl, one_smul]
        exact baseModular_represents
      next hpos =>
        have hprev := (ih (n - 1) (by omega) (by omega)).ofNiels
        split
        next hrow =>
          have hmultiple : baseMultiple n = 2 ^ 5 * baseMultiple (n - 1) := by
            have hquot : n / 8 = (n - 1) / 8 + 1 := by omega
            have hlast : (n - 1) % 8 = 7 := by omega
            rw [baseMultiple, baseMultiple, hrow, hquot, hlast, pow_succ]
            ring
          rw [hmultiple, mul_smul]
          exact hprev.iterate_double 5
        next hrow =>
          have hmultiple : baseMultiple n = baseMultiple (n - 1) + baseMultiple (rowStart n) := by
            have hquot : (n - 1) / 8 = n / 8 := by omega
            have hnext : n % 8 = (n - 1) % 8 + 1 := by omega
            have hstart : 8 * (n / 8) / 8 = n / 8 := by omega
            have hzero : 8 * (n / 8) % 8 = 0 := by omega
            rw [baseMultiple, baseMultiple, baseMultiple, rowStart, hquot, hstart, hnext, hzero]
            ring
          rw [hmultiple, add_smul]
          exact hprev.add rfl (ih (rowStart n) (by unfold rowStart; omega)
            (by unfold rowStart; omega)).ofNiels

/-- The third number of an entry. -/
theorem t2d_base (n : ℕ) (hn : n < 256) : (packedNat (baseEntry n) 2 : F) =
    2 * (if n < 8 then 1 else d) * (baseMultiple n • B).x * (baseMultiple n • B).y := by
  have hcheck := checkBase_all n hn
  simp only [checkBase, Bool.and_eq_true, decide_eq_true_eq] at hcheck
  obtain ⟨ha, hb⟩ := isNiels_base n hn
  have hp : NeZero p := ⟨prime_p.ne_zero⟩
  have hc := congrArg (Nat.cast : ℕ → F) hcheck.2
  simp only [ZMod.natCast_mod, Nat.cast_mul, Nat.cast_add, Nat.cast_ofNat, cast_subMod, ha,
    hb, Nat.cast_ite, Nat.cast_one] at hc
  refine mul_left_cancel₀ curve.two_ne_zero ?_
  change _ = 2 * (2 * (if n < 8 then 1 else (dNat : F)) * _ * _)
  linear_combination hc

/-- The numbers of an entry fit into 255 bits, and it has twelve words. -/
theorem baseEntry_bounds (n : ℕ) (hn : n < 256) : (baseEntry n).length = 12 ∧
    packedNat (baseEntry n) 0 < 2 ^ 255 ∧ packedNat (baseEntry n) 1 < 2 ^ 255 ∧
    packedNat (baseEntry n) 2 < 2 ^ 255 := by
  have hcheck := checkBase_all n hn
  simp only [checkBase, Bool.and_eq_true, decide_eq_true_eq] at hcheck
  obtain ⟨⟨⟨⟨⟨hlength, ha⟩, hb⟩, hc⟩, -⟩, -⟩ := hcheck
  exact ⟨hlength, ha, hb, hc⟩

/-! ## The odd multiples -/

/-- An entry of `ed25519_ge_nielsSlidingMultiples`. -/
def slidingEntry (n : ℕ) : Niels := nielsSlidingMultiples.getD n ⟨one, one, zero⟩

/-- The check of one entry. -/
def checkSliding (n : ℕ) : Bool :=
  let q := slidingEntry n
  let a := q.ysubx.value
  let b := q.xaddy.value
  let expected :=
    if n = 0 then baseModular
    else ModularPoint.add p dNat
      (ofNiels p (slidingEntry (n - 1)).ysubx.value (slidingEntry (n - 1)).xaddy.value)
      (ModularPoint.double p baseModular)
  isLiteral q.ysubx a && isLiteral q.xaddy b && isLiteral q.t2d q.t2d.value &&
    matchesNiels p expected a b &&
    decide (2 * q.t2d.value % p = dNat * (subMod p b a * (a + b)) % p)

theorem checkSliding_all : ∀ n < 32, checkSliding n = true := by decide +kernel

theorem isNiels_sliding (n : ℕ) (hn : n < 32) :
    IsNiels (slidingEntry n).ysubx.value (slidingEntry n).xaddy.value ((2 * n + 1) • B) := by
  induction n with
  | zero =>
      have hcheck := checkSliding_all 0 hn
      simp only [checkSliding, Bool.and_eq_true] at hcheck
      have h := baseModular_represents.isNiels hcheck.1.2
      rwa [mul_zero, zero_add, one_smul]
  | succ n ih =>
      have hcheck := checkSliding_all (n + 1) hn
      simp only [checkSliding, Bool.and_eq_true, Nat.add_eq_zero_iff, one_ne_zero, and_false,
        if_false, Nat.add_sub_cancel] at hcheck
      have hsum := (ih (by omega)).ofNiels.add rfl baseModular_represents.double
      have hmultiple : (2 * (n + 1) + 1) • B = (2 * n + 1) • B + (B + B) := by
        rw [← two_nsmul, ← add_smul]
        congr 1
      rw [hmultiple]
      exact hsum.isNiels hcheck.1.2

/-- The entries of `ed25519_ge_nielsSlidingMultiples` are the odd multiples. -/
theorem slidingEntry_represents (n : ℕ) (hn : n < 32) :
    (slidingEntry n).Represents ((2 * n + 1) • B) := by
  have hcheck := checkSliding_all n hn
  simp only [checkSliding, Bool.and_eq_true, decide_eq_true_eq] at hcheck
  obtain ⟨⟨⟨⟨ha, hb⟩, hc⟩, -⟩, ht⟩ := hcheck
  obtain ⟨hysubx, hxaddy⟩ := isNiels_sliding n hn
  have hp : NeZero p := ⟨prime_p.ne_zero⟩
  have ht2d := congrArg (Nat.cast : ℕ → F) ht
  simp only [ZMod.natCast_mod, Nat.cast_mul, Nat.cast_add, Nat.cast_ofNat, cast_subMod, hysubx,
    hxaddy] at ht2d
  refine ⟨_, _, _, (rep_of_isLiteral ha).mono (by decide), (rep_of_isLiteral hb).mono (by decide),
    (rep_of_isLiteral hc).mono (by decide), one_ne_zero, ?_, ?_, ?_⟩
  · rw [hysubx, mul_one]
  · rw [hxaddy, mul_one]
  · rw [mul_one]
    refine mul_left_cancel₀ curve.two_ne_zero ?_
    change _ = 2 * (2 * (dNat : F) * _ * _)
    linear_combination ht2d

/-! ## The selection in constant time -/

/-- All words are exact. -/
def ExactWords (words : List (Word 64)) : Prop := ∀ w ∈ words, w.exact = true

theorem and_ones {w : Word 64} (h : w.exact = true) :
    w &&& (⟨BitVec.allOnes 64, true⟩ : Word 64) = w := by
  obtain ⟨bits, exact⟩ := w
  obtain rfl : exact = true := h
  change (⟨bits &&& BitVec.allOnes 64, _⟩ : Word 64) = _
  rw [BitVec.and_allOnes]
  rfl

theorem and_zeros {w : Word 64} (h : w.exact = true) : w &&& (0 : Word 64) = 0 := by
  obtain ⟨bits, exact⟩ := w
  obtain rfl : exact = true := h
  change (⟨bits &&& 0#64, _⟩ : Word 64) = ⟨0#64, _⟩
  rw [BitVec.and_zero]
  rfl

theorem or_zeros {w : Word 64} (h : w.exact = true) : w ||| (0 : Word 64) = w ∧ 0 ||| w = w := by
  obtain ⟨bits, exact⟩ := w
  obtain rfl : exact = true := h
  constructor
  · change (⟨bits ||| 0#64, _⟩ : Word 64) = _
    rw [BitVec.or_zero]
    rfl
  · change (⟨0#64 ||| bits, _⟩ : Word 64) = _
    rw [BitVec.zero_or]
    rfl

/-- The move with a flag of 0 or 1. -/
theorem move96BytesConditional_eq {out input : List (Word 64)} (hout : ExactWords out)
    (hinput : ExactWords input) (hlength : out.length = input.length) (flag : Bool) :
    move96BytesConditional out input (if flag then 1 else 0) = if flag then input else out := by
  induction out generalizing input with
  | nil =>
      obtain rfl := List.length_eq_zero_iff.mp hlength.symm
      cases flag <;> rfl
  | cons o out ih =>
      cases input with
      | nil => cases hlength
      | cons i input =>
          have ho := hout o List.mem_cons_self
          have hi := hinput i List.mem_cons_self
          have hrest := ih (fun w hw => hout w (List.mem_cons_of_mem _ hw))
            (fun w hw => hinput w (List.mem_cons_of_mem _ hw)) (Nat.succ.inj hlength)
          cases flag with
          | false =>
              have hhead : (o &&& (⟨BitVec.allOnes 64, true⟩ : Word 64)) ||| (i &&& 0) = o := by
                rw [and_ones ho, and_zeros hi, (or_zeros ho).1]
              exact congrArg₂ List.cons hhead hrest
          | true =>
              have hhead : (o &&& 0) ||| (i &&& (⟨BitVec.allOnes 64, true⟩ : Word 64)) = i := by
                rw [and_zeros ho, and_ones hi, (or_zeros hi).2]
              exact congrArg₂ List.cons hhead hrest

/-- The sign of a digit. -/
theorem sign_eq {b : ℤ} (hlow : -8 ≤ b) (hhigh : b ≤ 16) :
    Word.lit 32 ((b % 256).toNat >>> 7) = if b < 0 then 1 else 0 := by
  interval_cases b <;> rfl

/-- The flag of a digit at one entry of its row: the entry is that of the absolute value. -/
theorem flag_eq {b : ℤ} (hlow : -8 ≤ b) (hhigh : b ≤ 16) {i : ℕ} (hi : i < 8) :
    let mask : Word 32 := ~~~((if b < 0 then 1 else 0 : Word 32).wrapSub 1)
    let u := Word.wrapAdd (Word.lit 32 (b % 2 ^ 32).toNat) mask ^^^ mask
    ((u ^^^ Word.lit 32 (i + 1)).wrapSub 1 >>> 31).cast 64 =
      if decide (b.natAbs = i + 1) then (1 : Word 64) else 0 := by
  interval_cases b <;> interval_cases i <;> rfl

/-- `ysubx = 1`, `xaddy = 1` and `t2d = 0`. -/
def packedNeutral : List (Word 64) := [1, 0, 0, 0, 1, 0, 0, 0, 0, 0, 0, 0]

theorem exactWords_packedNeutral : ExactWords packedNeutral := by
  unfold ExactWords packedNeutral
  decide

theorem exactWords_baseEntry (n : ℕ) : ExactWords (baseEntry n) := by
  intro w hw
  obtain ⟨v, -, rfl⟩ := List.mem_map.mp hw
  rfl

/-- The entry that is left after the first `k` moves. -/
def selected (pos u k : ℕ) : List (Word 64) :=
  if 1 ≤ u ∧ u ≤ k then baseEntry ((pos <<< 3) + (u - 1)) else packedNeutral

theorem exactWords_selected (pos u k : ℕ) : ExactWords (selected pos u k) := by
  unfold selected
  split
  · exact exactWords_baseEntry _
  · exact exactWords_packedNeutral

theorem entry_lt {pos i : ℕ} (hpos : pos < 32) (hi : i < 8) : (pos <<< 3) + i < 256 := by
  rw [Nat.shiftLeft_eq]
  omega

theorem length_selected {pos u k : ℕ} (hpos : pos < 32) (hk : k ≤ 8) :
    (selected pos u k).length = 12 := by
  unfold selected
  split
  next h => exact (baseEntry_bounds _ (entry_lt hpos (by omega))).1
  next => rfl

/-- The loop of `_ed25519_ge_scalarmultBaseChooseNiels`. -/
theorem foldl_move96BytesConditional {pos : ℕ} (hpos : pos < 32) {b : ℤ} {flag : ℕ → Word 64}
    (hflag : ∀ i < 8, flag i = if decide (b.natAbs = i + 1) then 1 else 0) (k : ℕ) (hk : k ≤ 8) :
    (List.range k).foldl (fun packed i => move96BytesConditional packed
      ((nielsBaseMultiples.getD ((pos <<< 3) + i) []).map (Word.lit 64)) (flag i)) packedNeutral =
      selected pos b.natAbs k := by
  induction k with
  | zero =>
      rw [selected, if_neg (by omega)]
      rfl
  | succ k ih =>
      have hlength := (length_selected (u := b.natAbs) hpos (by omega : k ≤ 8)).trans
        (baseEntry_bounds ((pos <<< 3) + k) (entry_lt hpos (by omega))).1.symm
      rw [List.range_succ, List.foldl_append, ih (by omega), List.foldl_cons, List.foldl_nil,
        hflag k (by omega)]
      refine (move96BytesConditional_eq (exactWords_selected pos _ k) (exactWords_baseEntry _)
        hlength _).trans ?_
      unfold selected
      by_cases heq : b.natAbs = k + 1
      · simp [heq]
      · have hiff : (1 ≤ b.natAbs ∧ b.natAbs ≤ k + 1) ↔ (1 ≤ b.natAbs ∧ b.natAbs ≤ k) := by omega
        simp only [heq, decide_false, hiff]
        rfl

/-! ## Unpacking an entry -/

theorem leNat_flatMap_storeU64 (words : List (Word 64)) :
    leNat (words.flatMap storeU64) = wordsNat words := by
  induction words with
  | nil => rfl
  | cons w words ih =>
      have hw := w.toNat_lt
      rw [List.flatMap_cons, leNat_append, ih, wordsNat, storeU64, leNat_leBytes, length_leBytes,
        Nat.mod_eq_of_lt (by norm_num; exact hw)]
      norm_num

theorem drop_flatMap_storeU64 (words : List (Word 64)) (k : ℕ) :
    (words.flatMap storeU64).drop (8 * k) = (words.drop k).flatMap storeU64 := by
  induction k generalizing words with
  | zero => rfl
  | succ k ih =>
      cases words with
      | nil => simp
      | cons w words =>
          have hlength : (storeU64 w).length = 8 := length_leBytes 8 _
          rw [List.drop_succ_cons, ← ih, List.flatMap_cons, List.drop_append, hlength,
            List.drop_of_length_le (by rw [hlength]; omega), List.nil_append]
          congr 1

theorem wordsNat_take (words : List (Word 64)) (k : ℕ) :
    wordsNat words % 2 ^ (64 * k) = wordsNat (words.take k) % 2 ^ (64 * k) := by
  induction k generalizing words with
  | zero => simp [Nat.mod_one]
  | succ k ih =>
      cases words with
      | nil => rfl
      | cons w words =>
          rw [List.take_succ_cons, wordsNat, wordsNat, Nat.mul_succ, Nat.add_comm (64 * k), pow_add,
            Nat.add_mod, Nat.mul_mod_mul_left, ih, ← Nat.mul_mod_mul_left, ← Nat.add_mod]

/-- Loading one of the numbers of an entry. -/
theorem load_packed (packed : List (Word 64)) (k : ℕ) (hlt : packedNat packed k < 2 ^ 255) :
    (load ((packed.flatMap storeU64).drop (32 * k))).Rep (2 ^ 51 - 1) (packedNat packed k : F) := by
  have hload := load_rep ((packed.flatMap storeU64).drop (32 * k))
  have hsplit := wordsNat_take (packed.drop (4 * k)) 4
  have hvalue : leNat ((packed.flatMap storeU64).drop (32 * k)) % 2 ^ 255 = packedNat packed k := by
    rw [show 32 * k = 8 * (4 * k) by omega, drop_flatMap_storeU64, leNat_flatMap_storeU64]
    rw [← packedNat] at hsplit
    omega
  rwa [hvalue] at hload

/-! ## One digit -/

/-- The factor of the third number in a row. -/
def rowFactor (pos : ℕ) : F := if pos = 0 then 1 else d

/-- The coordinates of a point in the form of a row. -/
structure Niels.InRow (q : Niels) (pos : ℕ) (P : Point) : Prop where
  ysubx : q.ysubx.Rep limbBound (P.y - P.x)
  xaddy : q.xaddy.Rep limbBound (P.y + P.x)
  t2d : q.t2d.Rep limbBound (2 * rowFactor pos * P.x * P.y)

theorem Niels.InRow.represents {q : Niels} {pos : ℕ} {P : Point} (h : q.InRow pos P)
    (hpos : pos ≠ 0) : q.Represents P := by
  refine ⟨_, _, _, h.ysubx.mono (by decide), h.xaddy.mono (by decide), h.t2d.mono (by decide),
    one_ne_zero, (mul_one _).symm, (mul_one _).symm, ?_⟩
  rw [rowFactor, if_neg hpos, mul_one]
  rfl

/-- The three numbers of the selected entry. -/
theorem selected_spec {pos u : ℕ} (hpos : pos < 32) (hu : u ≤ 8) :
    ((packedNat (selected pos u 8) 0 < 2 ^ 255 ∧ packedNat (selected pos u 8) 1 < 2 ^ 255 ∧
      packedNat (selected pos u 8) 2 < 2 ^ 255) ∧
    IsNiels (packedNat (selected pos u 8) 0) (packedNat (selected pos u 8) 1)
      ((u * 256 ^ pos) • B)) ∧ (packedNat (selected pos u 8) 2 : F) =
        2 * rowFactor pos * ((u * 256 ^ pos) • B).x * ((u * 256 ^ pos) • B).y := by
  unfold selected
  split
  next h =>
    have hlt := entry_lt hpos (show u - 1 < 8 by omega)
    have hn : (pos <<< 3) + (u - 1) = 8 * pos + (u - 1) := by
      rw [Nat.shiftLeft_eq]
      omega
    have hmultiple : baseMultiple ((pos <<< 3) + (u - 1)) = u * 256 ^ pos := by
      rw [baseMultiple, hn, show (8 * pos + (u - 1)) % 8 + 1 = u by omega,
        show (8 * pos + (u - 1)) / 8 = pos by omega]
    have hfactor : (if (pos <<< 3) + (u - 1) < 8 then 1 else d) = rowFactor pos := by
      rw [rowFactor, hn]
      congr 1
      exact propext ⟨fun _ => by omega, fun _ => by omega⟩
    rw [← hmultiple, ← hfactor]
    exact ⟨⟨(baseEntry_bounds _ hlt).2, isNiels_base _ hlt⟩, t2d_base _ hlt⟩
  next h =>
    have hu0 : u = 0 := by omega
    have h0 : packedNat packedNeutral 0 = 1 := by decide
    have h1 : packedNat packedNeutral 1 = 1 := by decide
    have h2 : packedNat packedNeutral 2 = 0 := by decide
    rw [hu0, Nat.zero_mul, zero_smul, h0, h1, h2]
    refine ⟨⟨⟨by decide, by decide, by decide⟩, ?_, ?_⟩, ?_⟩
    · simp
    · simp
    · simp

/-- The digit whose multiple is selected: a row has no entry for a digit above 8. -/
def chosenDigit (b : ℤ) : ℤ := if b ≤ 8 then b else 0

theorem chosenDigit_of_le {b : ℤ} (h : b ≤ 8) : chosenDigit b = b := if_pos h

theorem selected_chosenDigit (pos : ℕ) (b : ℤ) :
    selected pos b.natAbs 8 = selected pos (chosenDigit b).natAbs 8 := by
  unfold chosenDigit
  split
  next => rfl
  next h =>
    unfold selected
    rw [if_neg (by omega), if_neg (by omega)]

/-- An entry that is loaded into limbs. -/
def Niels.ofPacked (packed : List (Word 64)) : Niels :=
  let memory := packed.flatMap storeU64
  ⟨load memory, load (memory.drop 32), load (memory.drop 64)⟩

/-- An entry with the sign of a digit. -/
def Niels.withSign (q : Niels) (b : ℤ) : Niels :=
  if b < 0 then ⟨q.xaddy, q.ysubx, sub zero q.t2d⟩ else q

theorem ofPacked_selected {pos u : ℕ} (hpos : pos < 32) (hu : u ≤ 8) :
    (Niels.ofPacked (selected pos u 8)).InRow pos ((u * 256 ^ pos) • B) := by
  obtain ⟨⟨⟨hlt0, hlt1, hlt2⟩, ha, hb⟩, hc⟩ := selected_spec hpos hu
  have hysubx := load_packed (selected pos u 8) 0 hlt0
  have hxaddy := load_packed (selected pos u 8) 1 hlt1
  have ht2d := load_packed (selected pos u 8) 2 hlt2
  rw [ha, Nat.mul_zero, List.drop_zero] at hysubx
  rw [hb, Nat.mul_one] at hxaddy
  rw [hc] at ht2d
  exact ⟨hysubx.mono (by decide), hxaddy.mono (by decide), ht2d.mono (by decide)⟩

theorem Niels.InRow.withSign {q : Niels} {pos : ℕ} {b : ℤ}
    (h : q.InRow pos ((b.natAbs * 256 ^ pos) • B)) :
    (q.withSign b).InRow pos ((b * 256 ^ pos) • B) := by
  unfold Niels.withSign
  split
  next hneg =>
    have hpoint : (b * 256 ^ pos : ℤ) • B = -((b.natAbs * 256 ^ pos : ℕ) • B) := by
      rw [← natCast_zsmul, ← neg_smul]
      congr 1
      push_cast
      rw [abs_of_neg hneg]
      ring
    have ht2d := sub_rep zero_rep (h.t2d.mono (by decide)) (by decide)
    rw [hpoint]
    refine ⟨?_, ?_, ?_⟩
    · rw [Point.neg_x, Point.neg_y, sub_neg_eq_add]
      exact h.xaddy
    · rw [Point.neg_x, Point.neg_y, ← sub_eq_add_neg]
      exact h.ysubx
    · rw [Point.neg_x, Point.neg_y, mul_neg, neg_mul, ← zero_sub]
      exact ht2d
  next hpos =>
    have hpoint : (b * 256 ^ pos : ℤ) • B = (b.natAbs * 256 ^ pos : ℕ) • B := by
      rw [← natCast_zsmul]
      congr 1
      push_cast
      rw [abs_of_nonneg (not_lt.mp hpos)]
    rwa [hpoint]

/-- The masks of `_ed25519_ge_scalarmultBaseChooseNiels` select the entry of the absolute value,
and its swaps apply the sign. -/
theorem scalarmultBaseChooseNiels_eq {pos : ℕ} (hpos : pos < 32) {b : ℤ} (hlow : -8 ≤ b)
    (hhigh : b ≤ 16) : scalarmultBaseChooseNiels pos b =
      (Niels.ofPacked (selected pos b.natAbs 8)).withSign b := by
  have hfold := foldl_move96BytesConditional hpos (fun i hi => flag_eq hlow hhigh hi) 8 le_rfl
  have hsign : ((if b < 0 then 1 else 0 : Word 32)).cast 64 =
      if decide (b < 0) then (1 : Word 64) else 0 := by
    split
    next h => rw [decide_eq_true h]; rfl
    next h => rw [decide_eq_false h]; rfl
  unfold scalarmultBaseChooseNiels
  simp only [sign_eq hlow hhigh, hsign]
  unfold packedNeutral at hfold
  simp only [hfold]
  unfold Niels.ofPacked
  generalize (selected pos b.natAbs 8).flatMap storeU64 = memory
  have ht2d := load_rep (memory.drop 64)
  have hneg := sub_rep zero_rep (ht2d.mono (by decide)) (by decide)
  rw [cSwap_eq (load_rep memory).exact (load_rep (memory.drop 32)).exact,
    cSwap_eq ht2d.exact hneg.exact]
  unfold Niels.withSign
  by_cases hb : b < 0
  · simp only [hb, decide_true, if_true]
  · simp only [hb, decide_false, if_false]
    rfl

/-- `_ed25519_ge_scalarmultBaseChooseNiels` selects the multiple of its row. -/
theorem scalarmultBaseChooseNiels_spec {pos : ℕ} (hpos : pos < 32) {b : ℤ} (hlow : -8 ≤ b)
    (hhigh : b ≤ 16) :
    (scalarmultBaseChooseNiels pos b).InRow pos ((chosenDigit b * 256 ^ pos) • B) := by
  rw [scalarmultBaseChooseNiels_eq hpos hlow hhigh, selected_chosenDigit]
  have hdigit : (chosenDigit b).natAbs ≤ 8 ∧ (b < 0 ↔ chosenDigit b < 0) := by
    unfold chosenDigit
    split <;> omega
  obtain ⟨hle, hsignbit⟩ := hdigit
  have hsign (q : Niels) : q.withSign b = q.withSign (chosenDigit b) := by
    simp only [Niels.withSign, hsignbit]
  rw [hsign]
  exact (ofPacked_selected hpos hle).withSign

end Hc.Ed25519
