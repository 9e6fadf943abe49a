import Mathlib.Data.Fintype.Basic
import Mathlib.Tactic.FinCases
import Hc.Crypto.Sha2

/-!
# The rounds of SHA-2

Before round `i` the words `r[i]` to `r[i + 7]` are the working variables of the standard from
`h` to `a`, and the words of the schedule are filled in sixteen rounds ahead of their use.
-/

namespace Hc.Sha2

variable {w : ℕ}

theorem CH_eq (x y z : BitVec w) : CH x y z = Fips180.Ch x y z := by
  apply BitVec.eq_of_getLsbD_eq
  intro i hi
  simp only [CH, Fips180.Ch, BitVec.getLsbD_xor, BitVec.getLsbD_and, BitVec.getLsbD_not, hi]
  cases x.getLsbD i <;> cases y.getLsbD i <;> cases z.getLsbD i <;> rfl

theorem MAJ_eq (x y z : BitVec w) : MAJ x y z = Fips180.Maj x y z := by
  apply BitVec.eq_of_getLsbD_eq
  intro i hi
  simp only [MAJ, Fips180.Maj, BitVec.getLsbD_xor, BitVec.getLsbD_and]
  cases x.getLsbD i <;> cases y.getLsbD i <;> cases z.getLsbD i <;> rfl

/-- The macros and the table of the code are those of the standard. -/
structure Params.Implements (params : Params w) (sha2 : Fips180.Sha2 w) : Prop where
  sigma0 : params.SIGMA0_A = sha2.sigma0
  sigma1 : params.SIGMA1_A = sha2.sigma1
  bigSigma0 : params.SIGMA0_B = sha2.bigSigma0
  bigSigma1 : params.SIGMA1_B = sha2.bigSigma1
  round : ∀ t < sha2.numRounds, params.round.getD t 0 = Fips180.fractionalRoot 3 w t
  numRounds : 16 ≤ sha2.numRounds

/-- The arrays before round `i`. -/
structure Window (sha2 : Fips180.Sha2 w) (M : ℕ → BitVec w) (arrays : Arrays w) (i : ℕ)
    (v : Fips180.Vars8 w) : Prop where
  h : arrays.r i = v.h
  g : arrays.r (i + 1) = v.g
  f : arrays.r (i + 2) = v.f
  e : arrays.r (i + 3) = v.e
  d : arrays.r (i + 4) = v.d
  c : arrays.r (i + 5) = v.c
  b : arrays.r (i + 6) = v.b
  a : arrays.r (i + 7) = v.a
  schedule : ∀ t < i + 16, t < sha2.numRounds → arrays.w t = sha2.W M t

theorem W_add_sixteen (sha2 : Fips180.Sha2 w) (M : ℕ → BitVec w) (i : ℕ) :
    sha2.W M (i + 16) = sha2.W M i + sha2.W M (i + 9) + sha2.sigma1 (sha2.W M (i + 14)) +
      sha2.sigma0 (sha2.W M (i + 1)) := by
  rw [Fips180.Sha2.W, if_neg (by omega)]
  simp only [Nat.add_sub_cancel, show i + 16 - 2 = i + 14 by omega,
    show i + 16 - 7 = i + 9 by omega, show i + 16 - 15 = i + 1 by omega]
  ac_rfl

variable {params : Params w} {sha2 : Fips180.Sha2 w} {M : ℕ → BitVec w}

/-- The value `x` of a round. -/
def roundSum (params : Params w) (self : Arrays w) (i : ℕ) : BitVec w :=
  self.r i + self.w i + params.round.getD i 0 + params.SIGMA1_B (self.r (i + 3)) +
    CH (self.r (i + 3)) (self.r (i + 2)) (self.r (i + 1))

/-- What a round writes to `r`. -/
theorem blockRound_r (params : Params w) (rounds : ℕ) (self : Arrays w) (i : ℕ) :
    (blockRound params rounds self i).r =
      Function.update (Function.update self.r (i + 4) (self.r (i + 4) + roundSum params self i))
        (i + 8) (roundSum params self i + params.SIGMA0_B (self.r (i + 7)) +
          MAJ (self.r (i + 7)) (self.r (i + 6)) (self.r (i + 5))) := by
  have hne (k : ℕ) (hk : k ≠ 4) (value : BitVec w) :
      Function.update self.r (i + 4) value (i + k) = self.r (i + k) :=
    Function.update_of_ne (by omega) _ _
  unfold blockRound
  simp only [hne 7 (by decide), hne 6 (by decide), hne 5 (by decide)]
  split <;> rfl

/-- What a round writes to `w`. -/
theorem blockRound_w (params : Params w) (rounds : ℕ) (self : Arrays w) (i : ℕ) :
    (blockRound params rounds self i).w = if i < rounds - 16 then
      Function.update self.w (i + 16) (self.w i + self.w (i + 9) +
        params.SIGMA1_A (self.w (i + 14)) + params.SIGMA0_A (self.w (i + 1))) else self.w := by
  unfold blockRound
  split <;> rfl

theorem blockRound_r_of_ne (params : Params w) (rounds : ℕ) (self : Arrays w) (i k : ℕ)
    (hfour : k ≠ 4) (height : k ≠ 8) :
    (blockRound params rounds self i).r (i + k) = self.r (i + k) := by
  rw [blockRound_r, Function.update_of_ne (by omega), Function.update_of_ne (by omega)]

theorem roundSum_eq (himpl : params.Implements sha2) {self : Arrays w} {i : ℕ}
    {v : Fips180.Vars8 w} (hwindow : Window sha2 M self i v) (hi : i < sha2.numRounds) :
    roundSum params self i = v.h + sha2.bigSigma1 v.e + Fips180.Ch v.e v.f v.g +
      Fips180.fractionalRoot 3 w i + sha2.W M i := by
  rw [roundSum, hwindow.schedule i (by omega) hi, himpl.round i hi, himpl.bigSigma1, CH_eq,
    hwindow.h, hwindow.g, hwindow.f, hwindow.e]
  ac_rfl

/-- The schedule is extended by one word while there are words to come. -/
theorem blockRound_schedule (himpl : params.Implements sha2) {self : Arrays w} {i : ℕ}
    {v : Fips180.Vars8 w} (hwindow : Window sha2 M self i v) {t : ℕ} (ht : t < i + 1 + 16)
    (htRounds : t < sha2.numRounds) :
    (blockRound params sha2.numRounds self i).w t = sha2.W M t := by
  rw [blockRound_w]
  split
  next hmore =>
    by_cases hnew : t = i + 16
    · subst hnew
      rw [Function.update_self, hwindow.schedule i (by omega) (by omega),
        hwindow.schedule (i + 9) (by omega) (by omega),
        hwindow.schedule (i + 14) (by omega) (by omega),
        hwindow.schedule (i + 1) (by omega) (by omega), himpl.sigma0, himpl.sigma1, W_add_sixteen]
    · rw [Function.update_of_ne hnew]
      exact hwindow.schedule t (by omega) htRounds
  next hlast => exact hwindow.schedule t (by omega) htRounds

/-- One round of the code is one round of the standard. -/
theorem blockRound_window (himpl : params.Implements sha2) {self : Arrays w} {i : ℕ}
    {v : Fips180.Vars8 w} (hwindow : Window sha2 M self i v) (hi : i < sha2.numRounds) :
    Window sha2 M (blockRound params sha2.numRounds self i) (i + 1) (sha2.round M v i) := by
  have hkeep (k : ℕ) (hfour : k ≠ 4) (height : k ≠ 8) :=
    blockRound_r_of_ne params sha2.numRounds self i k hfour height
  constructor
  case h => exact (hkeep 1 (by decide) (by decide)).trans hwindow.g
  case g => exact (hkeep 2 (by decide) (by decide)).trans hwindow.f
  case f => exact (hkeep 3 (by decide) (by decide)).trans hwindow.e
  case e =>
    change (blockRound params sha2.numRounds self i).r (i + 4) = _
    rw [blockRound_r, Function.update_of_ne (by omega), Function.update_self,
      roundSum_eq himpl hwindow hi, hwindow.d]
    rfl
  case d => exact (hkeep 5 (by decide) (by decide)).trans hwindow.c
  case c => exact (hkeep 6 (by decide) (by decide)).trans hwindow.b
  case b => exact (hkeep 7 (by decide) (by decide)).trans hwindow.a
  case a =>
    change (blockRound params sha2.numRounds self i).r (i + 8) = _
    rw [blockRound_r, Function.update_self, roundSum_eq himpl hwindow hi, hwindow.a, hwindow.b,
      hwindow.c, himpl.bigSigma0, MAJ_eq, BitVec.add_assoc _ (sha2.bigSigma0 v.a)]
    rfl
  case schedule => exact fun t ht htRounds => blockRound_schedule himpl hwindow ht htRounds

theorem foldl_blockRound_window (himpl : params.Implements sha2) {self : Arrays w}
    {v : Fips180.Vars8 w} (hwindow : Window sha2 M self 0 v) (n : ℕ) (hn : n ≤ sha2.numRounds) :
    Window sha2 M ((List.range n).foldl (blockRound params sha2.numRounds) self) n
      ((List.range n).foldl (sha2.round M) v) := by
  induction n with
  | zero => exact hwindow
  | succ n ih =>
      rw [List.range_succ, List.foldl_append, List.foldl_append]
      exact blockRound_window himpl (ih (by omega)) hn

/-- The code compresses a block as the standard does. -/
theorem block_eq_compress (himpl : params.Implements sha2) (rounds : ℕ)
    (hrounds : rounds = sha2.numRounds) : block params rounds = sha2.compress := by
  subst hrounds
  funext state input
  have hstart : Window sha2 (fun i => loadBE w input (w / 8 * i))
      ⟨fun i => if i < 16 then loadBE w input (w / 8 * i) else 0,
        fun j => if h : j < 8 then state (Fin.rev ⟨j, h⟩) else 0⟩ 0
      ⟨state 0, state 1, state 2, state 3, state 4, state 5, state 6, state 7⟩ := by
    constructor
    case schedule =>
      intro t ht _
      rw [Fips180.Sha2.W, if_pos ht]
      exact if_pos ht
    all_goals rfl
  have hend := foldl_blockRound_window himpl hstart sha2.numRounds le_rfl
  funext i
  unfold block Fips180.Sha2.compress
  fin_cases i
  · exact congrArg (state 0 + ·) hend.a
  · exact congrArg (state 1 + ·) hend.b
  · exact congrArg (state 2 + ·) hend.c
  · exact congrArg (state 3 + ·) hend.d
  · exact congrArg (state 4 + ·) hend.e
  · exact congrArg (state 5 + ·) hend.f
  · exact congrArg (state 6 + ·) hend.g
  · exact congrArg (state 7 + ·) hend.h

end Hc.Sha2

namespace Hc

theorem round_eq_fractionalRoot :
    (∀ t < 64, Sha256.params.round.getD t 0 = Fips180.fractionalRoot 3 32 t) ∧
      ∀ t < 80, Sha512.params.round.getD t 0 = Fips180.fractionalRoot 3 64 t := by
  decide +kernel

theorem Sha256.params_implements : Sha256.params.Implements Fips180.sha2With32 :=
  ⟨rfl, rfl, rfl, rfl, round_eq_fractionalRoot.1, by decide⟩

theorem Sha512.params_implements : Sha512.params.Implements Fips180.sha2With64 :=
  ⟨rfl, rfl, rfl, rfl, round_eq_fractionalRoot.2, by decide⟩

theorem Sha256.block_eq : Sha256.block = Fips180.sha2With32.compress :=
  Sha2.block_eq_compress Sha256.params_implements 64 rfl

theorem Sha512.block_eq : Sha512.block = Fips180.sha2With64.compress :=
  Sha2.block_eq_compress Sha512.params_implements 80 rfl

end Hc
