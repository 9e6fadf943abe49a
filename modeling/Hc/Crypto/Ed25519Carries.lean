import Hc.Crypto.Ed25519Window

/-!
# The carries of the sliding windows

The loop over `k` in `ed25519_modm_window` drops its carry when there is no zero up to the end
of the array. Counted, the dropped carries account for the whole difference between a scalar and
its digits; a scalar below `2 ^ 253` has none.
-/

namespace Hc.Ed25519

/-- Whether the loop over `k`, from `r[k]` on, ends without a place for the carry. -/
def rippleLost (digits : List ℤ) : ℕ := if 0 ∈ digits then 0 else 1

/-- The carries lost in the loop over `b`, beside `windowMerge`. -/
def mergeLost (m : ℤ) : ℕ → ℕ → ℤ → List ℤ → ℕ
  | 0, _, _, _ => 0
  | _ + 1, _, _, [] => 0
  | n + 1, b, d, e :: rest =>
    let x := d + e * 2 ^ b
    if x ≤ m then
      mergeLost m n (b + 1) (int8 x) rest
    else
      let x := d - e * 2 ^ b
      if x ≥ -m then
        rippleLost (e :: rest) + mergeLost m n (b + 1) (int8 x) (ripple (e :: rest)).tail
      else if e ≠ 0 then
        0
      else
        mergeLost m n (b + 1) d rest

/-- The carries lost in the loop over `j`, beside `windowLoop`. -/
def loopLost (m : ℤ) : ℕ → List ℤ → ℕ
  | 0, _ => 0
  | _ + 1, [] => 0
  | n + 1, d :: rest =>
    if d = 0 then
      loopLost m n rest
    else
      let bEnd := if n + 1 > 7 then 7 else n + 1
      mergeLost m (bEnd - 1) 1 d rest + loopLost m n (windowMerge m (bEnd - 1) 1 d rest).2

/-- The carries lost in `ed25519_modm_window`. -/
def windowLost (s : Scalar) (m : ℤ) : ℕ := loopLost m 256 (scalarDigits 1 s)

/-! ## Any bits -/

theorem bits_scalarDigits (s : Scalar) : Bits (scalarDigits 1 s) := by
  intro digit hmem
  have hdigit := mem_scalarDigits hmem
  omega

theorem rippleLost_zero (digits : List ℤ) : rippleLost (0 :: digits) = 0 :=
  if_pos List.mem_cons_self

theorem rippleLost_one (digits : List ℤ) : rippleLost (1 :: digits) = rippleLost digits := by
  simp [rippleLost]

/-- A ripple adds one, but for a carry that is lost. -/
theorem ripple_lost {digits : List ℤ} (hbits : Bits digits) :
    Bits (ripple digits) ∧ (ripple digits).length = digits.length ∧
      digitsValue 2 (ripple digits) + 2 ^ digits.length * rippleLost digits =
        digitsValue 2 digits + 1 := by
  induction digits with
  | nil => exact ⟨hbits, rfl, rfl⟩
  | cons digit digits ih =>
      obtain ⟨hdigit, hdigits⟩ := hbits.cons
      rw [ripple]
      rcases hdigit with rfl | rfl
      · rw [if_pos rfl, rippleLost_zero]
        refine ⟨bits_cons (.inr rfl) hdigits, rfl, ?_⟩
        rw [digitsValue_cons, digitsValue_cons]
        ring
      · obtain ⟨hbits', hlength, hvalue⟩ := ih hdigits
        rw [if_neg one_ne_zero, rippleLost_one]
        refine ⟨bits_cons (.inl rfl) hbits', by rw [List.length_cons, hlength, List.length_cons],
          ?_⟩
        rw [digitsValue_cons, digitsValue_cons, List.length_cons, pow_succ]
        linarith

/-- What the loop over `b` leaves of any bits, with the carries it lost. -/
structure MergedLost (m : ℤ) (b : ℕ) (d : ℤ) (rest : List ℤ) (r : ℤ × List ℤ) (lost : ℕ) :
    Prop where
  digit : WindowDigit m r.1
  bits : Bits r.2
  length_eq : r.2.length = rest.length
  value_eq : r.1 + 2 ^ b * digitsValue 2 r.2 + 2 ^ (b + rest.length) * lost =
    d + 2 ^ b * digitsValue 2 rest

theorem MergedLost.refl {m d : ℤ} {b : ℕ} {rest : List ℤ} (hd : WindowDigit m d)
    (hbits : Bits rest) : MergedLost m b d rest (d, rest) 0 :=
  ⟨hd, hbits, rfl, by simp⟩

/-- A step of the loop that leaves a zero behind, with the carry of a ripple. -/
theorem MergedLost.cons_zero {m d d' e : ℤ} {b lost lost' : ℕ} {rest rest' : List ℤ}
    {r : ℤ × List ℤ} (h : MergedLost m (b + 1) d' rest' r lost)
    (hlength : rest'.length = rest.length)
    (hvalue : d' + 2 ^ (b + 1) * (digitsValue 2 rest' + 2 ^ rest.length * lost') =
      d + 2 ^ b * digitsValue 2 (e :: rest)) :
    MergedLost m b d (e :: rest) (r.1, 0 :: r.2) (lost' + lost) := by
  refine ⟨h.digit, bits_cons (.inl rfl) h.bits, ?_, ?_⟩
  · rw [List.length_cons, List.length_cons, h.length_eq, hlength]
  · have hkept := h.value_eq
    rw [hlength] at hkept
    rw [← hvalue, digitsValue_cons, List.length_cons, Nat.cast_add]
    have hpow : (2 : ℤ) ^ (b + (rest.length + 1)) = 2 ^ (b + 1) * 2 ^ rest.length := by
      rw [← pow_add]
      congr 1
      omega
    have hpow' : (2 : ℤ) ^ (b + 1 + rest.length) = 2 ^ (b + 1) * 2 ^ rest.length := pow_add _ _ _
    have hpow'' : (2 : ℤ) ^ (b + 1) = 2 ^ b * 2 := pow_succ 2 b
    rw [hpow'] at hkept
    rw [hpow]
    linear_combination hkept - digitsValue 2 r.2 * hpow''

/-- The loop over `b`, on any bits. -/
theorem mergeLost_spec {m : ℤ} (hm : m ≤ 127) (n b : ℕ) (hb : 1 ≤ b) {d : ℤ} {rest : List ℤ}
    (hd : WindowDigit m d) (hbits : Bits rest) :
    MergedLost m b d rest (windowMerge m n b d rest) (mergeLost m n b d rest) := by
  induction n generalizing b d rest with
  | zero => exact .refl hd hbits
  | succ n ih =>
      cases rest with
      | nil => exact .refl hd hbits
      | cons e rest =>
          obtain ⟨he, hrest⟩ := hbits.cons
          obtain ⟨hodd, hlow, hhigh⟩ := hd
          obtain ⟨q, hq, hqpos⟩ : ∃ q : ℤ, (2 : ℤ) ^ b = 2 * q ∧ 0 < q :=
            ⟨2 ^ (b - 1), by rw [← pow_succ', Nat.sub_add_cancel hb], by positivity⟩
          rw [windowMerge, mergeLost]
          dsimp only
          by_cases hadd : d + e * 2 ^ b ≤ m
          · have hdigit : WindowDigit m (d + e * 2 ^ b) := by
              rw [hq] at hadd ⊢
              refine ⟨?_, ?_, hadd⟩ <;> rcases he with rfl | rfl <;> omega
            rw [if_pos hadd, if_pos hadd, int8_eq (by linarith [hdigit.2.1]) (by linarith),
              ← Nat.zero_add (mergeLost _ _ _ _ _)]
            refine (ih (b + 1) (by omega) hdigit hrest).cons_zero rfl ?_
            rw [digitsValue_cons, pow_succ, Nat.cast_zero]
            ring
          · obtain rfl : e = 1 := by
              rcases he with rfl | rfl
              · exact absurd (by linarith) hadd
              · rfl
            rw [if_neg hadd, if_neg hadd, rippleLost_one]
            by_cases hsub : d - 1 * 2 ^ b ≥ -m
            · obtain ⟨hbits', hlength, hvalue⟩ := ripple_lost hrest
              have hdigit : WindowDigit m (d - 1 * 2 ^ b) := by
                rw [hq] at hadd hsub ⊢
                refine ⟨?_, hsub, ?_⟩ <;> omega
              rw [if_pos hsub, if_pos hsub, int8_eq (by linarith) (by linarith [hdigit.2.2])]
              refine (ih (b + 1) (by omega) hdigit hbits').cons_zero hlength ?_
              rw [hvalue, digitsValue_cons, pow_succ]
              ring
            · rw [if_neg hsub, if_neg hsub, if_pos one_ne_zero, if_pos one_ne_zero]
              exact .refl ⟨hodd, hlow, hhigh⟩ hbits

/-- The loop over `j`, on any bits. -/
theorem loopLost_spec {m : ℤ} (hm : 1 ≤ m) (hm' : m ≤ 127) (n : ℕ) {digits : List ℤ}
    (hlength : digits.length = n) (hbits : Bits digits) : (windowLoop m n digits).length = n ∧
    (∀ digit ∈ windowLoop m n digits, WindowDigitOrZero m digit) ∧
      digitsValue 2 (windowLoop m n digits) + 2 ^ n * loopLost m n digits =
        digitsValue 2 digits := by
  induction n generalizing digits with
  | zero =>
      obtain rfl := List.length_eq_zero_iff.mp hlength
      simp [windowLoop, loopLost]
  | succ n ih =>
      cases digits with
      | nil => cases hlength
      | cons d rest =>
          obtain ⟨hd, hrest⟩ := hbits.cons
          have hlength' : rest.length = n := Nat.succ.inj hlength
          rw [windowLoop, loopLost]
          rcases hd with rfl | rfl
          · obtain ⟨hsize, hdigits, hvalue⟩ := ih hlength' hrest
            rw [if_pos rfl, if_pos rfl]
            refine ⟨congrArg Nat.succ hsize, List.forall_mem_cons.mpr ⟨.inl rfl, hdigits⟩, ?_⟩
            rw [digitsValue_cons, digitsValue_cons, pow_succ]
            linarith
          · rw [if_neg one_ne_zero, if_neg one_ne_zero]
            dsimp only
            have hmerged := mergeLost_spec hm' ((if n + 1 > 7 then 7 else n + 1) - 1) 1 le_rfl
              (d := 1) ⟨by decide, by omega, hm⟩ hrest
            generalize windowMerge m _ 1 1 rest = r at hmerged
            obtain ⟨hsize, hdigits, hvalue⟩ := ih (hmerged.length_eq.trans hlength') hmerged.bits
            have hkept := hmerged.value_eq
            refine ⟨congrArg Nat.succ hsize,
              List.forall_mem_cons.mpr ⟨.inr hmerged.digit, hdigits⟩, ?_⟩
            rw [hlength', Nat.add_comm 1, pow_one] at hkept
            rw [digitsValue_cons, digitsValue_cons, Nat.cast_add]
            linear_combination hkept + 2 * hvalue

/-- The digits of any scalar are odd or zero and of bounded size, and what they do not add up to
are the lost carries. -/
theorem windowLost_spec (s : Scalar) {m : ℤ} (hm : 1 ≤ m) (hm' : m ≤ 127) :
    (window s m).length = 256 ∧ (∀ digit ∈ window s m, WindowDigitOrZero m digit) ∧
      digitsValue 2 (window s m) + 2 ^ 256 * windowLost s m =
        digitsValue 2 (scalarDigits 1 s) :=
  loopLost_spec hm hm' 256 (length_scalarDigits s 1) (bits_scalarDigits s)

/-! ## Scalars below `2 ^ 253` -/

/-- The digits of `ed25519_modm_window` are those of the number `n`, and they index a table with
the given number of entries. -/
structure Recodes (s : Scalar) (n : ℕ) (m : ℤ) (entries : ℕ) : Prop where
  length_eq : (window s m).length = 256
  value_eq : ∑ j ∈ Finset.range 256, (window s m).getD j 0 * 2 ^ j = n
  digit : ∀ d ∈ window s m, d ≠ 0 → d % 2 = 1 ∧ |d| ≤ m ∧ d.natAbs >>> 1 < entries
  lost_eq : windowLost s m = 0

theorem recodes_of_lt {s : Scalar} {n : ℕ} (hs : s.Canonical n) (hn : n < 2 ^ 253) {m : ℤ}
    {entries : ℕ} (hm : 1 ≤ m) (hm' : m ≤ 127) (hentries : m < 2 * entries) :
    Recodes s n m entries := by
  obtain ⟨hlength, hdigits, hvalue⟩ := window_spec hs hn hm hm'
  have hlost := (windowLost_spec s hm hm').2.2
  have hbits : digitsValue 2 (scalarDigits 1 s) = n := digitsValue_scalarDigits hs 1 (.inl rfl)
  refine ⟨hlength, ?_, fun d hd hne => ?_, ?_⟩
  · rw [← hvalue, digitsValue_eq_sum, hlength]
  · obtain ⟨hodd, hlow, hhigh⟩ := (hdigits d hd).resolve_left hne
    rw [Nat.shiftRight_eq_div_pow]
    exact ⟨hodd, abs_le.mpr ⟨hlow, hhigh⟩, by omega⟩
  · omega

/-- Both recodings of `ed25519_ge_doubleScalarmultVartime`. -/
theorem window_recodes {s : Scalar} {n : ℕ} (hs : s.Canonical n) (hn : n < 2 ^ 253) :
    Recodes s n 15 8 ∧ Recodes s n 63 32 :=
  ⟨recodes_of_lt hs hn (by decide) (by decide) (by decide),
    recodes_of_lt hs hn (by decide) (by decide) (by decide)⟩

theorem window_recodes_order : Recodes modm L 15 8 ∧ Recodes modm L 63 32 :=
  window_recodes modm_canonical (by decide)

end Hc.Ed25519
