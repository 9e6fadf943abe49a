import Mathlib.Data.List.TakeWhile
import Hc.Crypto.Ed25519Carries
import Hc.Crypto.Ed25519Encoding
import Hc.Crypto.Ed25519Multiples

/-!
# The scalar multiplications of Ed25519

Both scalar multiplications compute what the digits of the recodings say, for any limbs, and make
only sound calls on the way. Where the recodings keep the scalar these are the multiples of the
group.
-/

namespace Hc.Ed25519

open Curve25519 EdwardsCurve

theorem neutral_full : neutral.Full 0 :=
  ⟨0, 1, 1, 0, zero_rep.mono (by decide), one_rep.mono (by decide), one_rep.mono (by decide),
    zero_rep.mono (by decide), Extended.zero⟩

/-! ## Multiples of the base point -/

section Base

variable {b : List ℤ}

theorem getD_chosenDigit (i : ℕ) :
    (b.map chosenDigit).getD i 0 = chosenDigit (b.getD i 0) :=
  List.getD_map b 0 chosenDigit

theorem getD_bounds (hdigits : ∀ digit ∈ b, -8 ≤ digit ∧ digit ≤ 16) (i : ℕ) :
    -8 ≤ b.getD i 0 ∧ b.getD i 0 ≤ 16 := by
  rcases Nat.lt_or_ge i b.length with hlt | hge
  · rw [List.getD_eq_getElem _ _ hlt]
    exact hdigits _ (List.getElem_mem hlt)
  · rw [List.getD_eq_default _ _ hge]
    decide

/-- The loops over every second digit. -/
theorem nielsAddDigits_ensures (hdigits : ∀ digit ∈ b, -8 ≤ digit ∧ digit ≤ 16) {r : Ge}
    {P : Point} (hr : r.Full P) {c : ℕ} (hc : c = 2 ∨ c = 3) :
    (Calls.nielsAddDigits b r ((List.range 31).map fun k => 2 * k + c)).Ensures
      (·.Full (P + (∑ k ∈ Finset.range 31,
        (b.map chosenDigit).getD (2 * k + c) 0 * 256 ^ (k + 1)) • B)) := by
  have hsum : ∑ k ∈ Finset.range 31, (b.map chosenDigit).getD (2 * k + c) 0 * 256 ^ (k + 1) =
      (((List.range 31).map fun k => 2 * k + c).map
        fun i => (b.map chosenDigit).getD i 0 * 256 ^ (i >>> 1)).sum := by
    have hshift (k : ℕ) : (2 * k + c) >>> 1 = k + 1 := by
      rw [Nat.shiftRight_eq_div_pow]
      omega
    rw [List.map_map]
    simp only [Function.comp_def, hshift]
    rfl
  rw [hsum]
  refine Traced.Ensures.foldlM (fun done (r : Ge) => r.Full (P + (done.map
    fun i => (b.map chosenDigit).getD i 0 * 256 ^ (i >>> 1)).sum • B)) _ ?_ ?_
  · simpa using hr
  · intro done i todo r' hpositions hr'
    have hi : i ∈ (List.range 31).map fun k => 2 * k + c := by
      rw [hpositions]
      exact List.mem_append_right done List.mem_cons_self
    obtain ⟨k, hk, rfl⟩ := List.mem_map.mp hi
    have hlt := List.mem_range.mp hk
    have hpos : (2 * k + c) >>> 1 < 32 ∧ (2 * k + c) >>> 1 ≠ 0 := by
      rw [Nat.shiftRight_eq_div_pow]
      omega
    obtain ⟨hlow, hhigh⟩ := getD_bounds hdigits (2 * k + c)
    have hselect := scalarmultBaseChooseNiels_spec hpos.1 hlow hhigh
    refine (nielsAdd_ensures hr' (hselect.represents hpos.2)).mono fun r'' hr'' => ?_
    rw [List.map_append, List.sum_append, List.map_singleton, List.sum_singleton, add_smul,
      ← add_assoc, getD_chosenDigit]
    exact hr''

/-- The sum over the even and the odd places is the number. -/
theorem sum_places (hlength : b.length = 64) :
    digitsValue 16 b = b.getD 0 0 * 256 ^ 0 +
        (∑ k ∈ Finset.range 31, b.getD (2 * k + 2) 0 * 256 ^ (k + 1)) +
      16 * (b.getD 1 0 * 256 ^ 0 + ∑ k ∈ Finset.range 31, b.getD (2 * k + 3) 0 * 256 ^
        (k + 1)) := by
  have hpair (k : ℕ) : b.getD (2 * k) 0 * 16 ^ (2 * k) + b.getD (2 * k + 1) 0 * 16 ^ (2 * k + 1) =
      b.getD (2 * k) 0 * 256 ^ k + 16 * (b.getD (2 * k + 1) 0 * 256 ^ k) := by
    rw [pow_succ, pow_mul]
    norm_num
    ring
  rw [digitsValue_eq_sum, hlength, show 64 = 2 * 32 from rfl, sum_range_pairs]
  simp only [hpair]
  rw [Finset.sum_add_distrib, ← Finset.mul_sum, Finset.sum_range_succ', Finset.sum_range_succ' _ 31]
  simp only [Nat.mul_succ, Nat.mul_zero, Nat.zero_add, Nat.add_assoc, Nat.reduceAdd]
  ring

end Base

/-- The start of `ed25519_ge_scalarmultBaseNiels`: an entry of the first row has `2 x y`
where the extended coordinates with `z = 2` need it. -/
theorem firstDigit_full {t : Niels} {P : Point} (ht : t.InRow 0 P) :
    Ge.Full ⟨sub t.xaddy t.ysubx, add t.xaddy t.ysubx, ⟨2, 0, 0, 0, 0⟩, t.t2d⟩ P := by
  have htwo : Fe.Rep ⟨2, 0, 0, 0, 0⟩ (2 ^ 51 - 1) ((2 : ℕ) : F) := rep_of_isLiteral (by decide)
  refine ⟨_, _, _, _, (sub_rep ht.xaddy (ht.ysubx.mono (by decide)) (by decide)),
    add_rep ht.xaddy ht.ysubx (by decide), htwo.mono (by decide), ht.t2d,
    ⟨curve.two_ne_zero, ?_, ?_⟩, ?_⟩
  · push_cast
    ring
  · push_cast
    ring
  · rw [rowFactor, if_pos rfl]
    push_cast
    ring

/-- An entry of the first row after the multiplication with `d`. -/
theorem lastDigit_represents {t : Niels} {P : Point} (ht : t.InRow 0 P) {t2d : Fe}
    (ht2d : t2d.Rep (2 ^ 51 + 2 ^ 13 - 1) (2 * rowFactor 0 * P.x * P.y * d)) :
    Niels.Represents { t with t2d := t2d } P := by
  refine ⟨_, _, _, ht.ysubx.mono (by decide), ht.xaddy.mono (by decide), ht2d.mono (by decide),
    one_ne_zero, (mul_one _).symm, (mul_one _).symm, ?_⟩
  rw [rowFactor, if_pos rfl, curve_d]
  ring

/-- `ed25519_ge_scalarmultBaseNiels` adds up the selected multiples, for any limbs. -/
theorem scalarmultBaseNiels_ensures (s : Scalar) : (Calls.scalarmultBaseNiels s).Ensures
    (·.Full (digitsValue 16 ((window4 s).map chosenDigit) • B)) := by
  obtain ⟨hlength, hdigits, -, -⟩ := window4_digits s
  obtain ⟨hlow1, hhigh1⟩ := getD_bounds hdigits 1
  obtain ⟨hlow0, hhigh0⟩ := getD_bounds hdigits 0
  have hfirst := scalarmultBaseChooseNiels_spec (show 0 < 32 by decide) hlow1 hhigh1
  have hlast := scalarmultBaseChooseNiels_spec (show 0 < 32 by decide) hlow0 hhigh0
  refine (nielsAddDigits_ensures hdigits (firstDigit_full hfirst) (.inr rfl)).bind
    fun r hodd => ?_
  refine (doublePartial_ensures hodd.toPartial r).bind fun r1 h1 => ?_
  refine (doublePartial_ensures h1 r1).bind fun r2 h2 => ?_
  refine (doublePartial_ensures h2 r2).bind fun r3 h3 => ?_
  refine (double_ensures h3).bind fun r4 h4 => ?_
  refine (Calls.mul_ensures (hlast.t2d.mono (by decide)) (ecd_rep.mono (by decide))).bind
    fun t2d ht2d => ?_
  refine (nielsAdd_ensures h4 (lastDigit_represents hlast ht2d)).bind fun r5 h5 => ?_
  refine (nielsAddDigits_ensures hdigits h5 (.inl rfl)).mono fun r6 h6 => ?_
  have hsixteen (P : Point) : P + P + (P + P) + (P + P + (P + P)) +
      (P + P + (P + P) + (P + P + (P + P))) = (16 : ℤ) • P := by
    abel
  rw [sum_places (by rw [List.length_map, hlength]), add_comm _ (16 * _), ← add_assoc,
    add_smul _ _ B, add_smul _ _ B, mul_smul, add_smul _ _ B, getD_chosenDigit, getD_chosenDigit,
    ← hsixteen]
  exact h6

variable {s : Scalar} {n : ℕ}

/-- `ed25519_ge_scalarmultBaseNiels` computes the multiple of the base point. -/
theorem scalarmultBaseNiels_spec (hs : s.Canonical n) (hn : n < 2 ^ 255) :
    (scalarmultBaseNiels s).Full (n • B) := by
  obtain ⟨-, hdigits, hvalue⟩ := window4_spec hs hn
  have hchosen : (window4 s).map chosenDigit = window4 s :=
    (List.map_congr_left fun digit hmem => chosenDigit_of_le (hdigits digit hmem).2).trans
      (List.map_id _)
  have h := (scalarmultBaseNiels_ensures s).value
  rwa [Calls.value_scalarmultBaseNiels, hchosen, hvalue, natCast_zsmul] at h

/-! ## Two scalars -/

section DoubleScalar

variable {A : Point}

/-- The table of odd multiples. -/
theorem oddMultiples_ensures {d1 : Ge} {p : Pniels} {P : Point} (hd1 : d1.Full (A + A))
    (hp : p.Represents P) (n : ℕ) (default : Pniels) : (Calls.oddMultiples d1 n p).Ensures
      fun pre1 => ∀ k < n, (pre1.getD k default).Represents ((2 * k) • A + P) := by
  induction n generalizing p P with
  | zero => exact .pure fun k hk => absurd hk (Nat.not_lt_zero k)
  | succ n ih =>
      have hhead (rest : List Pniels) :
          ((p :: rest).getD 0 default).Represents ((2 * 0) • A + P) := by
        rwa [List.getD_cons_zero, Nat.mul_zero, zero_smul, zero_add]
      cases n with
      | zero =>
          refine .pure fun k hk => ?_
          obtain rfl : k = 0 := by omega
          exact hhead []
      | succ n =>
          refine (pnielsAdd_ensures hd1 hp).bind fun next hnext => ?_
          refine (ih hnext).bind fun rest hrest => .pure fun k hk => ?_
          cases k with
          | zero => exact hhead rest
          | succ k =>
              rw [List.getD_cons_succ, Nat.mul_succ, add_smul, two_nsmul, add_assoc]
              exact hrest k (Nat.lt_of_succ_lt_succ hk)

/-- Adding or subtracting the odd multiple of the absolute value of a digit. -/
theorem add_digit {m d : ℤ} (hd : WindowDigit m d) (P Q : Point) :
    (if decide (d < 0) then P - (2 * (d.natAbs >>> 1) + 1) • Q
      else P + (2 * (d.natAbs >>> 1) + 1) • Q) = P + d • Q := by
  have hodd := hd.1
  have habs : 2 * (d.natAbs >>> 1) + 1 = d.natAbs := by
    rw [Nat.shiftRight_eq_div_pow]
    omega
  rw [habs]
  by_cases hneg : d < 0
  · rw [decide_eq_true hneg, if_pos rfl, sub_eq_add_neg, ← natCast_zsmul, ← neg_smul]
    congr 2
    omega
  · rw [decide_eq_false hneg, if_neg (by decide), ← natCast_zsmul]
    congr 2
    omega

theorem natAbs_shiftRight_lt {m d : ℤ} (hd : WindowDigit m d) {k : ℕ} (hk : m < 2 * k) :
    d.natAbs >>> 1 < k := by
  obtain ⟨-, hlow, hhigh⟩ := hd
  rw [Nat.shiftRight_eq_div_pow]
  omega

theorem addOddMultiple_ensures {pre1 : List Pniels} {r : Ge} {t : P1p1} {P : Point} {d : ℤ}
    (hpre1 : ∀ k < 8, (pre1.getD k (fullToPniels neutral)).Represents ((2 * k + 1) • A))
    (ht : t.Represents P) (hd : WindowDigitOrZero 15 d) :
    (Calls.addOddMultiple pre1 d r t).Ensures fun rt => rt.2.Represents (P + d • A) := by
  unfold Calls.addOddMultiple
  by_cases hzero : d = 0
  · rw [if_neg (not_not.mpr hzero), hzero, zero_smul, add_zero]
    exact .pure ht
  · have hdigit := hd.resolve_left hzero
    rw [if_pos hzero, ← add_digit hdigit]
    refine (p1p1ToFull_ensures ht).bind fun r' hr' => ?_
    exact (pnielsAddP1p1_ensures hr' (hpre1 _ (natAbs_shiftRight_lt hdigit (by decide))) _).bind
      fun t' ht' => .pure ht'

theorem addSlidingMultiple_ensures {r : Ge} {t : P1p1} {P : Point} {d : ℤ}
    (ht : t.Represents P) (hd : WindowDigitOrZero 63 d) :
    (Calls.addSlidingMultiple d r t).Ensures fun rt => rt.2.Represents (P + d • B) := by
  unfold Calls.addSlidingMultiple
  by_cases hzero : d = 0
  · rw [if_neg (not_not.mpr hzero), hzero, zero_smul, add_zero]
    exact .pure ht
  · have hdigit := hd.resolve_left hzero
    rw [if_pos hzero, ← add_digit hdigit]
    refine (p1p1ToFull_ensures ht).bind fun r' hr' => ?_
    exact (nielsAddP1p1_ensures hr'
      (slidingEntry_represents _ (natAbs_shiftRight_lt hdigit (by decide))) _).bind
        fun t' ht' => .pure ht'

/-- One iteration of the main loop. -/
theorem doubleScalarmultStep_ensures {pre1 : List Pniels} {r : Ge} {P : Point} {slide : ℤ × ℤ}
    (hpre1 : ∀ k < 8, (pre1.getD k (fullToPniels neutral)).Represents ((2 * k + 1) • A))
    (hr : r.Partial P) (hslide : WindowDigitOrZero 15 slide.1 ∧ WindowDigitOrZero 63 slide.2) :
    (Calls.doubleScalarmultStep pre1 r slide).Ensures
      (·.Partial (P + P + slide.1 • A + slide.2 • B)) := by
  refine (doubleP1p1_ensures hr).bind fun t ht => ?_
  refine (addOddMultiple_ensures hpre1 ht hslide.1).bind fun rt hrt => ?_
  refine (addSlidingMultiple_ensures hrt hslide.2).bind fun rt' hrt' => ?_
  exact p1p1ToPartial_ensures hrt' rt'.1

/-- The main loop, from the most significant digits on. -/
theorem foldlM_doubleScalarmultStep {pre1 : List Pniels}
    (hpre1 : ∀ k < 8, (pre1.getD k (fullToPniels neutral)).Represents ((2 * k + 1) • A))
    {slides : List (ℤ × ℤ)} (hslides : ∀ slide ∈ slides,
      WindowDigitOrZero 15 slide.1 ∧ WindowDigitOrZero 63 slide.2) :
    Calls.Ensures (slides.foldlM (Calls.doubleScalarmultStep pre1) neutral)
      (·.Partial (digitsValue 2 (slides.reverse.map Prod.fst) • A +
        digitsValue 2 (slides.reverse.map Prod.snd) • B)) := by
  refine Traced.Ensures.foldlM (fun done (r : Ge) =>
    r.Partial (digitsValue 2 (done.reverse.map Prod.fst) • A +
      digitsValue 2 (done.reverse.map Prod.snd) • B)) slides ?_ ?_
  · change neutral.Partial ((0 : ℤ) • A + (0 : ℤ) • B)
    rw [zero_smul, zero_smul, add_zero]
    exact neutral_full.toPartial
  · intro done slide todo r hsplit hr
    have hslide := hslides slide (by
      rw [hsplit]
      exact List.mem_append_right done List.mem_cons_self)
    refine (doubleScalarmultStep_ensures hpre1 hr hslide).mono fun r' hr' => ?_
    rw [List.reverse_append, List.reverse_singleton, List.singleton_append, List.map_cons,
      List.map_cons, digitsValue_cons, digitsValue_cons, add_smul, add_smul, mul_smul, mul_smul]
    have hpoint (P Q : Point) : slide.1 • A + (2 : ℤ) • P + (slide.2 • B + (2 : ℤ) • Q) =
        P + Q + (P + Q) + slide.1 • A + slide.2 • B := by
      abel
    rw [hpoint]
    exact hr'

/-- Leading zeros do not matter. -/
theorem digitsValue_map_append {α : Type*} (f : α → ℤ) (low high : List α)
    (h : ∀ x ∈ high, f x = 0) :
    digitsValue 2 ((low ++ high).map f) = digitsValue 2 (low.map f) := by
  have hzero : digitsValue 2 (high.map f) = 0 := by
    induction high with
    | nil => rfl
    | cons x high ih =>
        obtain ⟨hx, hhigh⟩ := List.forall_mem_cons.mp h
        rw [List.map_cons, digitsValue_cons, hx, ih hhigh]
        rfl
  rw [List.map_append, digitsValue_append, hzero, mul_zero, add_zero]

/-- The digits that the first loop of `ed25519_ge_doubleScalarmultVartime` skips are zeros at the
top. -/
theorem digitsValue_dropWhile (slides : List (ℤ × ℤ)) :
    let top := slides.reverse.dropWhile fun slide => slide.1 = 0 ∧ slide.2 = 0
    digitsValue 2 (top.reverse.map Prod.fst) = digitsValue 2 (slides.map Prod.fst) ∧
      digitsValue 2 (top.reverse.map Prod.snd) = digitsValue 2 (slides.map Prod.snd) := by
  have hsplit := List.takeWhile_append_dropWhile
    (p := fun slide : ℤ × ℤ => decide (slide.1 = 0 ∧ slide.2 = 0)) (l := slides.reverse)
  have hzeros : ∀ slide ∈ (slides.reverse.takeWhile
      fun slide => decide (slide.1 = 0 ∧ slide.2 = 0)).reverse, slide.1 = 0 ∧ slide.2 = 0 := by
    intro slide hslide
    have htake := List.mem_takeWhile_imp (List.mem_reverse.mp hslide)
    simpa using htake
  generalize (slides.reverse.takeWhile
    fun slide => decide (slide.1 = 0 ∧ slide.2 = 0)) = zeros at *
  dsimp only
  generalize (slides.reverse.dropWhile
    fun slide => decide (slide.1 = 0 ∧ slide.2 = 0)) = top at *
  have hslides : slides = top.reverse ++ zeros.reverse := by
    rw [← List.reverse_append, hsplit, List.reverse_reverse]
  rw [hslides]
  exact ⟨(digitsValue_map_append Prod.fst _ _ fun x hx => (hzeros x hx).1).symm,
    (digitsValue_map_append Prod.snd _ _ fun x hx => (hzeros x hx).2).symm⟩

/-- `ed25519_ge_doubleScalarmultVartime` adds up what the digits say, for any limbs. -/
theorem doubleScalarmultVartime_ensures {p1 : Ge} (hp1 : p1.Full A) (s1 s2 : Scalar) :
    (Calls.doubleScalarmultVartime p1 s1 s2).Ensures (·.Partial
      (digitsValue 2 (window s1 15) • A + digitsValue 2 (window s2 63) • B)) := by
  obtain ⟨hlength1, hdigits1, -⟩ := windowLost_spec s1 (m := 15) (by decide) (by decide)
  obtain ⟨hlength2, hdigits2, -⟩ := windowLost_spec s2 (m := 63) (by decide) (by decide)
  refine (double_ensures hp1.toPartial).bind fun d1 hd1 => ?_
  refine (fullToPniels_ensures hp1).bind fun p hp => ?_
  refine (oddMultiples_ensures hd1 hp 8 (fullToPniels neutral)).bind fun pre1 hpre1 => ?_
  have hodd : ∀ k < 8,
      (pre1.getD k (fullToPniels neutral)).Represents ((2 * k + 1) • A) := by
    intro k hk
    rw [succ_nsmul]
    exact hpre1 k hk
  have hfst : ((window s1 15).zip (window s2 63)).map Prod.fst = window s1 15 :=
    List.map_fst_zip (by omega)
  have hsnd : ((window s1 15).zip (window s2 63)).map Prod.snd = window s2 63 :=
    List.map_snd_zip (by omega)
  obtain ⟨htop1, htop2⟩ := digitsValue_dropWhile ((window s1 15).zip (window s2 63))
  rw [hfst] at htop1
  rw [hsnd] at htop2
  rw [← htop1, ← htop2]
  refine foldlM_doubleScalarmultStep hodd fun slide hslide => ?_
  have hmem := List.mem_reverse.mp (List.dropWhile_subset _ hslide)
  exact ⟨hdigits1 _ (List.of_mem_zip hmem).1, hdigits2 _ (List.of_mem_zip hmem).2⟩

/-- `ed25519_ge_doubleScalarmultVartime` computes `[s1]p1 + [s2]basepoint`. -/
theorem doubleScalarmultVartime_spec {p1 : Ge} {s1 s2 : Scalar} {n1 n2 : ℕ} (hp1 : p1.Full A)
    (hs1 : s1.Canonical n1) (hs2 : s2.Canonical n2) (hn1 : n1 < 2 ^ 253) (hn2 : n2 < 2 ^ 253) :
    (doubleScalarmultVartime p1 s1 s2).Partial (n1 • A + n2 • B) := by
  have hvalue1 := (window_spec hs1 hn1 (m := 15) (by decide) (by decide)).2.2
  have hvalue2 := (window_spec hs2 hn2 (m := 63) (by decide) (by decide)).2.2
  have h := (doubleScalarmultVartime_ensures hp1 s1 s2).value
  rwa [Calls.value_doubleScalarmultVartime, hvalue1, hvalue2, natCast_zsmul, natCast_zsmul] at h

end DoubleScalar

/-- Every call that the scalar multiplications make is sound, for every decoded point and any
limbs of the scalars; without the record of the calls they are the functions of the source. -/
theorem scalarmult_calls_sound (bytes : List UInt8) (s1 s2 s : Scalar) :
    (∀ p1 ∈ unpackNegativeVartime bytes,
      (∀ call ∈ (Calls.doubleScalarmultVartime p1 s1 s2).events, call.Sound) ∧
        (Calls.doubleScalarmultVartime p1 s1 s2).value = doubleScalarmultVartime p1 s1 s2) ∧
      (∀ call ∈ (Calls.scalarmultBaseNiels s).events, call.Sound) ∧
        (Calls.scalarmultBaseNiels s).value = scalarmultBaseNiels s := by
  refine ⟨fun p1 hp1 => ⟨?_, Calls.value_doubleScalarmultVartime p1 s1 s2⟩,
    (scalarmultBaseNiels_ensures s).events, Calls.value_scalarmultBaseNiels s⟩
  rcases unpackNegativeVartime_spec bytes with ⟨A, g, -, hg, hunpack⟩ | ⟨-, hunpack⟩
  · obtain rfl : g = p1 := Option.some.inj (hunpack.symm.trans hp1)
    exact (doubleScalarmultVartime_ensures hg s1 s2).events
  · rw [hunpack] at hp1
    cases hp1

end Hc.Ed25519
