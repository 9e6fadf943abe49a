import Hc.Crypto.Ed25519Points
import Hc.Foundation.SqrtRatio

/-!
# Encoded points

A point is encoded by its `y` and the parity of its `x`. Decoding accepts every `y` that
belongs to a point, reduced or not, and gives the negative of the point.
-/

namespace Hc.Ed25519

open Curve25519

/-- The canonical encoding of a point. -/
def encode (P : Point) : List UInt8 := leBytes 32 (P.y.val + 2 ^ 255 * (P.x.val % 2))

/-- The 32 bytes encode the point: its `y` modulo `p`, and the parity of its `x` unless
that is zero. -/
structure Decodes (bytes : List UInt8) (P : Point) : Prop where
  y_eq : P.y = (leNat bytes % 2 ^ 255 : ℕ)
  parity : P.x = 0 ∨ P.x.val % 2 = leNat bytes / 2 ^ 255 % 2

theorem val_lt (x : F) : x.val < 2 ^ 255 := (ZMod.val_lt x).trans (by decide)

theorem val_neg {x : F} (hx : x ≠ 0) : (-x).val = p - x.val := by
  have : NeZero x := ⟨hx⟩
  exact ZMod.val_neg_of_ne_zero x

/-- The two roots have different parities. -/
theorem val_neg_mod_two {x : F} (hx : x ≠ 0) : (-x).val % 2 = 1 - x.val % 2 := by
  have hlt := ZMod.val_lt x
  have hp : p % 2 = 1 := by decide
  rw [val_neg hx]
  omega

/-! ## Square roots on the curve -/

theorem p_mod_eight : p % 8 = 5 := by decide

theorem den_ne_zero (y : F) : d * y ^ 2 + 1 ≠ 0 := by
  intro h
  apply d_not_isSquare
  have hy : y ≠ 0 := by
    rintro rfl
    simp at h
  refine ⟨iNat / y, ?_⟩
  rw [div_mul_div_comm, eq_div_iff (mul_ne_zero hy hy)]
  linear_combination h - i_sq

/-- The equation of the curve, solved for `x ^ 2`. -/
theorem on_curve_iff (x y : F) :
    -x ^ 2 + y ^ 2 = 1 + d * x ^ 2 * y ^ 2 ↔ (d * y ^ 2 + 1) * x ^ 2 = y ^ 2 - 1 := by
  constructor
  · intro h
    linear_combination -h
  · intro h
    linear_combination -h

theorem eq_or_eq_neg_of_y {P Q : Point} (h : P.y = Q.y) : P.x = Q.x ∨ P.x = -Q.x := by
  have hP := (on_curve_iff _ _).mp P.on_curve
  have hQ := (on_curve_iff _ _).mp Q.on_curve
  rw [h, ← hQ] at hP
  have hsq := mul_left_cancel₀ (den_ne_zero Q.y) hP
  exact sq_eq_sq_iff_eq_or_eq_neg.mp hsq

/-- An encoding has at most one point. -/
theorem Decodes.unique {bytes : List UInt8} {P Q : Point} (hP : Decodes bytes P)
    (hQ : Decodes bytes Q) : P = Q := by
  have hy : P.y = Q.y := hP.y_eq.trans hQ.y_eq.symm
  rcases eq_or_eq_neg_of_y hy with hx | hx
  · exact EdwardsCurve.Point.ext hx hy
  · by_cases hzero : Q.x = 0
    · rw [hzero, neg_zero] at hx
      exact EdwardsCurve.Point.ext (hx.trans hzero.symm) hy
    · have hzero' : P.x ≠ 0 := by
        rw [hx]
        exact neg_ne_zero.mpr hzero
      have hparity : P.x.val % 2 = Q.x.val % 2 :=
        (hP.parity.resolve_left hzero').trans (hQ.parity.resolve_left hzero).symm
      rw [hx, val_neg_mod_two hzero] at hparity
      omega

/-- The canonical encoding of a point decodes to it. -/
theorem decodes_encode (P : Point) : Decodes (encode P) P := by
  have hlt := val_lt P.y
  have hvalue : leNat (encode P) = P.y.val + 2 ^ 255 * (P.x.val % 2) := by
    rw [encode, leNat_leBytes, Nat.mod_eq_of_lt]
    norm_num
    omega
  refine ⟨?_, .inr ?_⟩
  · rw [hvalue, show (P.y.val + 2 ^ 255 * (P.x.val % 2)) % 2 ^ 255 = P.y.val by omega,
      ZMod.natCast_zmod_val]
  · rw [hvalue]
    omega

theorem length_encode (P : Point) : (encode P).length = 32 := length_leBytes _ _

/-! ## `ed25519_ge_pack` -/

theorem modify_last {init : List UInt8} {last : UInt8} {f : UInt8 → UInt8} (k : ℕ)
    (hk : init.length = k) : (init ++ [last]).modify k f = init ++ [f last] := by
  subst hk
  induction init with
  | nil => rfl
  | cons b init ih => simp only [List.cons_append, List.length_cons, List.modify_succ_cons, ih]

/-- Setting the top bit of a stored number. -/
theorem modify_leBytes {n b : ℕ} (hn : n < 2 ^ 255) (hb : b < 2) :
    (leBytes 32 n).modify 31 (· ^^^ UInt8.ofNat (b * 2 ^ 7)) = leBytes 32 (n + 2 ^ 255 * b) := by
  have hxor : ∀ high < 128, ∀ b < 2, high ^^^ (b * 2 ^ 7) = high + 128 * b := by decide
  have hlast (m : ℕ) : leBytes 32 m = leBytes 31 m ++ [UInt8.ofNat (m / 256 ^ 31)] :=
    (leBytes_append 31 1 m).symm
  have hinit : leBytes 31 (n + 2 ^ 255 * b) = leBytes 31 n := by
    apply leBytes_congr
    omega
  rw [hlast n, modify_last 31 (length_leBytes _ _), hlast, hinit]
  congr 2
  apply UInt8.toNat_inj.mp
  rw [UInt8.toNat_xor, UInt8.toNat_ofNat', UInt8.toNat_ofNat', UInt8.toNat_ofNat',
    Nat.mod_eq_of_lt (by omega), Nat.mod_eq_of_lt (by omega), Nat.mod_eq_of_lt (by omega),
    hxor _ (by omega) b hb]
  omega

theorem lowBit_toNat {a : Fe} {n : ℕ} (ha : a.Canonical n) :
    (a.l0 &&& 1).toNat = n % 2 := by
  have hvalue := ha.value_eq
  unfold Fe.value digits at hvalue
  have hmask := (ha.l0.mask 1 (Word.Holds.ofNat 1)).toNat_eq
  rw [hmask]
  omega

/-- `ed25519_ge_pack` writes the canonical encoding. -/
theorem pack_spec {g : Ge} {P : Point} (h : g.Partial P) : pack g = encode P := by
  obtain ⟨X, Y, Z, hx, hy, hz, hpoint⟩ := h
  have hzi := invert_rep (hz.mono (by decide))
  have htx := mul_rep (hx.mono (by decide)) (hzi.mono (by decide))
  have hty := mul_rep (hy.mono (by decide)) (hzi.mono (by decide))
  have hX : X * Z⁻¹ = P.x := by rw [hpoint.x_eq, mul_inv_cancel_right₀ hpoint.z_ne_zero]
  have hY : Y * Z⁻¹ = P.y := by rw [hpoint.y_eq, mul_inv_cancel_right₀ hpoint.z_ne_zero]
  rw [hX] at htx
  rw [hY] at hty
  have hcx := reduce_rep_canonical (htx.mono (by decide))
  have hcy := reduce_rep_canonical (hty.mono (by decide))
  have hbit : (((reduce (mul g.x (invert g.z))).l0 &&& 1) <<< 7).toNat = P.x.val % 2 * 2 ^ 7 := by
    rw [Word.toNat_shiftLeft, lowBit_toNat hcx, Nat.mod_eq_of_lt (by omega)]
  unfold pack
  simp only
  rw [store_eq hcy, hbit]
  exact modify_leBytes (val_lt P.y) (Nat.mod_lt _ two_pos)

/-! ## `ed25519_ge_unpackNegativeVartime` -/

theorem equalsZero_reduce {a : Fe} {x : F} (ha : a.Rep (2 ^ 63 - 1) x) :
    equalsZero (reduce a) = true ↔ x = 0 := by
  have hvalue := (reduce_rep_canonical ha).value_eq
  unfold Fe.value digits at hvalue
  rw [equalsZero, decide_eq_true_eq, ← ZMod.val_eq_zero, ← hvalue]
  omega

theorem canonical_rep {a : Fe} {x : F} (ha : a.Canonical x.val) : a.Rep (2 ^ 51 - 1) x :=
  ⟨ha.toBounded, by rw [ha.value_eq, ZMod.natCast_zmod_val]⟩

theorem signBit_eq (bytes : List UInt8) :
    (byteAt bytes 31).toNat >>> 7 = leNat bytes / 2 ^ 255 % 2 := by
  rw [byteAt_toNat, Nat.shiftRight_eq_div_pow]
  omega

/-- The coordinates of a point itself, with one as their `z`. -/
structure Ge.Affine (r : Ge) (P : Point) : Prop where
  x_rep : r.x.Rep limbBound P.x
  y_rep : r.y.Rep limbBound P.y
  z_rep : r.z.Rep limbBound 1
  t_rep : r.t.Rep limbBound (P.x * P.y)

theorem Ge.Affine.full {r : Ge} {P : Point} (h : r.Affine P) : r.Full P :=
  ⟨P.x, P.y, 1, P.x * P.y, h.x_rep, h.y_rep, h.z_rep, h.t_rep,
    ⟨⟨one_ne_zero, by simp, by simp⟩, by simp⟩⟩

variable {bytes : List UInt8} {x : Fe} {X Y : F}

/-- Where `y` belongs to a point, one of the two points is encoded. -/
theorem exists_decodes (hY : Y = (leNat bytes % 2 ^ 255 : ℕ))
    (hcurve : -X ^ 2 + Y ^ 2 = 1 + d * X ^ 2 * Y ^ 2) : ∃ A, Decodes bytes A := by
  by_cases hparity : X.val % 2 = leNat bytes / 2 ^ 255 % 2
  · exact ⟨⟨X, Y, hcurve⟩, hY, .inr hparity⟩
  · refine ⟨⟨-X, Y, by rw [neg_sq]; exact hcurve⟩, hY, ?_⟩
    by_cases hzero : X = 0
    · exact .inl (neg_eq_zero.mpr hzero)
    · right
      change (-X).val % 2 = _
      rw [val_neg_mod_two hzero]
      omega

/-- The last step: a root of the wrong parity is kept, so that the point is negated. -/
theorem unpackFinish_spec (hx : x.Rep (2 ^ 51 + 2 ^ 13 - 1) X)
    (hY : Y = (leNat bytes % 2 ^ 255 : ℕ)) (hroot : (d * Y ^ 2 + 1) * X ^ 2 = Y ^ 2 - 1)
    (x' : Fe) (hx' : x' = if ((reduce x).l0 &&& 1).toNat = (byteAt bytes 31).toNat >>> 7
      then sub zero (reduce x) else reduce x) :
    ∃ A : Point, Decodes bytes A ∧ Ge.Affine ⟨x', load bytes, one, mul x' (load bytes)⟩ (-A) := by
  have hy : (load bytes).Rep (2 ^ 51 - 1) Y := hY ▸ load_rep bytes
  have hc := reduce_rep_canonical (hx.mono (by decide))
  have hneg := sub_rep zero_rep ((canonical_rep hc).mono (by decide)) (by decide)
  rw [lowBit_toNat hc, signBit_eq] at hx'
  have hcurve : -X ^ 2 + Y ^ 2 = 1 + d * X ^ 2 * Y ^ 2 := (on_curve_iff X Y).mpr hroot
  obtain ⟨A, hA⟩ := exists_decodes hY hcurve
  have hAy : A.y = Y := hA.y_eq.trans hY.symm
  have hAx : A.x = X ∨ A.x = -X := eq_or_eq_neg_of_y (Q := ⟨X, Y, hcurve⟩) hAy
  have hx'' : x'.Rep limbBound (-A.x) := by
    split at hx'
    next hparity =>
      -- the root itself is the decoded `x`
      have hroot : A.x = X := by
        rcases hAx with h | h
        · exact h
        · by_contra hne
          have hX : X ≠ 0 := by
            rintro rfl
            exact hne (by rw [h, neg_zero])
          have hparity' := hA.parity.resolve_left (by rw [h]; exact neg_ne_zero.mpr hX)
          rw [h, val_neg_mod_two hX] at hparity'
          omega
      rw [hx', hroot, ← zero_sub]
      exact hneg.mono (by decide)
    next hparity =>
      have hroot : A.x = -X := by
        rcases hAx with h | h
        · rcases hA.parity with hzero | hparity'
          · rw [← h, hzero, neg_zero]
          · exact absurd (h ▸ hparity') hparity
        · exact h
      rw [hx', hroot, neg_neg]
      exact (canonical_rep hc).mono (by decide)
  refine ⟨A, hA, hx'', ?_, one_rep.mono (by decide), ?_⟩
  · exact hAy ▸ hy.mono (by decide)
  · exact hAy ▸ (mul_rep (hx''.mono (by decide)) (hy.mono (by decide))).mono (by decide)

/-- Decoding gives the coordinates of the negative of the encoded point, if there is one. -/
theorem unpackNegativeVartime_affine (bytes : List UInt8) :
    (∃ A g, Decodes bytes A ∧ g.Affine (-A) ∧ unpackNegativeVartime bytes = some g) ∨
      ((∀ A, ¬ Decodes bytes A) ∧ unpackNegativeVartime bytes = none) := by
  obtain ⟨Y, hY⟩ : ∃ Y : F, Y = (leNat bytes % 2 ^ 255 : ℕ) := ⟨_, rfl⟩
  have hy : (load bytes).Rep (2 ^ 51 - 1) Y := hY ▸ load_rep bytes
  have hy2 := squareN_one_rep (hy.mono (by decide))
  have hdy2 := mul_rep (hy2.mono (by decide)) (ecd_rep.mono (by decide))
  have hnum := subNoReduce_rep hy2 (one_rep.mono (by decide)) (by decide)
  have hden := addNoReduce_rep hdy2 one_rep (by decide)
  rw [mul_comm (Y ^ 2) d] at hden
  have hu := hnum.mono (by decide : _ ≤ 2 ^ 54)
  have hv := hden.mono (by decide : _ ≤ 2 ^ 54)
  have hd3 := mul_rep ((squareN_one_rep hv).mono (by decide)) hv
  have hd7 := mul_rep ((mul_rep ((squareN_one_rep (hd3.mono (by decide))).mono (by decide)) hv).mono
    (by decide)) hu
  have hpow := powTwo252m3_rep (hd7.mono (by decide))
  have hr := mul_rep ((mul_rep (hpow.mono (by decide)) (hd3.mono (by decide))).mono (by decide)) hu
  generalize hu' : Y ^ 2 - 1 = u at hnum hu hd7 hpow hr
  generalize hv' : d * Y ^ 2 + 1 = v at hden hv hd3 hd7 hpow hr
  have hcandidate : ((v ^ 2 * v) ^ 2 * v * u) ^ (2 ^ 252 - 3) *
    (v ^ 2 * v) * u = sqrtRatio u v := by
    have hexp : (p - 5) / 8 = 2 ^ 252 - 3 := by decide
    rw [sqrtRatio, hexp, show (v ^ 2 * v) ^ 2 * v * u = u * v ^ 7 by ring]
    ring
  rw [hcandidate] at hr
  have ht := mul_rep ((squareN_one_rep (hr.mono (by decide))).mono (by decide)) hv
  have hminus := subNoReduceFourP_rep ht (hnum.mono (by decide)) (by decide)
  have hplus := addNoReduce_rep ht hnum (by decide)
  have hminus' := equalsZero_reduce (hminus.mono (by decide))
  have hplus' := equalsZero_reduce (hplus.mono (by decide))
  unfold unpackNegativeVartime
  simp only
  split
  next hne =>
    rw [Bool.not_eq_true', Bool.eq_false_iff, ne_eq, hminus'] at hne
    split
    next hnone =>
      rw [Bool.not_eq_true', Bool.eq_false_iff, ne_eq, hplus'] at hnone
      refine .inr ⟨fun A hA => ?_, rfl⟩
      have hA' := (on_curve_iff _ _).mp A.on_curve
      rw [hA.y_eq, ← hY, hu', hv'] at hA'
      rcases mul_sqrtRatio_sq_eq p_mod_eight hA' with h | h
      · exact hne (by linear_combination h)
      · exact hnone (by linear_combination h)
    next hsome =>
      rw [Bool.not_eq_true', Bool.not_eq_false, hplus'] at hsome
      have hroot : (d * Y ^ 2 + 1) * (sqrtRatio u v * iNat) ^ 2 = Y ^ 2 - 1 := by
        rw [hu', hv']
        linear_combination v * sqrtRatio u v ^ 2 * i_sq - hsome
      obtain ⟨A, hA, haffine⟩ := unpackFinish_spec
        (mul_rep (hr.mono (by decide)) (sqrtneg1_rep.mono (by decide))) hY hroot _ rfl
      exact .inl ⟨A, _, hA, haffine, rfl⟩
  next heq =>
    rw [Bool.not_eq_true', Bool.not_eq_false, hminus'] at heq
    have hroot : (d * Y ^ 2 + 1) * sqrtRatio u v ^ 2 = Y ^ 2 - 1 := by
      rw [hu', hv']
      linear_combination heq
    obtain ⟨A, hA, haffine⟩ := unpackFinish_spec hr hY hroot _ rfl
    exact .inl ⟨A, _, hA, haffine, rfl⟩

theorem unpackNegativeVartime_spec (bytes : List UInt8) :
    (∃ A g, Decodes bytes A ∧ g.Full (-A) ∧ unpackNegativeVartime bytes = some g) ∨
      ((∀ A, ¬ Decodes bytes A) ∧ unpackNegativeVartime bytes = none) := by
  rcases unpackNegativeVartime_affine bytes with ⟨A, g, hA, hg, hunpack⟩ | hnone
  · exact .inl ⟨A, g, hA, hg.full, hunpack⟩
  · exact .inr hnone

/-- The `y` of an encoding: its low 255 bits modulo `p`. -/
def encodedY (bytes : List UInt8) : F := (leNat bytes % 2 ^ 255 : ℕ)

/-- Decoding succeeds exactly where `y` belongs to a point, and then gives the point whose `x` is
the negative of the root with the parity of the sign bit. -/
theorem unpackNegativeVartime_root (bytes : List UInt8) :
    ((unpackNegativeVartime bytes).isSome ↔ ∃ x : F,
        -x ^ 2 + encodedY bytes ^ 2 = 1 + d * x ^ 2 * encodedY bytes ^ 2) ∧
      ∀ r ∈ unpackNegativeVartime bytes, ∃ P : Point, r.Affine P ∧ P.y = encodedY bytes ∧
        (P.x = 0 ∨ (-P.x).val % 2 = leNat bytes / 2 ^ 255 % 2) := by
  rcases unpackNegativeVartime_affine bytes with ⟨A, g, hA, hg, hunpack⟩ | ⟨hnone, hunpack⟩
  · have hAy : A.y = encodedY bytes := hA.y_eq
    rw [hunpack]
    refine ⟨iff_of_true rfl ⟨A.x, hAy ▸ A.on_curve⟩, ?_⟩
    rintro r ⟨⟩
    refine ⟨-A, hg, hAy, ?_⟩
    change -A.x = 0 ∨ (- -A.x).val % 2 = _
    rw [neg_neg, neg_eq_zero]
    exact hA.parity
  · rw [hunpack]
    refine ⟨iff_of_false Bool.false_ne_true ?_, fun r hr => by cases hr⟩
    rintro ⟨x, hcurve⟩
    obtain ⟨A, hA⟩ := exists_decodes (Y := encodedY bytes) rfl hcurve
    exact hnone A hA

end Hc.Ed25519
