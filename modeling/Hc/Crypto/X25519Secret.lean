import Hc.Crypto.X25519Agreement

/-!
# The shared secret of two sides that follow the protocol

The base point has prime order, and a secret is a multiple of 8 that is not a multiple of this
order. So whatever both secrets are, what the sides share is not the coordinate zero, which belongs
to the points of order one and two.
-/

namespace Hc.Ed25519

/-! ## The order of the base point -/

/-- The tests of the chains. -/
private theorem orderTests :
    lucasTest 64 1257559732178653 2 [2, 2, 3, 7, 23, 531581, 1224481] ∧
      lucasTest 64 4434155615661930479 17 [2, 41, 43, 1257559732178653] ∧
      lucasTest 128 172054593956031949258510691 2 [2, 5, 1361, 2851, 4434155615661930479] ∧
      lucasTest 32 292386187 2 [2, 3, 3, 3, 3, 307, 5879] ∧
      lucasTest 64 213441916511 13 [2, 5, 73, 292386187] ∧
      lucasTest 160 19757330305831588566944191468367130476339 2
        [2, 269, 213441916511, 172054593956031949258510691] ∧
      lucasTest 160 276602624281642239937218680557139826668747 2
        [2, 7, 19757330305831588566944191468367130476339] ∧
      lucasTest 128 3044861653679985063343 5 [2, 3, 11, 30703, 82163, 132667, 137849] ∧
      lucasTest 128 198211423230930754013084525763697 5
        [2, 2, 2, 2, 3, 23, 58964693, 3044861653679985063343] ∧
      lucasTest 256 L 2 [2, 2, 3, 11, 198211423230930754013084525763697,
        276602624281642239937218680557139826668747] := by
  decide +kernel

private theorem prime_order1 : Nat.Prime 1257559732178653 := by
  refine prime_of_lucasTest _ _ _ _ ?_ orderTests.1
  simp only [List.forall_mem_cons, List.not_mem_nil, IsEmpty.forall_iff, implies_true, and_true]
  refine ⟨by norm_num, by norm_num, by norm_num, by norm_num, by norm_num, by norm_num,
      by norm_num⟩

private theorem prime_order2 : Nat.Prime 4434155615661930479 := by
  refine prime_of_lucasTest _ _ _ _ ?_ orderTests.2.1
  simp only [List.forall_mem_cons, List.not_mem_nil, IsEmpty.forall_iff, implies_true, and_true]
  refine ⟨by norm_num, by norm_num, by norm_num, prime_order1⟩

private theorem prime_order3 : Nat.Prime 172054593956031949258510691 := by
  refine prime_of_lucasTest _ _ _ _ ?_ orderTests.2.2.1
  simp only [List.forall_mem_cons, List.not_mem_nil, IsEmpty.forall_iff, implies_true, and_true]
  refine ⟨by norm_num, by norm_num, by norm_num, by norm_num, prime_order2⟩

private theorem prime_order4 : Nat.Prime 292386187 := by
  refine prime_of_lucasTest _ _ _ _ ?_ orderTests.2.2.2.1
  simp only [List.forall_mem_cons, List.not_mem_nil, IsEmpty.forall_iff, implies_true, and_true]
  refine ⟨by norm_num, by norm_num, by norm_num, by norm_num, by norm_num, by norm_num, by norm_num⟩

private theorem prime_order5 : Nat.Prime 213441916511 := by
  refine prime_of_lucasTest _ _ _ _ ?_ orderTests.2.2.2.2.1
  simp only [List.forall_mem_cons, List.not_mem_nil, IsEmpty.forall_iff, implies_true, and_true]
  refine ⟨by norm_num, by norm_num, by norm_num, prime_order4⟩

private theorem prime_order6 : Nat.Prime 19757330305831588566944191468367130476339 := by
  refine prime_of_lucasTest _ _ _ _ ?_ orderTests.2.2.2.2.2.1
  simp only [List.forall_mem_cons, List.not_mem_nil, IsEmpty.forall_iff, implies_true, and_true]
  refine ⟨by norm_num, by norm_num, prime_order5, prime_order3⟩

private theorem prime_order7 : Nat.Prime 276602624281642239937218680557139826668747 := by
  refine prime_of_lucasTest _ _ _ _ ?_ orderTests.2.2.2.2.2.2.1
  simp only [List.forall_mem_cons, List.not_mem_nil, IsEmpty.forall_iff, implies_true, and_true]
  refine ⟨by norm_num, by norm_num, prime_order6⟩

private theorem prime_order8 : Nat.Prime 3044861653679985063343 := by
  refine prime_of_lucasTest _ _ _ _ ?_ orderTests.2.2.2.2.2.2.2.1
  simp only [List.forall_mem_cons, List.not_mem_nil, IsEmpty.forall_iff, implies_true, and_true]
  refine ⟨by norm_num, by norm_num, by norm_num, by norm_num, by norm_num, by norm_num,
      by norm_num⟩

private theorem prime_order9 : Nat.Prime 198211423230930754013084525763697 := by
  refine prime_of_lucasTest _ _ _ _ ?_ orderTests.2.2.2.2.2.2.2.2.1
  simp only [List.forall_mem_cons, List.not_mem_nil, IsEmpty.forall_iff, implies_true, and_true]
  refine ⟨by norm_num, by norm_num, by norm_num, by norm_num, by norm_num, by norm_num,
      by norm_num, prime_order8⟩

theorem prime_L : L.Prime := by
  refine prime_of_lucasTest _ _ _ _ ?_ orderTests.2.2.2.2.2.2.2.2.2
  simp only [List.forall_mem_cons, List.not_mem_nil, IsEmpty.forall_iff, implies_true, and_true]
  refine ⟨by norm_num, by norm_num, by norm_num, by norm_num, prime_order9, prime_order7⟩

instance : Fact L.Prime := ⟨prime_L⟩

theorem B_uCoord_ne_zero : B.uCoord ≠ 0 := by
  rw [B_uCoord]
  decide

/-- Multiples of the base point vanish at the multiples of the order only. -/
theorem smul_B_eq_zero_iff (n : ℕ) : n • B = 0 ↔ L ∣ n := by
  have hB : B ≠ 0 := by
    intro hzero
    apply B_uCoord_ne_zero
    rw [EdwardsCurve.Point.uCoord_eq_zero_iff, hzero, EdwardsCurve.Point.zero_x]
  rw [← addOrderOf_dvd_iff_nsmul_eq_zero, addOrderOf_eq_prime L_smul_B hB]

/-- The coordinate zero belongs to points of order two at most. -/
theorem two_nsmul_of_uCoord {P : Point} (h : P.uCoord = 0) : 2 • P = 0 := by
  rw [EdwardsCurve.Point.uCoord_eq_zero_iff] at h
  have hneg : -P = P := by
    ext
    · rw [EdwardsCurve.Point.neg_x, h, neg_zero]
    · rfl
  have hcancel := neg_add_cancel P
  rwa [hneg, ← two_nsmul] at hcancel

end Hc.Ed25519

namespace Hc.X25519

/-- No secret is a multiple of the order. -/
theorem not_dvd_decodeScalar (bytes : List UInt8) : ¬ Ed25519.L ∣ Rfc7748.decodeScalar bytes := by
  have heq : Rfc7748.decodeScalar bytes = 8 * (2 ^ 251 + leNat bytes / 8 % 2 ^ 251) := by
    rw [Rfc7748.decodeScalar]
    ring
  have hlt : leNat bytes / 8 % 2 ^ 251 < 2 ^ 251 := Nat.mod_lt _ (by decide)
  rw [heq, Ed25519.prime_L.dvd_mul, not_or]
  constructor
  · decide
  · apply Nat.not_dvd_of_pos_of_lt
    · omega
    · have hL : 2 ^ 252 < Ed25519.L := by decide
      omega

/-- What a side computes from the public key of the other one. -/
theorem x25519_publicKey (a b : Bytes 32) :
    x25519 a ⟨x25519 b ecdhBasepoint, length_x25519 b ecdhBasepoint⟩ =
      Rfc7748.encodeUCoordinate
        ((Rfc7748.decodeScalar a.toList * Rfc7748.decodeScalar b.toList) • Ed25519.B).uCoord := by
  have hpub : Rfc7748.decodeUCoordinate (x25519 b ecdhBasepoint) =
      (Rfc7748.decodeScalar b.toList • Ed25519.B).uCoord := by
    rw [x25519_uCoord b decodeUCoordinate_ecdhBasepoint, decodeUCoordinate_encodeUCoordinate]
  rw [mul_smul]
  exact x25519_uCoord a hpub

/-- Both sides share the same bytes. -/
theorem x25519_comm (a b : Bytes 32) :
    x25519 a ⟨x25519 b ecdhBasepoint, length_x25519 b ecdhBasepoint⟩ =
      x25519 b ⟨x25519 a ecdhBasepoint, length_x25519 a ecdhBasepoint⟩ := by
  rw [x25519_publicKey, x25519_publicKey, mul_comm]

/-- Both sides contribute: what they share is never zero. -/
theorem sharedSecret_ne_zero (a b : Bytes 32) :
    ∃ byte ∈ x25519 a ⟨x25519 b ecdhBasepoint, length_x25519 b ecdhBasepoint⟩, byte ≠ 0 := by
  rw [x25519_publicKey]
  by_contra hzero
  push Not at hzero
  -- The number of the encoding is zero, so twice the multiple of the base point vanishes.
  have hu := decodeUCoordinate_encodeUCoordinate
    ((Rfc7748.decodeScalar a.toList * Rfc7748.decodeScalar b.toList) • Ed25519.B).uCoord
  rw [List.eq_replicate_of_mem hzero, Rfc7748.decodeUCoordinate, leNat_replicate_zero, Nat.zero_mod,
    Nat.cast_zero] at hu
  have htwice := Ed25519.two_nsmul_of_uCoord hu.symm
  rw [← mul_smul, Ed25519.smul_B_eq_zero_iff, Ed25519.prime_L.dvd_mul,
    Ed25519.prime_L.dvd_mul] at htwice
  rcases htwice with htwo | ha | hb
  · exact absurd htwo (by decide)
  · exact not_dvd_decodeScalar _ ha
  · exact not_dvd_decodeScalar _ hb

end Hc.X25519
