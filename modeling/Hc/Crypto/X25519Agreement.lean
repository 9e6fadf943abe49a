import Hc.Crypto.Ed25519
import Hc.Crypto.Ed25519Scalarmult
import Hc.Crypto.X25519Ladder
import Hc.Foundation.EdwardsLadder

/-!
# X25519 and the group of Ed25519

On the coordinates of points of the Edwards curve X25519 is multiplication in the group.
So the table of Ed25519 serves for the base point, and secrets can be applied in either
order.
-/

namespace Hc.Ed25519

open Curve25519

theorem a24_mul : Rfc7748.a24 * (1 + curve.d) = -curve.d := by
  rw [Rfc7748.a24, curve_d]
  linear_combination d_mul

/-- The base points belong to each other. -/
theorem B_uCoord : B.uCoord = 9 := by
  have hy : 5 * B.y = 4 := by
    have h : ((5 * baseY : ℕ) : F) = ((4 : ℕ) : F) := natCast_eq_of_mod (by decide)
    push_cast at h
    exact h
  have hden : 1 - B.y ≠ 0 := by
    intro hzero
    have hone : (1 : F) = 0 := by linear_combination 5 * hzero + hy
    exact one_ne_zero hone
  rw [EdwardsCurve.Point.uCoord, div_eq_iff hden]
  linear_combination 2 * hy

end Hc.Ed25519

namespace Hc.X25519

open Curve25519

/-- The multiplication of RFC 7748 is that of the group. -/
theorem mul_uCoord (P : Ed25519.Point) {k : ℕ} (hk : k < 2 ^ 255) :
    Rfc7748.mul k P.uCoord = (k • P).uCoord := by
  have hladder := Ladder.result_rounds Ed25519.a24_mul P (i := 254) hk
  rw [← hladder, ← Ladder.cswap_false (Ladder.start _), ← Ladder.deferred_eq_rounds _ _ _ 255
    (false, Ladder.start _), Ladder.result, inv_eq_pow]
  rfl

theorem decodeScalar_lt (bytes : List UInt8) : Rfc7748.decodeScalar bytes < 2 ^ 255 := by
  have hlt : leNat bytes / 8 % 2 ^ 251 < 2 ^ 251 := Nat.mod_lt _ (by decide)
  unfold Rfc7748.decodeScalar
  omega

/-- X25519 on the coordinate of a point. -/
theorem x25519_uCoord (secret : Bytes 32) {pub : Bytes 32} {P : Ed25519.Point}
    (hpub : Rfc7748.decodeUCoordinate pub.toList = P.uCoord) :
    x25519 secret pub =
      Rfc7748.encodeUCoordinate (Rfc7748.decodeScalar secret.toList • P).uCoord := by
  have hlimbs := x25519Limbs_canonical secret pub
  rw [hpub, mul_uCoord P (decodeScalar_lt _)] at hlimbs
  exact store_eq hlimbs

theorem decodeUCoordinate_ecdhBasepoint :
    Rfc7748.decodeUCoordinate ecdhBasepoint.toList = Ed25519.B.uCoord := by
  have hvalue : leNat ecdhBasepoint.toList % 2 ^ 255 = 9 := by decide
  rw [Ed25519.B_uCoord, Rfc7748.decodeUCoordinate, hvalue]
  rfl

theorem decodeUCoordinate_encodeUCoordinate (u : F) :
    Rfc7748.decodeUCoordinate (Rfc7748.encodeUCoordinate u) = u := by
  have hlt : u.val < 2 ^ 255 := u.val_lt.trans (by decide)
  rw [Rfc7748.decodeUCoordinate, Rfc7748.encodeUCoordinate, leNat_leBytes,
    Nat.mod_eq_of_lt (hlt.trans (by decide)), Nat.mod_eq_of_lt hlt, ZMod.natCast_zmod_val]

theorem length_x25519 (secret pub : Bytes 32) : (x25519 secret pub).length = 32 := by
  simp [x25519, store, storeU64]

/-- The table of Ed25519 and the ladder give the same public key. -/
theorem x25519Basepoint_eq (secret : Bytes 32) :
    Ed25519.x25519Basepoint secret.toList = x25519 secret ecdhBasepoint := by
  rw [x25519_uCoord secret decodeUCoordinate_ecdhBasepoint]
  have hs := Ed25519.modmLoad32_spec (clamp secret.toList)
  rw [leNat_clamp _ secret.toList_length,
    Nat.mod_eq_of_lt ((decodeScalar_lt secret.toList).trans (by decide))] at hs
  obtain ⟨X, Y, Z, hx, hy, hz, hpoint⟩ :=
    (Ed25519.scalarmultBaseNiels_spec hs (decodeScalar_lt secret.toList)).toPartial
  generalize Rfc7748.decodeScalar secret.toList • Ed25519.B = P at hpoint
  have hsum := addNoReduce_rep hy hz (by decide)
  have hdiff := subNoReduce_rep hz (hy.mono (by decide)) (by decide)
  have hu := mul_rep (hsum.mono (by decide))
    ((invert_rep (hdiff.mono (by decide))).mono (by decide))
  have hvalue : (Y + Z) * (Z - Y)⁻¹ = P.uCoord := by
    rw [EdwardsCurve.Point.uCoord, ← div_eq_mul_inv, hpoint.y_eq,
      ← mul_div_mul_right (1 + P.y) (1 - P.y) hpoint.z_ne_zero]
    congr 1
    · ring
    · ring
  rw [hvalue] at hu
  exact store_eq (reduce_rep_canonical (hu.mono (by decide)))

/-- Both sides of an exchange compute the same bytes. -/
theorem x25519_agreement (a b : Bytes 32) :
    x25519 a ⟨x25519 b ecdhBasepoint, length_x25519 b ecdhBasepoint⟩ =
      x25519 b ⟨x25519 a ecdhBasepoint, length_x25519 a ecdhBasepoint⟩ := by
  have hpub (secret : Bytes 32) : Rfc7748.decodeUCoordinate (x25519 secret ecdhBasepoint) =
      (Rfc7748.decodeScalar secret.toList • Ed25519.B).uCoord := by
    rw [x25519_uCoord secret decodeUCoordinate_ecdhBasepoint, decodeUCoordinate_encodeUCoordinate]
  have ha : x25519 a ⟨x25519 b ecdhBasepoint, length_x25519 b ecdhBasepoint⟩ = _ :=
    x25519_uCoord a (hpub b)
  have hb : x25519 b ⟨x25519 a ecdhBasepoint, length_x25519 a ecdhBasepoint⟩ = _ :=
    x25519_uCoord b (hpub a)
  rw [ha, hb, smul_comm]

end Hc.X25519
