import Hc.Core.Util
import Hc.Crypto.Ed25519
import Hc.Crypto.Ed25519Encoding
import Hc.Crypto.Ed25519Scalarmult
import Hc.Crypto.ShaDigest
import Hc.Crypto.X25519Ladder

/-!
# Signatures

What `ed25519_verify` accepts, in terms of the group and of the standard hash, and that it
accepts what `ed25519_sign` writes.
-/

namespace Hc.Ed25519

open Curve25519

/-- What a pointer with an `ssize_t` size can describe. -/
abbrev Buffer := { bytes : List UInt8 // bytes.length < 2 ^ 63 }

theorem L_lt : L < 2 ^ 253 := by decide

/-- Multiples of the base point depend on the scalar modulo the order only. -/
theorem mod_smul_B (n : ℕ) : (n % L) • B = n • B := by
  conv_rhs => rw [← Nat.mod_add_div n L, add_smul, mul_comm, mul_smul, L_smul_B, smul_zero,
    add_zero]

/-! ## Hashes and scalars -/

theorem length_hash (chunks : List (List UInt8)) : (hash chunks).length = 64 := by
  simp only [hash, Sha512.finish, List.length_flatMap, storeBE, length_beBytes]
  simp

theorem modmLoad_false_spec (bytes : List UInt8) :
    (modmLoad bytes false).Canonical (leNat bytes % 2 ^ 256) :=
  modmLoad32_spec bytes

/-- The clamped half of a hash. -/
theorem extSecret_lt (secret : List UInt8) : leNat (extSecret secret) % 2 ^ 256 < 2 ^ 255 := by
  have htake : (extSecret secret).take 32 = X25519.clamp ((hash [secret]).take 32) := by
    simp [extSecret, X25519.clamp, List.take_modify]
  have hvalue : leNat (extSecret secret) % 2 ^ 256 = leNat ((extSecret secret).take 32) := by
    rw [leNat_take]
    norm_num
  rw [hvalue, htake, X25519.leNat_clamp _ (by rw [List.length_take, length_hash]; rfl),
    Rfc7748.decodeScalar]
  omega

/-- The test of the top bits of `S`. -/
theorem topBits_eq_zero_iff {signature : List UInt8} (hlength : signature.length = 64) :
    byteAt signature 63 &&& 224 = 0 ↔ leNat (signature.drop 32) < 2 ^ 253 := by
  have htop : (byteAt signature 63).toNat &&& (2 ^ 8 - 2 ^ 5) =
      (byteAt signature 63).toNat / 2 ^ 5 * 2 ^ 5 :=
    and_two_pow_sub_two_pow (by decide) (byteAt signature 63).toNat_lt
  have hlast : byteAt signature 63 = byteAt (signature.drop 32) 31 := by
    simp [byteAt, List.getD_eq_getElem?_getD, List.getElem?_drop]
  have hlt := leNat_lt (signature.drop 32)
  rw [List.length_drop, hlength] at hlt
  have hvalue := byteAt_toNat (signature.drop 32) 31
  rw [← hlast] at hvalue
  rw [← UInt8.toNat_inj, UInt8.toNat_and]
  change (byteAt signature 63).toNat &&& (2 ^ 8 - 2 ^ 5) = 0 ↔ _
  rw [htop]
  omega

/-! ## Verification -/

/-- The scalar that `_ed25519_hram` gives. -/
def hramNat (signature pub message : List UInt8) : ℕ := leNat (hram signature pub message) % L

theorem hram_canonical (signature pub message : List UInt8) :
    (modmLoad (hram signature pub message) true).Canonical (hramNat signature pub message) :=
  modmLoad_true_spec _ (length_hash _)

theorem hramNat_lt (signature pub message : List UInt8) :
    hramNat signature pub message < 2 ^ 253 :=
  (Nat.mod_lt _ (by decide)).trans L_lt

/-- The signatures that `ed25519_verify` accepts. -/
theorem verify_eq_zero_iff {message pub signature : List UInt8} (hlength : signature.length = 64) :
    verify message pub signature = 0 ↔ leNat (signature.drop 32) < 2 ^ 253 ∧
      ∃ A, Decodes pub A ∧ encode (leNat (signature.drop 32) • B -
        hramNat signature pub message • A) = signature.take 32 := by
  unfold verify
  split
  next htop =>
    rw [ne_eq, topBits_eq_zero_iff hlength] at htop
    exact iff_of_false (by decide) fun h => htop h.1
  next htop =>
    rw [ne_eq, not_not, topBits_eq_zero_iff hlength] at htop
    rcases unpackNegativeVartime_spec pub with ⟨A, g, hA, hg, hunpack⟩ | ⟨hnone, hunpack⟩
    · have hS : (modmLoad (signature.drop 32) false).Canonical (leNat (signature.drop 32)) := by
        have h := modmLoad_false_spec (signature.drop 32)
        rwa [Nat.mod_eq_of_lt (htop.trans (by decide))] at h
      have hR := doubleScalarmultVartime_spec hg (hram_canonical signature pub message) hS
        (hramNat_lt signature pub message) htop
      have hpoint : hramNat signature pub message • -A + leNat (signature.drop 32) • B =
          leNat (signature.drop 32) • B - hramNat signature pub message • A := by
        rw [smul_neg, neg_add_eq_sub]
      rw [hunpack]
      simp only
      rw [pack_spec hR, hpoint,
        memCompare_eq_zero_iff (by rw [List.length_take, hlength, length_encode]; rfl)]
      constructor
      · intro heq
        exact ⟨htop, A, hA, heq.symm⟩
      · rintro ⟨-, A', hA', heq⟩
        rw [hA.unique hA', heq]
    · rw [hunpack]
      exact iff_of_false one_ne_zero fun ⟨_, A, hA, _⟩ => hnone A hA

/-- A signature is accepted if and only if it satisfies the equation of the group. -/
theorem verify_iff_group_equation (message : Buffer) (pub : Bytes 32) (signature : Bytes 64) :
    verify message.1 pub.toList signature.toList = 0 ↔
      leNat (signature.toList.drop 32) < 2 ^ 253 ∧
      ∃ A, Decodes pub.toList A ∧
        encode (leNat (signature.toList.drop 32) • B -
          (leNat (Fips180.sha512 (signature.toList.take 32 ++ pub.toList ++ message.1)) % L) • A) =
            signature.toList.take 32 := by
  have hsize : [signature.toList.take 32, pub.toList, message.1].flatten.length < 2 ^ 71 := by
    have hmessage := message.2
    simp only [List.flatten_cons, List.flatten_nil, List.append_nil, List.length_append,
      List.length_take, List.Vector.toList_length]
    omega
  have hhash : hram signature.toList pub.toList message.1 =
      Fips180.sha512 (signature.toList.take 32 ++ pub.toList ++ message.1) := by
    rw [hram, hash, Sha512.digest_eq hsize]
    simp
  rw [verify_eq_zero_iff signature.toList_length, hramNat, hhash]

/-! ## Signing -/

/-- The secret scalar. -/
def secretNat (secret : List UInt8) : ℕ := leNat (extSecret secret) % 2 ^ 256

theorem publicKey_eq (secret : List UInt8) : publicKey secret = encode (secretNat secret • B) :=
  pack_spec (scalarmultBaseNiels_spec (modmLoad_false_spec _) (extSecret_lt secret)).toPartial

/-- A signature is the encoding of a multiple `r` of the base point and a solution of the
group equation modulo the order. -/
theorem sign_spec (message secret pub : List UInt8) :
    ∃ r < L, sign message secret pub = encode (r • B) ++ leBytes 32
      ((hramNat (encode (r • B)) pub message * secretNat secret % L + r) % L) := by
  have hr := modmLoad_true_spec (hash [((extSecret secret).drop 32).take 32, message])
    (length_hash _)
  generalize hrNat : leNat (hash [((extSecret secret).drop 32).take 32, message]) % L = r at hr
  have hrlt : r < L := hrNat ▸ Nat.mod_lt _ (by decide)
  have hR := pack_spec (scalarmultBaseNiels_spec hr (hrlt.trans (by decide))).toPartial
  refine ⟨r, hrlt, ?_⟩
  have hmul := modmMul_spec (hram_canonical (encode (r • B)) pub message)
    (modmLoad_false_spec (extSecret secret))
  have hS := modmAdd_spec hmul hr (Nat.mod_lt _ (by decide)) hrlt
  unfold sign
  simp only
  rw [hR, modmStore_eq hS]
  rfl

/-- What `ed25519_sign` writes is accepted. -/
theorem verify_sign (message : List UInt8) (secret : Bytes 32) :
    verify message (publicKey secret.toList)
      (sign message secret.toList (publicKey secret.toList)) = 0 := by
  obtain ⟨r, hr, hsign⟩ := sign_spec message secret.toList (publicKey secret.toList)
  have hLpos : 0 < L := by decide
  generalize hS : (hramNat (encode (r • B)) (publicKey secret.toList) message *
    secretNat secret.toList % L + r) % L = S at hsign
  have hSlt : S < L := hS ▸ Nat.mod_lt _ hLpos
  have htake : (sign message secret.toList (publicKey secret.toList)).take 32 = encode (r • B) := by
    rw [hsign]
    exact List.take_left' (length_encode _)
  have hdrop : leNat ((sign message secret.toList (publicKey secret.toList)).drop 32) = S := by
    rw [hsign, List.drop_left' (length_encode _), leNat_leBytes]
    exact Nat.mod_eq_of_lt (hSlt.trans (by decide))
  have hlength : (sign message secret.toList (publicKey secret.toList)).length = 64 := by
    rw [hsign, List.length_append, length_encode, length_leBytes]
  have hhram : hramNat (sign message secret.toList (publicKey secret.toList))
      (publicKey secret.toList) message =
        hramNat (encode (r • B)) (publicKey secret.toList) message := by
    rw [hramNat, hramNat, hram, hram, htake, List.take_of_length_le (length_encode _).le]
  rw [verify_eq_zero_iff hlength, hdrop, htake, hhram]
  refine ⟨hSlt.trans L_lt, secretNat secret.toList • B, ?_, ?_⟩
  · rw [publicKey_eq]
    exact decodes_encode _
  · -- In the group `S` is `h a + r`, so `S B - h (a B)` is `r B`.
    rw [← hS, mod_smul_B, add_smul, mod_smul_B, mul_smul, add_sub_cancel_left]

/-! ## Malleability -/

theorem eq_or_eq_add_of_mod_eq {n m l : ℕ} (hn : n < 2 * l) (hm : m < 2 * l)
    (h : m % l = n % l) : m = n ∨ m = n + l ∨ n = m + l := by
  have hreduce {k : ℕ} (hk : k < 2 * l) : k % l = if k < l then k else k - l := by
    split
    next hlt => rw [Nat.mod_eq_of_lt hlt]
    next hge => rw [Nat.mod_eq_sub_mod (by omega), Nat.mod_eq_of_lt (by omega)]
  rw [hreduce hn, hreduce hm] at h
  split at h <;> split at h <;> omega

/-- Of the scalars that belong to one another modulo the order, those below `2 ^ 253` are
accepted with the same `R`; there are two of them at most. -/
theorem verify_congruent_scalar (message : List UInt8) (pub R S S' : Bytes 32)
    (haccepted : verify message pub.toList (R.toList ++ S.toList) = 0)
    (hcongruent : leNat S'.toList % L = leNat S.toList % L) :
    leNat S.toList < 2 ^ 253 ∧
      (verify message pub.toList (R.toList ++ S'.toList) = 0 ↔ leNat S'.toList < 2 ^ 253) ∧
      (verify message pub.toList (R.toList ++ S'.toList) = 0 →
        leNat S'.toList = leNat S.toList ∨ leNat S'.toList = leNat S.toList + L ∨
          leNat S.toList = leNat S'.toList + L) := by
  have hiff (T : Bytes 32) : verify message pub.toList (R.toList ++ T.toList) = 0 ↔
      leNat T.toList < 2 ^ 253 ∧ ∃ A, Decodes pub.toList A ∧
        encode (leNat T.toList • B - hramNat R.toList pub.toList message • A) = R.toList := by
    have htake : (R.toList ++ T.toList).take 32 = R.toList := List.take_left' R.toList_length
    have hdrop : (R.toList ++ T.toList).drop 32 = T.toList := List.drop_left' R.toList_length
    have hhram : hramNat (R.toList ++ T.toList) pub.toList message =
        hramNat R.toList pub.toList message := by
      rw [hramNat, hramNat, hram, hram, htake, List.take_of_length_le R.toList_length.le]
    rw [verify_eq_zero_iff (by rw [List.length_append, R.toList_length, T.toList_length]), htake,
      hdrop, hhram]
  obtain ⟨hS, A, hA, heq⟩ := (hiff S).mp haccepted
  have hpoint : leNat S'.toList • B = leNat S.toList • B := by
    rw [← mod_smul_B, hcongruent, mod_smul_B]
  have hiff' : verify message pub.toList (R.toList ++ S'.toList) = 0 ↔
    leNat S'.toList < 2 ^ 253 := by
    rw [hiff S']
    exact ⟨fun h => h.1, fun h => ⟨h, A, hA, by rw [hpoint]; exact heq⟩⟩
  refine ⟨hS, hiff', fun haccepted' => ?_⟩
  have hS' := hiff'.mp haccepted'
  have htwice : 2 ^ 253 < 2 * L := by decide
  exact eq_or_eq_add_of_mod_eq (hS.trans htwice) (hS'.trans htwice) hcongruent

/-- The encoding of the neutral element. -/
def neutralBytes : Bytes 32 := ⟨1 :: List.replicate 31 0, by decide⟩

theorem decodes_neutralBytes : Decodes neutralBytes.toList 0 := by
  refine ⟨?_, .inl rfl⟩
  have hvalue : leNat neutralBytes.toList % 2 ^ 255 = 1 := by decide
  rw [hvalue, Nat.cast_one]
  rfl

theorem encode_zero : encode 0 = neutralBytes.toList := by decide

/-- With the neutral element as public key and as `R`, every multiple of the order below
`2 ^ 253` is accepted for every message. -/
theorem verify_neutral (message : List UInt8) {k : ℕ} (hk : k * L < 2 ^ 253) :
    verify message neutralBytes.toList (neutralBytes.toList ++ leBytes 32 (k * L)) = 0 := by
  have hvalue : leNat (leBytes 32 (k * L)) = k * L := by
    rw [leNat_leBytes, Nat.mod_eq_of_lt (hk.trans (by decide))]
  rw [verify_eq_zero_iff (by rw [List.length_append, length_leBytes]; rfl),
    List.take_left' neutralBytes.toList_length, List.drop_left' neutralBytes.toList_length, hvalue]
  refine ⟨hk, 0, decodes_neutralBytes, ?_⟩
  rw [mul_smul, L_smul_B, smul_zero, smul_zero, sub_zero, encode_zero]

/-- The order itself and zero are accepted as `S` of the empty message. -/
theorem verify_neutral_order :
    let signature := neutralBytes.toList ++ leBytes 32 L
    let signature' := neutralBytes.toList ++ leBytes 32 0
    verify [] neutralBytes.toList signature = 0 ∧ ¬ leNat (signature.drop 32) < L ∧
      verify [] neutralBytes.toList signature' = 0 ∧
      leNat (signature.drop 32) = leNat (signature'.drop 32) + L := by
  have hone := verify_neutral [] (k := 1) (by decide)
  have hzero := verify_neutral [] (k := 0) (by decide)
  rw [one_mul] at hone
  rw [zero_mul] at hzero
  exact ⟨hone, by decide, hzero, by decide⟩

theorem verify_congruent_scalar_neutral :
    let S : Bytes 32 := ⟨leBytes 32 0, length_leBytes ..⟩
    let S' : Bytes 32 := ⟨leBytes 32 L, length_leBytes ..⟩
    verify [] neutralBytes.toList (neutralBytes.toList ++ S.toList) = 0 ∧
      leNat S'.toList % L = leNat S.toList % L ∧
      (verify [] neutralBytes.toList (neutralBytes.toList ++ S'.toList) = 0 ↔
        leNat S'.toList < 2 ^ 253) := by
  intro S S'
  have haccepted : verify [] neutralBytes.toList (neutralBytes.toList ++ S.toList) = 0 := by
    have h := verify_neutral [] (k := 0) (by decide)
    rwa [zero_mul] at h
  have hcongruent : leNat S'.toList % L = leNat S.toList % L := by decide
  exact ⟨haccepted, hcongruent,
    (verify_congruent_scalar [] neutralBytes neutralBytes S S' haccepted hcongruent).2.1⟩

end Hc.Ed25519
