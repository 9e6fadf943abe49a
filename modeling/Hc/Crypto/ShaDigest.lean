import Hc.Crypto.Sha1
import Hc.Crypto.Sha2Rounds

/-!
# The hashes compute the digests of the standard

However a message is cut into updates, and whatever the structs held before.
-/

namespace Hc

/-- The length field of the hashes with blocks of 64 bytes. -/
theorem storeBits64_eq (length : ℕ) :
    storeBE ((((BitVec.ofNat 64 (length / 64)) <<< 6) + BitVec.ofNat 64 (length % 64)) <<< 3) =
      beBytes 8 (8 * length) := by
  apply beBytes_congr
  simp only [BitVec.toNat_shiftLeft, BitVec.toNat_add, BitVec.toNat_ofNat, Nat.shiftLeft_eq]
  omega

theorem Sha512.storeBits_eq {length : ℕ} (h : length < 2 ^ 71) :
    Sha512.storeBits (BitVec.ofNat 64 (length / 128)) (length % 128) =
      beBytes 16 (8 * length) := by
  unfold Sha512.storeBits
  simp only [storeBE, BitVec.toNat_setWidth, BitVec.toNat_ushiftRight, BitVec.toNat_shiftLeft,
    BitVec.toNat_add, BitVec.toNat_ofNat, Nat.shiftLeft_eq, Nat.shiftRight_eq_div_pow]
  rw [← beBytes_append 8 8]
  congr 1
  · apply beBytes_congr
    omega
  · apply beBytes_congr
    omega

/-! ## Digests -/

variable (chunks : List (List UInt8))

theorem Sha1.digest_eq (self : Sha1) :
    (chunks.foldl Sha1.update self.init).finish = Fips180.sha1 chunks.flatten := by
  unfold Sha1.finish Fips180.sha1
  rw [← Sha1.block_eq]
  congr 2
  exact MerkleDamgard.finish_foldl_update 6 rfl (by decide) rfl rfl chunks
    (storeBits64_eq _)

/-- The initial states of SHA-256, of SHA-512 and of SHA-384. -/
theorem initial_eq_fractionalRoot :
    (∀ i : Fin 8, (![0x6a09e667, 0xbb67ae85, 0x3c6ef372, 0xa54ff53a,
      0x510e527f, 0x9b05688c, 0x1f83d9ab, 0x5be0cd19] : Fin 8 → BitVec 32) i =
        Fips180.fractionalRoot 2 32 i.val) ∧
      (∀ i : Fin 8, (![0x6a09e667f3bcc908, 0xbb67ae8584caa73b, 0x3c6ef372fe94f82b,
        0xa54ff53a5f1d36f1, 0x510e527fade682d1, 0x9b05688c2b3e6c1f, 0x1f83d9abfb41bd6b,
        0x5be0cd19137e2179] : Fin 8 → BitVec 64) i = Fips180.fractionalRoot 2 64 i.val) ∧
      ∀ i : Fin 8, (![0xcbbb9d5dc1059ed8, 0x629a292a367cd507, 0x9159015a3070dd17,
        0x152fecd8f70e5939, 0x67332667ffc00b31, 0x8eb44a8768581511, 0xdb0c2e0d64f98fa7,
        0x47b5481dbefa4fa4] : Fin 8 → BitVec 64) i = Fips180.fractionalRoot 2 64 (i.val + 8) := by
  decide +kernel

theorem Sha256.initial_eq : (![0x6a09e667, 0xbb67ae85, 0x3c6ef372, 0xa54ff53a,
    0x510e527f, 0x9b05688c, 0x1f83d9ab, 0x5be0cd19] : Fin 8 → BitVec 32) =
      fun i : Fin 8 => Fips180.fractionalRoot 2 32 i.val :=
  funext initial_eq_fractionalRoot.1

theorem Sha256.digest_eq (self : Sha256) :
    (chunks.foldl Sha256.update self.init).finish = Fips180.sha256 chunks.flatten := by
  unfold Sha256.finish Fips180.sha256
  rw [← Sha256.block_eq, ← Sha256.initial_eq]
  congr 2
  exact MerkleDamgard.finish_foldl_update 6 rfl (by decide) rfl rfl chunks
    (storeBits64_eq _)

theorem Sha512.initial_eq : (![0x6a09e667f3bcc908, 0xbb67ae8584caa73b, 0x3c6ef372fe94f82b,
    0xa54ff53a5f1d36f1, 0x510e527fade682d1, 0x9b05688c2b3e6c1f, 0x1f83d9abfb41bd6b,
    0x5be0cd19137e2179] : Fin 8 → BitVec 64) = fun i :
      Fin 8 => Fips180.fractionalRoot 2 64 i.val :=
  funext initial_eq_fractionalRoot.2.1

theorem Sha512.initial384_eq : (![0xcbbb9d5dc1059ed8, 0x629a292a367cd507, 0x9159015a3070dd17,
    0x152fecd8f70e5939, 0x67332667ffc00b31, 0x8eb44a8768581511, 0xdb0c2e0d64f98fa7,
    0x47b5481dbefa4fa4] : Fin 8 → BitVec 64) = fun i : Fin 8 => Fips180.fractionalRoot 2 64
      (i.val + 8) :=
  funext initial_eq_fractionalRoot.2.2

variable {chunks}

theorem Sha512.digest_eq (hsize : chunks.flatten.length < 2 ^ 71) (self : Sha512) :
    (chunks.foldl Sha512.update self.init).finish = Fips180.sha512 chunks.flatten := by
  unfold Sha512.finish Fips180.sha512
  rw [← Sha512.block_eq, ← Sha512.initial_eq]
  congr 2
  exact MerkleDamgard.finish_foldl_update 7 rfl (by decide) rfl rfl chunks
    (Sha512.storeBits_eq hsize)

theorem Sha512.digest384_eq (hsize : chunks.flatten.length < 2 ^ 71) (self : Sha512) :
    ((chunks.foldl Sha512.update self.init384).finish).take 48 =
      Fips180.sha384 chunks.flatten := by
  unfold Sha512.finish Fips180.sha384
  rw [← Sha512.block_eq, ← Sha512.initial384_eq]
  congr 3
  exact MerkleDamgard.finish_foldl_update 7 rfl (by decide) rfl rfl chunks
    (Sha512.storeBits_eq hsize)

/-- The four hashes, for every cut of a message into updates. -/
theorem digests_eq_fips180 (hsize : chunks.flatten.length < 2 ^ 61) (sha1 : Sha1)
    (sha256 : Sha256) (sha512 : Sha512) :
    (chunks.foldl Sha1.update sha1.init).finish = Fips180.sha1 chunks.flatten ∧
      (chunks.foldl Sha256.update sha256.init).finish = Fips180.sha256 chunks.flatten ∧
      (chunks.foldl Sha512.update sha512.init).finish = Fips180.sha512 chunks.flatten ∧
      ((chunks.foldl Sha512.update sha512.init384).finish).take 48 =
        Fips180.sha384 chunks.flatten := by
  have hsize' : chunks.flatten.length < 2 ^ 71 := hsize.trans (by decide)
  exact ⟨Sha1.digest_eq chunks sha1, Sha256.digest_eq chunks sha256,
    Sha512.digest_eq hsize' sha512, Sha512.digest384_eq hsize' sha512⟩

/-- "abc" in three updates, one of them empty. -/
theorem digests_eq_fips180_abc :
    let chunks : List (List UInt8) := [[0x61], [], [0x62, 0x63]]
    let sha1 : Sha1 := ⟨(fun _ => 0, 0), 0, .replicate 64 0⟩
    let sha256 : Sha256 := ⟨(fun _ => 0, 0), 0, .replicate 64 0⟩
    let sha512 : Sha512 := ⟨(fun _ => 0, 0), 0, .replicate 128 0⟩
    chunks.flatten.length < 2 ^ 61 ∧
      (chunks.foldl Sha1.update sha1.init).finish = Fips180.sha1 [0x61, 0x62, 0x63] ∧
      (chunks.foldl Sha256.update sha256.init).finish = Fips180.sha256 [0x61, 0x62, 0x63] ∧
      (chunks.foldl Sha512.update sha512.init).finish = Fips180.sha512 [0x61, 0x62, 0x63] ∧
      ((chunks.foldl Sha512.update sha512.init384).finish).take 48 =
        Fips180.sha384 [0x61, 0x62, 0x63] :=
  ⟨by decide, digests_eq_fips180 (by decide) _ _ _⟩

end Hc
