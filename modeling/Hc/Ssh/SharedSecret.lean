import Hc.Foundation.Counted
import Hc.Foundation.Memory
import Hc.Crypto.ShaDigest

/-!
# The shared secret in the exchange hash

`_client_sha256UpdateSharedSecret` of `hc/examples/ssh/client.c` feeds the exchange hash with the
shared secret as an `mpint` of RFC 4251. It gets a pointer to 32 bytes; which bytes it loads behind
the pointer is part of the model, since the search for the first nonzero byte may run to the end.
-/

namespace Hc.Ssh

/-- The contents of an `mpint` that is not negative: a number whose top bit is set gets a zero in
front of it. -/
def mpintBytes : List UInt8 → List UInt8
  | [] => []
  | b :: rest => if 128 ≤ b.toNat then 0 :: b :: rest else b :: rest

/-- The `mpint` of RFC 4251, section 5. -/
def mpint (n : ℕ) : List UInt8 := counted 4 (mpintBytes (minimalBytes n))

/-- The `for` loop: where it stops, and the offsets that it has loaded. -/
def findNonzero (secret : ℕ → UInt8) : ℕ → ℕ → ℕ × List ℕ
  | 0, pos => (pos, [])
  | remaining + 1, pos =>
    if secret pos ≠ 0 then (pos, [pos])
    else
      let (found, loads) := findNonzero secret remaining (pos + 1)
      (found, pos :: loads)

/-- `pos` behind the loop. -/
def sharedSecretPos (secret : ℕ → UInt8) : ℕ := (findNonzero secret 32 0).1

/-- The inputs of the calls of `sha256_update`. -/
def sharedSecretUpdates (secret : ℕ → UInt8) : List (List UInt8) :=
  let pos := sharedSecretPos secret
  let extraZero := (secret pos).toNat >>> 7
  [beBytes 4 (32 - pos + extraZero)] ++ (if extraZero ≠ 0 then [[0]] else []) ++
    [Memory.read secret pos (32 - pos)]

/-- The offsets behind `secret` that are loaded: by the loop, for `extraZero`, and by the last
`sha256_update`. -/
def sharedSecretLoads (secret : ℕ → UInt8) : List ℕ :=
  let pos := sharedSecretPos secret
  (findNonzero secret 32 0).2 ++ [pos] ++ List.range' pos (32 - pos)

/-- `_client_sha256UpdateSharedSecret`. -/
def sha256UpdateSharedSecret (sha256 : Sha256) (secret : ℕ → UInt8) : Sha256 :=
  (sharedSecretUpdates secret).foldl Sha256.update sha256

variable {secret : ℕ → UInt8}

/-! ## The search -/

/-- What is known when the loop has ended. -/
structure Searched (secret : ℕ → UInt8) (pos stop found : ℕ) (loads : List ℕ) : Prop where
  le_found : pos ≤ found
  found_le : found ≤ stop
  zero : ∀ i, pos ≤ i → i < found → secret i = 0
  nonzero : found < stop → secret found ≠ 0
  loads_lt : ∀ offset ∈ loads, offset < stop

theorem findNonzero_searched (secret : ℕ → UInt8) (remaining pos : ℕ) :
    Searched secret pos (pos + remaining) (findNonzero secret remaining pos).1
      (findNonzero secret remaining pos).2 := by
  induction remaining generalizing pos with
  | zero =>
      constructor
      · exact Nat.le_refl pos
      · exact Nat.le_refl pos
      · intro i hi hlt
        exact absurd hlt (Nat.not_lt.mpr hi)
      · intro hlt
        exact absurd hlt (Nat.lt_irrefl pos)
      · intro offset hmem
        exact absurd hmem List.not_mem_nil
  | succ remaining ih =>
      rw [findNonzero]
      split
      next hne =>
        constructor
        · exact Nat.le_refl pos
        · exact Nat.le_add_right pos _
        · intro i hi hlt
          exact absurd hlt (Nat.not_lt.mpr hi)
        · intro _
          exact hne
        · intro offset hmem
          rw [List.mem_singleton.mp hmem]
          omega
      next heq =>
        have hrest := ih (pos + 1)
        rw [Nat.add_right_comm, Nat.add_assoc pos] at hrest
        constructor
        · exact (Nat.le_succ pos).trans hrest.le_found
        · exact hrest.found_le
        · intro i hi hlt
          rcases Nat.eq_or_lt_of_le hi with rfl | hgt
          · exact not_not.mp heq
          · exact hrest.zero i hgt hlt
        · exact hrest.nonzero
        · intro offset hmem
          rcases List.mem_cons.mp hmem with rfl | hmem
          · omega
          · exact hrest.loads_lt offset hmem

theorem sharedSecretPos_searched (secret : ℕ → UInt8) :
    Searched secret 0 32 (sharedSecretPos secret) (findNonzero secret 32 0).2 :=
  findNonzero_searched secret 32 0

/-- The search stops inside of the secret if there is a nonzero byte. -/
theorem sharedSecretPos_lt_iff : sharedSecretPos secret < 32 ↔ ∃ i < 32, secret i ≠ 0 := by
  have hsearch := sharedSecretPos_searched secret
  constructor
  · intro hlt
    exact ⟨_, hlt, hsearch.nonzero hlt⟩
  · rintro ⟨i, hi, hne⟩
    by_contra hge
    exact hne (hsearch.zero i (Nat.zero_le i) (by omega))

/-! ## The encoding -/

/-- What is fed to the hash is the `mpint` of the bytes from `pos` on. -/
theorem flatten_sharedSecretUpdates {b : UInt8} {rest : List UInt8}
    (hsuffix : Memory.read secret (sharedSecretPos secret) (32 - sharedSecretPos secret) =
      b :: rest)
    (hb : secret (sharedSecretPos secret) = b) :
    (sharedSecretUpdates secret).flatten = counted 4 (mpintBytes (b :: rest)) := by
  have hlength := congrArg List.length hsuffix
  rw [Memory.length_read, List.length_cons] at hlength
  have htop := b.toNat_lt
  rw [sharedSecretUpdates, hsuffix, hb, hlength, Nat.shiftRight_eq_div_pow]
  rcases Nat.lt_or_ge b.toNat 128 with hclear | hset
  · have hextra : b.toNat / 2 ^ 7 = 0 := by omega
    have hbytes : mpintBytes (b :: rest) = b :: rest := if_neg (by omega)
    rw [hextra, hbytes, counted]
    simp
  · have hextra : b.toNat / 2 ^ 7 = 1 := by omega
    have hbytes : mpintBytes (b :: rest) = 0 :: b :: rest := if_pos hset
    rw [hextra, hbytes, counted]
    simp

/-- A secret with a nonzero byte is fed as the `mpint` of its number. -/
theorem flatten_sharedSecretUpdates_eq_mpint (h : sharedSecretPos secret < 32) :
    (sharedSecretUpdates secret).flatten = mpint (beNat (Memory.read secret 0 32)) := by
  have hsearch := sharedSecretPos_searched secret
  obtain ⟨k, hk⟩ := Nat.exists_eq_add_of_lt h
  have hsuffix : Memory.read secret (sharedSecretPos secret) (32 - sharedSecretPos secret) =
      secret (sharedSecretPos secret) :: Memory.read secret (sharedSecretPos secret + 1) k := by
    rw [show 32 - sharedSecretPos secret = k + 1 by omega, Memory.read]
  have hsplit : Memory.read secret 0 32 = List.replicate (sharedSecretPos secret) 0 ++
      secret (sharedSecretPos secret) :: Memory.read secret (sharedSecretPos secret + 1) k := by
    have hzeros : Memory.read secret 0 (sharedSecretPos secret) =
        List.replicate (sharedSecretPos secret) 0 :=
      Memory.read_eq_replicate fun i hi hlt => hsearch.zero i hi (by omega)
    rw [show 32 = sharedSecretPos secret + (32 - sharedSecretPos secret) by omega,
      Memory.read_add, Nat.zero_add, hzeros, hsuffix]
  rw [flatten_sharedSecretUpdates hsuffix rfl, mpint, hsplit, beNat_replicate_zero_append,
    minimalBytes_beNat_cons _ (hsearch.nonzero h)]

/-- Only the secret is loaded as long as the search stops inside of it. -/
theorem sharedSecretLoads_lt_iff :
    (∀ offset ∈ sharedSecretLoads secret, offset < 32) ↔ sharedSecretPos secret < 32 := by
  have hsearch := sharedSecretPos_searched secret
  constructor
  · intro h
    exact h _ (List.mem_append_left _ (List.mem_append_right _ (List.mem_singleton.mpr rfl)))
  · intro hlt offset hmem
    rcases List.mem_append.mp hmem with hmem | hmem
    · rcases List.mem_append.mp hmem with hmem | hmem
      · exact hsearch.loads_lt offset hmem
      · rwa [List.mem_singleton.mp hmem]
    · rw [List.mem_range'_1] at hmem
      omega

/-- The hash is fed with the `mpint` of the secret, and nothing but the secret is loaded, exactly if
the secret is not zero. -/
theorem sharedSecretUpdates_mpint_iff (secret : ℕ → UInt8) :
    ((sharedSecretUpdates secret).flatten = mpint (beNat (Memory.read secret 0 32)) ∧
      ∀ offset ∈ sharedSecretLoads secret, offset < 32) ↔ ∃ i < 32, secret i ≠ 0 := by
  rw [← sharedSecretPos_lt_iff, sharedSecretLoads_lt_iff]
  constructor
  · intro h
    exact h.2
  · intro h
    exact ⟨flatten_sharedSecretUpdates_eq_mpint h, h⟩

/-- A secret of zeros, in front of a byte whose top bit is set. -/
def zeroSecret (offset : ℕ) : UInt8 := if offset < 32 then 0 else 0xFF

/-- The secret of zeros is fed as a string of one byte, and the byte behind it is loaded. -/
theorem sharedSecretUpdates_zeroSecret :
    (sharedSecretUpdates zeroSecret).flatten = [0, 0, 0, 1, 0] ∧
      (sharedSecretUpdates zeroSecret).flatten ≠ mpint (beNat (Memory.read zeroSecret 0 32)) ∧
      32 ∈ sharedSecretLoads zeroSecret := by
  have hfed : (sharedSecretUpdates zeroSecret).flatten = [0, 0, 0, 1, 0] := by decide
  have hread : Memory.read zeroSecret 0 32 = List.replicate 32 0 ++ [] := by decide
  have hmpint : mpint (beNat (Memory.read zeroSecret 0 32)) = [0, 0, 0, 0] := by
    rw [hread, beNat_replicate_zero_append]
    decide
  refine ⟨hfed, ?_, by decide⟩
  rw [hfed, hmpint]
  decide

end Hc.Ssh
