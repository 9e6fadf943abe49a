import Mathlib.Tactic.Ring
import Hc.Crypto.Aes

/-!
# AES computes the standard's cipher

The tables hold the substitution box and its multiples, so that an iteration of the loop is a
round of the standard on the columns; the two key schedules write the words of the key
expansion.
-/

namespace Hc.Aes

open Fips197

/-! ## Columns as words -/

/-- A column as the code holds it. -/
def word (a : Column) : BitVec 32 := a.r3 ++ a.r2 ++ a.r1 ++ a.r0

theorem column_xor (a b : Column) :
    a ^^^ b = ⟨a.r0 ^^^ b.r0, a.r1 ^^^ b.r1, a.r2 ^^^ b.r2, a.r3 ^^^ b.r3⟩ := rfl

theorem getLsbD_word (a : Column) (i : ℕ) : (word a).getLsbD i =
    if i < 8 then a.r0.getLsbD i else if i < 16 then a.r1.getLsbD (i - 8)
    else if i < 24 then a.r2.getLsbD (i - 16) else a.r3.getLsbD (i - 24) := by
  simp only [word, BitVec.getLsbD_append, Nat.sub_sub]
  split_ifs <;> first | rfl | omega

theorem word_xor (a b : Column) : word (a ^^^ b) = word a ^^^ word b := by
  apply BitVec.eq_of_getLsbD_eq
  intro i hi
  simp only [column_xor, BitVec.getLsbD_xor, getLsbD_word]
  split_ifs <;> rfl

theorem toNat_word (a : Column) : (word a).toNat =
    a.r0.toNat + 2 ^ 8 * (a.r1.toNat + 2 ^ 8 * (a.r2.toNat + 2 ^ 8 * a.r3.toNat)) := by
  have happend {n : ℕ} (x : BitVec n) (y : BitVec 8) :
      (x ++ y).toNat = y.toNat + 2 ^ 8 * x.toNat := by
    rw [BitVec.toNat_append, ← Nat.shiftLeft_add_eq_or_of_lt y.isLt, Nat.shiftLeft_eq]
    ring
  rw [word, happend, happend, happend]

/-- The byte of a word from bit `k` on. -/
theorem toNat_shiftRight_and (x : BitVec 32) (k : ℕ) :
    (x >>> k &&& 0xFF).toNat = x.toNat / 2 ^ k % 2 ^ 8 := by
  rw [BitVec.toNat_and, BitVec.toNat_ushiftRight, Nat.shiftRight_eq_div_pow,
    show (0xFF : BitVec 32).toNat = 2 ^ 8 - 1 from rfl, Nat.and_two_pow_sub_one_eq_mod]

theorem toNat_setWidth (b : Byte) : (b.setWidth 32).toNat = b.toNat := by
  rw [BitVec.toNat_setWidth]
  have := b.isLt
  omega

theorem word_first (a : Column) : word a &&& 0xFF = a.r0.setWidth 32 := by
  have h := toNat_shiftRight_and (word a) 0
  rw [BitVec.ushiftRight_zero] at h
  apply BitVec.eq_of_toNat_eq
  rw [h, toNat_setWidth, toNat_word]
  have := a.r0.isLt
  omega

theorem word_second (a : Column) : word a >>> 8 &&& 0xFF = a.r1.setWidth 32 := by
  apply BitVec.eq_of_toNat_eq
  rw [toNat_shiftRight_and, toNat_setWidth, toNat_word]
  omega

theorem word_third (a : Column) : word a >>> 16 &&& 0xFF = a.r2.setWidth 32 := by
  apply BitVec.eq_of_toNat_eq
  rw [toNat_shiftRight_and, toNat_setWidth, toNat_word]
  omega

theorem word_fourth (a : Column) : word a >>> 24 = a.r3.setWidth 32 := by
  apply BitVec.eq_of_toNat_eq
  rw [BitVec.toNat_ushiftRight, Nat.shiftRight_eq_div_pow, toNat_setWidth, toNat_word]
  omega

/-- The share of one byte in a word. -/
theorem toNat_shiftLeft (b : Byte) {k : ℕ} (hk : k ≤ 24) :
    (b.setWidth 32 <<< k).toNat = b.toNat * 2 ^ k := by
  rw [BitVec.toNat_shiftLeft, Nat.shiftLeft_eq, toNat_setWidth]
  apply Nat.mod_eq_of_lt
  calc
    b.toNat * 2 ^ k < 2 ^ 8 * 2 ^ k := Nat.mul_lt_mul_of_pos_right b.isLt (Nat.two_pow_pos k)
    _ ≤ 2 ^ 8 * 2 ^ 24 := Nat.mul_le_mul_left _ (Nat.pow_le_pow_right two_pos hk)

/-- A word put together from its bytes. -/
theorem word_mk (b0 b1 b2 b3 : Byte) :
    word ⟨b0, b1, b2, b3⟩ = b0.setWidth 32 ^^^ b1.setWidth 32 <<< 8 ^^^ b2.setWidth 32 <<< 16 ^^^
      b3.setWidth 32 <<< 24 := by
  have h0 : word ⟨b0, 0, 0, 0⟩ = b0.setWidth 32 := by
    apply BitVec.eq_of_toNat_eq
    rw [toNat_word, toNat_setWidth]
    simp
  have h1 : word ⟨0, b1, 0, 0⟩ = b1.setWidth 32 <<< 8 := by
    apply BitVec.eq_of_toNat_eq
    rw [toNat_word, toNat_shiftLeft b1 (by decide)]
    simp [mul_comm]
  have h2 : word ⟨0, 0, b2, 0⟩ = b2.setWidth 32 <<< 16 := by
    apply BitVec.eq_of_toNat_eq
    rw [toNat_word, toNat_shiftLeft b2 (by decide)]
    simp
    omega
  have h3 : word ⟨0, 0, 0, b3⟩ = b3.setWidth 32 <<< 24 := by
    apply BitVec.eq_of_toNat_eq
    rw [toNat_word, toNat_shiftLeft b3 (by decide)]
    simp
    omega
  rw [← h0, ← h1, ← h2, ← h3, ← word_xor, ← word_xor, ← word_xor]
  simp [column_xor]

theorem loadLE_eq (bytes : List UInt8) (offset : ℕ) :
    loadLE 32 bytes offset = word (.ofBytes bytes offset) := by
  have hbyte (k : ℕ) : (byteAt bytes (offset + k)).toBitVec.toNat =
      leNat bytes / 256 ^ offset / 256 ^ k % 256 := by
    rw [Nat.div_div_eq_div_mul, ← pow_add, ← byteAt_toNat]
    rfl
  apply BitVec.eq_of_toNat_eq
  rw [toNat_word, Column.ofBytes, hbyte 1, hbyte 2, hbyte 3, loadLE, BitVec.toNat_ofNat,
    leNat_take, leNat_drop]
  have h0 := hbyte 0
  rw [add_zero] at h0
  rw [h0]
  generalize leNat bytes / 256 ^ offset = n
  norm_num
  omega

theorem storeLE_eq (a : Column) : storeLE (word a) = a.toBytes := by
  have h0 := a.r0.isLt
  have h1 := a.r1.isLt
  have h2 := a.r2.isLt
  have h3 := a.r3.isLt
  have hbyte {n : ℕ} {b : Byte} (h : n % 256 = b.toNat) : UInt8.ofNat n = ⟨b⟩ := by
    apply UInt8.toNat_inj.mp
    rw [UInt8.toNat_ofNat']
    exact h
  have hbytes : storeLE (word a) = leBytes 4 (word a).toNat := rfl
  rw [hbytes, toNat_word, Column.toBytes]
  simp only [leBytes]
  rw [hbyte (b := a.r0) (by omega), hbyte (b := a.r1) (by omega), hbyte (b := a.r2) (by omega),
    hbyte (b := a.r3) (by omega)]

/-! ## The tables -/

theorem sboxTable_eq : sboxTable = (List.range 256).map fun n => sBox (.ofNat 8 n) := by
  decide +kernel

/-- The shares of a byte in a mixed column, from the first row to the fourth. -/
theorem encTable_eq :
    encTable = sboxTable.map (fun s => word ⟨times 2 s, s, s, times 3 s⟩) ∧
    encTable.map (·.rotateRight 24) = sboxTable.map (fun s => word ⟨times 3 s, times 2 s, s, s⟩) ∧
    encTable.map (·.rotateRight 16) = sboxTable.map (fun s => word ⟨s, times 3 s, times 2 s, s⟩) ∧
    encTable.map (·.rotateRight 8) = sboxTable.map
      (fun s => word ⟨s, s, times 3 s, times 2 s⟩) := by
  decide +kernel

theorem sboxTable_getElem? (b : Byte) : sboxTable[b.toNat]? = some (sBox b) := by
  rw [sboxTable_eq, List.getElem?_map, List.getElem?_range b.isLt, Option.map_some,
    BitVec.ofNat_toNat, BitVec.setWidth_eq]

theorem sbox_eq (b : Byte) : sbox (b.setWidth 32) = (sBox b).setWidth 32 := by
  rw [sbox, toNat_setWidth, List.getD_eq_getElem?_getD, sboxTable_getElem?, Option.getD_some]

/-- An entry of a rotated table. -/
theorem enc_of_map {f : BitVec 32 → BitVec 32} {g : Byte → BitVec 32}
    (h : encTable.map f = sboxTable.map g) (b : Byte) : f (enc (b.setWidth 32)) = g (sBox b) := by
  have hentry : (encTable.map f)[b.toNat]? = (sboxTable.map g)[b.toNat]? := by rw [h]
  rw [List.getElem?_map, List.getElem?_map, sboxTable_getElem?, Option.map_some,
    Option.map_eq_some_iff] at hentry
  obtain ⟨entry, hget, hvalue⟩ := hentry
  rw [enc, toNat_setWidth, List.getD_eq_getElem?_getD, hget, Option.getD_some, hvalue]

/-! ## The rounds -/

/-- A state as the code holds it. -/
def block (s : State) : Block := ⟨word s.c0, word s.c1, word s.c2, word s.c3⟩

/-- The four table entries of a column make up the mixed column of the substituted bytes. -/
theorem enc_column (b0 b1 b2 b3 : Byte) :
    enc (b0.setWidth 32) ^^^ (enc (b1.setWidth 32)).rotateRight 24 ^^^
      (enc (b2.setWidth 32)).rotateRight 16 ^^^ (enc (b3.setWidth 32)).rotateRight 8 =
        word (mixColumn ⟨sBox b0, sBox b1, sBox b2, sBox b3⟩) := by
  obtain ⟨h0, h1, h2, h3⟩ := encTable_eq
  rw [enc_of_map h1, enc_of_map h2, enc_of_map h3]
  rw [← List.map_id encTable] at h0
  have hfirst : enc (b0.setWidth 32) = _ := enc_of_map h0 b0
  rw [hfirst, ← word_xor, ← word_xor, ← word_xor]
  rfl

theorem sbox_column (b0 b1 b2 b3 : Byte) :
    sbox (b0.setWidth 32) ^^^ sbox (b1.setWidth 32) <<< 8 ^^^ sbox (b2.setWidth 32) <<< 16 ^^^
      sbox (b3.setWidth 32) <<< 24 = word ⟨sBox b0, sBox b1, sBox b2, sBox b3⟩ := by
  rw [sbox_eq, sbox_eq, sbox_eq, sbox_eq, word_mk]

/-- A column of the last round. -/
theorem sbox_column_xor (key b0 b1 b2 b3 : BitVec 32) :
    key ^^^ sbox b0 ^^^ sbox b1 <<< 8 ^^^ sbox b2 <<< 16 ^^^ sbox b3 <<< 24 =
      (sbox b0 ^^^ sbox b1 <<< 8 ^^^ sbox b2 <<< 16 ^^^ sbox b3 <<< 24) ^^^ key := by
  rw [BitVec.xor_comm _ key, ← BitVec.xor_assoc, ← BitVec.xor_assoc, ← BitVec.xor_assoc]

variable {roundKeys : List (BitVec 32)} {w : ℕ → Column} {Nr : ℕ}

/-- The round keys are the words of the schedule. -/
def Keys (roundKeys : List (BitVec 32)) (w : ℕ → Column) (Nr : ℕ) : Prop :=
  ∀ i < 4 * (Nr + 1), roundKeys.getD i 0 = word (w i)

/-- An iteration of the loop is a round. -/
theorem round_eq (hkeys : Keys roundKeys w Nr) {j : ℕ} (hj : j ≤ Nr) (s : State) :
    round roundKeys (4 * j) (block s) =
      block (addRoundKey w j (mixColumns (shiftRows (subBytes s)))) := by
  unfold round block
  simp only [word_first, word_second, word_third, word_fourth, enc_column]
  rw [hkeys (4 * j) (by omega), hkeys (4 * j + 1) (by omega), hkeys (4 * j + 2) (by omega),
    hkeys (4 * j + 3) (by omega), ← word_xor, ← word_xor, ← word_xor, ← word_xor]
  rfl

/-- `aes_rounds` is the cipher of the standard. -/
theorem rounds_eq (hkeys : Keys roundKeys w Nr) (hNr : 0 < Nr) (input : List UInt8) :
    rounds input roundKeys (4 * Nr) = cipher Nr w input := by
  have hstart : (⟨loadLE 32 input 0 ^^^ roundKeys.getD 0 0,
    loadLE 32 input 4 ^^^ roundKeys.getD 1 0,
      loadLE 32 input 8 ^^^ roundKeys.getD 2 0, loadLE 32 input 12 ^^^ roundKeys.getD 3 0⟩ :
        Block) =
        block (addRoundKey w 0 (.ofBytes input)) := by
    rw [loadLE_eq, loadLE_eq, loadLE_eq, loadLE_eq, hkeys 0 (by omega), hkeys 1 (by omega),
      hkeys 2 (by omega), hkeys 3 (by omega), ← word_xor, ← word_xor, ← word_xor, ← word_xor]
    rfl
  have hloop (n : ℕ) (hn : n ≤ Nr) (s : State) :
      (List.range n).foldl (fun x j => round roundKeys (4 * (j + 1)) x) (block s) =
        block ((List.range n).foldl (fun s i =>
          addRoundKey w (i + 1) (mixColumns (shiftRows (subBytes s)))) s) := by
    induction n with
    | zero => rfl
    | succ n ih =>
        rw [List.range_succ, List.foldl_append, List.foldl_append, ih (by omega)]
        exact round_eq hkeys (by omega) _
  have hcount : (4 * Nr - 1) / 4 = Nr - 1 := by omega
  unfold rounds cipher
  simp only
  rw [hstart, hcount, hloop (Nr - 1) (by omega)]
  generalize (List.range (Nr - 1)).foldl _ _ = s
  simp only [block, word_first, word_second, word_third, word_fourth, sbox_column_xor, sbox_column]
  rw [hkeys (4 * Nr) (by omega), hkeys (4 * Nr + 1) (by omega), hkeys (4 * Nr + 2) (by omega),
    hkeys (4 * Nr + 3) (by omega), ← word_xor, ← word_xor, ← word_xor, ← word_xor, storeLE_eq,
    storeLE_eq, storeLE_eq, storeLE_eq]
  rfl

/-! ## The key schedules -/

theorem xor_reverse (a b c d : BitVec 32) : d ^^^ c ^^^ b ^^^ a = a ^^^ b ^^^ c ^^^ d := by
  ac_rfl

theorem subRotated_eq (a : Column) : subRotated (word a) = word (subWord (rotWord a)) := by
  rw [subRotated, word_first, word_second, word_third, word_fourth, xor_reverse]
  exact sbox_column a.r1 a.r2 a.r3 a.r0

section KeyExpansion

variable (keyLength : KeyLength) (key : List UInt8)

theorem w_key {i : ℕ} (hi : i < keyLength.Nk) : keyLength.w key i = .ofBytes key (4 * i) := by
  rw [KeyLength.w, if_pos hi]

/-- The word at a multiple of the key length. -/
theorem w_first (n : ℕ) : keyLength.w key (keyLength.Nk * (n + 1)) =
    keyLength.w key (keyLength.Nk * n) ^^^
      (subWord (rotWord (keyLength.w key (keyLength.Nk * (n + 1) - 1))) ^^^ rcon (n + 1)) := by
  have hpos := keyLength.Nk_pos
  have hge : ¬ keyLength.Nk * (n + 1) < keyLength.Nk := by
    rw [Nat.mul_add]
    omega
  rw [KeyLength.w, if_neg hge]
  simp only [Nat.mul_mod_right, if_true, Nat.mul_div_cancel_left _ hpos]
  rw [Nat.mul_add, Nat.mul_one, Nat.add_sub_cancel]

/-- A word that is not substituted. -/
theorem w_next (n : ℕ) {k : ℕ} (hk : k + 1 < keyLength.Nk)
    (hmiddle : ¬ (6 < keyLength.Nk ∧ k + 1 = 4)) :
    keyLength.w key (keyLength.Nk * (n + 1) + (k + 1)) =
      keyLength.w key (keyLength.Nk * n + (k + 1)) ^^^
        keyLength.w key (keyLength.Nk * (n + 1) + k) := by
  have hsub : keyLength.Nk * (n + 1) + (k + 1) - keyLength.Nk = keyLength.Nk * n + (k + 1) := by
    rw [Nat.mul_add]
    omega
  rw [KeyLength.w, if_neg (by rw [Nat.mul_add]; omega)]
  simp only [Nat.mul_add_mod, Nat.mod_eq_of_lt hk, hmiddle, hsub, Nat.add_one_ne_zero, if_false]
  rfl

/-- The word in the middle of a long key. -/
theorem w_middle (n : ℕ) (hlong : 6 < keyLength.Nk) :
    keyLength.w key (keyLength.Nk * (n + 1) + 4) = keyLength.w key (keyLength.Nk * n + 4) ^^^
      subWord (keyLength.w key (keyLength.Nk * (n + 1) + 3)) := by
  have hsub : keyLength.Nk * (n + 1) + 4 - keyLength.Nk = keyLength.Nk * n + 4 := by
    rw [Nat.mul_add]
    omega
  have hmod : 4 % keyLength.Nk = 4 := Nat.mod_eq_of_lt (by omega)
  rw [KeyLength.w, if_neg (by rw [Nat.mul_add]; omega)]
  simp only [Nat.mul_add_mod, hmod, hsub, hlong]
  rfl

end KeyExpansion

/-- The words written so far. -/
def written (w : ℕ → Column) (n : ℕ) : List (BitVec 32) := (List.range n).map fun i => word (w i)

theorem written_append (w : ℕ → Column) (n : ℕ) :
    written w n ++ [word (w n), word (w (n + 1)), word (w (n + 2)), word (w (n + 3))] =
      written w (n + 4) := by
  simp [written, List.range_succ]

theorem keys_written (w : ℕ → Column) (Nr : ℕ) : Keys (written w (4 * (Nr + 1))) w Nr := by
  intro i hi
  rw [written, List.getD_eq_getElem?_getD, List.getElem?_map, List.getElem?_range hi]
  rfl

/-! ### `aes128_block` -/

variable {key : List UInt8}

/-- The variables after `n` iterations. -/
structure Key128.Holds (s : Key128) (w : ℕ → Column) (n : ℕ) : Prop where
  temp0 : s.temp0 = word (w (4 * n))
  temp1 : s.temp1 = word (w (4 * n + 1))
  temp2 : s.temp2 = word (w (4 * n + 2))
  temp3 : s.temp3 = word (w (4 * n + 3))
  pow : s.pow = word (rcon (n + 1))
  roundKeys : s.roundKeys = written w (4 * (n + 1))

theorem key128Init_holds (key : List UInt8) : (key128Init key).Holds
    (KeyLength.aes128.w key) 0 := by
  have hw (i : ℕ) (hi : i < 4) : loadLE 32 key (4 * i) = word (KeyLength.aes128.w key i) := by
    rw [w_key _ _ hi, loadLE_eq]
  have h0 := hw 0 (by decide)
  have h1 := hw 1 (by decide)
  have h2 := hw 2 (by decide)
  have h3 := hw 3 (by decide)
  refine ⟨h0, h1, h2, h3, rfl, ?_⟩
  simp only [key128Init]
  rw [← written_append, ← h0, ← h1, ← h2, ← h3]
  rfl

theorem key128Step_holds {s : Key128} {n : ℕ} (h : s.Holds (KeyLength.aes128.w key) n)
    (hn : n < 10) :
    (key128Step (4 * (n + 1)) s).Holds (KeyLength.aes128.w key) (n + 1) := by
  have hfirst : KeyLength.aes128.w key (4 * (n + 1)) = KeyLength.aes128.w key (4 * n) ^^^
      (subWord (rotWord (KeyLength.aes128.w key (4 * n + 3))) ^^^ rcon (n + 1)) :=
    w_first .aes128 key n
  have hnext (k : ℕ) (hk : k + 1 < 4) : KeyLength.aes128.w key (4 * (n + 1) + (k + 1)) =
      KeyLength.aes128.w key (4 * n + (k + 1)) ^^^ KeyLength.aes128.w key (4 * (n + 1) + k) :=
    w_next .aes128 key n hk (by simp [KeyLength.Nk])
  have h0 : (key128Step (4 * (n + 1)) s).temp0 = word (KeyLength.aes128.w key (4 * (n + 1))) := by
    rw [hfirst, word_xor, word_xor, ← subRotated_eq, ← h.temp0, ← h.temp3, ← h.pow,
      BitVec.xor_comm (subRotated _)]
    rfl
  have h1 : (key128Step (4 * (n + 1)) s).temp1 = word
    (KeyLength.aes128.w key (4 * (n + 1) + 1)) := by
    rw [hnext 0 (by decide), word_xor, add_zero, ← h.temp1, ← h0]
    rfl
  have h2 : (key128Step (4 * (n + 1)) s).temp2 = word
    (KeyLength.aes128.w key (4 * (n + 1) + 2)) := by
    rw [hnext 1 (by decide), word_xor, ← h.temp2, ← h1]
    rfl
  have h3 : (key128Step (4 * (n + 1)) s).temp3 = word
    (KeyLength.aes128.w key (4 * (n + 1) + 3)) := by
    rw [hnext 2 (by decide), word_xor, ← h.temp3, ← h2]
    rfl
  refine ⟨h0, h1, h2, h3, ?_, ?_⟩
  · have hpow : ∀ n : Fin 10, (if 4 * (n.val + 1) = 32 then (0x1B : BitVec 32) else word
      (rcon (n + 1)) <<< 1) =
        word (rcon (n + 1 + 1)) := by decide
    have hstep : (key128Step (4 * (n + 1)) s).pow =
        if 4 * (n + 1) = 32 then (0x1B : BitVec 32) else s.pow <<< 1 := rfl
    rw [hstep, h.pow]
    exact hpow ⟨n, hn⟩
  · rw [Nat.mul_add 4 (n + 1) 1, ← written_append, ← h.roundKeys, ← h0, ← h1, ← h2, ← h3]
    rfl

theorem expandKey128_eq (key : List UInt8) :
    expandKey128 key = written (KeyLength.aes128.w key) 44 := by
  have hloop (n : ℕ) (hn : n ≤ 10) : ((List.range n).foldl
      (fun s j => key128Step (4 * (j + 1)) s) (key128Init key)).Holds
        (KeyLength.aes128.w key) n := by
    induction n with
    | zero => exact key128Init_holds key
    | succ n ih =>
        rw [List.range_succ, List.foldl_append]
        exact key128Step_holds (ih (by omega)) (by omega)
  exact (hloop 10 le_rfl).roundKeys

/-! ### `aes256_block` -/

/-- The variables after `n` iterations. -/
structure Key256.Holds (s : Key256) (w : ℕ → Column) (n : ℕ) : Prop where
  temp0 : s.temp0 = word (w (8 * n))
  temp1 : s.temp1 = word (w (8 * n + 1))
  temp2 : s.temp2 = word (w (8 * n + 2))
  temp3 : s.temp3 = word (w (8 * n + 3))
  temp4 : s.temp4 = word (w (8 * n + 4))
  temp5 : s.temp5 = word (w (8 * n + 5))
  temp6 : s.temp6 = word (w (8 * n + 6))
  temp7 : s.temp7 = word (w (8 * n + 7))
  pow : s.pow = word (rcon (n + 1))
  roundKeys : s.roundKeys = written w (8 * (n + 1))

/-- The variables at the exit in iteration `n + 1`. -/
structure Key256.HoldsFirst (s : Key256) (w : ℕ → Column) (n : ℕ) : Prop where
  temp0 : s.temp0 = word (w (8 * (n + 1)))
  temp1 : s.temp1 = word (w (8 * (n + 1) + 1))
  temp2 : s.temp2 = word (w (8 * (n + 1) + 2))
  temp3 : s.temp3 = word (w (8 * (n + 1) + 3))
  temp4 : s.temp4 = word (w (8 * n + 4))
  temp5 : s.temp5 = word (w (8 * n + 5))
  temp6 : s.temp6 = word (w (8 * n + 6))
  temp7 : s.temp7 = word (w (8 * n + 7))
  pow : s.pow = word (rcon (n + 2))
  roundKeys : s.roundKeys = written w (8 * (n + 1) + 4)

theorem key256Init_holds (key : List UInt8) : (key256Init key).Holds
    (KeyLength.aes256.w key) 0 := by
  have hw (i : ℕ) (hi : i < 8) : loadLE 32 key (4 * i) = word (KeyLength.aes256.w key i) := by
    rw [w_key _ _ hi, loadLE_eq]
  have h0 := hw 0 (by decide)
  have h1 := hw 1 (by decide)
  have h2 := hw 2 (by decide)
  have h3 := hw 3 (by decide)
  have h4 := hw 4 (by decide)
  have h5 := hw 5 (by decide)
  have h6 := hw 6 (by decide)
  have h7 := hw 7 (by decide)
  refine ⟨h0, h1, h2, h3, h4, h5, h6, h7, rfl, ?_⟩
  simp only [key256Init]
  rw [← written_append, ← written_append, ← h0, ← h1, ← h2, ← h3, ← h4, ← h5, ← h6, ← h7]
  rfl

/-- A word of the long key schedule that is not substituted. -/
theorem w_next_256 (key : List UInt8) (n k : ℕ) (hk : k + 1 < 8) (hmiddle : k + 1 ≠ 4) :
    KeyLength.aes256.w key (8 * (n + 1) + (k + 1)) =
      KeyLength.aes256.w key (8 * n + (k + 1)) ^^^ KeyLength.aes256.w key (8 * (n + 1) + k) :=
  w_next .aes256 key n hk fun h => hmiddle h.2

theorem key256First_holds {s : Key256} {n : ℕ} (h : s.Holds (KeyLength.aes256.w key) n)
    (hn : n < 7) :
    (key256First s).HoldsFirst (KeyLength.aes256.w key) n := by
  have hfirst : KeyLength.aes256.w key (8 * (n + 1)) = KeyLength.aes256.w key (8 * n) ^^^
      (subWord (rotWord (KeyLength.aes256.w key (8 * n + 7))) ^^^ rcon (n + 1)) :=
    w_first .aes256 key n
  have h0 : (key256First s).temp0 = word (KeyLength.aes256.w key (8 * (n + 1))) := by
    rw [hfirst, word_xor, word_xor, ← subRotated_eq, ← h.temp0, ← h.temp7, ← h.pow,
      BitVec.xor_comm (subRotated _)]
    rfl
  have h1 : (key256First s).temp1 = word (KeyLength.aes256.w key (8 * (n + 1) + 1)) := by
    rw [w_next_256 key n 0 (by decide) (by decide), word_xor, add_zero, ← h.temp1, ← h0]
    rfl
  have h2 : (key256First s).temp2 = word (KeyLength.aes256.w key (8 * (n + 1) + 2)) := by
    rw [w_next_256 key n 1 (by decide) (by decide), word_xor, ← h.temp2, ← h1]
    rfl
  have h3 : (key256First s).temp3 = word (KeyLength.aes256.w key (8 * (n + 1) + 3)) := by
    rw [w_next_256 key n 2 (by decide) (by decide), word_xor, ← h.temp3, ← h2]
    rfl
  refine ⟨h0, h1, h2, h3, h.temp4, h.temp5, h.temp6, h.temp7, ?_, ?_⟩
  · have hpow : ∀ n : Fin 7, word (rcon (n + 1)) <<< 1 = word (rcon (n + 2)) := by decide
    have hstep : (key256First s).pow = s.pow <<< 1 := rfl
    rw [hstep, h.pow]
    exact hpow ⟨n, hn⟩
  · rw [← written_append, ← h.roundKeys, ← h0, ← h1, ← h2, ← h3]
    rfl

theorem key256Second_holds {s : Key256} {n : ℕ} (h : s.HoldsFirst (KeyLength.aes256.w key) n) :
    (key256Second s).Holds (KeyLength.aes256.w key) (n + 1) := by
  have hmiddle : KeyLength.aes256.w key (8 * (n + 1) + 4) = KeyLength.aes256.w key (8 * n + 4) ^^^
      subWord (KeyLength.aes256.w key (8 * (n + 1) + 3)) :=
    w_middle .aes256 key n (by decide)
  have h4 : (key256Second s).temp4 = word (KeyLength.aes256.w key (8 * (n + 1) + 4)) := by
    have hstep : (key256Second s).temp4 = s.temp4 ^^^ (sbox (s.temp3 >>> 24) <<< 24 ^^^
      sbox ((s.temp3 >>> 16) &&& 0xFF) <<< 16 ^^^ sbox ((s.temp3 >>> 8) &&& 0xFF) <<< 8 ^^^
      sbox (s.temp3 &&& 0xFF)) := rfl
    rw [hstep, hmiddle, word_xor, h.temp4, h.temp3, word_first, word_second, word_third,
      word_fourth, xor_reverse, sbox_column]
    rfl
  have h5 : (key256Second s).temp5 = word (KeyLength.aes256.w key (8 * (n + 1) + 5)) := by
    rw [w_next_256 key n 4 (by decide) (by decide), word_xor, ← h.temp5, ← h4]
    rfl
  have h6 : (key256Second s).temp6 = word (KeyLength.aes256.w key (8 * (n + 1) + 6)) := by
    rw [w_next_256 key n 5 (by decide) (by decide), word_xor, ← h.temp6, ← h5]
    rfl
  have h7 : (key256Second s).temp7 = word (KeyLength.aes256.w key (8 * (n + 1) + 7)) := by
    rw [w_next_256 key n 6 (by decide) (by decide), word_xor, ← h.temp7, ← h6]
    rfl
  refine ⟨h.temp0, h.temp1, h.temp2, h.temp3, h4, h5, h6, h7, h.pow, ?_⟩
  rw [Nat.mul_add 8 (n + 1) 1, mul_one, show 8 * (n + 1) + 8 = 8 * (n + 1) + 4 + 4 from rfl,
    ← written_append, ← h.roundKeys, ← h4, ← h5, ← h6, ← h7]
  rfl

/-- The loop leaves in its seventh iteration, whatever the fuel beyond that. -/
theorem key256Loop_roundKeys {s : Key256} {n fuel : ℕ} (h : s.Holds (KeyLength.aes256.w key) n)
    (hn : n ≤ 6) (hfuel : 7 ≤ n + fuel) :
    (key256Loop fuel (8 * (n + 1)) s).roundKeys = written (KeyLength.aes256.w key) 60 := by
  induction fuel generalizing s n with
  | zero => omega
  | succ fuel ih =>
      have hfirst := key256First_holds h (by omega)
      unfold key256Loop
      simp only
      split
      next hexit =>
        rw [hfirst.roundKeys, hexit]
      next hexit =>
        exact ih (key256Second_holds hfirst) (by omega) (by omega)

theorem expandKey256_eq (key : List UInt8) :
    expandKey256 key = written (KeyLength.aes256.w key) 60 :=
  key256Loop_roundKeys (n := 0) (key256Init_holds key) (by decide) (by decide)

/-- The key schedules write the round keys of the standard, and the blocks are encrypted as
the standard says. -/
theorem blocks_eq_fips197 (block : Bytes 16) (key128 : Bytes 16) (key256 : Bytes 32) :
    (expandKey128 key128.toList = written (KeyLength.aes128.w key128.toList) 44 ∧
      aes128Block block.toList key128.toList = aes128 key128.toList block.toList) ∧
    (expandKey256 key256.toList = written (KeyLength.aes256.w key256.toList) 60 ∧
      aes256Block block.toList key256.toList = aes256 key256.toList block.toList) := by
  refine ⟨⟨expandKey128_eq _, ?_⟩, ⟨expandKey256_eq _, ?_⟩⟩
  · rw [aes128Block, expandKey128_eq]
    exact rounds_eq (keys_written _ 10) (by decide) block.toList
  · rw [aes256Block, expandKey256_eq]
    exact rounds_eq (keys_written _ 14) (by decide) block.toList

end Hc.Aes
