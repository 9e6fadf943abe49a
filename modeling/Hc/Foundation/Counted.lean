import Mathlib.Data.Nat.Digits.Defs
import Hc.Foundation.Bytes

/-!
# Counted byte strings

A byte string behind its length, which is a big-endian number of `k` bytes. A reader that walks over
such strings by offset gets from one to the next with two facts: what it reads of a counted string
that is there, and that what it has read was one. A number that is stored so has no leading zeros.
-/

namespace Hc

/-- A byte string behind its length. -/
def counted (k : ℕ) (bytes : List UInt8) : List UInt8 := beBytes k bytes.length ++ bytes

variable {k : ℕ} {file bytes rest : List UInt8} {offset : ℕ}

@[simp] theorem length_counted (k : ℕ) (bytes : List UInt8) :
    (counted k bytes).length = k + bytes.length := by
  rw [counted, List.length_append, length_beBytes]

/-- The number at an offset. -/
def countAt (k : ℕ) (file : List UInt8) (offset : ℕ) : ℕ := beNat ((file.drop offset).take k)

theorem countAt_lt (k : ℕ) (file : List UInt8) (offset : ℕ) : countAt k file offset < 256 ^ k := by
  have hlength := List.length_take_le k (file.drop offset)
  exact (beNat_lt _).trans_le (Nat.pow_le_pow_right (by decide) hlength)

/-- Numbers that are there are the same if their bytes are. -/
theorem countAt_eq_iff {other : List UInt8} {offset' : ℕ} (h : offset + k ≤ file.length)
    (h' : offset' + k ≤ other.length) : countAt k file offset = countAt k other offset' ↔
      (file.drop offset).take k = (other.drop offset').take k := by
  have hlength : ((file.drop offset).take k).length = k :=
    List.length_take_of_le (by rw [List.length_drop]; omega)
  have hlength' : ((other.drop offset').take k).length = k :=
    List.length_take_of_le (by rw [List.length_drop]; omega)
  constructor
  · intro heq
    rw [← beBytes_beNat ((file.drop offset).take k), hlength, ← countAt, heq, countAt]
    have hbytes := beBytes_beNat ((other.drop offset').take k)
    rwa [hlength'] at hbytes
  · intro heq
    rw [countAt, heq, countAt]

/-- A string is compared by numbers that cover it. -/
theorem take_add_eq_iff {j : ℕ} {other : List UInt8} {offset' : ℕ}
    (h : offset + (j + k) ≤ file.length) (h' : offset' + (j + k) ≤ other.length) :
    (file.drop offset).take (j + k) = (other.drop offset').take (j + k) ↔
      countAt j file offset = countAt j other offset' ∧
      countAt k file (offset + j) = countAt k other (offset' + j) := by
  have hlength : ((file.drop offset).take j).length = ((other.drop offset').take j).length := by
    rw [List.length_take_of_le (by rw [List.length_drop]; omega),
      List.length_take_of_le (by rw [List.length_drop]; omega)]
  rw [countAt_eq_iff (by omega) (by omega), countAt_eq_iff (by omega) (by omega), List.take_add,
    List.take_add, List.drop_drop, List.drop_drop]
  constructor
  · exact fun heq => List.append_inj heq hlength
  · exact fun heq => congrArg₂ (· ++ ·) heq.1 heq.2

/-- A word is the number of its bytes. -/
theorem toNat_loadBE {w : ℕ} (hw : w % 8 = 0) (file : List UInt8) (offset : ℕ) :
    (loadBE w file offset).toNat = countAt (w / 8) file offset := by
  have hlt := countAt_lt (w / 8) file offset
  rw [pow_div_eight hw] at hlt
  rw [loadBE, BitVec.toNat_ofNat, ← countAt, Nat.mod_eq_of_lt hlt]

/-- A counted string that stands at an offset: its length, and where it is found. -/
theorem countAt_of_counted (hshort : bytes.length < 256 ^ k)
    (h : file.drop offset = counted k bytes ++ rest) :
    countAt k file offset = bytes.length ∧ file.drop (offset + k) = bytes ++ rest ∧
      file.drop (offset + k + bytes.length) = rest := by
  rw [counted, List.append_assoc] at h
  have hbytes : file.drop (offset + k) = bytes ++ rest := by
    have hdrop := drop_add_length h
    rwa [length_beBytes] at hdrop
  refine ⟨?_, hbytes, drop_add_length hbytes⟩
  rw [countAt, h, List.take_left' (length_beBytes k _), beNat_beBytes, Nat.mod_eq_of_lt hshort]

/-- What a number and as many bytes behind it are. -/
theorem drop_eq_counted (k : ℕ) (file : List UInt8) (offset : ℕ)
    (h : offset + k + countAt k file offset ≤ file.length) :
    ∃ bytes, bytes.length = countAt k file offset ∧
      file.drop offset = counted k bytes ++ file.drop (offset + k + countAt k file offset) := by
  have hlength : ((file.drop (offset + k)).take (countAt k file offset)).length =
      countAt k file offset :=
    List.length_take_of_le (by rw [List.length_drop]; omega)
  refine ⟨_, hlength, ?_⟩
  have hcount : beBytes k (countAt k file offset) = (file.drop offset).take k := by
    have hbytes := beBytes_beNat ((file.drop offset).take k)
    rwa [List.length_take_of_le (by rw [List.length_drop]; omega)] at hbytes
  have hbehind : (file.drop (offset + k)).take (countAt k file offset) ++
      file.drop (offset + k + countAt k file offset) = (file.drop offset).drop k := by
    rw [List.drop_drop, ← List.drop_drop (i := countAt k file offset), List.take_append_drop]
  rw [counted, hlength, hcount, List.append_assoc, hbehind, List.take_append_drop]

/-! ## Numbers without leading zeros -/

/-- The big-endian bytes of a number, of which the first is not zero. Zero has none. -/
def minimalBytes (n : ℕ) : List UInt8 := ((Nat.digits 256 n).map UInt8.ofNat).reverse

theorem leNat_eq_ofDigits (bytes : List UInt8) :
    leNat bytes = Nat.ofDigits 256 (bytes.map UInt8.toNat) := by
  induction bytes with
  | nil => rfl
  | cons b bytes ih => rw [leNat_cons, ih, List.map_cons, Nat.ofDigits_cons]

/-- A string that does not start with a zero is the shortest one of its number. -/
theorem minimalBytes_beNat_cons {b : UInt8} (rest : List UInt8) (hb : b ≠ 0) :
    minimalBytes (beNat (b :: rest)) = b :: rest := by
  have hdigits : Nat.digits 256 (leNat (b :: rest).reverse) =
      (b :: rest).reverse.map UInt8.toNat := by
    rw [leNat_eq_ofDigits]
    apply Nat.digits_ofDigits 256 (by decide)
    · intro digit hdigit
      obtain ⟨byte, -, rfl⟩ := List.mem_map.mp hdigit
      exact byte.toNat_lt
    · intro _
      simpa [← UInt8.toNat_inj] using hb
  have hbytes : ∀ bytes : List UInt8, (bytes.map UInt8.toNat).map UInt8.ofNat = bytes := by
    intro bytes
    simp [Function.comp_def]
  rw [minimalBytes, beNat, hdigits, hbytes, List.reverse_reverse]

/-- Leading zeros do not change the number. -/
theorem beNat_replicate_zero_append (k : ℕ) (bytes : List UInt8) :
    beNat (List.replicate k 0 ++ bytes) = beNat bytes := by
  rw [beNat, List.reverse_append, List.reverse_replicate, leNat_append, leNat_replicate_zero,
    Nat.mul_zero, Nat.add_zero, beNat]

end Hc
