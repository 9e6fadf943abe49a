import Hc.Foundation.Bytes
import Hc.Foundation.Memory
import Hc.Core.Util

/-!
# Base 64

`hc/core/hc/base64.c`: three bytes are four characters of the table, and what is missing of the last
three bytes is marked by `=`. `base64_encode` reads and writes the same memory; the input may stand
at the end of the output.
-/

namespace Hc.Base64

open Memory

/-- `base64_table`. -/
def table : List UInt8 := ascii "ABCDEFGHIJKLMNOPQRSTUVWXYZabcdefghijklmnopqrstuvwxyz0123456789+/"

/-- The character of a number below 64. -/
def char (index : ℕ) : UInt8 := byteAt table index

/-- `base64_ENCODE_SIZE`. -/
def encodeSize (inputSize : ℕ) : ℕ := (inputSize + 2) / 3 * 4

/-- The four stores of the loop of `base64_encode`, one after the other. -/
def storeGroup (mem : ℕ → UInt8) (out : ℕ) (c0 c1 c2 c3 : UInt8) : ℕ → UInt8 :=
  Function.update (Function.update (Function.update (Function.update mem out c0) (out + 1) c1)
    (out + 2) c2) (out + 3) c3

/-- `base64_encode`: the addresses of the output and the input, and the number of bytes left. In the
last group the first character is stored before the second byte is loaded. -/
def encode (mem : ℕ → UInt8) (out input : ℕ) : ℕ → ℕ → UInt8
  | 0 => mem
  | 1 =>
    let input0 := (mem input).toNat
    storeGroup mem out (char (input0 >>> 2)) (char ((input0 &&& 0x3) <<< 4)) 61 61
  | 2 =>
    let input0 := (mem input).toNat
    let input1 := (Function.update mem out (char (input0 >>> 2)) (input + 1)).toNat
    storeGroup mem out (char (input0 >>> 2)) (char (((input0 &&& 0x3) <<< 4) ||| (input1 >>> 4)))
      (char ((input1 &&& 0xF) <<< 2)) 61
  | remaining + 3 =>
    let input0 := (mem input).toNat
    let input1 := (mem (input + 1)).toNat
    let input2 := (mem (input + 2)).toNat
    encode
      (storeGroup mem out (char (input0 >>> 2)) (char (((input0 &&& 0x3) <<< 4) ||| (input1 >>> 4)))
        (char (((input1 &&& 0xF) <<< 2) ||| (input2 >>> 6))) (char (input2 &&& 0x3F)))
      (out + 4) (input + 3) remaining

/-! ## What the characters are -/

/-- The number that a group of three bytes is. -/
def groupValue (b0 b1 b2 : UInt8) : ℕ := b0.toNat * 2 ^ 16 + b1.toNat * 2 ^ 8 + b2.toNat

/-- Digit `i` of a group in base 64, the most significant being digit 3. -/
def sextet (value i : ℕ) : UInt8 := char (value / 64 ^ i % 64)

/-- The base 64 encoding of a byte string. -/
def encoding : List UInt8 → List UInt8
  | b0 :: b1 :: b2 :: rest =>
    let value := groupValue b0 b1 b2
    sextet value 3 :: sextet value 2 :: sextet value 1 :: sextet value 0 :: encoding rest
  | [b0, b1] =>
    let value := groupValue b0 b1 0
    [sextet value 3, sextet value 2, sextet value 1, 61]
  | [b0] =>
    let value := groupValue b0 0 0
    [sextet value 3, sextet value 2, 61, 61]
  | [] => []

theorem length_encoding (bytes : List UInt8) :
    (encoding bytes).length = encodeSize bytes.length := by
  fun_induction encoding bytes with
  | case1 b0 b1 b2 rest value ih =>
      simp only [List.length_cons, ih, encodeSize]
      omega
  | case2 b0 b1 => simp [encodeSize]
  | case3 b0 => simp [encodeSize]
  | case4 => rfl

theorem le_encodeSize (n : ℕ) : n ≤ encodeSize n := by
  unfold encodeSize
  omega

section Digits

variable (b0 b1 b2 : UInt8)

theorem sextet_three : char (b0.toNat >>> 2) = sextet (groupValue b0 b1 b2) 3 := by
  have h0 := b0.toNat_lt
  have h1 := b1.toNat_lt
  have h2 := b2.toNat_lt
  rw [sextet, groupValue, Nat.shiftRight_eq_div_pow]
  congr 1
  omega

theorem sextet_two : char (((b0.toNat &&& 0x3) <<< 4) ||| (b1.toNat >>> 4)) =
    sextet (groupValue b0 b1 b2) 2 := by
  have h0 := b0.toNat_lt
  have h1 := b1.toNat_lt
  have h2 := b2.toNat_lt
  have hlow : b1.toNat >>> 4 < 2 ^ 4 := by
    rw [Nat.shiftRight_eq_div_pow]
    omega
  rw [sextet, groupValue, ← Nat.shiftLeft_add_eq_or_of_lt hlow,
    show (0x3 : ℕ) = 2 ^ 2 - 1 from rfl, Nat.and_two_pow_sub_one_eq_mod, Nat.shiftLeft_eq,
    Nat.shiftRight_eq_div_pow]
  congr 1
  omega

theorem sextet_one : char (((b1.toNat &&& 0xF) <<< 2) ||| (b2.toNat >>> 6)) =
    sextet (groupValue b0 b1 b2) 1 := by
  have h0 := b0.toNat_lt
  have h1 := b1.toNat_lt
  have h2 := b2.toNat_lt
  have hlow : b2.toNat >>> 6 < 2 ^ 2 := by
    rw [Nat.shiftRight_eq_div_pow]
    omega
  rw [sextet, groupValue, ← Nat.shiftLeft_add_eq_or_of_lt hlow,
    show (0xF : ℕ) = 2 ^ 4 - 1 from rfl, Nat.and_two_pow_sub_one_eq_mod, Nat.shiftLeft_eq,
    Nat.shiftRight_eq_div_pow]
  congr 1
  omega

theorem sextet_zero : char (b2.toNat &&& 0x3F) = sextet (groupValue b0 b1 b2) 0 := by
  have h2 := b2.toNat_lt
  rw [sextet, groupValue, show (0x3F : ℕ) = 2 ^ 6 - 1 from rfl, Nat.and_two_pow_sub_one_eq_mod]
  congr 1
  omega

end Digits

/-! ## Decoding -/

/-- The number of a character of the table. -/
def digit (c : UInt8) : Option ℕ := table.findIdx? (· == c)

/-- The decoder of RFC 4648: only the last group may be padded, and the bits that its last digit
has too many must be zero. -/
def decode : List UInt8 → Option (List UInt8)
  | c0 :: c1 :: c2 :: c3 :: rest => do
    let d0 ← digit c0
    let d1 ← digit c1
    if rest = [] ∧ c3 = 61 ∧ c2 = 61 then
      if d1 % 16 = 0 then some [UInt8.ofNat (d0 * 4 + d1 / 16)] else none
    else
      let d2 ← digit c2
      if rest = [] ∧ c3 = 61 then
        if d2 % 4 = 0 then
          some [UInt8.ofNat (d0 * 4 + d1 / 16), UInt8.ofNat (d1 * 16 + d2 / 4)]
        else none
      else
        let d3 ← digit c3
        let bytes ← decode rest
        some (UInt8.ofNat (d0 * 4 + d1 / 16) :: UInt8.ofNat (d1 * 16 + d2 / 4) ::
          UInt8.ofNat (d2 * 64 + d3) :: bytes)
  | [] => some []
  | _ => none

theorem digit_char : ∀ index < 64, digit (char index) = some index ∧ char index ≠ 61 := by
  decide

theorem digit_sextet (value i : ℕ) : digit (sextet value i) = some (value / 64 ^ i % 64) :=
  (digit_char _ (Nat.mod_lt _ (by decide))).1

theorem sextet_ne_padding (value i : ℕ) : sextet value i ≠ 61 :=
  (digit_char _ (Nat.mod_lt _ (by decide))).2

section Groups

variable (b0 b1 b2 : UInt8)

theorem byte_zero : UInt8.ofNat (groupValue b0 b1 b2 / 64 ^ 3 % 64 * 4 +
    groupValue b0 b1 b2 / 64 ^ 2 % 64 / 16) = b0 := by
  have h0 := b0.toNat_lt
  have h1 := b1.toNat_lt
  have h2 := b2.toNat_lt
  rw [← UInt8.toNat_inj, UInt8.toNat_ofNat', groupValue]
  omega

theorem byte_one : UInt8.ofNat (groupValue b0 b1 b2 / 64 ^ 2 % 64 * 16 +
    groupValue b0 b1 b2 / 64 ^ 1 % 64 / 4) = b1 := by
  have h1 := b1.toNat_lt
  have h2 := b2.toNat_lt
  rw [← UInt8.toNat_inj, UInt8.toNat_ofNat', groupValue]
  omega

theorem byte_two : UInt8.ofNat (groupValue b0 b1 b2 / 64 ^ 1 % 64 * 64 +
    groupValue b0 b1 b2 / 64 ^ 0 % 64) = b2 := by
  have h2 := b2.toNat_lt
  rw [← UInt8.toNat_inj, UInt8.toNat_ofNat', groupValue]
  omega

end Groups

section Decode

variable {c0 c1 c2 c3 : UInt8} {d0 d1 d2 d3 : ℕ} (h0 : digit c0 = some d0) (h1 : digit c1 = some d1)
include h0 h1

/-- A group of four digits. -/
theorem decode_group (h2 : digit c2 = some d2) (h3 : digit c3 = some d3) (hne : c3 ≠ 61)
    {rest bytes : List UInt8} (hrest : decode rest = some bytes) :
    decode (c0 :: c1 :: c2 :: c3 :: rest) = some (UInt8.ofNat (d0 * 4 + d1 / 16) ::
      UInt8.ofNat (d1 * 16 + d2 / 4) :: UInt8.ofNat (d2 * 64 + d3) :: bytes) := by
  simp [decode, h0, h1, h2, h3, hne, hrest]

/-- The last group, of three digits. -/
theorem decode_three (h2 : digit c2 = some d2) (hne : c2 ≠ 61) (hzero : d2 % 4 = 0) :
    decode [c0, c1, c2, 61] =
      some [UInt8.ofNat (d0 * 4 + d1 / 16), UInt8.ofNat (d1 * 16 + d2 / 4)] := by
  simp [decode, h0, h1, h2, hne, hzero]

/-- The last group, of two digits. -/
theorem decode_two (hzero : d1 % 16 = 0) :
    decode [c0, c1, 61, 61] = some [UInt8.ofNat (d0 * 4 + d1 / 16)] := by
  simp [decode, h0, h1, hzero]

end Decode

/-- Decoding gives the encoded bytes back. -/
theorem decode_encoding (bytes : List UInt8) : decode (encoding bytes) = some bytes := by
  fun_induction encoding bytes with
  | case1 b0 b1 b2 rest value ih =>
      have hgroup := decode_group (digit_sextet value 3) (digit_sextet value 2)
        (digit_sextet value 1) (digit_sextet value 0) (sextet_ne_padding value 0) ih
      rwa [byte_zero, byte_one, byte_two] at hgroup
  | case2 b0 b1 value =>
      have hzero : value / 64 ^ 1 % 64 % 4 = 0 := by
        simp only [value, groupValue, UInt8.toNat_zero]
        omega
      have hgroup := decode_three (digit_sextet value 3) (digit_sextet value 2)
        (digit_sextet value 1) (sextet_ne_padding value 1) hzero
      rwa [byte_zero, byte_one] at hgroup
  | case3 b0 value =>
      have hzero : value / 64 ^ 2 % 64 % 16 = 0 := by
        simp only [value, groupValue, UInt8.toNat_zero]
        omega
      have hgroup := decode_two (digit_sextet value 3) (digit_sextet value 2) hzero
      rwa [byte_zero] at hgroup
  | case4 => rfl

/-! ## In place -/

theorem storeGroup_eq (mem : ℕ → UInt8) (out : ℕ) (c0 c1 c2 c3 : UInt8) :
    storeGroup mem out c0 c1 c2 c3 = write mem out [c0, c1, c2, c3] := rfl

/-- The input may stand at the end of the room for the output: every byte is loaded before a
character is stored over it. -/
theorem encode_eq_write {mem : ℕ → UInt8} {out input remaining : ℕ}
    (hplace : input + remaining ≤ out ∨ out + encodeSize remaining ≤ input + remaining) :
    encode mem out input remaining = write mem out (encoding (read mem input remaining)) := by
  fun_induction encode mem out input remaining with
  | case1 mem out input => rfl
  | case2 mem out input input0 =>
      rw [storeGroup_eq, sextet_three _ 0 0]
      have htwo := sextet_two (mem input) 0 0
      rw [show (0 : UInt8).toNat >>> 4 = 0 from rfl, Nat.or_zero] at htwo
      rw [htwo]
      rfl
  | case3 mem out input input0 input1 =>
      have hload : input1 = (mem (input + 1)).toNat := by
        have hne : input + 1 ≠ out := by
          rw [encodeSize] at hplace
          omega
        simp only [input1, Function.update_of_ne hne]
      have hone := sextet_one (mem input) (mem (input + 1)) 0
      rw [show (0 : UInt8).toNat >>> 6 = 0 from rfl, Nat.or_zero] at hone
      rw [storeGroup_eq, hload, hone, sextet_three _ (mem (input + 1)) 0, sextet_two _ _ 0]
      rfl
  | case4 mem out input remaining input0 input1 input2 ih =>
      have hsize : encodeSize remaining.succ.succ.succ = encodeSize remaining + 4 := by
        unfold encodeSize
        omega
      have hle := le_encodeSize remaining
      have hkept : ∀ c0 c1 c2 c3, read (write mem out [c0, c1, c2, c3]) (input + 3) remaining =
          read mem (input + 3) remaining := by
        intro c0 c1 c2 c3
        rcases hplace with hfront | hend
        · exact read_write_of_le _ (by omega)
        · exact read_write_of_ge (by simp only [List.length_cons, List.length_nil]; omega)
      rw [ih (by omega), storeGroup_eq, sextet_three _ (mem (input + 1)) (mem (input + 2)),
        sextet_two _ _ (mem (input + 2)), sextet_one (mem input), sextet_zero (mem input)
          (mem (input + 1)), hkept]
      exact (write_append out [_, _, _, _] _).symm

/-- A decoder gets the input back from the characters. They are all that is stored, and the same
wherever the input stands: apart from the output, or in place at the end of it. -/
theorem encode_encodes (bytes : List UInt8) :
    decode (encoding bytes) = some bytes ∧
    (encoding bytes).length = encodeSize bytes.length ∧
    ∀ mem out input, read mem input bytes.length = bytes →
      input + bytes.length ≤ out ∨ out + encodeSize bytes.length ≤ input ∨
        input = out + encodeSize bytes.length - bytes.length →
      read (encode mem out input bytes.length) out (encodeSize bytes.length) = encoding bytes ∧
      ∀ address, address < out ∨ out + encodeSize bytes.length ≤ address →
        encode mem out input bytes.length address = mem address := by
  have hlength := length_encoding bytes
  refine ⟨decode_encoding bytes, hlength, ?_⟩
  intro mem out input hread hplace
  have hle := le_encodeSize bytes.length
  rw [encode_eq_write (by omega), hread]
  refine ⟨read_write_of_length out hlength, ?_⟩
  rintro address (hlt | hge)
  · exact write_of_lt _ hlt
  · exact write_of_ge (by omega)

/-- A test vector of the RFC, encoded in place. -/
theorem encode_encodes_foob : read (encode (byteAt (ascii "\x00\x00\x00\x00foob")) 0 4 4) 0 8 =
    ascii "Zm9vYg==" := by
  have hencoded := (encode_encodes (ascii "foob")).2.2 (byteAt (ascii "\x00\x00\x00\x00foob")) 0 4
    (by decide) (by decide)
  exact hencoded.1.trans (by decide)

end Hc.Base64
