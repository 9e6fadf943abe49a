import Hc.Core.StrToNumber

/-!
# Texts written of numbers

`util_intToStr`, `util_uintToStr` and `util_uintToHex` of `hc/core/hc/util.c`. They write from
the end of a buffer towards its start and return where the first character is.
-/

namespace Hc.Util

open Memory Numeral

/-- The memory, and `bufferEnd`, in front of which the next character is written. -/
structure Output where
  mem : ℕ → UInt8
  bufferEnd : ℕ

/-- `*--bufferEnd = c`. -/
def Output.push (out : Output) (c : UInt8) : Output :=
  ⟨Function.update out.mem (out.bufferEnd - 1) c, out.bufferEnd - 1⟩

theorem div_ten_lt {number : UInt64} (h : number / 10 ≠ 0) :
    (number / 10).toNat < number.toNat := by
  have hten : (10 : UInt64).toNat = 10 := rfl
  have hne : (number / 10).toNat ≠ 0 := fun hzero => h (UInt64.toNat_inj.mp hzero)
  rw [UInt64.toNat_div, hten] at hne ⊢
  omega

theorem toNat_shiftRight_eight (number : UInt64) :
    (number >>> 8).toNat = number.toNat / 256 := by
  have height : (8 : UInt64).toNat % 64 = 8 := rfl
  rw [UInt64.toNat_shiftRight, height, Nat.shiftRight_eq_div_pow]

theorem shiftRight_eight_lt {number : UInt64} (h : number >>> 8 ≠ 0) :
    (number >>> 8).toNat < number.toNat := by
  have hne : (number >>> 8).toNat ≠ 0 := fun hzero => h (UInt64.toNat_inj.mp hzero)
  rw [toNat_shiftRight_eight] at hne ⊢
  omega

/-- `util_uintToStr`. -/
def uintToStr (out : Output) (number : UInt64) : Output :=
  let out := out.push (48 + number % 10).toUInt8
  if number / 10 = 0 then out else uintToStr out (number / 10)
termination_by number.toNat
decreasing_by exact div_ten_lt ‹_›

/-- `util_intToStr`, with the loop of `util_uintToStr`. -/
def intToStr (out : Output) (number : Int64) : Output :=
  let n : UInt64 := if number < 0 then -number.toUInt64 else number.toUInt64
  let out := uintToStr out n
  if number < 0 then out.push 45 else out

/-- `util_uintToHex`. -/
def uintToHex (out : Output) (number : UInt64) : Output :=
  let out := out.push (byteAt hexTable (number &&& 0xF).toNat)
  let out := out.push (byteAt hexTable ((number >>> 4) &&& 0xF).toNat)
  if number >>> 8 = 0 then out else uintToHex out (number >>> 8)
termination_by number.toNat
decreasing_by exact shiftRight_eight_lt ‹_›

/-- The integer types that have a constant for their texts. -/
inductive IntegerType
  | int8
  | uint8
  | int16
  | uint16
  | int32
  | uint32
  | int64
  | uint64
  deriving DecidableEq, Repr

/-- `util_INT8_MAX_CHARS` and the constants of the other types. -/
def IntegerType.maxChars : IntegerType → ℕ
  | int8 => 4
  | uint8 => 3
  | int16 => 6
  | uint16 => 5
  | int32 => 11
  | uint32 => 10
  | int64 => 20
  | uint64 => 20

/-- The numbers of a type. -/
def IntegerType.Fits : IntegerType → ℤ → Prop
  | int8, n => -2 ^ 7 ≤ n ∧ n < 2 ^ 7
  | uint8, n => 0 ≤ n ∧ n < 2 ^ 8
  | int16, n => -2 ^ 15 ≤ n ∧ n < 2 ^ 15
  | uint16, n => 0 ≤ n ∧ n < 2 ^ 16
  | int32, n => -2 ^ 31 ≤ n ∧ n < 2 ^ 31
  | uint32, n => 0 ≤ n ∧ n < 2 ^ 32
  | int64, n => -2 ^ 63 ≤ n ∧ n < 2 ^ 63
  | uint64, n => 0 ≤ n ∧ n < 2 ^ 64

/-- `util_UINT32_MAX_HEX_CHARS`. -/
def uint32MaxHexChars : ℕ := 8

/-- `util_UINT64_MAX_HEX_CHARS`. -/
def uint64MaxHexChars : ℕ := 16

/-! ## The texts -/

/-- A number in decimal digits. -/
def decimalText (n : ℕ) : List UInt8 := (places 10 n).map fun d => UInt8.ofNat (48 + d)

/-- A number in decimal digits, with a minus sign where it is negative. -/
def intText (n : ℤ) : List UInt8 :=
  if n < 0 then 45 :: decimalText n.natAbs else decimalText n.natAbs

/-- A number in hexadecimal digits, an even number of them. -/
def hexText (n : ℕ) : List UInt8 :=
  ((places 256 n).flatMap fun d => [d / 16, d % 16]).map (byteAt hexTable)

theorem places_ne_nil (base n : ℕ) : places base n ≠ [] :=
  List.length_pos_iff.mp (length_places_pos n)

theorem value_decimalText (n : ℕ) : Numeral.value decimal 10 (decimalText n) = some n := by
  have hwrite : ∀ d < 10, decimal (UInt8.ofNat (48 + d)) = some d := by decide
  have hlt : ∀ d ∈ places 10 n, d < 10 := fun d hd => places_lt (by decide) hd
  rw [decimalText, value_map hwrite hlt (places_ne_nil 10 n), extend_places (by decide)]

theorem signedValue_intText (n : ℤ) : signedValue decimal 45 10 (intText n) = some n := by
  unfold intText
  split
  next hneg =>
    rw [signedValue_minus, value_decimalText, Option.map_some]
    congr 1
    omega
  next hpos =>
    rw [signedValue_of_value (by decide) (value_decimalText n.natAbs)]
    congr 1
    omega

theorem value_hexText (n : ℕ) : Numeral.value hexadecimal 16 (hexText n) = some n := by
  have hwrite : ∀ d < 16, hexadecimal (byteAt hexTable d) = some d := by decide
  have hlt : ∀ d ∈ (places 256 n).flatMap fun d => [d / 16, d % 16], d < 16 := by
    intro d hd
    obtain ⟨e, he, hd⟩ := List.mem_flatMap.mp hd
    have hplace := places_lt (by decide) he
    rcases List.mem_pair.mp hd with rfl | rfl
    · exact Nat.div_lt_of_lt_mul hplace
    · exact Nat.mod_lt e (by decide)
  have hne : ((places 256 n).flatMap fun d => [d / 16, d % 16]) ≠ [] := by
    obtain ⟨d, digits, hplaces⟩ := List.exists_cons_of_ne_nil (places_ne_nil 256 n)
    rw [hplaces]
    exact List.cons_ne_nil _ _
  rw [hexText, value_map hwrite hlt hne, extend_flatMap_pair, extend_places (by decide)]

theorem length_decimalText (n : ℕ) : (decimalText n).length = (places 10 n).length :=
  List.length_map _

theorem length_hexText (n : ℕ) : (hexText n).length = 2 * (places 256 n).length := by
  rw [hexText, List.length_map, List.length_flatMap]
  simp [Nat.mul_comm]

theorem length_decimalText_le {n k : ℕ} (hk : 0 < k) (hn : n < 10 ^ k) :
    (decimalText n).length ≤ k := by
  rw [length_decimalText]
  exact length_places_le (by decide) hk hn

theorem length_hexText_le {n k : ℕ} (hk : 0 < k) (hn : n < 256 ^ k) :
    (hexText n).length ≤ 2 * k := by
  rw [length_hexText]
  exact Nat.mul_le_mul_left 2 (length_places_le (by decide) hk hn)

/-- The constant of a type is enough for its numbers. -/
theorem length_intText_le {t : IntegerType} {n : ℤ} (h : t.Fits n) :
    (intText n).length ≤ t.maxChars := by
  have hpos : n.natAbs < 10 ^ t.maxChars := by
    cases t <;> (simp only [IntegerType.Fits, IntegerType.maxChars] at h ⊢; omega)
  have hneg : n < 0 → n.natAbs < 10 ^ (t.maxChars - 1) := by
    cases t <;> (simp only [IntegerType.Fits, IntegerType.maxChars] at h ⊢; omega)
  have hone : 1 < t.maxChars := by cases t <;> decide
  unfold intText
  split
  next hlt =>
    have hlength := length_decimalText_le (by omega) (hneg hlt)
    rw [List.length_cons]
    omega
  next => exact length_decimalText_le (by omega) hpos

/-! ## What is written -/

/-- The text stands between the new and the old `bufferEnd`, and nothing else has changed. -/
structure Wrote (before after : Output) (text : List UInt8) : Prop where
  bufferEnd_add : after.bufferEnd + text.length = before.bufferEnd
  read_eq : read after.mem after.bufferEnd text.length = text
  unchanged : ∀ i, i < after.bufferEnd ∨ before.bufferEnd ≤ i → after.mem i = before.mem i

theorem Wrote.refl (out : Output) : Wrote out out [] := ⟨rfl, rfl, fun _ _ => rfl⟩

/-- What is written later stands in front. -/
theorem Wrote.trans {before between after : Output} {first second : List UInt8}
    (h : Wrote before between second) (hfirst : Wrote between after first) :
    Wrote before after (first ++ second) := by
  have hsecond := h.bufferEnd_add
  have hend := hfirst.bufferEnd_add
  refine ⟨?_, ?_, ?_⟩
  · rw [List.length_append]
    omega
  · have hkept : read after.mem between.bufferEnd second.length =
        read between.mem between.bufferEnd second.length :=
      read_congr fun i hi _ => hfirst.unchanged i (.inr hi)
    rw [List.length_append, read_add, hfirst.read_eq, hend, hkept, h.read_eq]
  · intro i hi
    rw [hfirst.unchanged i (by omega), h.unchanged i (by omega)]

theorem wrote_push {out : Output} (c : UInt8) (hroom : 0 < out.bufferEnd) :
    Wrote out (out.push c) [c] := by
  refine ⟨Nat.sub_add_cancel hroom, ?_, ?_⟩
  · change [Function.update out.mem (out.bufferEnd - 1) c (out.bufferEnd - 1)] = [c]
    rw [Function.update_self]
  · intro i hi
    change i < out.bufferEnd - 1 ∨ out.bufferEnd ≤ i at hi
    have hne : i ≠ out.bufferEnd - 1 := by omega
    exact Function.update_of_ne hne c out.mem

theorem decimalText_eq (n : ℕ) : decimalText n =
    (if n / 10 = 0 then [] else decimalText (n / 10)) ++ [UInt8.ofNat (48 + n % 10)] := by
  rw [decimalText, places_eq (by decide), List.map_append]
  split <;> rfl

theorem hexText_eq (n : ℕ) : hexText n =
    (if n / 256 = 0 then [] else hexText (n / 256)) ++
      [byteAt hexTable (n / 16 % 16), byteAt hexTable (n % 16)] := by
  rw [hexText, places_eq (by decide), List.flatMap_append, List.map_append]
  have hhigh : n % 256 / 16 = n / 16 % 16 := by omega
  have hlow : n % 256 % 16 = n % 16 := by omega
  rw [List.flatMap_singleton, List.map_cons, List.map_cons, List.map_nil, hhigh, hlow]
  split <;> rfl

theorem uintToStr_wrote {out : Output} {number : UInt64}
    (hroom : (decimalText number.toNat).length ≤ out.bufferEnd) :
    Wrote out (uintToStr out number) (decimalText number.toNat) := by
  induction hn : number.toNat using Nat.strong_induction_on generalizing number out with
  | _ n ih =>
      subst hn
      have hten : (10 : UInt64).toNat = 10 := rfl
      have hdiv : (number / 10).toNat = number.toNat / 10 := UInt64.toNat_div _ _
      have hdigit : (48 + number % 10).toUInt8 = UInt8.ofNat (48 + number.toNat % 10) := by
        rw [← UInt8.toNat_inj, UInt64.toNat_toUInt8, UInt64.toNat_add, UInt64.toNat_mod, hten,
          UInt8.toNat_ofNat']
        change (48 + number.toNat % 10) % 2 ^ 64 % 2 ^ 8 = (48 + number.toNat % 10) % 2 ^ 8
        omega
      rw [decimalText_eq, List.length_append, List.length_singleton] at hroom
      have hpush := wrote_push (48 + number % 10).toUInt8 (show 0 < out.bufferEnd by omega)
      rw [uintToStr, decimalText_eq]
      rw [hdigit] at hpush ⊢
      split
      next hzero =>
        have hnat : number.toNat / 10 = 0 := hdiv.symm.trans (congrArg UInt64.toNat hzero)
        rw [if_pos hnat]
        exact hpush
      next hzero =>
        have hnat : number.toNat / 10 ≠ 0 := fun h =>
          hzero (UInt64.toNat_inj.mp (hdiv.trans h))
        rw [if_neg hnat] at hroom ⊢
        have hrest : Wrote (out.push (UInt8.ofNat (48 + number.toNat % 10)))
            (uintToStr (out.push (UInt8.ofNat (48 + number.toNat % 10))) (number / 10))
            (decimalText (number.toNat / 10)) := by
          have hnext : (decimalText (number.toNat / 10)).length ≤ out.bufferEnd - 1 := by omega
          rw [← hdiv] at hnext ⊢
          exact ih _ (div_ten_lt hzero) hnext rfl
        exact hpush.trans hrest

/-- The magnitude is taken in unsigned words, also that of `INT64_MIN`. -/
theorem toNat_magnitude (number : Int64) :
    (if number < 0 then -number.toUInt64 else number.toUInt64).toNat = number.toInt.natAbs := by
  have hge := number.le_toInt
  have hlt := number.toInt_lt
  have hword := toInt_toInt64 number.toUInt64
  have hnat := number.toUInt64.toNat_lt
  rw [Int64.toInt64_toUInt64] at hword
  split
  next hneg =>
    rw [Int64.lt_iff_toInt_lt] at hneg
    change number.toInt < 0 at hneg
    rw [UInt64.toNat_neg, UInt64.size]
    split at hword <;> omega
  next hpos =>
    rw [Int64.lt_iff_toInt_lt] at hpos
    change ¬number.toInt < 0 at hpos
    split at hword <;> omega

theorem intToStr_wrote {out : Output} {number : Int64}
    (hroom : (intText number.toInt).length ≤ out.bufferEnd) :
    Wrote out (intToStr out number) (intText number.toInt) := by
  have hneg : number < 0 ↔ number.toInt < 0 := Int64.lt_iff_toInt_lt
  have hnat := toNat_magnitude number
  unfold intToStr
  generalize (if number < 0 then -number.toUInt64 else number.toUInt64) = n at hnat ⊢
  unfold intText at hroom ⊢
  rw [← hnat] at hroom ⊢
  dsimp only
  by_cases hlt : number < 0
  · rw [if_pos (hneg.mp hlt), List.length_cons] at hroom
    rw [if_pos (hneg.mp hlt), if_pos hlt]
    have hdigits : Wrote out (uintToStr out n) (decimalText n.toNat) := uintToStr_wrote (by omega)
    have hend := hdigits.bufferEnd_add
    exact hdigits.trans (wrote_push 45 (by omega))
  · rw [if_neg (mt hneg.mpr hlt)] at hroom ⊢
    rw [if_neg hlt]
    exact uintToStr_wrote hroom

theorem toNat_low_digit (number : UInt64) : (number &&& 0xF).toNat = number.toNat % 16 := by
  rw [UInt64.toNat_and]
  exact Nat.and_two_pow_sub_one_eq_mod number.toNat 4

theorem toNat_high_digit (number : UInt64) :
    ((number >>> 4) &&& 0xF).toNat = number.toNat / 16 % 16 := by
  have hfour : (4 : UInt64).toNat % 64 = 4 := rfl
  rw [toNat_low_digit, UInt64.toNat_shiftRight, hfour, Nat.shiftRight_eq_div_pow]

theorem uintToHex_wrote {out : Output} {number : UInt64}
    (hroom : (hexText number.toNat).length ≤ out.bufferEnd) :
    Wrote out (uintToHex out number) (hexText number.toNat) := by
  induction hn : number.toNat using Nat.strong_induction_on generalizing number out with
  | _ n ih =>
      subst hn
      have hdiv := toNat_shiftRight_eight number
      rw [hexText_eq, List.length_append] at hroom
      change _ + 2 ≤ out.bufferEnd at hroom
      rw [uintToHex, hexText_eq, toNat_low_digit, toNat_high_digit]
      have hlow := wrote_push (byteAt hexTable (number.toNat % 16))
        (show 0 < out.bufferEnd by omega)
      have hend : (out.push (byteAt hexTable (number.toNat % 16))).bufferEnd =
        out.bufferEnd - 1 := rfl
      have hpair := hlow.trans (wrote_push (byteAt hexTable (number.toNat / 16 % 16)) (by omega))
      split
      next hzero =>
        have hnat : number.toNat / 256 = 0 := hdiv.symm.trans (congrArg UInt64.toNat hzero)
        rw [if_pos hnat]
        exact hpair
      next hzero =>
        have hnat : number.toNat / 256 ≠ 0 := fun h =>
          hzero (UInt64.toNat_inj.mp (hdiv.trans h))
        rw [if_neg hnat] at hroom ⊢
        have hback := hpair.bufferEnd_add
        rw [List.length_append, List.length_singleton, List.length_singleton] at hback
        generalize (out.push (byteAt hexTable (number.toNat % 16))).push
          (byteAt hexTable (number.toNat / 16 % 16)) = next at hpair hback ⊢
        have hrest : Wrote next (uintToHex next (number >>> 8)) (hexText (number.toNat / 256)) := by
          have hnext : (hexText (number.toNat / 256)).length ≤ next.bufferEnd := by omega
          rw [← hdiv] at hnext ⊢
          exact ih _ (shiftRight_eight_lt hzero) hnext rfl
        exact hpair.trans hrest

/-! ## What is written is read back -/

/-- A text that has a number as its value is read to its end. -/
theorem Wrote.parsed {β ν : Type} {value : List UInt8 → Option β} {toValue : ν → β}
    (hinjective : Function.Injective toValue) {before after : Output} {text : List UInt8} {n : ν}
    (h : Wrote before after text) (hvalue : value text = some (toValue n)) {number : ν}
    {r : ℤ × ν} (hr : Parsed value toValue
      (read (fun i => after.mem (after.bufferEnd + i)) 0 (text.length : ℤ).toNat) number r) :
    r = ((text.length : ℤ), n) := by
  rw [Int.toNat_natCast, read_shift, Nat.add_zero, h.read_eq] at hr
  exact hr.unique hinjective (.stored (.whole hvalue))

/-- A function wrote at most `limit` characters in front of `bufferEnd` and nothing else, they
fit the constants of all types of the number, and they are parsed back as a whole. -/
def RoundTrip {ν : Type} (parse : (ℕ → UInt8) → ℤ → ν → ℤ × ν) (toInt : ν → ℤ)
    (before after : Output) (limit : ℕ) (number : ν) : Prop :=
  ∃ text : List UInt8, Wrote before after text ∧ text.length ≤ limit ∧
    (∀ t : IntegerType, t.Fits (toInt number) → text.length ≤ t.maxChars) ∧
    ∀ old, parse (fun i => after.mem (after.bufferEnd + i)) text.length old =
      ((text.length : ℤ), number)

theorem intToStr_roundTrip (mem : ℕ → UInt8) (buffer : ℕ) (number : Int64) :
    RoundTrip strToInt Int64.toInt ⟨mem, buffer + 20⟩ (intToStr ⟨mem, buffer + 20⟩ number) 20
      number := by
  have hfits : IntegerType.int64.Fits number.toInt := ⟨number.le_toInt, number.toInt_lt⟩
  have hlength : (intText number.toInt).length ≤ 20 := length_intText_le hfits
  have hwrote : Wrote ⟨mem, buffer + 20⟩ (intToStr ⟨mem, buffer + 20⟩ number)
    (intText number.toInt) := intToStr_wrote (hlength.trans (Nat.le_add_left 20 buffer))
  refine ⟨_, hwrote, hlength, fun t ht => length_intText_le ht, fun old => ?_⟩
  exact hwrote.parsed (fun _ _ => Int64.toInt_inj.mp) (signedValue_intText number.toInt)
    (strToInt_parsed _ _ old)

theorem uintToStr_roundTrip (mem : ℕ → UInt8) (buffer : ℕ) (number : UInt64) :
    RoundTrip strToUint (fun n => (n.toNat : ℤ)) ⟨mem, buffer + 20⟩
      (uintToStr ⟨mem, buffer + 20⟩ number) 20 number := by
  have hfits : IntegerType.uint64.Fits number.toNat :=
    ⟨Int.natCast_nonneg _, Int.ofNat_lt.mpr number.toNat_lt⟩
  have htext : intText number.toNat = decimalText number.toNat :=
    if_neg (Int.natCast_nonneg _).not_gt
  have hlength : (decimalText number.toNat).length ≤ 20 := by
    rw [← htext]
    exact length_intText_le hfits
  have hwrote : Wrote ⟨mem, buffer + 20⟩ (uintToStr ⟨mem, buffer + 20⟩ number)
    (decimalText number.toNat) := uintToStr_wrote (hlength.trans (Nat.le_add_left 20 buffer))
  refine ⟨_, hwrote, hlength, fun t ht => ?_, fun old => ?_⟩
  · rw [← htext]
    exact length_intText_le ht
  · exact hwrote.parsed (fun _ _ => UInt64.toNat_inj.mp) (value_decimalText number.toNat)
      (strToUint_parsed _ _ old)

/-- The constants for decimal digits are enough for the hexadecimal ones, too. -/
theorem length_hexText_le_maxChars {t : IntegerType} {n : ℕ} (h : t.Fits n) :
    (hexText n).length ≤ t.maxChars := by
  obtain ⟨k, hpos, hn, hle⟩ : ∃ k, 0 < k ∧ n < 256 ^ k ∧ 2 * k ≤ t.maxChars := by
    cases t with
    | int8 | uint8 => exact ⟨1, by decide, by have hlt := h.2; omega, by decide⟩
    | int16 | uint16 => exact ⟨2, by decide, by have hlt := h.2; omega, by decide⟩
    | int32 | uint32 => exact ⟨4, by decide, by have hlt := h.2; omega, by decide⟩
    | int64 | uint64 => exact ⟨8, by decide, by have hlt := h.2; omega, by decide⟩
  exact (length_hexText_le hpos hn).trans hle

theorem uintToHex_roundTrip (mem : ℕ → UInt8) (buffer : ℕ) {number : UInt64} {limit : ℕ}
    (hlimit : (hexText number.toNat).length ≤ limit) :
    RoundTrip hexToUint (fun n => (n.toNat : ℤ)) ⟨mem, buffer + 16⟩
      (uintToHex ⟨mem, buffer + 16⟩ number) limit number := by
  have hlength : (hexText number.toNat).length ≤ 16 :=
    length_hexText_le (k := 8) (by decide) number.toNat_lt
  have hwrote : Wrote ⟨mem, buffer + 16⟩ (uintToHex ⟨mem, buffer + 16⟩ number)
    (hexText number.toNat) := uintToHex_wrote (hlength.trans (Nat.le_add_left 16 buffer))
  refine ⟨_, hwrote, hlimit, fun t ht => length_hexText_le_maxChars ht, fun old => ?_⟩
  exact hwrote.parsed (fun _ _ => UInt64.toNat_inj.mp) (value_hexText number.toNat)
    (hexToUint_parsed _ _ old)

/-- Every 64-bit value is written and read back, in a buffer of the largest size. -/
theorem numberToStr_roundTrip (mem : ℕ → UInt8) (buffer : ℕ) (signed : Int64)
    (number : UInt64) :
    RoundTrip strToInt Int64.toInt ⟨mem, buffer + 20⟩ (intToStr ⟨mem, buffer + 20⟩ signed) 20
        signed ∧
      RoundTrip strToUint (fun n => (n.toNat : ℤ)) ⟨mem, buffer + 20⟩
        (uintToStr ⟨mem, buffer + 20⟩ number) 20 number ∧
      RoundTrip hexToUint (fun n => (n.toNat : ℤ)) ⟨mem, buffer + 16⟩
        (uintToHex ⟨mem, buffer + 16⟩ number)
        (if number.toNat < 2 ^ 32 then uint32MaxHexChars else uint64MaxHexChars) number := by
  refine ⟨intToStr_roundTrip mem buffer signed, uintToStr_roundTrip mem buffer number,
    uintToHex_roundTrip mem buffer ?_⟩
  split
  next hword => exact length_hexText_le (k := 4) (by decide) hword
  next => exact length_hexText_le (k := 8) (by decide) number.toNat_lt

/-! ## The text of a natural number -/

theorem decimalText_eq_uintToStr (n : ℕ) : decimalText n = Hc.uintToStr n := by
  induction n using Nat.strong_induction_on with
  | _ n ih =>
      have hdigit : ∀ d < 10, UInt8.ofNat (Nat.digitChar d).toNat = UInt8.ofNat (48 + d) := by
        decide
      rw [decimalText_eq, Hc.uintToStr, Nat.toDigits_eq_if (by decide)]
      split
      next hzero =>
        rw [if_pos (by omega), Nat.mod_eq_of_lt (by omega)]
        exact congrArg (fun c => [c]) (hdigit n (by omega)).symm
      next hzero =>
        rw [if_neg (by omega), List.map_append, ih _ (by omega)]
        exact congrArg (Hc.uintToStr (n / 10) ++ [·]) (hdigit _ (by omega)).symm

end Hc.Util
