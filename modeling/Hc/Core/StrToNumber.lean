import Hc.Core.Util
import Hc.Foundation.Bytes
import Hc.Foundation.Memory
import Hc.Foundation.Numeral

/-!
# Numbers read from texts

`util_strToUint`, `util_strToInt` and `util_hexToUint` of `hc/core/hc/util.c`, in the machine
words of the source. A buffer is read by its index; the functions stop at the first character
that is no digit, so a text that ends with one may be shorter than `maxChars`.
-/

namespace Hc.Util

/-- `UINT64_MAX`. -/
def uint64Max : UInt64 := 0xFFFFFFFFFFFFFFFF

/-- `INT64_MAX`. -/
def int64Max : UInt64 := 0x7FFFFFFFFFFFFFFF

/-- The loops of the three functions, with `n` characters left at `i`: the number and the
index of the first character that is no digit, or `none` when the number overflows. -/
def parseLoop (digit : UInt8 → Option UInt64) (overflows : UInt64 → UInt64 → Bool)
    (next : UInt64 → UInt64 → UInt64) (buffer : ℕ → UInt8) :
    ℕ → UInt64 → ℕ → Option (UInt64 × ℕ)
  | 0, result, i => some (result, i)
  | n + 1, result, i =>
    match digit (buffer i) with
    | none => some (result, i)
    | some digitValue =>
      if overflows result digitValue then none
      else parseLoop digit overflows next buffer n (next result digitValue) (i + 1)

/-- The digit in the loops of `util_strToUint` and `util_strToInt`. -/
def decimalDigit (c : UInt8) : Option UInt64 :=
  let digitValue := c.toUInt64 - 48
  if digitValue > 9 then none else some digitValue

/-- The loop of `util_strToUint` and `util_strToInt`. -/
def decimalLoop (maxNumber : UInt64) (buffer : ℕ → UInt8) : ℕ → UInt64 → ℕ → Option (UInt64 × ℕ) :=
  parseLoop decimalDigit (fun result digitValue => result > (maxNumber - digitValue) / 10)
    (fun result digitValue => result * 10 + digitValue) buffer

/-- `util_strToUint`: the returned value and `*number`. -/
def strToUint (buffer : ℕ → UInt8) (maxChars : ℤ) (number : UInt64) : ℤ × UInt64 :=
  match decimalLoop uint64Max buffer maxChars.toNat 0 0 with
  | none => (-1, number)
  | some (result, i) => (i, if i > 0 then result else number)

/-- `util_strToInt`. -/
def strToInt (buffer : ℕ → UInt8) (maxChars : ℤ) (number : Int64) : ℤ × Int64 :=
  if maxChars ≤ 0 then (0, number)
  else
    let negative : UInt64 := if buffer 0 = 45 then 1 else 0
    let maxNumber := int64Max + negative
    match decimalLoop maxNumber buffer (maxChars - negative.toNat).toNat 0 negative.toNat with
    | none => (-1, number)
    | some (result, i) =>
      let sign := (1 : UInt64) - negative <<< 1
      if i > negative.toNat then (i, (result * sign).toInt64) else (0, number)

/-- The digit in the loop of `util_hexToUint`. -/
def hexDigit (c : UInt8) : Option UInt64 :=
  let digitValue := c.toUInt64 - 48
  if digitValue > 9 then
    let digitValue := digitValue + (48 - 65)
    if digitValue > 5 then
      let digitValue := digitValue + (65 - 97)
      if digitValue > 5 then none else some (digitValue + 10)
    else some (digitValue + 10)
  else some digitValue

/-- The loop of `util_hexToUint`. -/
def hexLoop (buffer : ℕ → UInt8) : ℕ → UInt64 → ℕ → Option (UInt64 × ℕ) :=
  parseLoop hexDigit (fun result _ => result > uint64Max >>> 4)
    (fun result digitValue => (result <<< 4) ||| digitValue) buffer

/-- `util_hexToUint`. -/
def hexToUint (buffer : ℕ → UInt8) (maxChars : ℤ) (number : UInt64) : ℤ × UInt64 :=
  match hexLoop buffer maxChars.toNat 0 0 with
  | none => (-1, number)
  | some (result, i) => (i, if i > 0 then result else number)

/-! ## Digits -/

/-- The value of a decimal digit. -/
def decimal (c : UInt8) : Option ℕ :=
  if 48 ≤ c.toNat ∧ c.toNat ≤ 57 then some (c.toNat - 48) else none

/-- The value of a hexadecimal digit in upper or lower case. -/
def hexadecimal (c : UInt8) : Option ℕ :=
  if 48 ≤ c.toNat ∧ c.toNat ≤ 57 then some (c.toNat - 48)
  else if 65 ≤ c.toNat ∧ c.toNat ≤ 70 then some (c.toNat - 55)
  else if 97 ≤ c.toNat ∧ c.toNat ≤ 102 then some (c.toNat - 87)
  else none

theorem forall_uint8 {P : UInt8 → Prop} (h : ∀ n < 256, P (UInt8.ofNat n)) (c : UInt8) : P c := by
  have hc := h c.toNat c.toNat_lt
  rwa [UInt8.ofNat_toNat] at hc

/-- The wrapping subtraction recognises exactly the digits. -/
theorem decimalDigit_eq (c : UInt8) : (decimalDigit c).map UInt64.toNat = decimal c :=
  forall_uint8 (P := fun c => (decimalDigit c).map UInt64.toNat = decimal c) (by decide +kernel) c

theorem hexDigit_eq (c : UInt8) : (hexDigit c).map UInt64.toNat = hexadecimal c :=
  forall_uint8 (P := fun c => (hexDigit c).map UInt64.toNat = hexadecimal c) (by decide +kernel) c

theorem decimal_lt {c : UInt8} {d : ℕ} (h : decimal c = some d) : d < 10 := by
  unfold decimal at h
  split at h
  next hdigit =>
    obtain rfl := Option.some.inj h
    omega
  next => cases h

theorem hexadecimal_lt {c : UInt8} {d : ℕ} (h : hexadecimal c = some d) : d < 16 := by
  unfold hexadecimal at h
  split at h
  next =>
    obtain rfl := Option.some.inj h
    omega
  next =>
    split at h
    next =>
      obtain rfl := Option.some.inj h
      omega
    next =>
      split at h
      next =>
        obtain rfl := Option.some.inj h
        omega
      next => cases h

/-! ## The loop -/

/-- What one iteration relies on: the words compute with the digits of a base, and the test
before a step finds out whether it would exceed the limit. -/
structure Reads (digit : UInt8 → Option UInt64) (overflows : UInt64 → UInt64 → Bool)
    (next : UInt64 → UInt64 → UInt64) (value : UInt8 → Option ℕ) (base limit : ℕ) : Prop where
  base_pos : 0 < base
  limit_lt : limit < 2 ^ 64
  digit_eq : ∀ c, (digit c).map UInt64.toNat = value c
  overflows_iff : ∀ c result d, value c = some d.toNat → result.toNat ≤ limit →
    (overflows result d = true ↔ limit < result.toNat * base + d.toNat)
  next_eq : ∀ c result d, value c = some d.toNat → result.toNat * base + d.toNat ≤ limit →
    (next result d).toNat = result.toNat * base + d.toNat

open Memory Numeral

variable {digit : UInt8 → Option UInt64} {overflows : UInt64 → UInt64 → Bool}
  {next : UInt64 → UInt64 → UInt64} {value : UInt8 → Option ℕ} {base limit : ℕ}

/-- The loop reads the digits at the front of the text, unless their number exceeds the limit. -/
theorem parseLoop_eq (h : Reads digit overflows next value base limit) (buffer : ℕ → UInt8)
    (n i : ℕ) {result : UInt64} (hresult : result.toNat ≤ limit) :
    parseLoop digit overflows next buffer n result i =
      if extend base result.toNat (leading value (read buffer i n)) ≤ limit then
        some (UInt64.ofNat (extend base result.toNat (leading value (read buffer i n))),
          i + (leading value (read buffer i n)).length)
      else none := by
  induction n generalizing i result with
  | zero =>
      rw [Memory.read, leading, extend_nil, if_pos hresult, UInt64.ofNat_toNat]
      rfl
  | succ n ih =>
      have hdigit := h.digit_eq (buffer i)
      rw [parseLoop, Memory.read]
      cases hd : digit (buffer i) with
      | none =>
          rw [hd] at hdigit
          rw [leading_of_none hdigit.symm, extend_nil, if_pos hresult, UInt64.ofNat_toNat]
          rfl
      | some d =>
          rw [hd] at hdigit
          have hvalue : value (buffer i) = some d.toNat := hdigit.symm
          rw [leading_of_some hvalue, extend_cons]
          dsimp only
          split
          next hover =>
            -- what the number has become only grows with the rest of the digits
            have hlt := (h.overflows_iff _ _ _ hvalue hresult).mp hover
            have hle := le_extend h.base_pos (result.toNat * base + d.toNat)
              (leading value (read buffer (i + 1) n))
            rw [if_neg (by omega)]
          next hover =>
            have hle : result.toNat * base + d.toNat ≤ limit := by
              by_contra hlt
              exact hover ((h.overflows_iff _ _ _ hvalue hresult).mpr (by omega))
            have hnext := h.next_eq _ _ _ hvalue hle
            rw [ih (i + 1) (by rw [hnext]; exact hle), hnext, List.length_cons, Nat.add_right_comm,
              Nat.add_assoc]

/-- The test by division in the loop of decimal digits. -/
theorem decimalLoop_reads (maxNumber : UInt64) (hmax : 9 ≤ maxNumber.toNat) :
    Reads decimalDigit (fun result digitValue => result > (maxNumber - digitValue) / 10)
      (fun result digitValue => result * 10 + digitValue) decimal 10 maxNumber.toNat := by
  have hlt := maxNumber.toNat_lt
  refine ⟨by decide, hlt, decimalDigit_eq, ?_, ?_⟩
  · intro c result d hd _
    have hdigit := decimal_lt hd
    have hsub : (maxNumber - d).toNat = maxNumber.toNat - d.toNat :=
      UInt64.toNat_sub_of_le _ _ (UInt64.le_iff_toNat_le.mpr (by omega))
    have hten : (10 : UInt64).toNat = 10 := rfl
    rw [decide_eq_true_iff, gt_iff_lt, UInt64.lt_iff_toNat_lt, UInt64.toNat_div, hsub, hten]
    omega
  · intro c result d _ hle
    have hten : (10 : UInt64).toNat = 10 := rfl
    rw [UInt64.toNat_add, UInt64.toNat_mul, hten]
    omega

theorem decimalLoop_eq (maxNumber : UInt64) (hmax : 9 ≤ maxNumber.toNat) (buffer : ℕ → UInt8)
    (n i : ℕ) : decimalLoop maxNumber buffer n 0 i =
      if extend 10 0 (leading decimal (read buffer i n)) ≤ maxNumber.toNat then
        some (UInt64.ofNat (extend 10 0 (leading decimal (read buffer i n))),
          i + (leading decimal (read buffer i n)).length)
      else none := by
  have hzero : (0 : UInt64).toNat ≤ maxNumber.toNat := Nat.zero_le _
  exact parseLoop_eq (decimalLoop_reads maxNumber hmax) buffer n i hzero

/-- The test by a shift in the loop of hexadecimal digits. -/
theorem hexLoop_reads : Reads hexDigit (fun result _ => result > uint64Max >>> 4)
    (fun result digitValue => (result <<< 4) ||| digitValue) hexadecimal 16 (2 ^ 64 - 1) := by
  refine ⟨by decide, by decide, hexDigit_eq, ?_, ?_⟩
  · intro c result d hd _
    have hdigit := hexadecimal_lt hd
    have hshift : (uint64Max >>> 4).toNat = 2 ^ 60 - 1 := by decide
    rw [decide_eq_true_iff, gt_iff_lt, UInt64.lt_iff_toNat_lt, hshift]
    omega
  · intro c result d hd hle
    have hdigit := hexadecimal_lt hd
    have hshift : (result <<< 4).toNat = 2 ^ 4 * result.toNat := by
      have hfour : (4 : UInt64).toNat % 64 = 4 := rfl
      rw [UInt64.toNat_shiftLeft, hfour, Nat.shiftLeft_eq, Nat.mul_comm]
      exact Nat.mod_eq_of_lt (by omega)
    rw [UInt64.toNat_or, hshift, ← Nat.two_pow_add_eq_or_of_lt hdigit]
    omega

/-! ## The three functions -/

/-- What a function is to return for a text, with the old `*number`: the length of the longest
number at its front, which is stored; or that there is none, or none that fits. -/
inductive Parsed {β ν : Type} (value : List UInt8 → Option β) (toValue : ν → β)
    (text : List UInt8) (number : ν) : ℤ × ν → Prop
  | stored {k : ℕ} {n : ν} (h : Longest value text k (toValue n)) :
      Parsed value toValue text number (k, n)
  | overflow {k : ℕ} {v : β} (h : Longest value text k v) (hfit : ∀ n, toValue n ≠ v) :
      Parsed value toValue text number (-1, number)
  | nothing (h : ∀ k ≤ text.length, value (text.take k) = none) :
      Parsed value toValue text number (0, number)

/-- There is one result for a text. -/
theorem Parsed.unique {β ν : Type} {value : List UInt8 → Option β} {toValue : ν → β}
    (hinjective : Function.Injective toValue) {text : List UInt8} {number : ν} {r r' : ℤ × ν}
    (h : Parsed value toValue text number r) (h' : Parsed value toValue text number r') :
    r = r' := by
  cases h with
  | stored h =>
      cases h' with
      | stored h' =>
          obtain ⟨rfl, hv⟩ := h.unique h'
          rw [hinjective hv]
      | overflow h' hfit => exact absurd (h.unique h').2 (hfit _)
      | nothing h' => exact absurd h.value_eq (by simp [h' _ h.le])
  | overflow h hfit =>
      cases h' with
      | stored h' => exact absurd (h'.unique h).2 (hfit _)
      | overflow h' _ => rfl
      | nothing h' => exact absurd h.value_eq (by simp [h' _ h.le])
  | nothing h =>
      cases h' with
      | stored h' => exact absurd h'.value_eq (by simp [h _ h'.le])
      | overflow h' _ => exact absurd h'.value_eq (by simp [h _ h'.le])
      | nothing h' => rfl

/-- An unsigned function, from what its loop does. -/
theorem parsed_of_reads (h : Reads digit overflows next value base (2 ^ 64 - 1))
    (buffer : ℕ → UInt8) (n : ℕ) (number : UInt64) {r : ℤ × UInt64}
    (hr : r = match parseLoop digit overflows next buffer n 0 0 with
      | none => (-1, number)
      | some (result, i) => (↑i, if i > 0 then result else number)) :
    Parsed (Numeral.value value base) UInt64.toNat (read buffer 0 n) number r := by
  rw [parseLoop_eq h buffer n 0 (Nat.zero_le _)] at hr
  have hzero : (0 : UInt64).toNat = 0 := rfl
  rw [hzero, Nat.zero_add] at hr
  split at hr
  next hloop =>
    split at hloop
    next => cases hloop
    next hover =>
      have hne : leading value (read buffer 0 n) ≠ [] := by
        intro hnil
        rw [hnil] at hover
        exact hover (Nat.zero_le _)
      rw [hr]
      refine .overflow (longest_leading base hne) fun m hm => hover ?_
      have hlt := m.toNat_lt
      omega
  next result i hloop =>
    split at hloop
    next hfit =>
      obtain ⟨rfl, rfl⟩ := Prod.mk.inj (Option.some.inj hloop)
      rw [hr]
      split
      next hpos =>
        refine .stored ?_
        rw [UInt64.toNat_ofNat', Nat.mod_eq_of_lt (by omega)]
        exact longest_leading base (List.length_pos_iff.mp hpos)
      next hpos =>
        have hnil : leading value (read buffer 0 n) = [] :=
          List.length_eq_zero_iff.mp (by omega)
        rw [hnil]
        exact .nothing fun k hk => value_take_eq_none base hnil k hk
    next => cases hloop

theorem strToUint_parsed (buffer : ℕ → UInt8) (maxChars : ℤ) (number : UInt64) :
    Parsed (Numeral.value decimal 10) UInt64.toNat (read buffer 0 maxChars.toNat) number
      (strToUint buffer maxChars number) :=
  parsed_of_reads (decimalLoop_reads uint64Max (by decide)) buffer maxChars.toNat
    number rfl

theorem hexToUint_parsed (buffer : ℕ → UInt8) (maxChars : ℤ) (number : UInt64) :
    Parsed (Numeral.value hexadecimal 16) UInt64.toNat (read buffer 0 maxChars.toNat) number
      (hexToUint buffer maxChars number) :=
  parsed_of_reads hexLoop_reads buffer maxChars.toNat number rfl

/-- A word read as a signed number. -/
theorem toInt_toInt64 (x : UInt64) : x.toInt64.toInt =
    if x.toNat < 2 ^ 63 then (x.toNat : ℤ) else x.toNat - 2 ^ 64 := by
  have hcond := BitVec.toInt_eq_toNat_cond x.toBitVec
  change x.toBitVec.toInt = _
  rw [hcond, UInt64.toNat_toBitVec]
  split <;> split <;> omega

theorem toInt_positive {n : ℕ} (hn : n ≤ 2 ^ 63 - 1) :
    (UInt64.ofNat n * ((1 : UInt64) - (0 : UInt64) <<< 1)).toInt64.toInt = n := by
  have hsign : ((1 : UInt64) - (0 : UInt64) <<< 1).toNat = 1 := rfl
  rw [toInt_toInt64, UInt64.toNat_mul, hsign, UInt64.toNat_ofNat']
  omega

theorem toInt_negative {n : ℕ} (hn : n ≤ 2 ^ 63) :
    (UInt64.ofNat n * ((1 : UInt64) - (1 : UInt64) <<< 1)).toInt64.toInt = -(n : ℤ) := by
  have hsign : ((1 : UInt64) - (1 : UInt64) <<< 1).toNat = 2 ^ 64 - 1 := rfl
  rw [toInt_toInt64, UInt64.toNat_mul, hsign, UInt64.toNat_ofNat']
  omega

/-- The end of `util_strToInt`, with `i` at `k` or behind it. -/
theorem parsed_of_loop {text : List UInt8} {digits : List ℕ} {k limit : ℕ} {number : Int64}
    {toSigned : ℕ → ℤ} {sign : UInt64}
    (hsign : ∀ n ≤ limit, (UInt64.ofNat n * sign).toInt64.toInt = toSigned n)
    (hfit : ∀ n, limit < n → ∀ m : Int64, m.toInt ≠ toSigned n)
    (hlongest : digits ≠ [] → Longest (signedValue decimal 45 10) text (k + digits.length)
      (toSigned (extend 10 0 digits)))
    (hnothing : digits = [] → ∀ j ≤ text.length, signedValue decimal 45 10 (text.take j) = none) :
    Parsed (signedValue decimal 45 10) Int64.toInt text number
      (match (if extend 10 0 digits ≤ limit then
          some (UInt64.ofNat (extend 10 0 digits), k + digits.length) else none) with
        | none => (-1, number)
        | some (result, i) => if i > k then (i, (result * sign).toInt64) else (0, number)) := by
  by_cases hle : extend 10 0 digits ≤ limit
  · rw [if_pos hle]
    dsimp only
    cases digits with
    | nil =>
        rw [if_neg (by simp)]
        exact .nothing (hnothing rfl)
    | cons d digits =>
        rw [if_pos (by simp)]
        refine .stored ?_
        rw [hsign _ hle]
        exact hlongest (List.cons_ne_nil _ _)
  · rw [if_neg hle]
    have hne : digits ≠ [] := fun hnil => hle (by rw [hnil]; exact Nat.zero_le _)
    exact .overflow (hlongest hne) (hfit _ (not_le.mp hle))

theorem strToInt_parsed (buffer : ℕ → UInt8) (maxChars : ℤ) (number : Int64) :
    Parsed (signedValue decimal 45 10) Int64.toInt (read buffer 0 maxChars.toNat) number
      (strToInt buffer maxChars number) := by
  unfold strToInt
  split
  next hnone =>
    rw [Int.toNat_of_nonpos hnone]
    refine .nothing fun k hk => ?_
    obtain rfl : k = 0 := Nat.le_zero.mp hk
    rfl
  next hsome =>
    obtain ⟨n, hn⟩ : ∃ n, maxChars.toNat = n + 1 := ⟨maxChars.toNat - 1, by omega⟩
    rw [hn, Memory.read]
    by_cases hminus : buffer 0 = 45
    · have hrest : (maxChars - ((1 : UInt64).toNat : ℤ)).toNat = n := by
        change (maxChars - 1).toNat = n
        omega
      rw [hminus]
      simp only [if_true, hrest, decimalLoop_eq (int64Max + 1) (by decide)]
      refine parsed_of_loop (fun m hm => toInt_negative hm) (fun m hm x hx => ?_)
        (fun hne => ?_) (fun hnil j hj => ?_)
      · have hle := x.le_toInt
        change 2 ^ 63 < m at hm
        omega
      · have hlongest : Longest (signedValue decimal 45 10) _ _ _ :=
          (longest_leading 10 hne).negative
        rwa [Nat.add_comm] at hlongest
      · cases j with
        | zero => rfl
        | succ j =>
            have hnone := value_take_eq_none 10 hnil j (Nat.le_of_succ_le_succ hj)
            exact (signedValue_minus 10 _).trans (congrArg _ hnone)
    · have hall : (maxChars - ((0 : UInt64).toNat : ℤ)).toNat = n + 1 := by
        change (maxChars - 0).toNat = n + 1
        omega
      simp only [if_neg hminus, hall, decimalLoop_eq (int64Max + 0) (by decide)]
      refine parsed_of_loop (fun m hm => toInt_positive hm) (fun m hm x hx => ?_)
        (fun hne => ?_) (fun hnil j hj => ?_)
      · have hlt := x.toInt_lt
        change 2 ^ 63 - 1 < m at hm
        omega
      · have hlongest := (longest_leading 10 hne).positive hminus
        rwa [← Nat.zero_add (List.length _)] at hlongest
      · have hnone := value_take_eq_none 10 hnil j hj
        exact (signedValue_take_of_ne hminus 10 j).trans (congrArg _ hnone)

/-- For every buffer and `maxChars`, each function reads the longest number of its form. -/
theorem strToNumber_parsed (buffer : ℕ → UInt8) (maxChars : ℤ) (number : UInt64)
    (signed : Int64) :
    Parsed (Numeral.value decimal 10) UInt64.toNat (read buffer 0 maxChars.toNat) number
        (strToUint buffer maxChars number) ∧
      Parsed (signedValue decimal 45 10) Int64.toInt (read buffer 0 maxChars.toNat) signed
        (strToInt buffer maxChars signed) ∧
      Parsed (Numeral.value hexadecimal 16) UInt64.toNat (read buffer 0 maxChars.toNat) number
        (hexToUint buffer maxChars number) :=
  ⟨strToUint_parsed buffer maxChars number, strToInt_parsed buffer maxChars signed,
    hexToUint_parsed buffer maxChars number⟩

example : strToInt (byteAt (ascii "-9223372036854775808")) 20 0 = (20, Int64.minValue) := by
  decide +kernel

/-! ## The text of a whole line -/

theorem strToUintLoop_eq (line : List UInt8) {result : ℕ} (hresult : result < 2 ^ 64) (i : ℕ) :
    strToUintLoop line result i =
      if extend 10 result (leading decimal line) < 2 ^ 64 then
        some (i + (leading decimal line).length, extend 10 result (leading decimal line))
      else none := by
  induction line generalizing result i with
  | nil => exact (if_pos hresult).symm
  | cons c line ih =>
      rw [strToUintLoop]
      split
      next hdigit =>
        have hvalue : decimal c = some (c.toNat - 48) := if_pos hdigit
        rw [leading_of_some hvalue, extend_cons]
        dsimp only
        split
        next hover =>
          have hle := le_extend (show 0 < 10 by decide) (result * 10 + (c.toNat - 48))
            (leading decimal line)
          rw [if_neg (by omega)]
        next hfits =>
          rw [ih (by omega), List.length_cons, Nat.add_right_comm, Nat.add_assoc]
      next hdigit =>
        have hvalue : decimal c = none := if_neg hdigit
        rw [leading_of_none hvalue, extend_nil, if_pos hresult]
        rfl

theorem read_byteAt (line rest : List UInt8) :
    read (byteAt (line ++ rest)) line.length rest.length = rest := by
  induction rest generalizing line with
  | nil => rfl
  | cons c rest ih =>
      have hnext := ih (line ++ [c])
      rw [List.append_assoc, List.length_append] at hnext
      have hhead : byteAt (line ++ c :: rest) line.length = c := by
        rw [byteAt_append_right _ le_rfl, Nat.sub_self]
        rfl
      rw [List.length_cons, Memory.read, hhead]
      exact congrArg _ hnext

/-- On a whole line the words of the source compute what the loop over natural numbers does. -/
theorem strToUint_line (line : List UInt8) (number : UInt64) :
    strToUint (byteAt line) line.length number =
      match Hc.strToUint line with
      | none => (-1, number)
      | some (i, result) => (i, if i > 0 then UInt64.ofNat result else number) := by
  have hread : read (byteAt line) 0 (line.length : ℤ).toNat = line := read_byteAt [] line
  have hmax : uint64Max.toNat = 2 ^ 64 - 1 := rfl
  unfold strToUint Hc.strToUint
  rw [decimalLoop_eq uint64Max (by decide), hread, strToUintLoop_eq _ (by decide), hmax]
  by_cases hfits : extend 10 0 (leading decimal line) < 2 ^ 64
  · rw [if_pos hfits, if_pos (by omega)]
  · rw [if_neg hfits, if_neg (by omega)]

end Hc.Util
