import Mathlib.Data.Nat.Digits.Lemmas
import Mathlib.Tactic.Ring

/-!
# Numbers as texts

A number is written in a base with the most significant digit first. The value of a text is
read digit by digit, so that what was read so far is extended by the rest.
-/

namespace Hc.Numeral

variable {α : Type}

/-! ## The value of digits -/

/-- A number followed by more digits. -/
def extend (base : ℕ) : ℕ → List ℕ → ℕ
  | n, [] => n
  | n, d :: digits => extend base (n * base + d) digits

variable {base : ℕ}

@[simp] theorem extend_nil (n : ℕ) : extend base n [] = n := rfl

@[simp] theorem extend_cons (n d : ℕ) (digits : List ℕ) :
    extend base n (d :: digits) = extend base (n * base + d) digits := rfl

theorem extend_append (n : ℕ) (first second : List ℕ) :
    extend base n (first ++ second) = extend base (extend base n first) second := by
  induction first generalizing n with
  | nil => rfl
  | cons d first ih => exact ih _

/-- More digits never make the number smaller. -/
theorem le_extend (hbase : 0 < base) (n : ℕ) (digits : List ℕ) : n ≤ extend base n digits := by
  induction digits generalizing n with
  | nil => exact le_rfl
  | cons d digits ih =>
      have hmul : n ≤ n * base := Nat.le_mul_of_pos_right n hbase
      exact (hmul.trans (Nat.le_add_right _ d)).trans (ih _)

/-- Digits of the squared base are two digits each. -/
theorem extend_flatMap_pair (n : ℕ) (digits : List ℕ) :
    extend base n (digits.flatMap fun d => [d / base, d % base]) =
      extend (base * base) n digits := by
  induction digits generalizing n with
  | nil => rfl
  | cons d digits ih =>
      have hsplit := Nat.div_add_mod' d base
      rw [List.flatMap_cons, extend_append, ih, extend_cons, extend_cons, extend_nil, extend_cons]
      congr 1
      rw [Nat.add_mul, Nat.mul_assoc, Nat.add_assoc, hsplit]

/-! ## The digits at the front of a text -/

variable (digit : α → Option ℕ)

/-- The digits at the front of a text. -/
def leading : List α → List ℕ
  | [] => []
  | c :: text =>
    match digit c with
    | none => []
    | some d => d :: leading text

/-- The value of a text that consists of digits, of which there is at least one. -/
def value (base : ℕ) (text : List α) : Option ℕ :=
  if text = [] then none else (text.mapM digit).map (extend base 0)

variable {digit} {c : α} {d : ℕ} {text : List α}

theorem leading_of_none (h : digit c = none) : leading digit (c :: text) = [] := by
  simp only [leading, h]

theorem leading_of_some (h : digit c = some d) :
    leading digit (c :: text) = d :: leading digit text := by
  simp only [leading, h]

theorem length_leading_le (text : List α) : (leading digit text).length ≤ text.length := by
  induction text with
  | nil => exact le_rfl
  | cons c text ih =>
      cases h : digit c with
      | none => simp [leading_of_none h]
      | some d => simpa [leading_of_some h] using ih

theorem mapM_take_leading (text : List α) :
    (text.take (leading digit text).length).mapM digit = some (leading digit text) := by
  induction text with
  | nil => rfl
  | cons c text ih =>
      cases h : digit c with
      | none => simp [leading_of_none h]
      | some d => simp [leading_of_some h, h, ih]

/-- A longer part of the text has something else than digits in it. -/
theorem mapM_take_eq_none {j : ℕ} (hlt : (leading digit text).length < j)
    (hle : j ≤ text.length) : (text.take j).mapM digit = none := by
  induction text generalizing j with
  | nil =>
      rw [List.length_nil] at hle
      omega
  | cons c text ih =>
      obtain ⟨k, rfl⟩ : ∃ k, j = k + 1 := ⟨j - 1, by omega⟩
      rw [List.length_cons] at hle
      cases h : digit c with
      | none => simp [h]
      | some d =>
          rw [leading_of_some h, List.length_cons] at hlt
          simp [h, ih (by omega : (leading digit text).length < k) (by omega)]

/-- Digits that are read back as they were written. -/
theorem value_map {write : ℕ → α} {base : ℕ} (hwrite : ∀ d < base, digit (write d) = some d)
    {digits : List ℕ} (hdigits : ∀ d ∈ digits, d < base) (hne : digits ≠ []) :
    value digit base (digits.map write) = some (extend base 0 digits) := by
  have hmap : (digits.map write).mapM digit = some digits := by
    clear hne
    induction digits with
    | nil => rfl
    | cons d digits ih =>
        have hrest := ih fun e he => hdigits e (List.mem_cons_of_mem d he)
        simp [hwrite d (hdigits d List.mem_cons_self), hrest]
  rw [value, if_neg (by simpa using hne), hmap]
  rfl

/-! ## The longest part at the front that has a value -/

/-- The first `k` characters have the value `v`, and no longer part at the front has one. -/
structure Longest {β : Type} (value : List α → Option β) (text : List α) (k : ℕ) (v : β) :
    Prop where
  le : k ≤ text.length
  value_eq : value (text.take k) = some v
  longer : ∀ j, k < j → j ≤ text.length → value (text.take j) = none

theorem Longest.unique {β : Type} {value : List α → Option β} {k k' : ℕ} {v v' : β}
    (h : Longest value text k v) (h' : Longest value text k' v') : k = k' ∧ v = v' := by
  rcases Nat.lt_trichotomy k k' with hlt | rfl | hgt
  · have hnone := h.longer k' hlt h'.le
    rw [h'.value_eq] at hnone
    cases hnone
  · exact ⟨rfl, Option.some.inj (h.value_eq.symm.trans h'.value_eq)⟩
  · have hnone := h'.longer k hgt h.le
    rw [h.value_eq] at hnone
    cases hnone

/-- A text that has a value as a whole. -/
theorem Longest.whole {β : Type} {value : List α → Option β} {v : β}
    (h : value text = some v) : Longest value text text.length v := by
  refine ⟨le_rfl, ?_, fun j hlt hle => absurd hle (not_le.mpr hlt)⟩
  rwa [List.take_length]

theorem take_ne_nil {k : ℕ} (hpos : 0 < k) (hle : k ≤ text.length) : text.take k ≠ [] := by
  intro h
  have hlength := congrArg List.length h
  rw [List.length_take, List.length_nil] at hlength
  omega

/-- The digits at the front are the longest part that has a value. -/
theorem longest_leading (base : ℕ) (h : leading digit text ≠ []) :
    Longest (value digit base) text (leading digit text).length
      (extend base 0 (leading digit text)) := by
  have hpos := List.length_pos_iff.mpr h
  have hle : (leading digit text).length ≤ text.length := length_leading_le text
  refine ⟨hle, ?_, ?_⟩
  · rw [value, if_neg (take_ne_nil hpos hle), mapM_take_leading]
    rfl
  · intro j hlt hj
    rw [value, mapM_take_eq_none hlt hj]
    simp

theorem value_take_eq_none (base : ℕ) (h : leading digit text = []) (j : ℕ)
    (hj : j ≤ text.length) : value digit base (text.take j) = none := by
  cases j with
  | zero => simp [value]
  | succ j =>
      have hnone : (text.take (j + 1)).mapM digit = none :=
        mapM_take_eq_none (by rw [h]; exact Nat.succ_pos j) hj
      rw [value, hnone]
      simp

/-! ## Numbers with a sign -/

section Signed

variable [DecidableEq α] (digit)

/-- The value of a number with a minus sign in front of it, or with none. -/
def signedValue (minus : α) (base : ℕ) : List α → Option ℤ
  | [] => none
  | c :: text =>
    if c = minus then (value digit base text).map fun n : ℕ => -(n : ℤ)
    else (value digit base (c :: text)).map fun n : ℕ => (n : ℤ)

variable {digit} {minus : α}

theorem signedValue_minus (base : ℕ) (text : List α) :
    signedValue digit minus base (minus :: text) =
      (value digit base text).map fun n : ℕ => -(n : ℤ) := by
  rw [signedValue, if_pos rfl]

/-- A number without a sign, where a sign is no digit. -/
theorem signedValue_of_value (hminus : digit minus = none) {n : ℕ}
    (h : value digit base text = some n) : signedValue digit minus base text = some (n : ℤ) := by
  cases text with
  | nil => cases h
  | cons c text =>
      have hc : c ≠ minus := by
        rintro rfl
        simp [value, hminus] at h
      rw [signedValue, if_neg hc, h]
      rfl

theorem signedValue_take_of_ne (h : c ≠ minus) (base j : ℕ) :
    signedValue digit minus base ((c :: text).take j) =
      (value digit base ((c :: text).take j)).map fun n : ℕ => (n : ℤ) := by
  cases j with
  | zero => simp [signedValue, value]
  | succ j => rw [List.take_succ_cons, signedValue, if_neg h]

/-- The longest number behind a minus sign. -/
theorem Longest.negative {k n : ℕ} (h : Longest (value digit base) text k n) :
    Longest (signedValue digit minus base) (minus :: text) (k + 1) (-(n : ℤ)) := by
  refine ⟨Nat.succ_le_succ h.le, ?_, ?_⟩
  · rw [List.take_succ_cons, signedValue_minus, h.value_eq]
    rfl
  · intro j hlt hle
    obtain ⟨i, rfl⟩ : ∃ i, j = i + 1 := ⟨j - 1, by omega⟩
    rw [List.take_succ_cons, signedValue_minus,
      h.longer i (Nat.lt_of_succ_lt_succ hlt) (Nat.le_of_succ_le_succ hle)]
    rfl

/-- The longest number of a text without a minus sign. -/
theorem Longest.positive {k n : ℕ} (h : Longest (value digit base) (c :: text) k n)
    (hc : c ≠ minus) :
    Longest (signedValue digit minus base) (c :: text) k (n : ℤ) := by
  refine ⟨h.le, ?_, ?_⟩
  · rw [signedValue_take_of_ne hc, h.value_eq]
    rfl
  · intro j hlt hle
    rw [signedValue_take_of_ne hc, h.longer j hlt hle]
    rfl

end Signed

/-! ## The digits of a number -/

/-- The digits of a number, at least one. -/
def places (base n : ℕ) : List ℕ := if n = 0 then [0] else (base.digits n).reverse

/-- The last digit, and those of what is left without it. -/
theorem places_eq (hbase : 1 < base) (n : ℕ) :
    places base n = (if n / base = 0 then [] else places base (n / base)) ++ [n % base] := by
  rcases Nat.eq_zero_or_pos n with rfl | hpos
  · simp [places]
  · rw [places, if_neg hpos.ne', Nat.digits_def' hbase hpos, List.reverse_cons]
    congr 1
    split
    next h => rw [h, Nat.digits_zero, List.reverse_nil]
    next h => rw [places, if_neg h]

theorem extend_places (hbase : 1 < base) (n : ℕ) : extend base 0 (places base n) = n := by
  induction n using Nat.strong_induction_on with
  | _ n ih =>
      have hsplit := Nat.div_add_mod' n base
      rw [places_eq hbase, extend_append, extend_cons, extend_nil]
      split
      next h =>
        rw [h, Nat.zero_mul] at hsplit
        rwa [extend_nil, Nat.zero_mul]
      next h =>
        have hpos : 0 < n := Nat.pos_of_ne_zero fun hzero => h (by rw [hzero, Nat.zero_div])
        rw [ih _ (Nat.div_lt_self hpos hbase)]
        exact hsplit

theorem places_lt (hbase : 1 < base) {n d : ℕ} (h : d ∈ places base n) : d < base := by
  unfold places at h
  split at h
  · rw [List.mem_singleton.mp h]
    omega
  · exact Nat.digits_lt_base hbase (List.mem_reverse.mp h)

theorem length_places_pos (n : ℕ) : 0 < (places base n).length := by
  unfold places
  split
  next => exact Nat.one_pos
  next h =>
    rw [List.length_reverse, List.length_pos_iff]
    exact Nat.digits_ne_nil_iff_ne_zero.mpr h

/-- A number below a power of the base has at most as many digits. -/
theorem length_places_le (hbase : 1 < base) {n k : ℕ} (hk : 0 < k) (hn : n < base ^ k) :
    (places base n).length ≤ k := by
  unfold places
  split
  next => exact hk
  next =>
    rw [List.length_reverse]
    exact (Nat.digits_length_le_iff hbase n).mpr hn

end Hc.Numeral
