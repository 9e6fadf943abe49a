import Mathlib.Algebra.BigOperators.Group.Finset.Basic
import Mathlib.Algebra.BigOperators.Ring.Finset
import Mathlib.Tactic.Ring
import Mathlib.Tactic.Linarith

/-!
# Numbers in signed digits

The value of a list of integer digits, least significant first, in any base.
-/

namespace Hc

/-- The number with the given digits. -/
def digitsValue (base : ℤ) : List ℤ → ℤ
  | [] => 0
  | digit :: digits => digit + base * digitsValue base digits

variable {base : ℤ}

@[simp] theorem digitsValue_nil : digitsValue base [] = 0 := rfl

@[simp] theorem digitsValue_cons (digit : ℤ) (digits : List ℤ) :
    digitsValue base (digit :: digits) = digit + base * digitsValue base digits := rfl

theorem digitsValue_append (low high : List ℤ) :
    digitsValue base (low ++ high) = digitsValue base low +
      base ^ low.length * digitsValue base high := by
  induction low with
  | nil => simp
  | cons digit low ih =>
      rw [List.cons_append, digitsValue_cons, digitsValue_cons, ih, List.length_cons, pow_succ]
      ring

/-- The number as a sum over the places. -/
theorem digitsValue_eq_sum (digits : List ℤ) :
    digitsValue base digits = ∑ i ∈ Finset.range digits.length, digits.getD i 0 * base ^ i := by
  induction digits with
  | nil => simp
  | cons digit digits ih =>
      have hshift (i : ℕ) : (digit :: digits).getD (i + 1) 0 * base ^ (i + 1) =
          base * (digits.getD i 0 * base ^ i) := by
        rw [List.getD_cons_succ, pow_succ]
        ring
      rw [digitsValue_cons, ih, List.length_cons, Finset.sum_range_succ']
      simp only [hshift, ← Finset.mul_sum, List.getD_cons_zero, pow_zero, mul_one]
      exact add_comm _ _

/-- A sum over the places in pairs. -/
theorem sum_range_pairs {M : Type*} [AddCommMonoid M] (f : ℕ → M) (n : ℕ) :
    ∑ i ∈ Finset.range (2 * n), f i = ∑ k ∈ Finset.range n, (f (2 * k) + f (2 * k + 1)) := by
  induction n with
  | zero => simp
  | succ n ih =>
      rw [Nat.mul_succ, Finset.sum_range_succ, Finset.sum_range_succ, ih, Finset.sum_range_succ,
        add_assoc]

/-- Every digit is 0 or 1. -/
def Bits (digits : List ℤ) : Prop := ∀ digit ∈ digits, digit = 0 ∨ digit = 1

theorem Bits.cons {digit : ℤ} {digits : List ℤ} (h : Bits (digit :: digits)) :
    (digit = 0 ∨ digit = 1) ∧ Bits digits :=
  ⟨h digit List.mem_cons_self, fun other hother => h other (List.mem_cons_of_mem _ hother)⟩

theorem bits_cons {digit : ℤ} {digits : List ℤ} (h : digit = 0 ∨ digit = 1)
    (hdigits : Bits digits) :
    Bits (digit :: digits) := by
  intro other hother
  rcases List.mem_cons.mp hother with rfl | hmem
  · exact h
  · exact hdigits other hmem

theorem Bits.value_nonneg {digits : List ℤ} (h : Bits digits) : 0 ≤ digitsValue 2 digits := by
  induction digits with
  | nil => exact le_rfl
  | cons digit digits ih =>
      obtain ⟨hdigit, hdigits⟩ := h.cons
      have hrest := ih hdigits
      rw [digitsValue_cons]
      rcases hdigit with rfl | rfl
      · omega
      · omega

end Hc
