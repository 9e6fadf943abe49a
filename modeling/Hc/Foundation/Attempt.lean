import Mathlib.Tactic.Common

/-!
# Computations that may fail

A computation in `Except` either fails in one of the ways that are to be expected, or it succeeds
with a property of the result.
-/

namespace Hc

variable {ε α β : Type}

theorem ok_bind (a : α) (f : α → Except ε β) : (Except.ok a >>= f) = f a := rfl

/-- The computation fails as expected, or its result has the property. -/
def Attempts (expected : ε → Prop) (x : Except ε α) (P : α → Prop) : Prop :=
  (∃ e, expected e ∧ x = .error e) ∨ ∃ a, x = .ok a ∧ P a

variable {expected : ε → Prop} {x : Except ε α} {P Q : α → Prop}

theorem Attempts.error {e : ε} (h : expected e) : Attempts expected (.error e : Except ε α) P :=
  .inl ⟨e, h, rfl⟩

theorem Attempts.ok {a : α} (h : P a) : Attempts expected (.ok a) P :=
  .inr ⟨a, rfl, h⟩

/-- The rule of sequences. -/
theorem Attempts.bind {f : α → Except ε β} {R : β → Prop} (h : Attempts expected x P)
    (hf : ∀ a, P a → Attempts expected (f a) R) : Attempts expected (x >>= f) R := by
  rcases h with ⟨e, he, rfl⟩ | ⟨a, rfl, ha⟩
  · exact .error he
  · exact hf a ha

/-- The rule of consequence. -/
theorem Attempts.mono (h : Attempts expected x P) (hPQ : ∀ a, P a → Q a) :
    Attempts expected x Q := by
  rcases h with ⟨e, he, rfl⟩ | ⟨a, rfl, ha⟩
  · exact .error he
  · exact .ok (hPQ a ha)

end Hc
