/-!
# Counting loops

A loop `while (i) { --i; body }` over a state, and the rule that relates two of
them: what every pair of iterations keeps, the whole runs keep.
-/

namespace Hc

variable {σ τ : Type}

/-- Run `body` with the indices below the first argument, from the highest down. -/
def countDown (body : Nat → σ → σ) : Nat → σ → σ
  | 0, s => s
  | i + 1, s => countDown body i (body i s)

@[simp] theorem countDown_zero (body : Nat → σ → σ) (s : σ) : countDown body 0 s = s := rfl

theorem countDown_succ (body : Nat → σ → σ) (i : Nat) (s : σ) :
    countDown body (i + 1) s = countDown body i (body i s) := rfl

/-- Two loops whose bodies keep a relation keep it over whole runs. -/
theorem countDown_rel {f : Nat → σ → σ} {g : Nat → τ → τ} {R : σ → τ → Prop}
    (hbody : ∀ i s t, R s t → R (f i s) (g i t)) (i : Nat) {s : σ} {t : τ} (h : R s t) :
    R (countDown f i s) (countDown g i t) := by
  induction i generalizing s t with
  | zero => exact h
  | succ i ih =>
      rw [countDown_succ, countDown_succ]
      exact ih (hbody i s t h)

end Hc
