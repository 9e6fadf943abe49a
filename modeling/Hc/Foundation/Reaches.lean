import Mathlib.Logic.Relation
import Mathlib.Order.WellFounded

/-!
# What a system reaches

The steps of a system are taken by its parties, or by its environment. What holds at the start and
is kept by each step holds of every state that is reached. Where no party that can go on waits
forever, a goal is reached in every run, given a measure that no step makes larger and a party that
makes it smaller, which stays the same until it does.
-/

namespace Hc.Reaches

variable {σ ι : Type} {P : σ → Prop}

theorem invariant {step : σ → σ → Prop} (hkeep : ∀ s s', P s → step s s' → P s') {s s' : σ}
    (hs : P s) (h : Relation.ReflTransGen step s s') : P s' := by
  induction h with
  | refl => exact hs
  | tail _ hstep ih => exact hkeep _ _ ih hstep

/-- What a list of actions leads to is reached. -/
theorem of_foldlM {α : Type} {act : σ → α → Option σ} (actions : List α) {s s' : σ}
    (h : actions.foldlM act s = some s') :
    Relation.ReflTransGen (fun s s' => ∃ action, act s action = some s') s s' := by
  induction actions generalizing s with
  | nil =>
      cases h
      exact .refl
  | cons action actions ih =>
      rw [List.foldlM_cons] at h
      obtain ⟨next, hact, hrest⟩ := Option.bind_eq_some_iff.mp h
      exact .head ⟨action, hact⟩ (ih hrest)

section Fair

variable (step : Option ι → σ → σ → Prop)

/-- A party can take a step. -/
def Enabled (i : ι) (s : σ) : Prop := ∃ s', step (some i) s s'

/-- An infinite run: at each time a party or the environment takes a step, or nothing happens. -/
structure Run where
  states : ℕ → σ
  party : ℕ → Option ι
  next : ∀ n, step (party n) (states n) (states (n + 1)) ∨
    party n = none ∧ states (n + 1) = states n

/-- A party that can always take a step takes one at some time. -/
def Run.Fair (run : Run step) : Prop :=
  ∀ i n, (∀ m, n ≤ m → Enabled step i (run.states m)) → ∃ m, n ≤ m ∧ run.party m = some i

/-- Some party makes the measure smaller, and until it does, no step makes the measure larger or
turns that party away. -/
structure Progress {α : Type} [Preorder α] (goal : σ → Prop) (helps : σ → ι → Prop)
    (measure : σ → α) : Prop where
  keeps : ∀ i s s', P s → ¬ goal s → step i s s' → ¬ goal s' → P s'
  exists_helps : ∀ s, P s → ¬ goal s → ∃ i, helps s i
  enabled : ∀ s i, P s → ¬ goal s → helps s i → Enabled step i s
  other : ∀ i s s', P s → ¬ goal s → step i s s' → ¬ goal s' →
    measure s' < measure s ∨
      measure s' = measure s ∧ ∀ j, helps s j → i ≠ some j ∧ helps s' j

variable {step}

theorem Run.exists_lt {α : Type} [Preorder α] {goal : σ → Prop} {helps : σ → ι → Prop}
    {measure : σ → α} (hprogress : Progress (P := P) step goal helps measure) (run : Run step)
    (hfair : run.Fair) (n : ℕ) (hn : P (run.states n)) (hgoal : ∀ m, ¬ goal (run.states m)) :
    ∃ m, P (run.states m) ∧ measure (run.states m) < measure (run.states n) := by
  by_contra hnot
  push Not at hnot
  obtain ⟨j, hj⟩ := hprogress.exists_helps _ hn (hgoal n)
  -- As long as the measure stays the same, the party that helps still does, and has not acted.
  have hstays (k : ℕ) : P (run.states (n + k)) ∧ helps (run.states (n + k)) j ∧
      measure (run.states (n + k)) = measure (run.states n) ∧
      ∀ m, n ≤ m → m < n + k → run.party m ≠ some j := by
    induction k with
    | zero => exact ⟨hn, hj, rfl, fun m hle hlt => absurd hlt (by omega)⟩
    | succ k ih =>
        obtain ⟨hP, hhelps, hmeasure, hparty⟩ := ih
        rw [← Nat.add_assoc]
        rcases run.next (n + k) with hstep | ⟨hnone, hsame⟩
        · have hP' := hprogress.keeps _ _ _ hP (hgoal _) hstep (hgoal _)
          rcases hprogress.other _ _ _ hP (hgoal _) hstep (hgoal _) with hlt | ⟨hsame, hkept⟩
          · exact absurd (hmeasure ▸ hlt) (hnot _ hP')
          · refine ⟨hP', (hkept j hhelps).2, hsame.trans hmeasure, fun m hle hlt => ?_⟩
            rcases Nat.lt_succ_iff_lt_or_eq.mp hlt with hlt | rfl
            · exact hparty m hle hlt
            · exact (hkept j hhelps).1
        · rw [hsame]
          refine ⟨hP, hhelps, hmeasure, fun m hle hlt => ?_⟩
          rcases Nat.lt_succ_iff_lt_or_eq.mp hlt with hlt | rfl
          · exact hparty m hle hlt
          · simp [hnone]
  have henabled (m : ℕ) (hle : n ≤ m) : Enabled step j (run.states m) := by
    obtain ⟨k, rfl⟩ := Nat.exists_eq_add_of_le hle
    exact hprogress.enabled _ _ (hstays k).1 (hgoal _) (hstays k).2.1
  obtain ⟨m, hle, hparty⟩ := hfair j n henabled
  obtain ⟨k, rfl⟩ := Nat.exists_eq_add_of_le hle
  exact (hstays (k + 1)).2.2.2 (n + k) hle (by omega) hparty

/-- A fair run reaches the goal. -/
theorem Run.reaches {α : Type} [Preorder α] [WellFoundedLT α] {goal : σ → Prop}
    {helps : σ → ι → Prop} {measure : σ → α} (run : Run step) (hfair : run.Fair)
    (hprogress : Progress (P := P) step goal helps measure) (n : ℕ) (hn : P (run.states n)) :
    ∃ m, goal (run.states m) := by
  by_contra hnot
  push Not at hnot
  suffices hnone : ∀ (least : α) n, measure (run.states n) = least → ¬ P (run.states n) from
    hnone _ n rfl hn
  intro least
  induction least using WellFoundedLT.induction with
  | ind least ih =>
      rintro n rfl hn
      obtain ⟨m, hm, hlt⟩ := run.exists_lt hprogress hfair n hn hnot
      exact ih _ hlt m rfl hm

section OfActions

variable {α : Type} (act : σ → α → Option σ) (start : σ)

/-- The state behind the first actions of a list. -/
def after (actions : List α) (n : ℕ) : Option σ := (actions.take n).foldlM act start

theorem after_succ (actions : List α) {n : ℕ} (hn : n < actions.length) :
    after act start actions (n + 1) = (after act start actions n).bind (act · actions[n]) := by
  rw [after, List.take_add_one, List.getElem?_eq_getElem hn, List.foldlM_append]
  simp [after]

theorem after_isSome {actions : List α} (h : (actions.foldlM act start).isSome) (n : ℕ) :
    (after act start actions n).isSome := by
  rw [← List.take_append_drop n actions, List.foldlM_append] at h
  exact Option.isSome_of_isSome_bind h

variable (step) in
/-- The run that takes the given actions, and then nothing. -/
def Run.of (party : σ → α → Option ι)
    (hstep : ∀ s s' action, act s action = some s' → step (party s action) s s') (actions : List α)
    (h : (actions.foldlM act start).isSome) : Run step where
  states n := (after act start actions n).get (after_isSome act start h n)
  party n := actions[n]?.bind (party ((after act start actions n).get (after_isSome act start h n)))
  next n := by
    rcases Nat.lt_or_ge n actions.length with hlt | hge
    · left
      have hsucc := after_succ act start actions hlt
      rw [← Option.some_get (after_isSome act start h n), Option.bind_some] at hsucc
      rw [List.getElem?_eq_getElem hlt]
      exact hstep _ _ _ (hsucc.symm.trans
        (Option.some_get (after_isSome act start h (n + 1))).symm)
    · right
      simp [List.getElem?_eq_none hge, after, List.take_of_length_le hge,
        List.take_of_length_le (Nat.le_succ_of_le hge)]

/-- A run is fair when nobody can go on at its end. -/
theorem Run.of_fair (party : σ → α → Option ι)
    (hstep : ∀ s s' action, act s action = some s' → step (party s action) s s') (actions : List α)
    (h : (actions.foldlM act start).isSome)
    (hends : ∀ i, ¬ Enabled step i ((actions.foldlM act start).get h)) :
    (Run.of step act start party hstep actions h).Fair := by
  intro i n henabled
  refine absurd (henabled (max n actions.length) (le_max_left _ _)) ?_
  simpa [Run.of, after, List.take_of_length_le (le_max_right n actions.length)] using hends i

end OfActions

end Fair

end Hc.Reaches
