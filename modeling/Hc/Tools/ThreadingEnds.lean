import Mathlib.Algebra.Order.BigOperators.Group.Finset
import Mathlib.Data.Prod.Lex
import Hc.Tools.ThreadingLock

/-!
# The threads end

Where no thread that can go on waits forever, the program returns. The measure is what is left to be
done by the threads, and then how far those that wait are from `takeLock`. The thread that helps is
the one with the lock; when nobody has it, any thread that is not waiting for another one.
-/

namespace Hc.Threading

section Measure

variable (c : Config) (s : State) (t : ℕ)

/-- What is left behind the last `releaseLock`. -/
def Config.behind (t : ℕ) : ℕ := if t = 0 then c.children + 1 else 2

/-- What is left to be done by a thread. -/
def Config.work (t i : ℕ) : Pc → ℕ
  | .none => c.behind t + 6 * (c.iterations - i) + 7
  | .clone child => c.behind t + 6 * (c.iterations - i) + 7 + (c.children + 1 - child)
  | .exchange | .spin | .futexWait | .sleep => c.behind t + 6 * (c.iterations - i) + 6
  | .load => c.behind t + 6 * (c.iterations - i) + 5
  | .store _ => c.behind t + 6 * (c.iterations - i) + 4
  | .print texts => c.behind t + 3 + texts.length
  | .unlock => (if i < c.iterations then c.behind t + 6 * (c.iterations - i) else c.behind t) + 2
  | .wake => (if i < c.iterations then c.behind t + 6 * (c.iterations - i) else c.behind t) + 1
  | .clearTid => 2
  | .wakeTid => 1
  | .waitChild child | .waitFutex child | .waitSleep child => c.children + 2 - child
  | .exited | .report | .returned => 0

/-- How far a thread that could go on is from finding out. -/
def State.delay : ℕ :=
  match (s.threads t).pc with
  | .spin | .futexWait => if s.lock = .locked then 0 else 1
  | .sleep => if s.lock = .locked then 0 else 2
  | .waitFutex child | .waitSleep child => if s.childDone child = 0 then 1 else 0
  | _ => 0

def Config.left : ℕ ×ₗ ℕ :=
  toLex (∑ t ∈ Finset.range (c.children + 1), c.work t (s.threads t).i (s.threads t).pc,
    ∑ t ∈ Finset.range (c.children + 1), s.delay t)

/-- The thread does not wait for another one. -/
def Helps : Prop :=
  if s.lock = .locked then (s.threads t).pc.Holds
  else match (s.threads t).pc with
    | .clone _ | .exchange | .spin | .futexWait | .wake | .clearTid | .wakeTid | .report => True
    | .waitChild child => c.children < child ∨ s.childDone child = 0
    | .waitFutex child => s.childDone child = 0
    | _ => False

end Measure

section Moves

variable {c : Config} {s s' : State} {t : ℕ}

theorem Running.work_of_ne (h : Running c s) (hmove : Moves c s t s') (u : ℕ) (hu : u ≠ t) :
    c.work u (s'.threads u).i (s'.threads u).pc ≤ c.work u (s.threads u).i (s.threads u).pc := by
  cases hmove
  case clone child hpc hle =>
    by_cases huc : u = child
    · subst huc
      simp [hu, Config.work, (h.of_clone hpc).2.2]
    · simp [hu, huc]
  case wake v hpc hsleep =>
    by_cases huv : u = v
    · subst huv
      simp [hu, Config.work, hsleep]
    · simp [hu, huv]
  case wakeTid hpc hsleep =>
    by_cases hzero : u = 0
    · subst hzero
      simp [hu, Config.work, hsleep]
    · simp [hu, hzero]
  all_goals simp [hu]

theorem Config.work_released (c : Config) (t : ℕ) (thread : Thread) :
    c.work t (c.released t thread).i (c.released t thread).pc =
      if thread.i < c.iterations then c.behind t + 6 * (c.iterations - thread.i)
      else c.behind t := by
  unfold Config.released
  split
  next hlt =>
    simp only [Config.work]
    omega
  next hge =>
    split
    next hzero => simp [Config.work, Config.behind, hzero]
    next hne => simp [Config.work, Config.behind, hne]

theorem Config.work_locked (c : Config) (t i : ℕ) :
    c.work t i (c.locked t i) < c.work t i .exchange := by
  unfold Config.locked
  split
  next => simp [Config.work]
  next =>
    have hlength : (c.message t).length ≤ 2 := by
      unfold Config.message
      split <;> simp
    simp only [Config.work]
    omega

/-- A step that leaves as much work as before changes nothing but its own thread, which comes closer
to `takeLock`, or waits for another one. -/
theorem Running.work_or (h : Running c s) (hmove : Moves c s t s') (hstatus : s'.status = none) :
    c.work t (s'.threads t).i (s'.threads t).pc < c.work t (s.threads t).i (s.threads t).pc ∨
      c.work t (s'.threads t).i (s'.threads t).pc = c.work t (s.threads t).i (s.threads t).pc ∧
        s'.lock = s.lock ∧ s'.childDone = s.childDone ∧
        (∀ u, u ≠ t → s'.threads u = s.threads u) ∧
        (s'.delay t < s.delay t ∨ s'.delay t = s.delay t ∧ ¬ Helps c s t) := by
  have ht := h.fits t
  have hdone := h.childDone_eq
  cases hmove
  case report => simp at hstatus
  case spin hpc hlock _ =>
    exact .inr (by simp +contextual [hpc, hlock, Config.work, State.delay, Helps, Pc.Holds])
  case wait hpc hlock _ =>
    exact .inr (by simp +contextual [hpc, hlock, Config.work, State.delay, Helps, Pc.Holds])
  case spinAgain hpc hlock =>
    exact .inr (by simp +contextual [hpc, hlock, Config.work, State.delay, Helps, Pc.Holds])
  case spinEnds hpc hlock =>
    exact .inr (by simp +contextual [hpc, hlock, Config.work, State.delay, Helps])
  case sleep hpc hlock =>
    exact .inr (by simp +contextual [hpc, hlock, Config.work, State.delay, Helps, Pc.Holds])
  case waitEnds hpc hlock =>
    exact .inr (by simp +contextual [hpc, hlock, Config.work, State.delay, Helps])
  case childRuns child hpc hle hdone =>
    exact .inr (by simp +contextual [hpc, Config.work, State.delay, Helps, Pc.Holds, hdone, hle])
  case childSleep child hpc hdone =>
    exact .inr (by simp +contextual [hpc, Config.work, State.delay, Helps, Pc.Holds, hdone])
  case childAgain child hpc hne =>
    rw [hpc] at ht
    have hzero : s.childDone child = 0 := by
      have := hdone child (by obtain ⟨-, -, hpos, -⟩ := ht; omega)
      omega
    exact .inr (by simp +contextual [hpc, Config.work, State.delay, hzero])
  case spurious hpc =>
    refine .inr ?_
    cases hlock : s.lock <;>
      simp +contextual [hpc, hlock, Config.work, State.delay, Helps, Pc.Holds]
  case spuriousChild child hpc =>
    refine .inr ?_
    by_cases hzero : s.childDone child = 0 <;>
      simp +contextual [hpc, Config.work, State.delay, hzero, Helps, Pc.Holds]
  all_goals left
  case clone child hpc hle =>
    have hne : t ≠ child := by grind [h.of_clone hpc]
    simp only [State.threads_goto, if_true, if_neg hne, hpc, Config.work]
    omega
  case cloned child hpc hlt =>
    simp only [State.threads_goto, if_true, hpc, Config.work]
    omega
  case acquire hpc hlock => simpa [hpc] using c.work_locked t (s.threads t).i
  case store value hpc =>
    have hlt : (s.threads t).i < c.iterations := by
      rw [hpc] at ht
      exact ht.1
    simp [hpc, Config.work, hlt]
  case printed hpc =>
    have hi : (s.threads t).i = c.iterations := by
      rw [hpc] at ht
      exact ht.1
    simp [hpc, Config.work, hi]
  case unlock hpc _ =>
    simp only [hpc, State.threads_set, if_true, Config.work_released]
    simp [Config.work]
  case unlockWake hpc _ => simp [hpc, Config.work]
  case wakeNone hpc _ =>
    simp only [hpc, State.threads_set, if_true, Config.work_released]
    simp [Config.work]
  case wake u hpc hsleep =>
    simp only [hpc, State.threads_set, if_true, Config.work_released]
    simp [Config.work]
  case wakeTid hpc _ => simp [hpc, Config.work]
  case exit hpc _ => simp [hpc, Config.work]
  case childDone child hpc hle _ =>
    simp only [State.threads_goto, if_true, hpc, Config.work]
    omega
  case childrenDone child hpc _ =>
    rw [hpc] at ht
    obtain ⟨-, -, -, hle, -⟩ := ht
    simp only [State.threads_goto, if_true, hpc, Config.work]
    omega
  all_goals
    rename_i hpc
    simp [Config.work, hpc]

theorem Running.left_moves (h : Running c s) (hmove : Moves c s t s') (hstatus : s'.status = none) :
    c.left s' < c.left s ∨ c.left s' = c.left s ∧ ∀ u, Helps c s u → u ≠ t ∧ Helps c s' u := by
  have ht := h.mem_range hmove
  have hle (u : ℕ) (hu : u ≠ t) := h.work_of_ne hmove u hu
  rcases h.work_or hmove hstatus with hlt | ⟨hwork, hlock, hdone, hothers, hdelay⟩
  · refine .inl (Prod.Lex.toLex_lt_toLex.mpr (.inl ?_))
    refine Finset.sum_lt_sum (fun u _ => ?_) ⟨t, ht, hlt⟩
    by_cases hut : u = t
    · exact hut ▸ hlt.le
    · exact hle u hut
  · have hsame : ∑ u ∈ Finset.range (c.children + 1),
        c.work u (s'.threads u).i (s'.threads u).pc =
        ∑ u ∈ Finset.range (c.children + 1), c.work u (s.threads u).i (s.threads u).pc := by
      refine Finset.sum_congr rfl fun u _ => ?_
      by_cases hut : u = t
      · exact hut ▸ hwork
      · rw [hothers u hut]
    have hdelays (u : ℕ) (hut : u ≠ t) : s'.delay u = s.delay u := by
      simp [State.delay, hothers u hut, hlock, hdone]
    rcases hdelay with hlt | ⟨heq, hnot⟩
    · refine .inl (Prod.Lex.toLex_lt_toLex.mpr (.inr ⟨hsame, Finset.sum_lt_sum (fun u _ => ?_)
        ⟨t, ht, hlt⟩⟩))
      by_cases hut : u = t
      · exact hut ▸ hlt.le
      · exact (hdelays u hut).le
    · refine .inr ⟨?_, fun u hu => ?_⟩
      · unfold Config.left
        rw [hsame]
        congr 2
        refine Finset.sum_congr rfl fun u _ => ?_
        by_cases hut : u = t
        · exact hut ▸ heq
        · exact hdelays u hut
      · have hut : u ≠ t := by
          rintro rfl
          exact hnot hu
        refine ⟨hut, ?_⟩
        simpa [Helps, hothers u hut, hlock, hdone] using hu

theorem Running.exists_helps (h : Running c s) (hawake : Awake s) : ∃ u, Helps c s u := by
  by_contra hnot
  push Not at hnot
  have hunlocked : s.lock = .unlocked := by
    by_contra hlock
    have hlock : s.lock = .locked := Lock.ne_unlocked.mp hlock
    obtain ⟨u, hu⟩ := h.lock_eq.mp hlock
    exact hnot u (by simpa [Helps, hlock] using hu)
  have hidle (u : ℕ) : ¬ (s.threads u).pc.Holds := by
    intro hu
    have hlocked := h.lock_eq.mpr ⟨u, hu⟩
    simp [hunlocked] at hlocked
  simp only [Helps, hunlocked, reduceCtorEq, if_false] at hnot
  have hcontends (u : ℕ) : ¬ (s.threads u).pc.Contends := by
    grind [Pc.Contends]
  have hsleep (u : ℕ) : (s.threads u).pc ≠ .sleep := by
    intro hu
    rcases hawake.lock u hu with hlocked | ⟨v, hv⟩
    · simp [hunlocked] at hlocked
    · exact hcontends v hv
  have hstarted (u : ℕ) (hu : u ≤ c.children) : (s.threads u).pc ≠ .none := by
    intro hnone
    obtain ⟨child, hclone, -⟩ := h.started u hnone hu
    simpa [hclone] using hnot 0
  have hexited (u : ℕ) (hpos : u ≠ 0) (hu : u ≤ c.children) : (s.threads u).pc = .exited := by
    have hfits := h.fits u
    have hstarted := hstarted u hu
    have hnot := hnot u
    have hidle := hidle u
    have hsleep := hsleep u
    cases hpc : (s.threads u).pc <;> simp_all [Fits, Pc.Holds]
  have hdone (u : ℕ) (hpos : u ≠ 0) (hu : u ≤ c.children) : s.childDone u = 0 := by
    grind [h.childDone_eq u hpos, hexited u hpos hu, Pc.Cleared]
  have hfits := h.fits 0
  have hstarted := hstarted 0 (Nat.zero_le _)
  have hnot := hnot 0
  have hidle := hidle 0
  have hsleep := hsleep 0
  have hchild := hawake.child
  cases hpc : (s.threads 0).pc
  all_goals simp only [hpc, Fits, Pc.Holds] at hfits hstarted hnot hidle hsleep
  all_goals grind

theorem Running.enabled_of_helps (h : Running c s) (hhelps : Helps c s t) :
    Reaches.Enabled (Step c) t s := by
  have hgoes {s' : State} (hmove : Moves c s t s') (hawake : (s.threads t).pc ≠ .sleep)
      (hchild : ∀ child, (s.threads t).pc ≠ .waitSleep child) : Reaches.Enabled (Step c) t s :=
    ⟨s', step_of_moves h.status_eq hmove hawake hchild⟩
  unfold Helps at hhelps
  split at hhelps
  next hlock =>
    cases hpc : (s.threads t).pc with
    | load => exact hgoes (.load hpc) (by simp [hpc]) (by simp [hpc])
    | store value => exact hgoes (.store value hpc) (by simp [hpc]) (by simp [hpc])
    | print texts =>
        cases texts with
        | nil => exact hgoes (.printed hpc) (by simp [hpc]) (by simp [hpc])
        | cons text texts => exact hgoes (.print text texts hpc) (by simp [hpc]) (by simp [hpc])
    | unlock =>
        cases hspin : c.spin with
        | true => exact hgoes (.unlock hpc hspin) (by simp [hpc]) (by simp [hpc])
        | false => exact hgoes (.unlockWake hpc hspin) (by simp [hpc]) (by simp [hpc])
    | _ => simp [hpc, Pc.Holds] at hhelps
  next hlock =>
    have hlock := Lock.ne_locked.mp hlock
    cases hpc : (s.threads t).pc with
    | clone child =>
        rcases Nat.lt_or_ge c.children child with hlt | hle
        · exact hgoes (.cloned child hpc hlt) (by simp [hpc]) (by simp [hpc])
        · exact hgoes (.clone child hpc hle) (by simp [hpc]) (by simp [hpc])
    | exchange => exact hgoes (.acquire hpc hlock) (by simp [hpc]) (by simp [hpc])
    | spin => exact hgoes (.spinEnds hpc hlock) (by simp [hpc]) (by simp [hpc])
    | futexWait => exact hgoes (.waitEnds hpc hlock) (by simp [hpc]) (by simp [hpc])
    | wake =>
        by_cases hsleep : ∃ u, (s.threads u).pc = .sleep
        · obtain ⟨u, hu⟩ := hsleep
          exact hgoes (.wake u hpc hu) (by simp [hpc]) (by simp [hpc])
        · exact hgoes (.wakeNone hpc fun u _ hu => hsleep ⟨u, hu⟩) (by simp [hpc]) (by simp [hpc])
    | clearTid => exact hgoes (.clearTid hpc) (by simp [hpc]) (by simp [hpc])
    | wakeTid =>
        by_cases hsleep : (s.threads 0).pc = .waitSleep t
        · exact hgoes (.wakeTid hpc hsleep) (by simp [hpc]) (by simp [hpc])
        · exact hgoes (.exit hpc hsleep) (by simp [hpc]) (by simp [hpc])
    | waitChild child =>
        rcases Nat.lt_or_ge c.children child with hlt | hle
        · exact hgoes (.childrenDone child hpc hlt) (by simp [hpc]) (by simp [hpc])
        · have hzero : s.childDone child = 0 := by
            rcases (by simpa [hpc] using hhelps : c.children < child ∨ s.childDone child = 0) with
              hlt | hzero
            · omega
            · exact hzero
          exact hgoes (.childDone child hpc hle hzero) (by simp [hpc]) (by simp [hpc])
    | waitFutex child =>
        have hzero : s.childDone child = 0 := by simpa [hpc] using hhelps
        exact hgoes (.childAgain child hpc (by simp [hzero])) (by simp [hpc]) (by simp [hpc])
    | report => exact hgoes (.report hpc) (by simp [hpc]) (by simp [hpc])
    | _ => simp [hpc] at hhelps

theorem progress (c : Config) :
    Reaches.Progress (P := Good c) (Step c) (fun s => s.status.isSome) (Helps c) c.left where
  keeps _ _ _ hgood _ hstep _ := hgood.step hstep
  exists_helps s hgood hstatus := by
    obtain ⟨hrunning, -, hawake⟩ := hgood.running (by simpa using hstatus)
    exact hrunning.exists_helps hawake
  enabled s t hgood hstatus hhelps :=
    (hgood.running (by simpa using hstatus)).1.enabled_of_helps hhelps
  other party s s' hgood hstatus hstep hstatus' := by
    have hs : s.status = none := by simpa using hstatus
    have hs' : s'.status = none := by simpa using hstatus'
    obtain ⟨-, ⟨t, hmove, hparty⟩ | rfl⟩ := moves_or_of_step hstep
    swap
    · simp at hs'
    rcases (hgood.running hs).1.left_moves hmove hs' with hlt | ⟨hsame, hkept⟩
    · exact .inl hlt
    · refine .inr ⟨hsame, fun u hu => ⟨?_, (hkept u hu).2⟩⟩
      rcases hparty with rfl | rfl
      · simp
      · simpa using (hkept u hu).1.symm

/-- However the threads take turns, and whenever a wait returns early, the program returns: with the
counter and all messages printed, or because a child could not be started. -/
theorem fair_run_returns (run : Reaches.Run (Step c)) (hstart : run.states 0 = .start)
    (hfair : run.Fair) :
    ∃ n, (run.states n).status = some 0 ∧ Result c (run.states n) ∨
      (run.states n).status = some 1 := by
  have hgood (n : ℕ) : Good c (run.states n) := by
    induction n with
    | zero => exact hstart ▸ Good.start
    | succ n ih =>
        rcases run.next n with hstep | ⟨-, hsame⟩
        · exact ih.step hstep
        · exact hsame ▸ ih
  obtain ⟨n, hn⟩ := run.reaches hfair (progress c) 0 (hgood 0)
  obtain ⟨status, hstatus⟩ := Option.isSome_iff_exists.mp hn
  refine ⟨n, ?_⟩
  rcases (hgood n).ended status hstatus with ⟨rfl, hresult⟩ | rfl
  · exact .inl ⟨hstatus, hresult⟩
  · exact .inr hstatus

end Moves

section Sample

variable (c : Config)

/-- The run that takes the given actions, and then nothing. -/
def runOf (actions : List Action) (h : (actions.foldlM (act c) .start).isSome) :
    Reaches.Run (Step c) :=
  .of (Step c) (act c) .start (fun _ => Action.takenBy) step_takenBy actions h

/-- A run is fair when it ends. -/
theorem runOf_fair (actions : List Action) (h : (actions.foldlM (act c) .start).isSome)
    (hends : ((actions.foldlM (act c) .start).get h).status.isSome) : (runOf c actions h).Fair := by
  refine Reaches.Run.of_fair _ _ _ _ _ _ fun t => ?_
  rintro ⟨s', woken, hact⟩
  simp [act, hends] at hact

theorem sampleActions_isSome :
    (sampleActions.foldlM (act ⟨false, 1, 1, fun _ => "child1"⟩) .start).isSome := by decide

theorem fair_run_returns_sample :
    ∃ n, ((runOf _ sampleActions sampleActions_isSome).states n).status = some 0 ∧
        Result ⟨false, 1, 1, fun _ => "child1"⟩
          ((runOf _ sampleActions sampleActions_isSome).states n) ∨
      ((runOf _ sampleActions sampleActions_isSome).states n).status = some 1 :=
  fair_run_returns _ rfl (runOf_fair _ sampleActions sampleActions_isSome (by decide))

end Sample

end Hc.Threading
