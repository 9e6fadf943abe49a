import Mathlib.Algebra.BigOperators.Group.Finset.Basic
import Hc.Tools.Threading

/-!
# What the lock protects

While the program runs, the thread that has the lock is the only one that reads or writes the
counter, so that the counter is the number of iterations that are done.
-/

namespace Hc.Threading

section Moves

variable (c : Config) (s : State) (t : ℕ)

/-- What a thread does next, one case for each branch. -/
inductive Moves : State → Prop
  | clone (child : ℕ) (hpc : (s.threads t).pc = .clone child) (hle : child ≤ c.children) :
      Moves ((s.goto child .exchange).goto t (.clone (child + 1)))
  | cloned (child : ℕ) (hpc : (s.threads t).pc = .clone child) (hlt : c.children < child) :
      Moves (s.goto t .exchange)
  | acquire (hpc : (s.threads t).pc = .exchange) (hlock : s.lock = .unlocked) :
      Moves (State.goto { s with lock := .locked } t (c.locked t (s.threads t).i))
  | spin (hpc : (s.threads t).pc = .exchange) (hlock : s.lock = .locked) (hspin : c.spin = true) :
      Moves (s.goto t .spin)
  | wait (hpc : (s.threads t).pc = .exchange) (hlock : s.lock = .locked) (hspin : c.spin = false) :
      Moves (s.goto t .futexWait)
  | spinAgain (hpc : (s.threads t).pc = .spin) (hlock : s.lock = .locked) : Moves s
  | spinEnds (hpc : (s.threads t).pc = .spin) (hlock : s.lock = .unlocked) :
      Moves (s.goto t .exchange)
  | sleep (hpc : (s.threads t).pc = .futexWait) (hlock : s.lock = .locked) :
      Moves (s.goto t .sleep)
  | waitEnds (hpc : (s.threads t).pc = .futexWait) (hlock : s.lock = .unlocked) :
      Moves (s.goto t .exchange)
  | load (hpc : (s.threads t).pc = .load) : Moves (s.goto t (.store s.counter))
  | store (value : ℤ) (hpc : (s.threads t).pc = .store value) :
      Moves (State.goto { s with counter := value + 1 } t .unlock)
  | printed (hpc : (s.threads t).pc = .print []) : Moves (s.goto t .unlock)
  | print (text : String) (texts : List String) (hpc : (s.threads t).pc = .print (text :: texts)) :
      Moves (State.goto { s with output := s.output ++ [Output.text text] } t (.print texts))
  | unlock (hpc : (s.threads t).pc = .unlock) (hspin : c.spin = true) :
      Moves (State.set { s with lock := .unlocked } t (c.released t (s.threads t)))
  | unlockWake (hpc : (s.threads t).pc = .unlock) (hspin : c.spin = false) :
      Moves (State.goto { s with lock := .unlocked } t .wake)
  | wakeNone (hpc : (s.threads t).pc = .wake)
      (hnone : ∀ u < c.children + 1, (s.threads u).pc ≠ .sleep) :
      Moves (s.set t (c.released t (s.threads t)))
  | wake (u : ℕ) (hpc : (s.threads t).pc = .wake) (hsleep : (s.threads u).pc = .sleep) :
      Moves ((s.goto u .exchange).set t (c.released t (s.threads t)))
  | clearTid (hpc : (s.threads t).pc = .clearTid) :
      Moves (State.goto { s with childDone := Function.update s.childDone t 0 } t .wakeTid)
  | wakeTid (hpc : (s.threads t).pc = .wakeTid) (hsleep : (s.threads 0).pc = .waitSleep t) :
      Moves ((s.goto 0 (.waitChild t)).goto t .exited)
  | exit (hpc : (s.threads t).pc = .wakeTid) (hsleep : (s.threads 0).pc ≠ .waitSleep t) :
      Moves (s.goto t .exited)
  | childDone (child : ℕ) (hpc : (s.threads t).pc = .waitChild child) (hle : child ≤ c.children)
      (hdone : s.childDone child = 0) : Moves (s.goto t (.waitChild (child + 1)))
  | childRuns (child : ℕ) (hpc : (s.threads t).pc = .waitChild child) (hle : child ≤ c.children)
      (hdone : s.childDone child ≠ 0) : Moves (s.goto t (.waitFutex child))
  | childrenDone (child : ℕ) (hpc : (s.threads t).pc = .waitChild child)
      (hlt : c.children < child) : Moves (s.goto t .report)
  | childSleep (child : ℕ) (hpc : (s.threads t).pc = .waitFutex child)
      (hdone : s.childDone child = 1) : Moves (s.goto t (.waitSleep child))
  | childAgain (child : ℕ) (hpc : (s.threads t).pc = .waitFutex child)
      (hdone : s.childDone child ≠ 1) : Moves (s.goto t (.waitChild child))
  | spurious (hpc : (s.threads t).pc = .sleep) : Moves (s.goto t .exchange)
  | spuriousChild (child : ℕ) (hpc : (s.threads t).pc = .waitSleep child) :
      Moves (s.goto t (.waitChild child))
  | report (hpc : (s.threads t).pc = .report) :
      Moves { s.goto t .returned with
        output := s.output ++ [.text "Counter", .number s.counter]
        status := some 0 }

end Moves

@[simp]
theorem Lock.ne_unlocked {lock : Lock} : lock ≠ .unlocked ↔ lock = .locked := by
  cases lock <;> simp

@[simp]
theorem Lock.ne_locked {lock : Lock} : lock ≠ .locked ↔ lock = .unlocked := by
  cases lock <;> simp

theorem moves_of_advance {c : Config} {s s' : State} {t : ℕ} {woken : Option ℕ}
    (h : advance c s t woken = some s') : Moves c s t s' := by
  unfold advance at h
  split at h
  all_goals try split at h
  all_goals try split at h
  all_goals try contradiction
  all_goals cases h
  all_goals rename_i hpc
  · exact .clone _ ‹_› ‹_›
  · exact .cloned _ ‹_› (by omega)
  · exact .acquire ‹_› ‹_›
  · exact .spin ‹_› (Lock.ne_unlocked.mp ‹_›) ‹_›
  · exact .wait ‹_› (Lock.ne_unlocked.mp ‹_›) (by simpa using hpc)
  · exact .spinAgain ‹_› ‹_›
  · exact .spinEnds ‹_› (Lock.ne_locked.mp ‹_›)
  · exact .sleep ‹_› ‹_›
  · exact .waitEnds ‹_› (Lock.ne_locked.mp ‹_›)
  · exact .load ‹_›
  · exact .store _ ‹_›
  · exact .printed ‹_›
  · exact .print _ _ ‹_›
  · exact .unlock ‹_› ‹_›
  · exact .unlockWake ‹_› (by simpa using hpc)
  · exact .wakeNone ‹_› ‹_›
  · exact .wake _ ‹_› ‹_›
  · exact .clearTid ‹_›
  · exact .wakeTid ‹_› ‹_›
  · exact .exit ‹_› ‹_›
  · exact .childDone _ ‹_› ‹_› ‹_›
  · exact .childRuns _ ‹_› ‹_› ‹_›
  · exact .childrenDone _ ‹_› (by omega)
  · exact .childSleep _ ‹_› ‹_›
  · exact .childAgain _ ‹_› ‹_›
  · exact .report ‹_›

theorem moves_of_spurious {c : Config} {s s' : State} {t : ℕ}
    (h : act c s (.spurious t) = some s') : Moves c s t s' := by
  unfold act at h
  split at h
  next => contradiction
  next =>
    dsimp only at h
    split at h
    next hpc =>
      cases h
      exact .spurious hpc
    next child hpc =>
      cases h
      exact .spuriousChild child hpc
    next => contradiction

/-- A thread that does not sleep goes on. -/
theorem step_of_moves {c : Config} {s s' : State} {t : ℕ} (hs : s.status = none)
    (h : Moves c s t s') (hawake : (s.threads t).pc ≠ .sleep)
    (hchild : ∀ child, (s.threads t).pc ≠ .waitSleep child) : Step c (some t) s s' := by
  have hact (woken : Option ℕ) : act c s (.run t woken) = advance c s t woken := by
    simp [act, hs]
  simp only [Step, hact]
  cases h with
  | wake u hpc hsleep => exact ⟨some u, by simp [advance, hpc, hsleep]⟩
  | _ =>
      refine ⟨none, ?_⟩
      unfold advance
      grind

/-- With the lock. -/
def Pc.Holds : Pc → Prop
  | .load | .store _ | .print _ | .unlock => True
  | _ => False

/-- `sys_exit` has cleared `child_tid`. -/
def Pc.Cleared : Pc → Prop
  | .wakeTid | .exited => True
  | _ => False

/-- What is true of a thread, wherever it is. -/
def Fits (c : Config) (s : State) (t i : ℕ) : Pc → Prop
  | .none => t ≠ 0 ∧ i = 0
  | .clone child => t = 0 ∧ i = 0 ∧ 1 ≤ child ∧ child ≤ c.children + 1
  | .exchange | .unlock => i ≤ c.iterations
  | .spin => c.spin = true ∧ i ≤ c.iterations
  | .futexWait | .sleep | .wake => c.spin = false ∧ i ≤ c.iterations
  | .load => i < c.iterations
  | .store value => i < c.iterations ∧ value = s.counter
  | .print texts => i = c.iterations ∧ texts <:+ c.message t
  | .clearTid | .wakeTid | .exited => t ≠ 0 ∧ i = c.iterations
  | .waitChild child => t = 0 ∧ i = c.iterations ∧ 1 ≤ child ∧ child ≤ c.children + 1 ∧
    ∀ j, 1 ≤ j → j < child → s.childDone j = 0
  | .waitFutex child | .waitSleep child => t = 0 ∧ i = c.iterations ∧ 1 ≤ child ∧
    child ≤ c.children ∧ ∀ j, 1 ≤ j → j < child → s.childDone j = 0
  | .report => t = 0 ∧ i = c.iterations ∧ ∀ j, 1 ≤ j → j ≤ c.children → s.childDone j = 0
  | .returned => False

/-- The increments of a thread that are in the counter. -/
def Config.counted (c : Config) (thread : Thread) : ℕ :=
  match thread.pc with
  | .unlock | .wake => min (thread.i + 1) c.iterations
  | _ => thread.i

/-- The state while the program runs. -/
structure Running (c : Config) (s : State) : Prop where
  status_eq : s.status = none
  fits : ∀ t, Fits c s t (s.threads t).i (s.threads t).pc
  exclusive : ∀ t u, (s.threads t).pc.Holds → (s.threads u).pc.Holds → t = u
  lock_eq : s.lock = .locked ↔ ∃ t, (s.threads t).pc.Holds
  counter_eq : s.counter = ∑ t ∈ Finset.range (c.children + 1), (c.counted (s.threads t) : ℤ)
  -- The threads that are not started are those behind the one that the parent is about to start.
  unused : ∀ t, c.children < t → (s.threads t).pc = .none
  started : ∀ t, (s.threads t).pc = .none → t ≤ c.children →
    ∃ child, (s.threads 0).pc = .clone child ∧ child ≤ t
  unstarted : ∀ child t, (s.threads 0).pc = .clone child → child ≤ t → (s.threads t).pc = .none
  childDone_eq : ∀ t, t ≠ 0 → (s.threads t).pc.Cleared ∧ s.childDone t = 0 ∨
    ¬ (s.threads t).pc.Cleared ∧ s.childDone t = 1

namespace State

variable (s : State) (t u : ℕ) (thread : Thread) (pc : Pc)

@[simp, grind =]
theorem threads_set : (s.set t thread).threads u = if u = t then thread else s.threads u := by
  simp [set, Function.update_apply]

@[simp, grind =]
theorem threads_goto :
    (s.goto t pc).threads u = if u = t then ⟨pc, (s.threads t).i⟩ else s.threads u := by
  simp [goto]

@[simp, grind =] theorem lock_set : (s.set t thread).lock = s.lock := rfl
@[simp, grind =] theorem counter_set : (s.set t thread).counter = s.counter := rfl
@[simp, grind =] theorem childDone_set : (s.set t thread).childDone = s.childDone := rfl
@[simp, grind =] theorem output_set : (s.set t thread).output = s.output := rfl
@[simp, grind =] theorem status_set : (s.set t thread).status = s.status := rfl
@[simp, grind =] theorem lock_goto : (s.goto t pc).lock = s.lock := rfl
@[simp, grind =] theorem counter_goto : (s.goto t pc).counter = s.counter := rfl
@[simp, grind =] theorem childDone_goto : (s.goto t pc).childDone = s.childDone := rfl
@[simp, grind =] theorem output_goto : (s.goto t pc).output = s.output := rfl
@[simp, grind =] theorem status_goto : (s.goto t pc).status = s.status := rfl

end State

section Keeps

variable {c : Config} {s s' : State} {t : ℕ}

theorem Running.exclusive_moves (h : Running c s) (hmove : Moves c s t s') (u v : ℕ)
    (hu : (s'.threads u).pc.Holds) (hv : (s'.threads v).pc.Holds) : u = v := by
  have hlock := h.lock_eq
  have hexclusive := h.exclusive
  cases hmove
  all_goals grind [Pc.Holds, Config.locked, Config.released]

theorem Running.of_clone (h : Running c s) {child : ℕ} (hpc : (s.threads t).pc = .clone child) :
    t = 0 ∧ 1 ≤ child ∧ (s.threads child).pc = .none := by
  have ht := h.fits t
  rw [hpc] at ht
  obtain ⟨rfl, -, hpos, -⟩ := ht
  exact ⟨rfl, hpos, h.unstarted child child hpc le_rfl⟩

/-- A thread that does not move keeps what is true of it. -/
theorem Fits.mono {i : ℕ} {pc : Pc} (h : Fits c s t i pc)
    (hcounter : ∀ value, pc = .store value → s'.counter = s.counter)
    (hdone : ∀ j, s.childDone j = 0 → s'.childDone j = 0) : Fits c s' t i pc := by
  cases pc <;> grind [Fits]

theorem Moves.counter_eq (hmove : Moves c s t s') (hholds : ¬ (s.threads t).pc.Holds) :
    s'.counter = s.counter := by
  cases hmove
  all_goals grind [Pc.Holds]

theorem Moves.childDone_eq (hmove : Moves c s t s') (j : ℕ) (hdone : s.childDone j = 0) :
    s'.childDone j = 0 := by
  cases hmove
  case clearTid => simp [Function.update_apply, hdone]
  all_goals grind

theorem Running.fits_moves (h : Running c s) (hmove : Moves c s t s') (u : ℕ)
    (hstatus : s'.status = none) : Fits c s' u (s'.threads u).i (s'.threads u).pc := by
  by_cases hsame : s'.threads u = s.threads u ∧ u ≠ t
  · rw [hsame.1]
    refine (h.fits u).mono (fun value hstore => hmove.counter_eq fun hholds => ?_)
      hmove.childDone_eq
    exact hsame.2 (h.exclusive u t (by simp [hstore, Pc.Holds]) hholds)
  · have ht := h.fits t
    have hu := h.fits u
    cases hmove
    case clone child hpc hle => grind [h.of_clone hpc, Fits]
    case print text texts hpc =>
      have htexts {texts' : List String} (h : text :: texts <:+ texts') : texts <:+ texts' :=
        (List.suffix_cons text texts).trans h
      grind [Fits]
    all_goals grind [Fits, Config.released, Config.locked, Pc.Holds]

/-- The lock changes hands where a thread takes or releases it, and nowhere else. -/
theorem Running.lock_or (h : Running c s) (hmove : Moves c s t s') :
    s.lock = .unlocked ∧ s'.lock = .locked ∧ (s'.threads t).pc.Holds ∨
      (s.threads t).pc.Holds ∧ s'.lock = .unlocked ∧ ¬ (s'.threads t).pc.Holds ∨
      s'.lock = s.lock ∧ ((s'.threads t).pc.Holds ↔ (s.threads t).pc.Holds) := by
  have ht := h.fits t
  cases hmove
  all_goals grind [Pc.Holds, Config.locked, Config.released, Fits]

theorem Running.holds_of_ne (h : Running c s) (hmove : Moves c s t s') (u : ℕ) (hu : u ≠ t) :
    (s'.threads u).pc.Holds ↔ (s.threads u).pc.Holds := by
  cases hmove
  case clone child hpc hle => grind [h.of_clone hpc, Pc.Holds]
  all_goals grind [Pc.Holds]

theorem Running.lock_moves (h : Running c s) (hmove : Moves c s t s') :
    s'.lock = .locked ↔ ∃ u, (s'.threads u).pc.Holds := by
  have hlock := h.lock_eq
  have hne := h.holds_of_ne hmove
  rcases h.lock_or hmove with ⟨-, hlocked, ht⟩ | ⟨ht, hunlocked, hnot⟩ | ⟨hsame, ht⟩
  · exact iff_of_true hlocked ⟨t, ht⟩
  · refine iff_of_false (by simp [hunlocked]) ?_
    rintro ⟨u, hu⟩
    by_cases hut : u = t
    · exact hnot (hut ▸ hu)
    · exact hut (h.exclusive u t ((hne u hut).mp hu) ht)
  · rw [hsame, hlock]
    refine exists_congr fun u => ?_
    by_cases hut : u = t
    · exact hut ▸ ht.symm
    · exact (hne u hut).symm

theorem Running.unused_moves (h : Running c s) (hmove : Moves c s t s') (u : ℕ)
    (hu : c.children < u) : (s'.threads u).pc = .none := by
  have hunused := h.unused u hu
  cases hmove
  all_goals grind

theorem Running.started_moves (h : Running c s) (hmove : Moves c s t s') (u : ℕ)
    (hu : (s'.threads u).pc = .none) (hle : u ≤ c.children) :
    ∃ child, (s'.threads 0).pc = .clone child ∧ child ≤ u := by
  have hstarted := h.started u
  have ht := h.fits t
  cases hmove
  all_goals grind [Fits, Config.released, Config.locked]

theorem Running.unstarted_moves (h : Running c s) (hmove : Moves c s t s') (child u : ℕ)
    (hclone : (s'.threads 0).pc = .clone child) (hle : child ≤ u) :
    (s'.threads u).pc = .none := by
  have hunstarted := h.unstarted
  have ht := h.fits t
  cases hmove
  case clone last hpc hlast =>
    obtain ⟨rfl, -, -⟩ := h.of_clone hpc
    have hlast : last + 1 = child := by simpa using hclone
    have hu := hunstarted last u hpc (by omega)
    grind
  all_goals grind [Fits, Config.released, Config.locked]

theorem Running.childDone_moves (h : Running c s) (hmove : Moves c s t s') (u : ℕ) (hu : u ≠ 0) :
    (s'.threads u).pc.Cleared ∧ s'.childDone u = 0 ∨
      ¬ (s'.threads u).pc.Cleared ∧ s'.childDone u = 1 := by
  have hdone := h.childDone_eq u hu
  have ht := h.fits t
  cases hmove
  case clone child hpc hle => grind [h.of_clone hpc, Pc.Cleared]
  case clearTid hpc =>
    by_cases hut : u = t
    · subst hut
      left
      simp [Pc.Cleared]
    · simpa [hut] using hdone
  all_goals grind [Fits, Config.released, Config.locked, Pc.Cleared]

theorem Running.counted_of_ne (h : Running c s) (hmove : Moves c s t s') (u : ℕ) (hu : u ≠ t) :
    c.counted (s'.threads u) = c.counted (s.threads u) := by
  cases hmove
  case clone child hpc hle => grind [h.of_clone hpc, Config.counted]
  all_goals grind [Config.counted]

/-- The counter grows with the increments of the thread that moves. -/
theorem Running.counted_moves (h : Running c s) (hmove : Moves c s t s') :
    s'.counter + c.counted (s.threads t) = s.counter + c.counted (s'.threads t) := by
  have ht := h.fits t
  cases hmove
  all_goals grind [Config.counted, Config.released, Config.locked, Fits]

theorem Running.mem_range (h : Running c s) (hmove : Moves c s t s') :
    t ∈ Finset.range (c.children + 1) := by
  rw [Finset.mem_range]
  by_contra hlt
  have hnone := h.unused t (by omega)
  cases hmove
  all_goals grind

theorem Running.counter_moves (h : Running c s) (hmove : Moves c s t s') :
    s'.counter = ∑ u ∈ Finset.range (c.children + 1), (c.counted (s'.threads u) : ℤ) := by
  have ht := h.mem_range hmove
  have hcounter := h.counter_eq
  have hothers : ∑ u ∈ (Finset.range (c.children + 1)).erase t, (c.counted (s'.threads u) : ℤ) =
      ∑ u ∈ (Finset.range (c.children + 1)).erase t, (c.counted (s.threads u) : ℤ) :=
    Finset.sum_congr rfl fun u hu => by
      rw [h.counted_of_ne hmove u (Finset.ne_of_mem_erase hu)]
  rw [← Finset.add_sum_erase _ _ ht] at hcounter ⊢
  have hgrows := h.counted_moves hmove
  omega

theorem Running.moves (h : Running c s) (hmove : Moves c s t s') (hstatus : s'.status = none) :
    Running c s' where
  status_eq := hstatus
  fits u := h.fits_moves hmove u hstatus
  exclusive := h.exclusive_moves hmove
  lock_eq := h.lock_moves hmove
  counter_eq := h.counter_moves hmove
  unused := h.unused_moves hmove
  started := h.started_moves hmove
  unstarted := h.unstarted_moves hmove
  childDone_eq := h.childDone_moves hmove

end Keeps

/-- The thread has printed its message. -/
def Config.Finished (c : Config) (thread : Thread) : Prop :=
  match thread.pc with
  | .unlock | .wake => thread.i = c.iterations
  | .clearTid | .wakeTid | .exited | .waitChild _ | .waitFutex _ | .waitSleep _ | .report => True
  | _ => False

/-- What is printed: the messages of the threads that have finished, and what the thread that
prints has printed so far. -/
def Lines (c : Config) (s : State) : Prop :=
  ∃ (order : List ℕ) (line : List String), order.Nodup ∧
    (∀ u, u ∈ order ↔ c.Finished (s.threads u)) ∧
    s.output = (order.flatMap c.message ++ line).map .text ∧
    (∀ u texts, (s.threads u).pc = .print texts → line ++ texts = c.message u) ∧
    ((∀ u texts, (s.threads u).pc ≠ .print texts) → line = [])

section Lines

variable {c : Config} {s s' : State} {t : ℕ}

theorem Running.finished_of_ne (h : Running c s) (hmove : Moves c s t s') (u : ℕ) (hu : u ≠ t) :
    c.Finished (s'.threads u) ↔ c.Finished (s.threads u) := by
  cases hmove
  case clone child hpc hle => grind [h.of_clone hpc, Config.Finished]
  all_goals grind [Config.Finished]

theorem Running.print_of_ne (h : Running c s) (hmove : Moves c s t s') (u : ℕ) (hu : u ≠ t)
    (texts : List String) :
    (s'.threads u).pc = .print texts ↔ (s.threads u).pc = .print texts := by
  cases hmove
  case clone child hpc hle => grind [h.of_clone hpc]
  all_goals grind

/-- What a step prints: nothing, the next text of a message, or the last of it. -/
theorem Running.prints_or (h : Running c s) (hmove : Moves c s t s') (hstatus : s'.status = none) :
    s'.output = s.output ∧ (c.Finished (s'.threads t) ↔ c.Finished (s.threads t)) ∧
        (∀ texts, (s.threads t).pc ≠ .print texts) ∧
        (∀ texts, (s'.threads t).pc = .print texts →
          s.lock = .unlocked ∧ texts = c.message t) ∨
      (∃ text texts, (s.threads t).pc = .print (text :: texts) ∧
        (s'.threads t).pc = .print texts ∧ s'.output = s.output ++ [.text text] ∧
        ¬ c.Finished (s.threads t) ∧ ¬ c.Finished (s'.threads t)) ∨
      (s.threads t).pc = .print [] ∧ (∀ texts, (s'.threads t).pc ≠ .print texts) ∧
        s'.output = s.output ∧ ¬ c.Finished (s.threads t) ∧ c.Finished (s'.threads t) := by
  have ht := h.fits t
  cases hmove
  all_goals grind [Config.Finished, Config.released, Config.locked, Fits]

theorem Running.lines_moves (h : Running c s) (hlines : Lines c s) (hmove : Moves c s t s')
    (hstatus : s'.status = none) : Lines c s' := by
  obtain ⟨order, line, hnodup, hmem, houtput, hline, hnone⟩ := hlines
  have hfinished := h.finished_of_ne hmove
  have hprint := h.print_of_ne hmove
  have hholds {u : ℕ} {texts : List String} (hu : (s.threads u).pc = .print texts) :
      (s.threads u).pc.Holds := by simp [hu, Pc.Holds]
  rcases h.prints_or hmove hstatus with ⟨hsame, ht, hnot, hnew⟩ |
    ⟨text, texts, hpc, hpc', hnew, ht, ht'⟩ | ⟨hpc, hnot', hsame, ht, ht'⟩
  · refine ⟨order, line, hnodup, fun u => ?_, hsame ▸ houtput, fun u texts hu => ?_,
      fun hall => ?_⟩
    · grind
    · by_cases hut : u = t
      · -- The thread has just taken the lock, so that nobody was printing.
        subst hut
        obtain ⟨hunlocked, rfl⟩ := hnew texts hu
        rw [hnone fun v texts hv => ?_, List.nil_append]
        have hlocked := h.lock_eq.mpr ⟨v, hholds hv⟩
        simp [hunlocked] at hlocked
      · exact hline u texts ((hprint u hut texts).mp hu)
    · refine hnone fun u texts hu => ?_
      by_cases hut : u = t
      · exact hnot texts (hut ▸ hu)
      · exact hall u texts ((hprint u hut texts).mpr hu)
  · refine ⟨order, line ++ [text], hnodup, fun u => ?_, ?_, fun u texts' hu => ?_, fun hall => ?_⟩
    · grind
    · simp [hnew, houtput]
    · have hut : u = t := by
        by_contra hut
        exact hut (h.exclusive u t (hholds ((hprint u hut texts').mp hu)) (hholds hpc))
      subst hut
      obtain rfl : texts = texts' := by simpa [hpc'] using hu
      simpa using hline u _ hpc
    · exact absurd hpc' (hall t texts)
  · have hmessage : line = c.message t := by simpa using hline t [] hpc
    refine ⟨order ++ [t], [], ?_, fun u => ?_, ?_, fun u texts hu => ?_, fun _ => rfl⟩
    · refine List.nodup_append.mpr ⟨hnodup, List.nodup_singleton t, fun u hu v hv => ?_⟩
      grind
    · grind
    · simp [hsame, houtput, hmessage]
    · by_cases hut : u = t
      · exact absurd (hut ▸ hu) (hnot' texts)
      · exact absurd (h.exclusive u t (hholds ((hprint u hut texts).mp hu)) (hholds hpc)) hut

/-- When the parent is at the end, all threads have finished. -/
theorem Running.finished_of_report (h : Running c s) (hpc : (s.threads 0).pc = .report) (u : ℕ)
    (hu : u ≤ c.children) : c.Finished (s.threads u) ∧ (s.threads u).i = c.iterations ∧
      ¬ (s.threads u).pc.Holds ∧ c.counted (s.threads u) = c.iterations := by
  have h0 := h.fits 0
  rw [hpc] at h0
  obtain ⟨-, hi, hdone⟩ := h0
  by_cases hzero : u = 0
  · subst hzero
    simp [Config.Finished, Config.counted, hpc, hi, Pc.Holds]
  · have hfits := h.fits u
    rcases h.childDone_eq u hzero with ⟨hcleared, -⟩ | ⟨-, hone⟩
    · grind [Pc.Cleared, Fits, Config.Finished, Config.counted, Pc.Holds]
    · have hzero := hdone u (by omega) hu
      omega

/-- What the program prints before it returns. -/
def Result (c : Config) (s : State) : Prop :=
  ∃ order : List ℕ, order.Perm (List.range (c.children + 1)) ∧
    s.output = (order.flatMap c.message).map .text ++
      [.text "Counter", .number ((c.children + 1) * c.iterations)]

theorem Running.result (h : Running c s) (hlines : Lines c s) (hpc : (s.threads 0).pc = .report) :
    Result c { s with output := s.output ++ [.text "Counter", .number s.counter] } := by
  obtain ⟨order, line, hnodup, hmem, houtput, -, hnone⟩ := hlines
  have hfinished := h.finished_of_report hpc
  have hunused (u : ℕ) (hu : c.children < u) : ¬ c.Finished (s.threads u) := by
    simp [Config.Finished, h.unused u hu]
  have hcounter : s.counter = (c.children + 1) * c.iterations := by
    rw [h.counter_eq, Finset.sum_congr rfl fun u hu => by
      rw [(hfinished u (Nat.lt_succ_iff.mp (Finset.mem_range.mp hu))).2.2.2]]
    simp
  have hline : line = [] := hnone fun u texts hu => by
    rcases Nat.lt_or_ge c.children u with hlt | hle
    · simp [h.unused u hlt] at hu
    · exact (hfinished u hle).2.2.1 (by simp [hu, Pc.Holds])
  refine ⟨order, (List.perm_ext_iff_of_nodup hnodup List.nodup_range).mpr fun u => ?_, ?_⟩
  · rw [hmem, List.mem_range, Nat.lt_succ_iff]
    exact ⟨fun hu => not_lt.mp fun hlt => hunused u hlt hu, fun hu => (hfinished u hu).1⟩
  · simp [houtput, hline, hcounter]

end Lines

/-- On the way to the lock, or behind the store that releases it. -/
def Pc.Contends : Pc → Prop
  | .exchange | .futexWait | .wake => True
  | _ => False

/-- No thread sleeps without another that will wake it. -/
structure Awake (s : State) : Prop where
  lock : ∀ t, (s.threads t).pc = .sleep → s.lock = .locked ∨ ∃ u, (s.threads u).pc.Contends
  child : ∀ child, (s.threads 0).pc = .waitSleep child → (s.threads child).pc ≠ .exited

section Reachable

variable {c : Config} {s s' : State} {t : ℕ}

/-- With the lock, or on the way to it, a thread leaves behind one that will wake the others. -/
theorem Running.contends_or (h : Running c s) (hmove : Moves c s t s')
    (ht : s.lock = .locked ∨ (s.threads t).pc.Contends) :
    s'.lock = .locked ∨ (∃ v, (s'.threads v).pc.Contends) ∨ ∀ u, (s'.threads u).pc ≠ .sleep := by
  have hspin (u : ℕ) (hu : (s.threads u).pc = .sleep) : c.spin = false := by
    have hfits := h.fits u
    rw [hu] at hfits
    exact hfits.1
  cases hmove
  case unlock hpc hspinning => grind [Config.released]
  case unlockWake hpc _ => exact .inr (.inl ⟨t, by simp [Pc.Contends]⟩)
  case wakeNone hpc hnone =>
    refine .inr (.inr fun u hu => ?_)
    rcases Nat.lt_or_ge c.children u with hlt | hle
    · grind [h.unused u hlt, Config.released]
    · grind [Config.released]
  case wake u hpc hsleep =>
    have hut : u ≠ t := by
      rintro rfl
      simp [hpc] at hsleep
    exact .inr (.inl ⟨u, by simp [hut, Pc.Contends]⟩)
  case waitEnds => exact .inr (.inl ⟨t, by simp [Pc.Contends]⟩)
  all_goals grind [Pc.Contends]

theorem Running.contends_of_ne (h : Running c s) (hmove : Moves c s t s') (u : ℕ) (hu : u ≠ t)
    (hcontends : (s.threads u).pc.Contends) : (s'.threads u).pc.Contends := by
  cases hmove
  case clone child hpc hle => grind [h.of_clone hpc, Pc.Contends]
  all_goals grind [Pc.Contends]

theorem Running.awake_moves (h : Running c s) (hawake : Awake s) (hmove : Moves c s t s') :
    Awake s' where
  lock u hu := by
    have hcontends (ht : s.lock = .locked ∨ (s.threads t).pc.Contends) :
        s'.lock = .locked ∨ ∃ v, (s'.threads v).pc.Contends := by
      rcases h.contends_or hmove ht with hlocked | hcontends | hnone
      · exact .inl hlocked
      · exact .inr hcontends
      · exact absurd hu (hnone u)
    by_cases hsleep : (s.threads u).pc = .sleep
    · rcases hawake.lock u hsleep with hlocked | ⟨v, hv⟩
      · exact hcontends (.inl hlocked)
      · by_cases hvt : v = t
        · exact hcontends (.inr (hvt ▸ hv))
        · exact .inr ⟨v, h.contends_of_ne hmove v hvt hv⟩
    · refine .inl ?_
      cases hmove
      all_goals grind [Config.released, Config.locked]
  child child hchild := by
    have hawake := hawake.child
    have ht := h.fits t
    have h0 := h.fits 0
    have hdone := h.childDone_eq child
    cases hmove
    case clone child' hpc hle => grind [h.of_clone hpc]
    all_goals grind [Fits, Config.released, Config.locked, Pc.Cleared]

/-- What holds of a state that the program can be in. -/
structure Good (c : Config) (s : State) : Prop where
  exclusive : ∀ t u, (s.threads t).pc.Holds → (s.threads u).pc.Holds → t = u
  running : s.status = none → Running c s ∧ Lines c s ∧ Awake s
  ended : ∀ status, s.status = some status → status = 0 ∧ Result c s ∨ status = 1

theorem Good.start : Good c .start where
  exclusive t u ht := by
    by_cases hzero : t = 0 <;> simp [State.start, hzero, Pc.Holds] at ht
  running _ := by
    refine ⟨⟨rfl, fun t => ?_, fun t u ht => ?_, ?_, ?_, fun t ht => ?_, fun t ht hle => ?_,
      fun child t hchild hle => ?_, fun t ht => ?_⟩, ?_, ⟨fun t ht => ?_, fun child hchild => ?_⟩⟩
    · by_cases hzero : t = 0 <;> simp [State.start, hzero, Fits]
    · by_cases hzero : t = 0 <;> simp [State.start, hzero, Pc.Holds] at ht
    · refine iff_of_false (by simp [State.start]) ?_
      rintro ⟨t, ht⟩
      by_cases hzero : t = 0 <;> simp [State.start, hzero, Pc.Holds] at ht
    · refine (Finset.sum_eq_zero fun t _ => ?_).symm
      by_cases hzero : t = 0 <;> simp [State.start, hzero, Config.counted]
    · simp [State.start, show t ≠ 0 by omega]
    · refine ⟨1, by simp [State.start], Nat.one_le_iff_ne_zero.mpr ?_⟩
      rintro rfl
      simp [State.start] at ht
    · obtain rfl : 1 = child := by simpa [State.start] using hchild
      simp [State.start, show t ≠ 0 by omega]
    · simp [State.start, ht, Pc.Cleared]
    · refine ⟨[], [], List.nodup_nil, fun t => ?_, by simp [State.start], fun t texts ht => ?_,
        fun _ => rfl⟩
      · by_cases hzero : t = 0 <;> simp [State.start, hzero, Config.Finished]
      · by_cases hzero : t = 0 <;> simp [State.start, hzero] at ht
    · by_cases hzero : t = 0 <;> simp [State.start, hzero] at ht
    · simp [State.start] at hchild
  ended := by simp [State.start]

theorem Good.moves (h : Good c s) (hs : s.status = none) (hmove : Moves c s t s') : Good c s' := by
  obtain ⟨hrunning, hlines, hawake⟩ := h.running hs
  refine ⟨hrunning.exclusive_moves hmove, fun hstatus => ⟨hrunning.moves hmove hstatus,
    hrunning.lines_moves hlines hmove hstatus, hrunning.awake_moves hawake hmove⟩,
    fun status hstatus => ?_⟩
  cases hmove
  case report hpc =>
    have ht := hrunning.fits t
    rw [hpc] at ht
    obtain ⟨rfl, -⟩ := ht
    left
    refine ⟨by simpa using hstatus.symm, ?_⟩
    obtain ⟨order, hperm, houtput⟩ := hrunning.result hlines hpc
    exact ⟨order, hperm, houtput⟩
  all_goals simp [hs] at hstatus

/-- A step is one of a thread, or it ends the program. -/
theorem moves_or_of_step {party : Option ℕ} (hstep : Step c party s s') :
    s.status = none ∧ ((∃ t, Moves c s t s' ∧ (party = none ∨ party = some t)) ∨
      s' = { s with status := some 1 }) := by
  have hs {action : Action} (haction : act c s action = some s') : s.status = none := by
    unfold act at haction
    split at haction
    next => contradiction
    next hstatus => simpa using hstatus
  cases party with
  | some t =>
      obtain ⟨woken, hact⟩ := hstep
      refine ⟨hs hact, .inl ⟨t, moves_of_advance (?_ : advance c s t woken = some s'), .inr rfl⟩⟩
      simpa [act, hs hact] using hact
  | none =>
      rcases hstep with ⟨t, hact⟩ | hact
      · exact ⟨hs hact, .inl ⟨t, moves_of_spurious hact, .inl rfl⟩⟩
      · have hstatus := hs hact
        simp only [act, hstatus, Option.isSome_none, Bool.false_eq_true, if_false] at hact
        split at hact
        next child hclone =>
          split at hact <;> cases hact
          exact ⟨hstatus, .inr rfl⟩
        next => contradiction

theorem Good.step (h : Good c s) {party : Option ℕ} (hstep : Step c party s s') : Good c s' := by
  obtain ⟨hs, ⟨t, hmove, -⟩ | rfl⟩ := moves_or_of_step hstep
  · exact h.moves hs hmove
  · exact ⟨h.exclusive, by simp, by simp⟩

theorem Reachable.good (h : Reachable c s) : Good c s :=
  Reaches.invariant (fun _ _ hgood ⟨_, hstep⟩ => hgood.step hstep) Good.start h

/-- Two threads never have the lock at the same time; no increment is lost, and no line is broken
up; and when the program returns 0, all threads have finished and the counter is right. -/
theorem reachable_safe (h : Reachable c s) :
    (∀ t u, (s.threads t).pc.Holds → (s.threads u).pc.Holds → t = u) ∧
      (s.status = none → Lines c s ∧
        s.counter = ∑ t ∈ Finset.range (c.children + 1), (c.counted (s.threads t) : ℤ)) ∧
      ∀ status, s.status = some status → status = 0 ∧ Result c s ∨ status = 1 :=
  ⟨h.good.exclusive, fun hstatus => ⟨(h.good.running hstatus).2.1,
    (h.good.running hstatus).1.counter_eq⟩, h.good.ended⟩

/-- Who takes an action. -/
def Action.takenBy : Action → Option ℕ
  | .run t _ => some t
  | .spurious _ | .cloneFails => none

theorem step_takenBy (s s' : State) (action : Action) (h : act c s action = some s') :
    Step c action.takenBy s s' := by
  cases action with
  | run t woken => exact ⟨woken, h⟩
  | spurious t => exact .inl ⟨t, h⟩
  | cloneFails => exact .inr h

theorem reachable_of_foldlM (actions : List Action) (h : actions.foldlM (act c) .start = some s) :
    Reachable c s :=
  Relation.ReflTransGen.mono (fun s s' ⟨action, hact⟩ =>
    ⟨action.takenBy, step_takenBy s s' action hact⟩) _ _ (Reaches.of_foldlM actions h)

/-- One child and one iteration: the child sleeps while the parent has the lock, and then the parent
sleeps until the child has ended. -/
def sampleActions : List Action :=
  List.flatten [[.run 0 none, .run 0 none, .run 0 none, .run 1 none, .run 1 none],
    [.run 0 none, .run 0 none, .run 0 none, .run 0 (some 1)],
    List.replicate 11 (.run 1 none), List.replicate 7 (.run 0 none),
    [.run 1 none, .run 1 none], List.replicate 3 (.run 0 none)]

theorem reachable_safe_sample :
    ∃ s, Reachable ⟨false, 1, 1, fun _ => "child1"⟩ s ∧ s.status = some 0 ∧
      Result ⟨false, 1, 1, fun _ => "child1"⟩ s := by
  have hruns : (sampleActions.foldlM (act ⟨false, 1, 1, fun _ => "child1"⟩) .start).any
      (fun s => s.status = some 0) = true := by decide
  obtain ⟨s, hs, hstatus⟩ := (Option.any_eq_true _ _).mp hruns
  have hreach := reachable_of_foldlM sampleActions hs
  have hstatus : s.status = some 0 := of_decide_eq_true hstatus
  rcases (reachable_safe hreach).2.2 0 hstatus with ⟨-, hresult⟩ | hone
  · exact ⟨s, hreach, hstatus, hresult⟩
  · contradiction

end Reachable

end Hc.Threading
