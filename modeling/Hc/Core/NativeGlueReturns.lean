import Hc.Core.NativeGlueSafety

/-!
# The callbacks return

When neither thread waits forever while it can go on, and the input events that the application is
asked to handle come to an end, every callback returns.
-/

namespace Hc.NativeGlue

/-- The two threads. -/
inductive Party
  | main
  | app
  deriving DecidableEq

/-- `ALooper_pollAll` returns because of something outside the two threads: an input event, or an
error. -/
def FromOutside (s : State) (choice : Choice) : Prop :=
  s.app = .poll ∧ (choice = .input ∨ choice = .error)

instance (s : State) (choice : Choice) : Decidable (FromOutside s choice) :=
  inferInstanceAs (Decidable (_ ∧ _))

/-- A thread goes on by itself, or something happens to it from outside: the activity calls a
callback, a wait returns early, or `ALooper_pollAll` has an input event or fails. -/
def StepBy : Option Party → State → State → Prop
  | some .main, s, s' => act s .main = some s'
  | some .app, s, s' => ∃ choice, ¬ FromOutside s choice ∧ act s (.app choice) = some s'
  | none, s, s' => (∃ cmd, act s (.call cmd) = some s') ∨ act s .spurious = some s' ∨
    ∃ choice, FromOutside s choice ∧ act s (.app choice) = some s'

/-- The steps that bring no input event. -/
def WaitStep (party : Option Party) (s s' : State) : Prop := StepBy party s s' ∧ s'.app ≠ .input

/-- No callback is under way, or the application has returned an error. -/
def Returned (s : State) : Prop := s.main = .idle ∨ s.main = .done ∨ s.failure.isSome

/-- How far the application is from its signal. -/
def AppPc.left : AppPc → ℕ
  | .addFd => 8
  | .init | .wake false | .draw | .input => 7
  | .poll => 6
  | .read => 5
  | .handle _ => 4
  | .removeFd => 3
  | .store _ => 2
  | .wake true | .exited => 0

/-- How far a callback is from its end. -/
def State.left (s : State) : ℕ :=
  match s.main with
  | .idle | .done => 0
  | .reset _ => 21
  | .write _ => 20
  | .load _ => if s.appDoneFutex = 0 then 10 + s.app.left else 6
  | .futexWait _ => if s.appDoneFutex = 0 then 10 + s.app.left else 7
  | .sleep _ => if s.appDoneFutex = 0 then 10 + s.app.left else 8
  | .closeWrite => 4
  | .closeRead => 3
  | .join => if s.app = .exited then 1 else 2

/-- The thread that the callback needs next. -/
def Helps (s : State) (party : Party) : Prop :=
  match s.main with
  | .idle | .done => False
  | .reset _ | .write _ | .closeWrite | .closeRead => party = .main
  | .load _ | .futexWait _ => if s.appDoneFutex = 0 then party = .app else party = .main
  | .sleep _ => party = .app
  | .join => if s.app = .exited then party = .main else party = .app

/-- A callback sleeps only until it is woken. -/
def Awake (s : State) : Prop :=
  ∀ cmd, s.main = .sleep cmd → s.appDoneFutex = 1 → ∃ last, s.app = .wake last

variable {s s' : State} {cmd : Cmd} {choice : Choice} {party : Option Party}

theorem Served.futex (h : Served s cmd) : s.appDoneFutex = 0 ∨ s.appDoneFutex = 1 := by
  rcases h with ⟨-, h, -⟩ | ⟨-, -, h, -⟩ | ⟨-, -, h, -⟩
  · exact .inl h
  · exact .inl h
  · exact .inr h

/-- What the thread of the activity does in a callback. -/
theorem Intact.left_main (h : Intact s) (hstep : advanceMain s = some s') (hnot : ¬ Returned s') :
    s'.left < s.left ∨
      s'.left = s.left ∧ ∀ party, Helps s party → .main ≠ party ∧ Helps s' party := by
  have hphase := h.phase
  have hintact := h.main hstep
  unfold advanceMain at hstep
  split at hstep
  next => contradiction
  next cmd hmain =>
    cases hstep
    exact .inl (by simp [State.left, hmain])
  next cmd hmain =>
    rw [hmain] at hphase
    rw [if_pos ⟨by simpa [hmain] using h.writeOpen_iff, hphase.2.1⟩] at hstep
    cases hstep
    refine .inl ?_
    have hle : s.app.left ≤ 8 := by
      unfold AppPc.left
      split <;> omega
    simp only [State.left, hmain]
    split <;> omega
  next cmd hmain =>
    split at hstep
    next hdone =>
      cases hstep
      left
      have hdestroy : (NativeGlue.finish s cmd).main = .closeWrite := by
        cases cmd <;> simp [NativeGlue.finish, Returned] at hnot ⊢
      simp [State.left, hdestroy, hmain, hdone]
    next hdone =>
      cases hstep
      rw [hmain] at hphase
      have hzero : s.appDoneFutex = 0 := (Served.futex hphase).resolve_right hdone
      exact .inr ⟨by simp [State.left, hmain, hzero], by simp [Helps, hmain, hzero]⟩
  next cmd hmain =>
    split at hstep
    next hzero =>
      cases hstep
      exact .inr ⟨by simp [State.left, hmain, hzero], by simp [Helps, hmain, hzero]⟩
    next hdone =>
      cases hstep
      exact .inl (by simp [State.left, hmain, hdone])
  next => contradiction
  next hmain =>
    rw [if_pos (by simpa [hmain] using h.writeOpen_iff)] at hstep
    cases hstep
    exact .inl (by simp [State.left, hmain])
  next hmain =>
    split at hstep
    next =>
      cases hstep
      refine .inl ?_
      simp only [State.left, hmain]
      split <;> omega
    next =>
      cases hstep
      have hfailure := hintact.failure_eq
      simp [State.fail] at hfailure
  next hmain =>
    split at hstep
    next hexited =>
      cases hstep
      exact .inl (by simp [State.left, hmain, hexited])
    next => contradiction
  next => contradiction

theorem left_spurious (hsleep : s.main = .sleep cmd) :
    State.left { s with main := .load cmd } < s.left ∨
      State.left { s with main := .load cmd } = s.left ∧
        ∀ party, Helps s party → Helps { s with main := .load cmd } party := by
  by_cases hzero : s.appDoneFutex = 0
  · exact .inr ⟨by simp [State.left, hsleep, hzero], by simp [Helps, hsleep, hzero]⟩
  · exact .inl (by simp [State.left, hsleep, hzero])

/-- While a callback waits for what the application has not signalled, the application does
something for it. -/
theorem Intact.serves (h : Intact s) (hwaiting : s.main.waiting = some cmd)
    (hzero : s.appDoneFutex = 0) :
    s.pipe = [cmd] ∧ (s.app.Quiet ∨ s.app = .read) ∨
      s.pipe = [] ∧ (s.app = .handle cmd ∨ s.app = .store false ∨ s.app = .removeFd ∨
        s.app = .store true) := by
  rcases (phase_of_waiting hwaiting).mp h.phase with ⟨-, -, hpipe | ⟨hpipe, happ⟩⟩ |
    ⟨-, hpipe, -, ⟨-, happ⟩ | ⟨-, happ | happ⟩⟩ | ⟨-, -, hone, -⟩
  · exact .inl hpipe
  · exact .inr ⟨hpipe, .inl happ⟩
  · exact .inr ⟨hpipe, .inr (.inl happ)⟩
  · exact .inr ⟨hpipe, .inr (.inr (.inl happ))⟩
  · exact .inr ⟨hpipe, .inr (.inr (.inr happ))⟩
  · omega

/-- What the application does while a callback waits for it brings it closer to its signal. -/
theorem Intact.app_left (h : Intact s) (hstep : advanceApp s choice = some s')
    (hinput : s'.app ≠ .input) (hfailure : s'.failure = none)
    (hwaiting : s.main.waiting = some cmd) (hzero : s.appDoneFutex = 0) :
    s'.main.waiting = some cmd ∧ (s'.appDoneFutex = 1 ∧ (∃ last, s'.app = .wake last) ∨
      s'.appDoneFutex = 0 ∧ s'.app.left < s.app.left) := by
  have hserves := h.serves hwaiting hzero
  unfold advanceApp at hstep
  cases happ : s.app <;> rw [happ] at hstep <;> dsimp only at hstep
  case addFd =>
    split at hstep <;> cases hstep
    · exact ⟨hwaiting, .inr ⟨hzero, by simp [AppPc.left]⟩⟩
    · simp [State.fail] at hfailure
  case init =>
    split at hstep <;> cases hstep
    · simp [State.fail] at hfailure
    · exact ⟨hwaiting, .inr ⟨hzero, by simp [AppPc.left]⟩⟩
  case poll =>
    have hpipe : s.pipe ≠ [] := by
      rcases hserves with ⟨hpipe, -⟩ | ⟨-, hrest⟩
      · simp [hpipe]
      · simp [happ] at hrest
    cases choice with
    | cmd =>
        dsimp only at hstep
        split at hstep <;> cases hstep
        exact ⟨hwaiting, .inr ⟨hzero, by simp [AppPc.left]⟩⟩
    | input =>
        dsimp only at hstep
        split at hstep <;> cases hstep
        exact absurd rfl hinput
    | timeout => simp [hpipe] at hstep
    | error =>
        cases hstep
        simp [State.fail] at hfailure
  case read =>
    split at hstep
    next =>
      cases hstep
      simp [State.fail] at hfailure
    next =>
      split at hstep <;> cases hstep
      · exact ⟨hwaiting, .inr ⟨hzero, by simp [AppPc.left]⟩⟩
      · simp [State.fail] at hfailure
  case input =>
    split at hstep <;> cases hstep
    · exact ⟨hwaiting, .inr ⟨hzero, by simp [AppPc.left]⟩⟩
    · simp [State.fail] at hfailure
  case draw =>
    split at hstep <;> cases hstep
    · exact ⟨hwaiting, .inr ⟨hzero, by simp [AppPc.left]⟩⟩
    · simp [State.fail] at hfailure
  case handle command =>
    cases hstep
    have hhandled : (NativeGlue.handle s command choice).main = s.main ∧
        (NativeGlue.handle s command choice).appDoneFutex = s.appDoneFutex ∧
        (NativeGlue.handle s command choice).app.left ≤ 3 := by
      cases command <;> unfold NativeGlue.handle at hfailure ⊢ <;> dsimp only at hfailure ⊢ <;>
        grind [AppPc.left, State.fail]
    exact ⟨hhandled.1 ▸ hwaiting, .inr ⟨hhandled.2.1.trans hzero,
      Nat.lt_succ_of_le hhandled.2.2⟩⟩
  case removeFd =>
    split at hstep <;> cases hstep
    · exact ⟨hwaiting, .inr ⟨hzero, by simp [AppPc.left]⟩⟩
    · simp [State.fail] at hfailure
  case store last =>
    cases hstep
    exact ⟨hwaiting, .inl ⟨rfl, last, rfl⟩⟩
  case wake last =>
    have hlast : last = false := by
      cases last
      · rfl
      · simp [happ, AppPc.Quiet] at hserves
    subst hlast
    cases hstep
    refine ⟨?_, .inr ⟨hzero, by simp [AppPc.left]⟩⟩
    cases hmain : s.main <;> simp_all [MainPc.waiting]
  case exited => contradiction

/-- The application leaves the other thread alone, but for the one that it wakes. -/
theorem app_frame (hstep : advanceApp s choice = some s') :
    (s'.main = s.main ∨ ∃ cmd last, s.main = .sleep cmd ∧ s.app = .wake last ∧
      s'.main = .load cmd) ∧ (s'.appDoneFutex = s.appDoneFutex ∨
        s'.appDoneFutex = 1 ∧ ∃ last, s'.app = .wake last) := by
  have hhandle (command : Cmd) : (handle s command choice).main = s.main ∧
      (handle s command choice).appDoneFutex = s.appDoneFutex := by
    cases command <;> unfold handle <;> dsimp only <;> grind [State.fail]
  unfold advanceApp at hstep
  cases happ : s.app <;> rw [happ] at hstep <;> dsimp only at hstep
  case handle command =>
    cases hstep
    exact ⟨.inl (hhandle command).1, .inl (hhandle command).2⟩
  case wake last =>
    cases hstep
    refine ⟨?_, .inl rfl⟩
    cases hmain : s.main with
    | sleep cmd => exact .inr ⟨cmd, last, rfl, rfl, rfl⟩
    | _ => exact .inl rfl
  all_goals grind [State.fail]

theorem left_of_waiting (hwaiting : s.main.waiting = some cmd) :
    s.left = 10 + s.app.left ∧ s.appDoneFutex = 0 ∨ s.left ≤ 8 ∧ s.appDoneFutex ≠ 0 := by
  unfold State.left
  cases hmain : s.main <;> rw [hmain] at hwaiting <;> simp only [MainPc.waiting] at hwaiting
  all_goals grind

/-- What the application does, but for input events. -/
theorem Intact.left_app (h : Intact s) (hawake : Awake s) (hstep : advanceApp s choice = some s')
    (hinput : s'.app ≠ .input) (hnot : ¬ Returned s) (hnot' : ¬ Returned s') :
    s'.left < s.left ∨
      s'.left = s.left ∧ ∀ party, Helps s party → .app ≠ party ∧ Helps s' party := by
  obtain ⟨hframe, hfutex⟩ := app_frame hstep
  have hphase := h.phase
  have hfailure : s'.failure = none := by
    simpa using (not_or.mp (not_or.mp hnot').2).2
  have hzero {cmd : Cmd} (hwaiting : s.main.waiting = some cmd) (hzero : s.appDoneFutex = 0) :
      s'.left < s.left := by
    obtain ⟨hwaiting', hleft⟩ := h.app_left hstep hinput hfailure hwaiting hzero
    rcases left_of_waiting hwaiting with ⟨hbefore, -⟩ | ⟨-, hne⟩
    · rcases left_of_waiting hwaiting' with ⟨hbehind, hzero'⟩ | ⟨hbehind, -⟩
      · rcases hleft with ⟨hone, -⟩ | ⟨-, hlt⟩
        · omega
        · omega
      · omega
    · exact absurd hzero hne
  cases hmain : s.main <;> rw [hmain] at hphase hframe
  case idle => exact absurd (.inl hmain) hnot
  case done => exact absurd (.inr (.inl hmain)) hnot
  case reset cmd =>
    have hmain' : s'.main = .reset cmd := by simpa using hframe
    exact .inr ⟨by simp [State.left, hmain, hmain'], by simp [Helps, hmain, hmain']⟩
  case write cmd =>
    have hmain' : s'.main = .write cmd := by simpa using hframe
    exact .inr ⟨by simp [State.left, hmain, hmain'], by simp [Helps, hmain, hmain']⟩
  case closeWrite =>
    have hmain' : s'.main = .closeWrite := by simpa using hframe
    exact .inr ⟨by simp [State.left, hmain, hmain'], by simp [Helps, hmain, hmain']⟩
  case closeRead =>
    have hmain' : s'.main = .closeRead := by simpa using hframe
    exact .inr ⟨by simp [State.left, hmain, hmain'], by simp [Helps, hmain, hmain']⟩
  case load cmd =>
    have hmain' : s'.main = .load cmd := by simpa using hframe
    rcases Served.futex hphase with hno | hone
    · exact .inl (hzero (by rw [hmain]; rfl) hno)
    · have hone' : s'.appDoneFutex = 1 := by omega
      exact .inr ⟨by simp [State.left, hmain, hmain', hone, hone'],
        by simp [Helps, hmain, hmain', hone, hone']⟩
  case futexWait cmd =>
    have hmain' : s'.main = .futexWait cmd := by simpa using hframe
    rcases Served.futex hphase with hno | hone
    · exact .inl (hzero (by rw [hmain]; rfl) hno)
    · have hone' : s'.appDoneFutex = 1 := by omega
      exact .inr ⟨by simp [State.left, hmain, hmain', hone, hone'],
        by simp [Helps, hmain, hmain', hone, hone']⟩
  case sleep cmd =>
    rcases Served.futex hphase with hno | hone
    · exact .inl (hzero (by rw [hmain]; rfl) hno)
    · obtain ⟨last, happ⟩ := hawake cmd hmain hone
      have hone' : s'.appDoneFutex = 1 := by omega
      have hmain' : s'.main = .load cmd := by
        simp only [advanceApp, happ, hmain, Option.some.injEq] at hstep
        rw [← hstep]
      exact .inl (by simp [State.left, hmain, hmain', hone, hone'])
  case join =>
    have hmain' : s'.main = .join := by simpa using hframe
    rcases hphase.2.2 with happ | happ
    · have happ' : s'.app = .exited := by
        simp only [advanceApp, happ, Option.some.injEq] at hstep
        simp [← hstep]
      exact .inl (by simp [State.left, hmain, hmain', happ, happ'])
    · simp [advanceApp, happ] at hstep

theorem awake_main (hstep : advanceMain s = some s') : Awake s' := by
  intro cmd hsleep hone
  unfold advanceMain at hstep
  cases hmain : s.main <;> rw [hmain] at hstep <;> dsimp only at hstep
  case load command =>
    split at hstep <;> cases hstep
    · cases command <;> simp [NativeGlue.finish] at hsleep
    · simp at hsleep
  all_goals grind [State.fail]

theorem Awake.app (hawake : Awake s) (hstep : advanceApp s choice = some s') : Awake s' := by
  obtain ⟨hframe, hfutex⟩ := app_frame hstep
  intro cmd hsleep hone
  rcases hfutex with hsame | ⟨-, hwake⟩
  · rcases hframe with hmain | ⟨_, _, -, -, hload⟩
    · obtain ⟨last, happ⟩ := hawake cmd (hmain ▸ hsleep) (hsame ▸ hone)
      rw [hmain] at hsleep
      simp only [advanceApp, happ, hsleep, Option.some.injEq] at hstep
      rw [← hstep] at hmain
      simp [hsleep] at hmain
    · simp [hload] at hsleep
  · exact hwake

theorem Awake.step (hawake : Awake s) (hstep : Step s s') : Awake s' := by
  obtain ⟨action, hact⟩ := hstep
  unfold act at hact
  split at hact
  next => contradiction
  next =>
    cases action with
    | call command =>
        dsimp only at hact
        split at hact <;> cases hact
        intro cmd hsleep
        simp [NativeGlue.call] at hsleep
    | main => exact awake_main hact
    | app choice => exact hawake.app hact
    | spurious =>
        dsimp only at hact
        split at hact <;> cases hact
        intro cmd hsleep
        simp at hsleep

theorem step_of_stepBy (h : StepBy party s s') : Step s s' := by
  cases party with
  | none =>
      rcases h with ⟨cmd, hact⟩ | hact | ⟨choice, -, hact⟩
      · exact ⟨_, hact⟩
      · exact ⟨_, hact⟩
      · exact ⟨_, hact⟩
  | some party =>
      cases party with
      | main => exact ⟨_, h⟩
      | app =>
          obtain ⟨choice, -, hact⟩ := h
          exact ⟨_, hact⟩

theorem app_of_advanceMain (hstep : advanceMain s = some s') : s'.app = s.app := by
  have hfinish (cmd : Cmd) : (finish s cmd).app = s.app := by cases cmd <;> rfl
  unfold advanceMain at hstep
  cases hmain : s.main <;> rw [hmain] at hstep <;> dsimp only at hstep
  all_goals grind [State.fail]

theorem exists_advanceApp (hinput : s.app ≠ .input) (hexited : s.app ≠ .exited)
    (hpoll : s.app = .poll → s.registered = true ∧ s.pipe ≠ []) :
    ∃ s', advanceApp s .cmd = some s' ∧ s'.app ≠ .input := by
  have hhandle (command : Cmd) (happ : s.app = .handle command) :
      (handle s command .cmd).app ≠ .input := by
    cases command <;> unfold handle <;> dsimp only <;> grind [State.fail]
  unfold advanceApp
  cases happ : s.app
  case handle command => exact ⟨_, rfl, hhandle command happ⟩
  case poll =>
    dsimp only
    rw [if_pos (hpoll happ)]
    exact ⟨_, rfl, by simp⟩
  case wake last => exact ⟨_, rfl, by cases last <;> simp⟩
  case input => exact absurd happ hinput
  case exited => exact absurd happ hexited
  all_goals dsimp only
  all_goals grind [State.fail]

/-- The thread that a callback needs can go on. -/
theorem Intact.enabled (h : Intact s) (hawake : Awake s) (hinput : s.app ≠ .input) {party : Party}
    (hhelps : Helps s party) : Reaches.Enabled WaitStep party s := by
  have hphase := h.phase
  have hregistered := h.registered_iff
  have hgoesMain (hstep : (advanceMain s).isSome) : Reaches.Enabled WaitStep .main s := by
    obtain ⟨s', hs'⟩ := Option.isSome_iff_exists.mp hstep
    exact ⟨s', by simpa [StepBy, act, h.failure_eq] using hs',
      app_of_advanceMain hs' ▸ hinput⟩
  have hgoesApp (hexited : s.app ≠ .exited) (hpoll : s.app = .poll → s.pipe ≠ []) :
      Reaches.Enabled WaitStep .app s := by
    obtain ⟨s', hs', hinput'⟩ := exists_advanceApp hinput hexited fun happ =>
      ⟨by simpa [happ, AppPc.Watches] using hregistered, hpoll happ⟩
    exact ⟨s', ⟨.cmd, by simp [FromOutside], by simpa [act, h.failure_eq] using hs'⟩, hinput'⟩
  have hserved {cmd : Cmd} (hwaiting : s.main.waiting = some cmd) (hzero : s.appDoneFutex = 0) :
      Reaches.Enabled WaitStep .app s := by
    rcases h.serves hwaiting hzero with ⟨hpipe, happ⟩ | ⟨-, happ⟩
    · refine hgoesApp (fun hexited => ?_) (by simp [hpipe])
      simp [hexited, AppPc.Quiet] at happ
    · refine hgoesApp (fun hexited => ?_) (fun hpoll => ?_)
      · simp [hexited] at happ
      · simp [hpoll] at happ
  cases hmain : s.main <;> simp only [Helps, hmain] at hhelps <;> rw [hmain] at hphase
  case reset cmd => exact hhelps ▸ hgoesMain (by simp [advanceMain, hmain])
  case write cmd =>
    refine hhelps ▸ hgoesMain ?_
    simp only [advanceMain, hmain]
    split <;> rfl
  case closeWrite =>
    refine hhelps ▸ hgoesMain ?_
    simp only [advanceMain, hmain]
    split <;> rfl
  case closeRead =>
    refine hhelps ▸ hgoesMain ?_
    simp only [advanceMain, hmain]
    split <;> rfl
  case load cmd =>
    split at hhelps
    next hzero => exact hhelps ▸ hserved (by rw [hmain]; rfl) hzero
    next =>
      refine hhelps ▸ hgoesMain ?_
      simp only [advanceMain, hmain]
      split <;> rfl
  case futexWait cmd =>
    split at hhelps
    next hzero => exact hhelps ▸ hserved (by rw [hmain]; rfl) hzero
    next =>
      refine hhelps ▸ hgoesMain ?_
      simp only [advanceMain, hmain]
      split <;> rfl
  case sleep cmd =>
    rcases Served.futex hphase with hzero | hone
    · exact hhelps ▸ hserved (by rw [hmain]; rfl) hzero
    · obtain ⟨last, happ⟩ := hawake cmd hmain hone
      exact hhelps ▸ hgoesApp (by simp [happ]) (by simp [happ])
  case join =>
    split at hhelps
    next hexited => exact hhelps ▸ hgoesMain (by simp [advanceMain, hmain, hexited])
    next hexited =>
      have happ := hphase.2.2.resolve_right hexited
      exact hhelps ▸ hgoesApp hexited (by simp [happ])

theorem exists_helps (hnot : ¬ Returned s) : ∃ party, Helps s party := by
  unfold Helps
  cases hmain : s.main
  case idle => exact absurd (.inl hmain) hnot
  case done => exact absurd (.inr (.inl hmain)) hnot
  case load cmd =>
    by_cases hzero : s.appDoneFutex = 0
    · exact ⟨.app, by simp [hzero]⟩
    · exact ⟨.main, by simp [hzero]⟩
  case futexWait cmd =>
    by_cases hzero : s.appDoneFutex = 0
    · exact ⟨.app, by simp [hzero]⟩
    · exact ⟨.main, by simp [hzero]⟩
  case join =>
    by_cases hexited : s.app = .exited
    · exact ⟨.main, by simp [hexited]⟩
    · exact ⟨.app, by simp [hexited]⟩
  all_goals exact ⟨_, rfl⟩

/-- A step brings the callback closer to its end, or leaves it and the thread that it needs. -/
theorem Intact.left_step (h : Intact s) (hawake : Awake s) (hstep : WaitStep party s s')
    (hnot : ¬ Returned s) (hnot' : ¬ Returned s') :
    s'.left < s.left ∨
      s'.left = s.left ∧ ∀ j, Helps s j → party ≠ some j ∧ Helps s' j := by
  obtain ⟨hstep, hinput⟩ := hstep
  cases party with
  | none =>
      rcases hstep with ⟨cmd, hcall⟩ | hspurious | ⟨choice, ⟨hpoll, hchoice⟩, hevent⟩
      · unfold act at hcall
        rw [if_neg (by simp [h.failure_eq])] at hcall
        dsimp only at hcall
        rw [if_neg fun hidle => hnot (.inl hidle.1)] at hcall
        contradiction
      · unfold act at hspurious
        rw [if_neg (by simp [h.failure_eq])] at hspurious
        dsimp only at hspurious
        split at hspurious <;> cases hspurious
        next cmd hsleep =>
          rcases left_spurious hsleep with hlt | ⟨heq, hhelps⟩
          · exact .inl hlt
          · exact .inr ⟨heq, fun j hj => ⟨by simp, hhelps j hj⟩⟩
      · have happ : advanceApp s choice = some s' := by simpa [act, h.failure_eq] using hevent
        unfold advanceApp at happ
        rw [hpoll] at happ
        rcases hchoice with rfl | rfl
        · dsimp only at happ
          split at happ <;> cases happ
          exact absurd rfl hinput
        · cases happ
          exact absurd (.inr (.inr rfl)) hnot'
  | some party =>
      have hsome (first : Party) (hleft : s'.left < s.left ∨ s'.left = s.left ∧
          ∀ j, Helps s j → first ≠ j ∧ Helps s' j) : s'.left < s.left ∨ s'.left = s.left ∧
          ∀ j, Helps s j → some first ≠ some j ∧ Helps s' j := by
        simpa using hleft
      cases party with
      | main =>
          have hmain : advanceMain s = some s' := by simpa [StepBy, act, h.failure_eq] using hstep
          exact hsome .main (h.left_main hmain hnot')
      | app =>
          obtain ⟨choice, -, hstep⟩ := hstep
          have happ : advanceApp s choice = some s' := by simpa [act, h.failure_eq] using hstep
          exact hsome .app (h.left_app hawake happ hinput hnot hnot')

theorem progress : Reaches.Progress (P := fun s => Intact s ∧ Awake s ∧ s.app ≠ .input) WaitStep
    Returned Helps State.left where
  keeps party s s' hs _ hstep hnot' := by
    refine ⟨?_, hs.2.1.step (step_of_stepBy hstep.1), hstep.2⟩
    rcases hs.1.step (step_of_stepBy hstep.1) with herror | hintact
    · exact absurd (.inr (.inr (by simp [herror]))) hnot'
    · exact hintact
  exists_helps s _ hnot := exists_helps hnot
  enabled s party hs _ hhelps := hs.1.enabled hs.2.1 hs.2.2 hhelps
  other party s s' hs hnot hstep hnot' := hs.1.left_step hs.2.1 hstep hnot hnot'

/-- However the two threads take turns and whenever a wait returns early, a callback returns, unless
the application returns an error: when it is not asked to handle input events for ever. -/
theorem fair_callback_returns (run : Reaches.Run StepBy) (hstart : run.states 0 = .init)
    (hfair : run.Fair) (n : ℕ) (hinput : ∀ m, n ≤ m → (run.states m).app ≠ .input) :
    ∃ m, n ≤ m ∧ ((run.states m).main = .idle ∨ (run.states m).main = .done ∨
      (run.states m).failure = some .error) := by
  have hkept (m : ℕ) : ((run.states m).failure = some .error ∨ Intact (run.states m)) ∧
      Awake (run.states m) := by
    induction m with
    | zero => exact hstart ▸ ⟨.inr .init, fun cmd hsleep => by simp [State.init] at hsleep⟩
    | succ m ih =>
        rcases run.next m with hstep | ⟨-, hsame⟩
        · have hstep := step_of_stepBy hstep
          refine ⟨?_, ih.2.step hstep⟩
          rcases ih.1 with herror | hintact
          · obtain ⟨action, hact⟩ := hstep
            simp [act, herror] at hact
          · exact hintact.step hstep
        · exact hsame ▸ ih
  by_contra hnot
  push Not at hnot
  have hintact (m : ℕ) (hle : n ≤ m) : Intact (run.states m) :=
    (hkept m).1.resolve_left (hnot m hle).2.2
  -- From then on there are no calls and no input events.
  let rest : Reaches.Run WaitStep :=
    { states := fun k => run.states (n + k)
      party := fun k => run.party (n + k)
      next := fun k => (run.next (n + k)).imp
        (fun hstep => ⟨hstep, hinput _ (by omega)⟩) id }
  have hrest : rest.Fair := by
    intro party k henabled
    obtain ⟨m, hle, hparty⟩ := hfair party (n + k) fun m hle => by
      obtain ⟨j, rfl⟩ := Nat.exists_eq_add_of_le hle
      obtain ⟨s', hstep, -⟩ := henabled (k + j) (by omega)
      exact ⟨s', by rw [Nat.add_assoc]; exact hstep⟩
    obtain ⟨j, rfl⟩ := Nat.exists_eq_add_of_le hle
    exact ⟨k + j, by omega, by rw [← hparty, Nat.add_assoc]⟩
  obtain ⟨k, hk⟩ := rest.reaches hrest progress 0
    ⟨hintact n le_rfl, (hkept n).2, hinput n le_rfl⟩
  rcases hk with hidle | hdone | hfailure
  · exact (hnot (n + k) (by omega)).1 hidle
  · exact (hnot (n + k) (by omega)).2.1 hdone
  · have hnone := (hintact (n + k) (by omega)).failure_eq
    rw [show rest.states k = run.states (n + k) from rfl, hnone] at hfailure
    simp at hfailure

theorem sampleActions_isSome : (sampleActions.foldlM act .init).isSome := by decide

/-- Who takes an action. -/
def takenBy (s : State) : Action → Option Party
  | .main => some .main
  | .app choice => if FromOutside s choice then none else some .app
  | .call _ | .spurious => none

theorem stepBy_takenBy (s s' : State) (action : Action) (h : act s action = some s') :
    StepBy (takenBy s action) s s' := by
  cases action with
  | main => exact h
  | app choice =>
      rw [takenBy]
      split
      next houtside => exact .inr (.inr ⟨choice, houtside, h⟩)
      next houtside => exact ⟨choice, houtside, h⟩
  | call cmd => exact .inl ⟨cmd, h⟩
  | spurious => exact .inr (.inl h)

/-- The callback that is under way behind 16 actions, a change of the focus, returns. -/
theorem fair_callback_returns_sample :
    ∃ m, 16 ≤ m ∧
      (((Reaches.Run.of StepBy act .init takenBy stepBy_takenBy sampleActions
        sampleActions_isSome).states m).main = .idle ∨
      ((Reaches.Run.of StepBy act .init takenBy stepBy_takenBy sampleActions
        sampleActions_isSome).states m).main = .done ∨
      ((Reaches.Run.of StepBy act .init takenBy stepBy_takenBy sampleActions
        sampleActions_isSome).states m).failure = some .error) := by
  refine fair_callback_returns _ rfl (Reaches.Run.of_fair _ _ _ _ _ _ fun party => ?_) 16
    fun m _ => ?_
  · rintro ⟨s', hstep⟩
    cases party with
    | main =>
        have hnone :
            (act ((sampleActions.foldlM act .init).get sampleActions_isSome) .main).isSome =
              false := by
          decide
        rw [show act _ .main = some s' from hstep] at hnone
        contradiction
    | app =>
        obtain ⟨choice, -, hstep⟩ := hstep
        have hnone : (act ((sampleActions.foldlM act .init).get sampleActions_isSome)
            (.app choice)).isSome = false := by cases choice <;> decide
        rw [hstep] at hnone
        contradiction
  · have hnot : ∀ k < sampleActions.length + 1,
        (Reaches.after act .init sampleActions k).any (fun s => s.app ≠ .input) = true := by decide
    have hlast : Reaches.after act .init sampleActions m =
        Reaches.after act .init sampleActions (min m sampleActions.length) := by
      rw [Reaches.after, Reaches.after, ← List.take_eq_take_min]
    have hany := hnot (min m sampleActions.length) (by omega)
    rw [← hlast, Option.any_eq_true_iff_get] at hany
    obtain ⟨_, hne⟩ := hany
    exact of_decide_eq_true hne

end Hc.NativeGlue
