import Hc.Core.NativeGlue

/-!
# What the glue keeps

The command that a callback waits for is in the pipe, with the application, or done. Until the
callback returns, the application may use what the command brings, and afterwards it has given up
what the command takes away.
-/

namespace Hc.NativeGlue

/-- The application does nothing for a command. -/
def AppPc.Quiet : AppPc → Prop
  | .addFd | .init | .poll | .input | .draw | .wake false => True
  | _ => False

/-- The looper watches the pipe. -/
def AppPc.Watches : AppPc → Prop
  | .addFd | .store true | .wake true | .exited => False
  | _ => True

/-- What a command is about is there. -/
def Cmd.Given (window queue : Option ℕ) : Cmd → Prop
  | .nativeWindowCreated live | .nativeWindowRedrawNeeded live
  | .nativeWindowDestroyed live => window = some live
  | .inputQueueCreated live | .inputQueueDestroyed live => queue = some live
  | _ => True

/-- The window of the application before and behind a command, when this one is there. -/
def Cmd.windowBefore (window : Option ℕ) : Cmd → Option ℕ
  | .nativeWindowCreated _ => none
  | _ => window

def Cmd.windowAfter (window : Option ℕ) : Cmd → Option ℕ
  | .nativeWindowDestroyed _ => none
  | _ => window

/-- The input queue of the application before and behind a command. -/
def Cmd.queueBefore (queue : Option ℕ) : Cmd → Option ℕ
  | .inputQueueCreated _ => none
  | _ => queue

def Cmd.queueAfter (queue : Option ℕ) : Cmd → Option ℕ
  | .inputQueueDestroyed _ => none
  | _ => queue

/-- A command has not been handled. -/
structure Before (s : State) (cmd : Cmd) : Prop where
  issued_eq : s.issued = s.handled ++ [cmd]
  given : cmd.Given s.liveWindow s.liveQueue
  capture_eq : s.capture = false
  window_eq : s.window = cmd.windowBefore s.liveWindow
  queue_eq : s.inputQueue = cmd.queueBefore s.liveQueue

/-- A command has been handled. -/
structure After (s : State) (cmd : Cmd) : Prop where
  handled_eq : s.handled = s.issued
  capture_eq : ∀ hasFocus, cmd = .windowFocusChanged hasFocus → s.capture = hasFocus
  window_eq : s.window = cmd.windowAfter s.liveWindow
  queue_eq : s.inputQueue = cmd.queueAfter s.liveQueue

/-- A callback waits for its command, which is on its way, or done but not yet signalled, or
signalled. -/
def Served (s : State) (cmd : Cmd) : Prop :=
  Before s cmd ∧ s.appDoneFutex = 0 ∧
      (s.pipe = [cmd] ∧ (s.app.Quiet ∨ s.app = .read) ∨ s.pipe = [] ∧ s.app = .handle cmd) ∨
    After s cmd ∧ s.pipe = [] ∧ s.appDoneFutex = 0 ∧
      (cmd ≠ .destroy ∧ s.app = .store false ∨
        cmd = .destroy ∧ (s.app = .removeFd ∨ s.app = .store true)) ∨
    After s cmd ∧ s.pipe = [] ∧ s.appDoneFutex = 1 ∧
      (cmd ≠ .destroy ∧ s.app.Quiet ∨ cmd = .destroy ∧ (s.app = .wake true ∨ s.app = .exited))

/-- Where the two threads are. -/
def Phase (s : State) : MainPc → Prop
  | .idle => s.app.Quiet ∧ s.pipe = [] ∧ s.handled = s.issued ∧ s.window = s.liveWindow ∧
    s.inputQueue = s.liveQueue
  | .reset cmd => s.app.Quiet ∧ s.pipe = [] ∧ Before s cmd
  | .write cmd => s.app.Quiet ∧ s.pipe = [] ∧ Before s cmd ∧ s.appDoneFutex = 0
  | .load cmd | .futexWait cmd | .sleep cmd => Served s cmd
  | .closeWrite | .closeRead | .join => s.pipe = [] ∧ s.handled = s.issued ∧
    (s.app = .wake true ∨ s.app = .exited)
  | .done => s.pipe = [] ∧ s.handled = s.issued ∧ s.app = .exited

/-- The state as long as nothing has failed. -/
structure Intact (s : State) : Prop where
  failure_eq : s.failure = none
  phase : Phase s s.main
  writeOpen_iff : s.writeOpen = true ↔ s.main ≠ .closeRead ∧ s.main ≠ .join ∧ s.main ≠ .done
  readOpen_iff : s.readOpen = true ↔ s.main ≠ .join ∧ s.main ≠ .done
  registered_iff : s.registered = true ↔ s.app.Watches
  draws : s.app = .draw → s.running = true
  listens : s.app = .input → s.inputQueue.isSome
  window_of_running : s.running = true → s.window.isSome
  captures_eq : ∀ pair ∈ s.captures, pair.1 = pair.2

variable {s s' : State} {cmd : Cmd} {choice : Choice}

theorem Intact.call (h : Intact s) (hidle : s.main = .idle) (hallowed : Allowed s cmd) :
    Intact (call s cmd) := by
  have hphase := h.phase
  rw [hidle] at hphase
  obtain ⟨hquiet, hpipe, hhandled, hwindow, hqueue⟩ := hphase
  refine ⟨h.failure_eq, ⟨hquiet, hpipe, ⟨?_, ?_, rfl, ?_, ?_⟩⟩, ?_, ?_, h.registered_iff, h.draws,
    h.listens, h.window_of_running, h.captures_eq⟩
  · simp [NativeGlue.call, hhandled]
  · cases cmd <;> simp_all [NativeGlue.call, Cmd.Given, Allowed]
  · cases cmd <;> simp_all [NativeGlue.call, Cmd.windowBefore, Allowed]
  · cases cmd <;> simp_all [NativeGlue.call, Cmd.queueBefore, Allowed]
  · simpa [NativeGlue.call, hidle] using h.writeOpen_iff
  · simpa [NativeGlue.call, hidle] using h.readOpen_iff

theorem Before.congr (h : Before s cmd) (hissued : s'.issued = s.issued)
    (hhandled : s'.handled = s.handled) (hcapture : s'.capture = s.capture)
    (hwindow : s'.window = s.window) (hqueue : s'.inputQueue = s.inputQueue)
    (hliveWindow : s'.liveWindow = s.liveWindow) (hliveQueue : s'.liveQueue = s.liveQueue) :
    Before s' cmd := by
  obtain ⟨hissued', hgiven, hcapture', hwindow', hqueue'⟩ := h
  exact ⟨by rw [hissued, hhandled, hissued'], by rwa [hliveWindow, hliveQueue],
    hcapture.trans hcapture', by rw [hwindow, hliveWindow, hwindow'],
    by rw [hqueue, hliveQueue, hqueue']⟩

theorem After.congr (h : After s cmd) (hissued : s'.issued = s.issued)
    (hhandled : s'.handled = s.handled) (hcapture : s'.capture = s.capture)
    (hwindow : s'.window = s.window) (hqueue : s'.inputQueue = s.inputQueue)
    (hliveWindow : s'.liveWindow = s.liveWindow) (hliveQueue : s'.liveQueue = s.liveQueue) :
    After s' cmd := by
  obtain ⟨hhandled', hcapture', hwindow', hqueue'⟩ := h
  exact ⟨by rw [hissued, hhandled, hhandled'], fun hasFocus hcmd =>
    hcapture.trans (hcapture' hasFocus hcmd), by rw [hwindow, hliveWindow, hwindow'],
    by rw [hqueue, hliveQueue, hqueue']⟩

/-- A wait goes on. -/
theorem Served.of_main {main : MainPc} (h : Served s cmd) : Served { s with main } cmd := by
  rcases h with ⟨hbefore, hrest⟩ | ⟨hafter, hrest⟩ | ⟨hafter, hrest⟩
  · exact .inl ⟨hbefore.congr rfl rfl rfl rfl rfl rfl rfl, hrest⟩
  · exact .inr (.inl ⟨hafter.congr rfl rfl rfl rfl rfl rfl rfl, hrest⟩)
  · exact .inr (.inr ⟨hafter.congr rfl rfl rfl rfl rfl rfl rfl, hrest⟩)

/-- The thread of the activity is somewhere else, with the pipe as open as before. -/
theorem Intact.of_main (h : Intact s) {main : MainPc} (hphase : Phase { s with main } main)
    (hwrite : (s.main ≠ .closeRead ∧ s.main ≠ .join ∧ s.main ≠ .done) ↔
      main ≠ .closeRead ∧ main ≠ .join ∧ main ≠ .done)
    (hread : (s.main ≠ .join ∧ s.main ≠ .done) ↔ main ≠ .join ∧ main ≠ .done) :
    Intact { s with main } :=
  ⟨h.failure_eq, hphase, h.writeOpen_iff.trans hwrite, h.readOpen_iff.trans hread,
    h.registered_iff, h.draws, h.listens, h.window_of_running, h.captures_eq⟩

theorem Intact.spurious (h : Intact s) (hsleep : s.main = .sleep cmd) :
    Intact { s with main := .load cmd } := by
  have hphase := h.phase
  rw [hsleep] at hphase
  exact h.of_main (Served.of_main hphase) (by simp [hsleep]) (by simp [hsleep])

theorem Served.of_done (h : Served s cmd) (hdone : s.appDoneFutex = 1) :
    After s cmd ∧ s.pipe = [] ∧
      (cmd ≠ .destroy ∧ s.app.Quiet ∨ cmd = .destroy ∧ (s.app = .wake true ∨ s.app = .exited)) := by
  rcases h with ⟨-, hzero, -⟩ | ⟨-, -, hzero, -⟩ | ⟨hafter, hpipe, -, happ⟩
  · omega
  · omega
  · exact ⟨hafter, hpipe, happ⟩

theorem Intact.finish (h : Intact s) (hload : s.main = .load cmd) (hdone : s.appDoneFutex = 1) :
    Intact (finish s cmd) := by
  have hphase := h.phase
  rw [hload] at hphase
  obtain ⟨⟨hhandled, hcapture, hwindow, hqueue⟩, hpipe, happ⟩ := Served.of_done hphase hdone
  have hwrite : s.writeOpen = true := by simpa [hload] using h.writeOpen_iff
  have hread : s.readOpen = true := by simpa [hload] using h.readOpen_iff
  by_cases hdestroy : cmd = .destroy
  · subst hdestroy
    have happ : s.app = .wake true ∨ s.app = .exited := by simpa using happ
    exact ⟨h.failure_eq, ⟨hpipe, hhandled, happ⟩, by simp [NativeGlue.finish, hwrite],
      by simp [NativeGlue.finish, hread], h.registered_iff, h.draws, h.listens,
      h.window_of_running, h.captures_eq⟩
  · have hquiet : s.app.Quiet := by simpa [hdestroy] using happ
    have hmain : (NativeGlue.finish s cmd).main = .idle := by
      cases cmd <;> simp_all [NativeGlue.finish]
    refine ⟨?_, ?_, ?_, ?_, ?_, ?_, ?_, ?_, ?_⟩
    · cases cmd <;> exact h.failure_eq
    · rw [hmain]
      cases cmd <;> simp_all [NativeGlue.finish, Phase, Cmd.windowAfter, Cmd.queueAfter]
    · rw [hmain]
      cases cmd <;> simp [NativeGlue.finish, hwrite]
    · rw [hmain]
      cases cmd <;> simp [NativeGlue.finish, hread]
    · cases cmd <;> exact h.registered_iff
    · cases cmd <;> exact h.draws
    · cases cmd <;> exact h.listens
    · cases cmd <;> exact h.window_of_running
    · cases cmd
      case windowFocusChanged hasFocus =>
        intro pair hpair
        rcases List.mem_append.mp hpair with hold | hnew
        · exact h.captures_eq pair hold
        · rw [List.mem_singleton.mp hnew]
          exact (hcapture hasFocus rfl).symm
      all_goals exact h.captures_eq

theorem Intact.main (h : Intact s) (hstep : advanceMain s = some s') : Intact s' := by
  have hphase := h.phase
  have hwrite := h.writeOpen_iff
  have hread := h.readOpen_iff
  unfold advanceMain at hstep
  split at hstep
  next => contradiction
  next cmd hmain =>
    rw [hmain] at hphase
    obtain ⟨hquiet, hpipe, hbefore⟩ := hphase
    cases hstep
    refine ⟨h.failure_eq, ⟨hquiet, hpipe, hbefore.congr rfl rfl rfl rfl rfl rfl rfl, rfl⟩,
      ?_, ?_, h.registered_iff, h.draws, h.listens, h.window_of_running, h.captures_eq⟩
    · simpa [hmain] using hwrite
    · simpa [hmain] using hread
  next cmd hmain =>
    rw [hmain] at hphase
    obtain ⟨hquiet, hpipe, hbefore, hzero⟩ := hphase
    rw [if_pos ⟨by simpa [hmain] using hwrite, hpipe⟩] at hstep
    cases hstep
    refine ⟨h.failure_eq, .inl ⟨hbefore.congr rfl rfl rfl rfl rfl rfl rfl, hzero,
      .inl ⟨rfl, .inl hquiet⟩⟩, ?_, ?_, h.registered_iff, h.draws, h.listens, h.window_of_running,
      h.captures_eq⟩
    · simpa [hmain] using hwrite
    · simpa [hmain] using hread
  next cmd hmain =>
    split at hstep
    next hdone =>
      cases hstep
      exact h.finish hmain hdone
    next =>
      cases hstep
      rw [hmain] at hphase
      exact h.of_main (Served.of_main hphase) (by simp [hmain]) (by simp [hmain])
  next cmd hmain =>
    rw [hmain] at hphase
    split at hstep
    next =>
      cases hstep
      exact h.of_main (Served.of_main hphase) (by simp [hmain]) (by simp [hmain])
    next =>
      cases hstep
      exact h.of_main (Served.of_main hphase) (by simp [hmain]) (by simp [hmain])
  next => contradiction
  next hmain =>
    rw [hmain] at hphase
    rw [if_pos (by simpa [hmain] using hwrite)] at hstep
    cases hstep
    exact ⟨h.failure_eq, hphase, by simp, by simpa [hmain] using hread, h.registered_iff, h.draws,
      h.listens, h.window_of_running, h.captures_eq⟩
  next hmain =>
    rw [hmain] at hphase
    have hwatches : ¬ s.app.Watches := by
      rcases hphase.2.2 with happ | happ <;> simp [happ, AppPc.Watches]
    have hregistered : s.registered = false := by
      simpa using mt h.registered_iff.mp hwatches
    rw [if_pos ⟨by simpa [hmain] using hread, hregistered⟩] at hstep
    cases hstep
    exact ⟨h.failure_eq, hphase, by simpa [hmain] using hwrite, by simp, h.registered_iff, h.draws,
      h.listens, h.window_of_running, h.captures_eq⟩
  next hmain =>
    rw [hmain] at hphase
    split at hstep
    next hexited =>
      cases hstep
      exact h.of_main ⟨hphase.1, hphase.2.1, hexited⟩ (by simp [hmain]) (by simp [hmain])
    next => contradiction
  next => contradiction

theorem phase_of_waiting {main : MainPc} (hwaiting : main.waiting = some cmd) :
    Phase s main ↔ Served s cmd := by
  cases main <;> simp_all [MainPc.waiting, Phase]

/-- While the application does something for a command, a callback waits for it. -/
theorem Intact.exists_waiting (h : Intact s) (hquiet : ¬ s.app.Quiet) (hwake : s.app ≠ .wake true)
    (hexited : s.app ≠ .exited) : ∃ cmd, s.main.waiting = some cmd ∧ Served s cmd := by
  have hphase := h.phase
  cases hmain : s.main <;> rw [hmain] at hphase
  case load cmd => exact ⟨cmd, rfl, hphase⟩
  case futexWait cmd => exact ⟨cmd, rfl, hphase⟩
  case sleep cmd => exact ⟨cmd, rfl, hphase⟩
  all_goals simp_all [Phase]

theorem Intact.of_handle (h : Intact s) (happ : s.app = .handle cmd) :
    s.main.waiting = some cmd ∧ Before s cmd ∧ s.pipe = [] ∧ s.appDoneFutex = 0 := by
  obtain ⟨waiting, hwaiting, hserved⟩ := h.exists_waiting (by simp [happ, AppPc.Quiet])
    (by simp [happ]) (by simp [happ])
  rcases hserved with ⟨hbefore, hzero, hrest⟩ | ⟨-, -, -, hrest⟩ | ⟨-, -, -, hrest⟩
  · obtain ⟨hpipe, rfl⟩ : s.pipe = [] ∧ cmd = waiting := by simpa [happ, AppPc.Quiet] using hrest
    exact ⟨hwaiting, hbefore, hpipe, hzero⟩
  · simp [happ] at hrest
  · simp [happ, AppPc.Quiet] at hrest

/-- What a command leaves behind. -/
theorem Intact.of_handled (h : Intact s) (happ : s.app = .handle cmd) {app : AppPc}
    {window inputQueue : Option ℕ} {running capture : Bool}
    (happ' : cmd ≠ .destroy ∧ app = .store false ∨ cmd = .destroy ∧ app = .removeFd)
    (hwindow : window = cmd.windowAfter s.liveWindow)
    (hqueue : inputQueue = cmd.queueAfter s.liveQueue) (hrunning : running = true → window.isSome)
    (hcapture : ∀ hasFocus, cmd = .windowFocusChanged hasFocus → capture = hasFocus) :
    Intact { s with app, window, inputQueue, running, capture, handled := s.handled ++ [cmd] } := by
  obtain ⟨hwaiting, hbefore, hpipe, hzero⟩ := h.of_handle happ
  have hregistered : s.registered = true := by
    simpa [happ, AppPc.Watches] using h.registered_iff
  refine ⟨h.failure_eq, ?_, h.writeOpen_iff, h.readOpen_iff, ?_, ?_, ?_, hrunning, h.captures_eq⟩
  · refine (phase_of_waiting hwaiting).mpr (.inr (.inl ⟨⟨hbefore.issued_eq.symm, hcapture, hwindow,
      hqueue⟩, hpipe, hzero, ?_⟩))
    rcases happ' with ⟨hne, rfl⟩ | ⟨rfl, rfl⟩ <;> simp_all
  · rcases happ' with ⟨-, rfl⟩ | ⟨-, rfl⟩ <;> simp [hregistered, AppPc.Watches]
  · rcases happ' with ⟨-, rfl⟩ | ⟨-, rfl⟩ <;> simp
  · rcases happ' with ⟨-, rfl⟩ | ⟨-, rfl⟩ <;> simp

/-- A command is handled without a failure, unless the application returns an error. -/
theorem Intact.handle (h : Intact s) (happ : s.app = .handle cmd) :
    (NativeGlue.handle s cmd choice).failure = some .error ∨
      Intact (NativeGlue.handle s cmd choice) := by
  obtain ⟨hwaiting, ⟨-, hgiven, hcapture, hwindow, hqueue⟩, -, -⟩ := h.of_handle happ
  have hrunning := h.window_of_running
  cases cmd
  case windowFocusChanged hasFocus =>
    right
    unfold NativeGlue.handle
    dsimp only
    split
    next hno =>
      exact h.of_handled happ (by simp) hwindow hqueue hrunning
        (fun focus hcmd => by simp_all)
    next hyes =>
      exact h.of_handled happ (by simp) hwindow hqueue hrunning
        (fun focus hcmd => by simp_all)
  case nativeWindowCreated window =>
    have hnone : s.window = none := hwindow
    have hlive : s.liveWindow = some window := hgiven
    unfold NativeGlue.handle
    dsimp only
    rw [if_neg (not_not.mpr hnone), if_neg (not_not.mpr hlive)]
    split
    next => exact .inl rfl
    next =>
      exact .inr (h.of_handled happ (by simp) hlive.symm hqueue (by simp) (by simp))
  case nativeWindowDestroyed window =>
    have hlive : s.liveWindow = some window := hgiven
    have hsome : s.window = some window := hwindow.trans hlive
    unfold NativeGlue.handle
    dsimp only
    rw [if_neg (by simp [hsome]), if_neg (not_not.mpr (hlive.trans hsome.symm))]
    exact .inr (h.of_handled happ (by simp) rfl hqueue (by simp) (by simp))
  case inputQueueCreated inputQueue =>
    have hnone : s.inputQueue = none := hqueue
    have hlive : s.liveQueue = some inputQueue := hgiven
    unfold NativeGlue.handle
    dsimp only
    rw [if_neg (not_not.mpr hnone), if_neg (not_not.mpr hlive)]
    exact .inr (h.of_handled happ (by simp) hwindow hlive.symm hrunning (by simp))
  case inputQueueDestroyed inputQueue =>
    have hlive : s.liveQueue = some inputQueue := hgiven
    have hsome : s.inputQueue = some inputQueue := hqueue.trans hlive
    unfold NativeGlue.handle
    dsimp only
    rw [if_neg (not_not.mpr hsome), if_neg (not_not.mpr (hlive.trans hsome.symm))]
    exact .inr (h.of_handled happ (by simp) hwindow rfl hrunning (by simp))
  case stop => exact .inr (h.of_handled happ (by simp) hwindow hqueue (by simp) (by simp))
  all_goals exact .inr (h.of_handled happ (by simp) hwindow hqueue hrunning (by simp))

/-- The application is somewhere else, and still does nothing for a command. -/
theorem Phase.of_quiet {main : MainPc} {app : AppPc} {registered : Bool} (h : Phase s main)
    (hquiet : s.app.Quiet) (hquiet' : app.Quiet) : Phase { s with app, registered } main := by
  have hserved {cmd : Cmd} (h : Served s cmd) : Served { s with app, registered } cmd := by
    rcases h with ⟨hbefore, hzero, ⟨hpipe, -⟩ | ⟨-, happ⟩⟩ |
      ⟨-, -, -, ⟨-, happ⟩ | ⟨-, happ | happ⟩⟩ |
      ⟨hafter, hpipe, hone, ⟨hne, -⟩ | ⟨-, happ | happ⟩⟩
    · exact .inl ⟨hbefore.congr rfl rfl rfl rfl rfl rfl rfl, hzero, .inl ⟨hpipe, .inl hquiet'⟩⟩
    · simp [happ, AppPc.Quiet] at hquiet
    · simp [happ, AppPc.Quiet] at hquiet
    · simp [happ, AppPc.Quiet] at hquiet
    · simp [happ, AppPc.Quiet] at hquiet
    · exact .inr (.inr ⟨hafter.congr rfl rfl rfl rfl rfl rfl rfl, hpipe, hone, .inl ⟨hne, hquiet'⟩⟩)
    · simp [happ, AppPc.Quiet] at hquiet
    · simp [happ, AppPc.Quiet] at hquiet
  have hclosing (happ : s.app = .wake true ∨ s.app = .exited) : False := by
    rcases happ with happ | happ <;> simp [happ, AppPc.Quiet] at hquiet
  cases main with
  | idle => exact ⟨hquiet', h.2⟩
  | reset cmd => exact ⟨hquiet', h.2.1, h.2.2.congr rfl rfl rfl rfl rfl rfl rfl⟩
  | write cmd =>
      exact ⟨hquiet', h.2.1, h.2.2.1.congr rfl rfl rfl rfl rfl rfl rfl, h.2.2.2⟩
  | load cmd => exact hserved h
  | futexWait cmd => exact hserved h
  | sleep cmd => exact hserved h
  | closeWrite => exact (hclosing h.2.2).elim
  | closeRead => exact (hclosing h.2.2).elim
  | join => exact (hclosing h.2.2).elim
  | done => exact (hclosing (.inr h.2.2)).elim

/-- What the application has and does nothing for a command with is there. -/
theorem Intact.live_of_quiet (h : Intact s) (hquiet : s.app.Quiet) :
    (s.window.isSome → s.window = s.liveWindow) ∧
      (s.inputQueue.isSome → s.inputQueue = s.liveQueue) := by
  have hphase := h.phase
  have hbefore {cmd : Cmd} (h : Before s cmd) : (s.window.isSome → s.window = s.liveWindow) ∧
      (s.inputQueue.isSome → s.inputQueue = s.liveQueue) := by
    rw [h.window_eq, h.queue_eq]
    cases cmd <;> simp [Cmd.windowBefore, Cmd.queueBefore]
  have hafter {cmd : Cmd} (h : After s cmd) : (s.window.isSome → s.window = s.liveWindow) ∧
      (s.inputQueue.isSome → s.inputQueue = s.liveQueue) := by
    rw [h.window_eq, h.queue_eq]
    cases cmd <;> simp [Cmd.windowAfter, Cmd.queueAfter]
  have hserved {cmd : Cmd} (h : Served s cmd) : (s.window.isSome → s.window = s.liveWindow) ∧
      (s.inputQueue.isSome → s.inputQueue = s.liveQueue) := by
    rcases h with ⟨h, -⟩ | ⟨h, -⟩ | ⟨h, -⟩
    · exact hbefore h
    · exact hafter h
    · exact hafter h
  have hclosing (happ : s.app = .wake true ∨ s.app = .exited) : False := by
    rcases happ with happ | happ <;> simp [happ, AppPc.Quiet] at hquiet
  cases hmain : s.main <;> rw [hmain] at hphase
  case idle => exact ⟨fun _ => hphase.2.2.2.1, fun _ => hphase.2.2.2.2⟩
  case reset cmd => exact hbefore hphase.2.2
  case write cmd => exact hbefore hphase.2.2.1
  case load cmd => exact hserved hphase
  case futexWait cmd => exact hserved hphase
  case sleep cmd => exact hserved hphase
  case closeWrite => exact (hclosing hphase.2.2).elim
  case closeRead => exact (hclosing hphase.2.2).elim
  case join => exact (hclosing hphase.2.2).elim
  case done => exact (hclosing (.inr hphase.2.2)).elim

/-- While the application is not at its end, both ends of the pipe are open. -/
theorem Intact.open_of_app (h : Intact s) (hwake : s.app ≠ .wake true) (hexited : s.app ≠ .exited) :
    s.readOpen = true := by
  have hphase := h.phase
  rw [h.readOpen_iff]
  cases hmain : s.main <;> rw [hmain] at hphase
  all_goals simp_all [Phase]

/-- The application goes on, and does nothing for a command before and behind the step. -/
theorem Intact.of_quiet (h : Intact s) {app : AppPc} {registered : Bool} (hquiet : s.app.Quiet)
    (hquiet' : app.Quiet) (hregistered : registered = true ↔ app.Watches)
    (hdraws : app = .draw → s.running = true) (hlistens : app = .input → s.inputQueue.isSome) :
    Intact { s with app, registered } :=
  ⟨h.failure_eq, h.phase.of_quiet hquiet hquiet', h.writeOpen_iff, h.readOpen_iff, hregistered,
    hdraws, hlistens, h.window_of_running, h.captures_eq⟩

/-- A command is in the pipe when the application goes to read it. -/
theorem Intact.of_nonempty (h : Intact s) (hquiet : s.app.Quiet) (hpipe : s.pipe ≠ []) :
    ∃ cmd, s.main.waiting = some cmd ∧ Before s cmd ∧ s.appDoneFutex = 0 ∧ s.pipe = [cmd] := by
  have hphase := h.phase
  have hserved {cmd : Cmd} (h : Served s cmd) :
      Before s cmd ∧ s.appDoneFutex = 0 ∧ s.pipe = [cmd] := by
    rcases h with ⟨hbefore, hzero, ⟨hpipe, -⟩ | ⟨hnil, -⟩⟩ | ⟨-, hnil, -⟩ | ⟨-, hnil, -⟩
    · exact ⟨hbefore, hzero, hpipe⟩
    · exact absurd hnil hpipe
    · exact absurd hnil hpipe
    · exact absurd hnil hpipe
  cases hmain : s.main <;> rw [hmain] at hphase
  case load cmd => exact ⟨cmd, rfl, hserved hphase⟩
  case futexWait cmd => exact ⟨cmd, rfl, hserved hphase⟩
  case sleep cmd => exact ⟨cmd, rfl, hserved hphase⟩
  all_goals simp_all [Phase]

theorem Intact.read (h : Intact s) (happ : s.app = .read) :
    ∃ cmd, s.main.waiting = some cmd ∧ Before s cmd ∧ s.appDoneFutex = 0 ∧ s.pipe = [cmd] := by
  obtain ⟨cmd, hwaiting, hserved⟩ := h.exists_waiting (by simp [happ, AppPc.Quiet])
    (by simp [happ]) (by simp [happ])
  rcases hserved with ⟨hbefore, hzero, hrest⟩ | ⟨-, -, -, hrest⟩ | ⟨-, -, -, hrest⟩
  · exact ⟨cmd, hwaiting, hbefore, hzero, by simpa [happ] using hrest⟩
  · simp [happ] at hrest
  · simp [happ, AppPc.Quiet] at hrest

/-- A command is handled and not signalled. -/
theorem Intact.of_handled' (h : Intact s)
    (happ : (∃ last, s.app = .store last) ∨ s.app = .removeFd) :
    ∃ cmd, s.main.waiting = some cmd ∧ After s cmd ∧ s.pipe = [] ∧ s.appDoneFutex = 0 ∧
      (cmd ≠ .destroy ∧ s.app = .store false ∨
        cmd = .destroy ∧ (s.app = .removeFd ∨ s.app = .store true)) := by
  have hnot : ¬ s.app.Quiet ∧ s.app ≠ .wake true ∧ s.app ≠ .exited ∧ s.app ≠ .read ∧
      ∀ cmd, s.app ≠ .handle cmd := by
    rcases happ with ⟨last, happ⟩ | happ <;> simp [happ, AppPc.Quiet]
  obtain ⟨hquiet, hwake, hexited, hread, hhandle⟩ := hnot
  obtain ⟨cmd, hwaiting, hserved⟩ := h.exists_waiting hquiet hwake hexited
  rcases hserved with ⟨-, -, ⟨-, hrest | hrest⟩ | ⟨-, hrest⟩⟩ | ⟨hafter, hpipe, hzero, hrest⟩ |
    ⟨-, -, -, ⟨-, hrest⟩ | ⟨-, hrest | hrest⟩⟩
  · exact absurd hrest hquiet
  · exact absurd hrest hread
  · exact absurd hrest (hhandle cmd)
  · exact ⟨cmd, hwaiting, hafter, hpipe, hzero, hrest⟩
  · exact absurd hrest hquiet
  · exact absurd hrest hwake
  · exact absurd hrest hexited

/-- The application signals that it is done. -/
theorem Intact.store (h : Intact s) {last : Bool} (happ : s.app = .store last) :
    Intact { s with appDoneFutex := 1, app := .wake last } := by
  obtain ⟨cmd, hwaiting, hafter, hpipe, -, hrest⟩ := h.of_handled' (.inl ⟨last, happ⟩)
  have hregistered := h.registered_iff
  refine ⟨h.failure_eq, (phase_of_waiting hwaiting).mpr (.inr (.inr
    ⟨hafter.congr rfl rfl rfl rfl rfl rfl rfl, hpipe, rfl, ?_⟩)), h.writeOpen_iff, h.readOpen_iff,
    ?_, by simp, by simp, h.window_of_running, h.captures_eq⟩
  · rw [happ] at hrest
    cases last with
    | false => exact .inl ⟨by simpa using hrest, trivial⟩
    | true => exact .inr ⟨by simpa using hrest, .inl rfl⟩
  · rw [happ] at hregistered
    cases last <;> simpa [AppPc.Watches] using hregistered

/-- The application wakes the callback that waits, and goes on. -/
theorem Intact.wake (h : Intact s) {last : Bool} (happ : s.app = .wake last) :
    Intact { s with app := if last then .exited else .poll } := by
  have hregistered := h.registered_iff
  cases last with
  | false =>
      exact h.of_quiet (by simp [happ, AppPc.Quiet]) trivial
        (by simpa [happ, AppPc.Watches] using hregistered) (by simp) (by simp)
  | true =>
      refine ⟨h.failure_eq, ?_, h.writeOpen_iff, h.readOpen_iff,
        by simpa [happ, AppPc.Watches] using hregistered, by simp, by simp, h.window_of_running,
        h.captures_eq⟩
      have hphase := h.phase
      have hserved {cmd : Cmd} (h : Served s cmd) : Served { s with app := .exited } cmd := by
        rcases h with ⟨-, -, hrest⟩ | ⟨-, -, -, hrest⟩ | ⟨hafter, hpipe, hone, hrest⟩
        · simp [happ, AppPc.Quiet] at hrest
        · simp [happ] at hrest
        · exact .inr (.inr ⟨hafter.congr rfl rfl rfl rfl rfl rfl rfl, hpipe, hone,
            .inr ⟨by simpa [happ, AppPc.Quiet] using hrest, .inr rfl⟩⟩)
      change Phase { s with app := .exited } s.main
      cases hmain : s.main <;> rw [hmain] at hphase
      case load cmd => exact (hserved hphase).of_main
      case futexWait cmd => exact (hserved hphase).of_main
      case sleep cmd => exact (hserved hphase).of_main
      all_goals simp_all [Phase, AppPc.Quiet]

theorem Intact.app (h : Intact s) (hstep : advanceApp s choice = some s') :
    s'.failure = some .error ∨ Intact s' := by
  have hregistered := h.registered_iff
  unfold advanceApp at hstep
  split at hstep
  next happ =>
    rw [if_pos (h.open_of_app (by simp [happ]) (by simp [happ]))] at hstep
    cases hstep
    exact .inr (h.of_quiet (by simp [happ, AppPc.Quiet]) trivial (by simp [AppPc.Watches])
      (by simp) (by simp))
  next happ =>
    split at hstep
    next =>
      cases hstep
      exact .inl rfl
    next =>
      cases hstep
      exact .inr (h.of_quiet (by simp [happ, AppPc.Quiet]) trivial
        (by simpa [happ, AppPc.Watches] using hregistered) (by simp) (by simp))
  next happ =>
    have hquiet : s.app.Quiet := by simp [happ, AppPc.Quiet]
    have hwatches : s.registered = true := by simpa [happ, AppPc.Watches] using hregistered
    split at hstep
    next =>
      split at hstep
      next hready =>
        cases hstep
        obtain ⟨cmd, hwaiting, hbefore, hzero, hpipe⟩ := h.of_nonempty hquiet hready.2
        exact .inr ⟨h.failure_eq, (phase_of_waiting hwaiting).mpr (.inl
          ⟨hbefore.congr rfl rfl rfl rfl rfl rfl rfl, hzero, .inl ⟨hpipe, .inr rfl⟩⟩),
          h.writeOpen_iff, h.readOpen_iff, by simpa [AppPc.Watches] using hwatches, by simp,
          by simp, h.window_of_running, h.captures_eq⟩
      next => contradiction
    next =>
      split at hstep
      next hqueue =>
        cases hstep
        exact .inr (h.of_quiet hquiet trivial (by simpa [AppPc.Watches] using hwatches) (by simp)
          fun _ => hqueue)
      next => contradiction
    next =>
      split at hstep
      next hready =>
        cases hstep
        exact .inr (h.of_quiet hquiet trivial (by simpa [AppPc.Watches] using hwatches)
          (fun _ => hready.1) (by simp))
      next => contradiction
    next =>
      cases hstep
      exact .inl rfl
  next happ =>
    obtain ⟨cmd, hwaiting, hbefore, hzero, hpipe⟩ := h.read happ
    rw [hpipe] at hstep
    dsimp only at hstep
    rw [if_pos (h.open_of_app (by simp [happ]) (by simp [happ]))] at hstep
    cases hstep
    exact .inr ⟨h.failure_eq, (phase_of_waiting hwaiting).mpr (.inl
      ⟨hbefore.congr rfl rfl rfl rfl rfl rfl rfl, hzero, .inr ⟨rfl, rfl⟩⟩),
      h.writeOpen_iff, h.readOpen_iff, by simpa [happ, AppPc.Watches] using hregistered, by simp,
      by simp, h.window_of_running, h.captures_eq⟩
  next happ =>
    have hquiet : s.app.Quiet := by simp [happ, AppPc.Quiet]
    have hlistens := h.listens happ
    rw [if_pos ⟨hlistens, (h.live_of_quiet hquiet).2 hlistens⟩] at hstep
    cases hstep
    exact .inr (h.of_quiet hquiet trivial (by simpa [happ, AppPc.Watches] using hregistered)
      (by simp) (by simp))
  next happ =>
    have hquiet : s.app.Quiet := by simp [happ, AppPc.Quiet]
    have hwindow := h.window_of_running (h.draws happ)
    rw [if_pos ⟨hwindow, (h.live_of_quiet hquiet).1 hwindow⟩] at hstep
    cases hstep
    exact .inr (h.of_quiet hquiet trivial (by simpa [happ, AppPc.Watches] using hregistered)
      (by simp) (by simp))
  next cmd happ =>
    cases hstep
    exact h.handle happ
  next happ =>
    obtain ⟨cmd, hwaiting, hafter, hpipe, hzero, hrest⟩ := h.of_handled' (.inr happ)
    have hwatches : s.registered = true := by simpa [happ, AppPc.Watches] using hregistered
    rw [if_pos ⟨h.open_of_app (by simp [happ]) (by simp [happ]), hwatches⟩] at hstep
    cases hstep
    exact .inr ⟨h.failure_eq, (phase_of_waiting hwaiting).mpr (.inr (.inl
      ⟨hafter.congr rfl rfl rfl rfl rfl rfl rfl, hpipe, hzero,
        .inr ⟨by simpa [happ] using hrest, .inr rfl⟩⟩)),
      h.writeOpen_iff, h.readOpen_iff, by simp [AppPc.Watches], by simp, by simp,
      h.window_of_running, h.captures_eq⟩
  next last happ =>
    cases hstep
    exact .inr (h.store happ)
  next last happ =>
    cases hstep
    have hwoken := h.wake happ
    right
    split
    next cmd hsleep => exact hwoken.spurious hsleep
    next => exact hwoken
  next => contradiction

theorem Intact.init : Intact .init where
  failure_eq := rfl
  phase := ⟨trivial, rfl, rfl, rfl, rfl⟩
  writeOpen_iff := by simp [State.init]
  readOpen_iff := by simp [State.init]
  registered_iff := by simp [State.init, AppPc.Watches]
  draws := by simp [State.init]
  listens := by simp [State.init]
  window_of_running := by simp [State.init]
  captures_eq := by simp [State.init]

/-- A step keeps the state intact, unless the application returns an error. -/
theorem Intact.step (h : Intact s) (hstep : Step s s') :
    s'.failure = some .error ∨ Intact s' := by
  obtain ⟨action, hact⟩ := hstep
  unfold act at hact
  rw [if_neg (by simp [h.failure_eq])] at hact
  cases action with
  | call cmd =>
      dsimp only at hact
      split at hact
      next hcall =>
        cases hact
        exact .inr (h.call hcall.1 hcall.2)
      next => contradiction
  | main => exact .inr (h.main hact)
  | app choice => exact h.app hact
  | spurious =>
      dsimp only at hact
      split at hact
      next cmd hsleep =>
        cases hact
        exact .inr (h.spurious hsleep)
      next => contradiction

theorem Reachable.intact (h : Reachable s) : s.failure = some .error ∨ Intact s := by
  refine Reaches.invariant (P := fun s => s.failure = some .error ∨ Intact s) ?_ (.inr .init) h
  rintro s s' (herror | hintact) hstep
  · obtain ⟨action, hact⟩ := hstep
    simp [act, herror] at hact
  · exact hintact.step hstep

/-- The commands are handled once, in the order of the callbacks. -/
theorem Intact.handled_prefix (h : Intact s) :
    s.issued = s.handled ∨ ∃ cmd, s.issued = s.handled ++ [cmd] := by
  have hphase := h.phase
  have hserved {cmd : Cmd} (h : Served s cmd) :
      s.issued = s.handled ∨ ∃ cmd, s.issued = s.handled ++ [cmd] := by
    rcases h with ⟨h, -⟩ | ⟨h, -⟩ | ⟨h, -⟩
    · exact .inr ⟨cmd, h.issued_eq⟩
    · exact .inl h.handled_eq.symm
    · exact .inl h.handled_eq.symm
  cases hmain : s.main <;> rw [hmain] at hphase
  case idle => exact .inl hphase.2.2.1.symm
  case reset cmd => exact .inr ⟨cmd, hphase.2.2.issued_eq⟩
  case write cmd => exact .inr ⟨cmd, hphase.2.2.1.issued_eq⟩
  case load cmd => exact hserved hphase
  case futexWait cmd => exact hserved hphase
  case sleep cmd => exact hserved hphase
  all_goals exact .inl hphase.2.1.symm

/-- Whatever the order of the two threads, nothing goes wrong but what the application reports: the
pipe has room, a read finds a command, no assertion fails, and no window, queue, stack frame or file
descriptor is used that is gone. A callback returns when its command has been handled, with the
answer of the application to a focus change; and the activity is destroyed when the thread of the
application has ended. -/
theorem reachable_intact (h : Reachable s) :
    (s.failure = none ∨ s.failure = some .error) ∧
      (s.failure = none →
        (s.issued = s.handled ∨ ∃ cmd, s.issued = s.handled ++ [cmd]) ∧
        (s.main = .idle → s.issued = s.handled ∧ s.window = s.liveWindow ∧
          s.inputQueue = s.liveQueue) ∧
        (∀ pair ∈ s.captures, pair.1 = pair.2) ∧
        (s.main = .done → s.issued = s.handled ∧ s.app = .exited ∧ s.readOpen = false ∧
          s.writeOpen = false)) := by
  rcases h.intact with herror | hintact
  · exact ⟨.inr herror, by simp [herror]⟩
  · refine ⟨.inl hintact.failure_eq, fun _ => ⟨hintact.handled_prefix, fun hidle => ?_,
      hintact.captures_eq, fun hdone => ?_⟩⟩
    · have hphase := hintact.phase
      rw [hidle] at hphase
      exact ⟨hphase.2.2.1.symm, hphase.2.2.2⟩
    · have hphase := hintact.phase
      rw [hdone] at hphase
      exact ⟨hphase.2.1.symm, hphase.2.2, by simpa [hdone] using hintact.readOpen_iff,
        by simpa [hdone] using hintact.writeOpen_iff⟩

/-- A window is created, drawn to and focused, and the activity is destroyed with it. -/
def sampleActions : List Action :=
  [.call (.nativeWindowCreated 7), .app .cmd, .app .cmd, .main, .main, .main, .main,
    .app .cmd, .app .cmd, .app .cmd, .app .cmd, .app .cmd, .main, .app .timeout, .app .cmd,
    .call (.windowFocusChanged true), .main, .main, .app .cmd, .app .cmd, .app .cmd, .app .cmd,
    .main, .app .cmd, .call .destroy, .main, .main, .app .cmd, .app .cmd, .app .cmd, .app .cmd,
    .app .cmd, .app .cmd, .main, .main, .main, .main]

theorem reachable_intact_sample :
    ∃ s, Reachable s ∧ s.main = .done ∧ s.captures = [(true, true)] ∧ s.issued = s.handled ∧
      s.app = .exited ∧ s.readOpen = false ∧ s.writeOpen = false := by
  have hruns : (sampleActions.foldlM act .init).any (fun s =>
      s.failure = none ∧ s.main = .done ∧ s.captures = [(true, true)]) = true := by decide
  obtain ⟨s, hs, hends⟩ := (Option.any_eq_true _ _).mp hruns
  have hreach : Reachable s := Reaches.of_foldlM sampleActions hs
  obtain ⟨hfailure, hdone, hcaptures⟩ := of_decide_eq_true hends
  exact ⟨s, hreach, hdone, hcaptures, ((reachable_intact hreach).2 hfailure).2.2.2 hdone⟩

end Hc.NativeGlue
