import Hc.Foundation.Reaches

/-!
# The glue of an Android application

`hc/core/hc/linux/android/nativeGlue.c` and the loop of `hc/examples/openGl/android/libopenGl.so.c`.
The callbacks of the activity pass commands through a pipe to the thread of the application, and
wait on a futex until it is done with each. An action lets one of the two threads do what it does
next. Windows and input queues are numbers; each use of one that the activity has taken away, of a
stack frame that is gone or of a file descriptor that is closed is a failure of its own.
-/

namespace Hc.NativeGlue

/-- `struct nativeGlue_cmd`, with the arguments that the application reads. -/
inductive Cmd
  | start
  | resume
  | saveInstanceState
  | pause
  | stop
  | destroy
  | windowFocusChanged (hasFocus : Bool)
  | nativeWindowCreated (window : ℕ)
  | nativeWindowRedrawNeeded (window : ℕ)
  | nativeWindowDestroyed (window : ℕ)
  | inputQueueCreated (inputQueue : ℕ)
  | inputQueueDestroyed (inputQueue : ℕ)
  | contentRectChanged
  | configurationChanged
  | lowMemory
  deriving DecidableEq

/-- Where the thread of the activity is: between two callbacks, in `_nativeGlue_writeAndWait`, or in
what `_nativeGlue_onDestroy` does after it. -/
inductive MainPc
  | idle
  | reset (cmd : Cmd)
  | write (cmd : Cmd)
  | load (cmd : Cmd)
  | futexWait (cmd : Cmd)
  | sleep (cmd : Cmd)
  | closeWrite
  | closeRead
  | join
  | done
  deriving DecidableEq

/-- Where the thread of the application is. The last call of `nativeGlue_signalAppDone` is the one
in `_nativeGlue_appThread`. -/
inductive AppPc
  | addFd
  | init
  | poll
  | read
  | input
  | draw
  | handle (cmd : Cmd)
  | removeFd
  | store (last : Bool)
  | wake (last : Bool)
  | exited
  deriving DecidableEq

/-- What can go wrong: the application returns an error, as it may, or one of the things that must
not happen. -/
inductive Failure
  | error
  | writeFailed
  | readFailed
  | assertion
  | dangling
  | closed
  deriving DecidableEq

/-- The shared variables, the ones of the two threads, and what the activity has given out. -/
structure State where
  main : MainPc
  app : AppPc
  -- `cmdPipe`, and whether its ends are open and the looper watches it.
  pipe : List Cmd
  readOpen : Bool
  writeOpen : Bool
  registered : Bool
  appDoneFutex : ℤ
  -- `struct app`.
  window : Option ℕ
  inputQueue : Option ℕ
  running : Bool
  -- `requestPointerCapture` in the frame of the callback.
  capture : Bool
  liveWindow : Option ℕ
  liveQueue : Option ℕ
  -- The commands of the callbacks that were called, and those that the application has handled.
  issued : List Cmd
  handled : List Cmd
  -- For each focus change that has returned, the focus and the request.
  captures : List (Bool × Bool)
  failure : Option Failure

/-- What `ALooper_pollAll` returns, or an error of the application. -/
inductive Choice
  | cmd
  | input
  | timeout
  | error
  deriving DecidableEq

namespace State

/-- The state behind `nativeGlue_init`. -/
def init : State where
  main := .idle
  app := .addFd
  pipe := []
  readOpen := true
  writeOpen := true
  registered := false
  appDoneFutex := 0
  window := none
  inputQueue := none
  running := false
  capture := false
  liveWindow := none
  liveQueue := none
  issued := []
  handled := []
  captures := []
  failure := none

def fail (s : State) (failure : Failure) : State := { s with failure := some failure }

end State

/-- What the activity may call, as `android.h` has it: a window or a queue is there until the
callback that takes it away has returned. -/
def Allowed (s : State) : Cmd → Prop
  | .nativeWindowCreated _ => s.liveWindow = none
  | .nativeWindowRedrawNeeded window | .nativeWindowDestroyed window => s.liveWindow = some window
  | .inputQueueCreated _ => s.liveQueue = none
  | .inputQueueDestroyed inputQueue => s.liveQueue = some inputQueue
  | _ => True

instance (s : State) (cmd : Cmd) : Decidable (Allowed s cmd) := by
  cases cmd <;> unfold Allowed <;> infer_instance

/-- The activity calls a callback. -/
def call (s : State) (cmd : Cmd) : State :=
  { s with
    main := .reset cmd
    issued := s.issued ++ [cmd]
    capture := false
    liveWindow := match cmd with
      | .nativeWindowCreated window => some window
      | _ => s.liveWindow
    liveQueue := match cmd with
      | .inputQueueCreated inputQueue => some inputQueue
      | _ => s.liveQueue }

/-- A callback goes on behind `_nativeGlue_writeAndWait`. -/
def finish (s : State) : Cmd → State
  | .destroy => { s with main := .closeWrite }
  | .windowFocusChanged hasFocus =>
    { s with main := .idle, captures := s.captures ++ [(hasFocus, s.capture)] }
  | .nativeWindowDestroyed _ => { s with main := .idle, liveWindow := none }
  | .inputQueueDestroyed _ => { s with main := .idle, liveQueue := none }
  | _ => { s with main := .idle }

/-- What the thread of the activity does next in a callback. -/
def advanceMain (s : State) : Option State :=
  match s.main with
  | .idle => none
  | .reset cmd => some { s with appDoneFutex := 0, main := .write cmd }
  | .write cmd =>
    -- A pipe that does not block takes one packet at least.
    if s.writeOpen ∧ s.pipe = [] then some { s with pipe := [cmd], main := .load cmd }
    else some (s.fail .writeFailed)
  | .load cmd =>
    if s.appDoneFutex = 1 then some (finish s cmd) else some { s with main := .futexWait cmd }
  | .futexWait cmd =>
    if s.appDoneFutex = 0 then some { s with main := .sleep cmd }
    else some { s with main := .load cmd }
  | .sleep _ => none
  | .closeWrite =>
    if s.writeOpen then some { s with writeOpen := false, main := .closeRead }
    else some (s.fail .closed)
  | .closeRead =>
    if s.readOpen ∧ s.registered = false then some { s with readOpen := false, main := .join }
    else some (s.fail .closed)
  | .join => if s.app = .exited then some { s with main := .done } else none
  | .done => none

/-- The callback that waits, if there is one. -/
def MainPc.waiting : MainPc → Option Cmd
  | .load cmd | .futexWait cmd | .sleep cmd => some cmd
  | _ => none

/-- The switch over the tag of a command. -/
def handle (s : State) (cmd : Cmd) (choice : Choice) : State :=
  let s' := { s with app := .store false, handled := s.handled ++ [cmd] }
  match cmd with
  | .windowFocusChanged hasFocus =>
    if hasFocus = false then s'
    else if s.main.waiting = some cmd then { s' with capture := true }
    else s.fail .dangling
  | .nativeWindowCreated window =>
    if s.window ≠ none then s.fail .assertion
    else if s.liveWindow ≠ some window then s.fail .dangling
    else if choice = .error then s.fail .error
    else { s' with window := some window, running := true }
  | .nativeWindowDestroyed _ =>
    if s.window = none then s.fail .assertion
    else if s.liveWindow ≠ s.window then s.fail .dangling
    else { s' with running := false, window := none }
  | .stop => { s' with running := false }
  | .inputQueueCreated inputQueue =>
    if s.inputQueue ≠ none then s.fail .assertion
    else if s.liveQueue ≠ some inputQueue then s.fail .dangling
    else { s' with inputQueue := some inputQueue }
  | .inputQueueDestroyed inputQueue =>
    if s.inputQueue ≠ some inputQueue then s.fail .assertion
    else if s.liveQueue ≠ s.inputQueue then s.fail .dangling
    else { s' with inputQueue := none }
  | .destroy => { s' with app := .removeFd }
  | _ => s'

/-- What the thread of the application does next. -/
def advanceApp (s : State) (choice : Choice) : Option State :=
  match s.app with
  | .addFd =>
    if s.readOpen then some { s with registered := true, app := .init } else some (s.fail .closed)
  | .init => if choice = .error then some (s.fail .error) else some { s with app := .poll }
  | .poll =>
    match choice with
    | .cmd => if s.registered ∧ s.pipe ≠ [] then some { s with app := .read } else none
    | .input => if s.inputQueue.isSome then some { s with app := .input } else none
    | .timeout => if s.running ∧ s.pipe = [] then some { s with app := .draw } else none
    | .error => some (s.fail .error)
  | .read =>
    match s.pipe with
    | [] => some (s.fail .readFailed)
    | cmd :: pipe =>
      if s.readOpen then some { s with pipe, app := .handle cmd } else some (s.fail .closed)
  | .input =>
    if s.inputQueue.isSome ∧ s.inputQueue = s.liveQueue then some { s with app := .poll }
    else some (s.fail .dangling)
  | .draw =>
    if s.window.isSome ∧ s.window = s.liveWindow then some { s with app := .poll }
    else some (s.fail .dangling)
  | .handle cmd => some (handle s cmd choice)
  | .removeFd =>
    if s.readOpen ∧ s.registered then some { s with registered := false, app := .store true }
    else some (s.fail .closed)
  | .store last => some { s with appDoneFutex := 1, app := .wake last }
  | .wake last =>
    let main := match s.main with
      | .sleep cmd => .load cmd
      | main => main
    some { s with main, app := if last then .exited else .poll }
  | .exited => none

/-- What happens next: the activity calls a callback, one of the threads goes on, or `FUTEX_WAIT`
returns without a wake-up. -/
inductive Action
  | call (cmd : Cmd)
  | main
  | app (choice : Choice)
  | spurious
  deriving DecidableEq

/-- What an action does, if it can happen. -/
def act (s : State) (action : Action) : Option State :=
  if s.failure.isSome then none
  else match action with
    | .call cmd => if s.main = .idle ∧ Allowed s cmd then some (call s cmd) else none
    | .main => advanceMain s
    | .app choice => advanceApp s choice
    | .spurious =>
      match s.main with
      | .sleep cmd => some { s with main := .load cmd }
      | _ => none

def Step (s s' : State) : Prop := ∃ action, act s action = some s'

/-- The states that the two threads can be in. -/
def Reachable (s : State) : Prop := Relation.ReflTransGen Step .init s

end Hc.NativeGlue
