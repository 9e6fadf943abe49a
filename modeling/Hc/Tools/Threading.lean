import Hc.Foundation.Reaches

/-!
# Threads that share a lock

`hc/examples/threading/linux/threading.c`. A state holds the shared variables and where each thread
is; an action lets one thread do what it does next. The atomic operations and the system calls are
one action each, and so are the two accesses of `++counter`.
-/

namespace Hc.Threading

/-- The values of `lock`. -/
inductive Lock
  | unlocked
  | locked
  deriving DecidableEq

/-- What is printed: a text, or a number in parentheses on the rest of a line. -/
inductive Output
  | text (text : String)
  | number (number : ℤ)
  deriving DecidableEq

/-- Where a thread is. -/
inductive Pc
  /-- Not started yet. -/
  | none
  /-- The parent is about to start a child. -/
  | clone (child : ℕ)
  /-- In `takeLock`: at the exchange, in the loop that spins, at `FUTEX_WAIT`, and asleep there. -/
  | exchange
  | spin
  | futexWait
  | sleep
  /-- With the lock: at the two accesses of `++counter`, and at what is to be printed. -/
  | load
  | store (value : ℤ)
  | print (texts : List String)
  /-- In `releaseLock`: at the store, and at `FUTEX_WAKE`. -/
  | unlock
  | wake
  /-- A child in `sys_exit`: `child_tid` is cleared, and its futex is woken. -/
  | clearTid
  | wakeTid
  | exited
  /-- The parent in `waitChild`: at the load, at `FUTEX_WAIT`, and asleep there. -/
  | waitChild (child : ℕ)
  | waitFutex (child : ℕ)
  | waitSleep (child : ℕ)
  /-- The parent is about to print the counter. -/
  | report
  | returned
  deriving DecidableEq

/-- A thread: where it is, and the variable `i` of its loop. -/
structure Thread where
  pc : Pc
  i : ℕ
  deriving DecidableEq

/-- The command line, the number of children, `ITERATIONS`, and the arguments of `thread`. -/
structure Config where
  spin : Bool
  children : ℕ
  iterations : ℕ
  name : ℕ → String

/-- The shared variables and the threads. Thread 0 is the parent, and the others are its children.
The status is there when `start` has returned, which ends all threads. -/
structure State where
  lock : Lock
  counter : ℤ
  childDone : ℕ → ℤ
  output : List Output
  threads : ℕ → Thread
  status : Option ℤ

/-- What happens next: a thread goes on, with the thread that `FUTEX_WAKE` wakes; `FUTEX_WAIT`
returns without a wake-up; or a child cannot be started. -/
inductive Action
  | run (thread : ℕ) (woken : Option ℕ)
  | spurious (thread : ℕ)
  | cloneFails
  deriving DecidableEq

namespace State

variable (s : State)

/-- One thread is something else. -/
def set (t : ℕ) (thread : Thread) : State :=
  { s with threads := Function.update s.threads t thread }

/-- A thread is somewhere else. -/
def goto (t : ℕ) (pc : Pc) : State := s.set t { s.threads t with pc }

/-- The program before its first instruction. -/
def start : State where
  lock := .unlocked
  counter := 0
  childDone := fun _ => 1
  output := []
  threads := fun t => ⟨if t = 0 then .clone 1 else .none, 0⟩
  status := Option.none

end State

section Step

variable (c : Config)

/-- What a thread prints when it is done. -/
def Config.message (t : ℕ) : List String :=
  if t = 0 then ["Parent done!\n"] else [c.name t, " done!\n"]

/-- Where a thread goes on with the lock. -/
def Config.locked (t : ℕ) (i : ℕ) : Pc :=
  if i < c.iterations then .load else .print (c.message t)

/-- Where a thread goes on behind `releaseLock`: at its next iteration, or behind the last lock. -/
def Config.released (t : ℕ) (thread : Thread) : Thread :=
  if thread.i < c.iterations then ⟨.exchange, thread.i + 1⟩
  else if t = 0 then ⟨.waitChild 1, thread.i⟩
  else ⟨.clearTid, thread.i⟩

/-- What a thread does next. -/
def advance (s : State) (t : ℕ) (woken : Option ℕ) : Option State :=
  match (s.threads t).pc with
  | .none => none
  | .clone child =>
    if child ≤ c.children then some ((s.goto child .exchange).goto t (.clone (child + 1)))
    else some (s.goto t .exchange)
  | .exchange =>
    if s.lock = .unlocked then
      some (State.goto { s with lock := .locked } t (c.locked t (s.threads t).i))
    else if c.spin then some (s.goto t .spin)
    else some (s.goto t .futexWait)
  | .spin => if s.lock = .locked then some s else some (s.goto t .exchange)
  | .futexWait => if s.lock = .locked then some (s.goto t .sleep) else some (s.goto t .exchange)
  | .sleep => none
  | .load => some (s.goto t (.store s.counter))
  | .store value => some (State.goto { s with counter := value + 1 } t .unlock)
  | .print [] => some (s.goto t .unlock)
  | .print (text :: texts) =>
    some (State.goto { s with output := s.output ++ [Output.text text] } t (.print texts))
  | .unlock =>
    if c.spin then some (State.set { s with lock := .unlocked } t (c.released t (s.threads t)))
    else some (State.goto { s with lock := .unlocked } t .wake)
  | .wake =>
    match woken with
    | none =>
      if ∀ u < c.children + 1, (s.threads u).pc ≠ .sleep then
        some (s.set t (c.released t (s.threads t)))
      else none
    | some u =>
      if (s.threads u).pc = .sleep then
        some ((s.goto u .exchange).set t (c.released t (s.threads t)))
      else none
  | .clearTid =>
    some (State.goto { s with childDone := Function.update s.childDone t 0 } t .wakeTid)
  | .wakeTid =>
    if (s.threads 0).pc = .waitSleep t then some ((s.goto 0 (.waitChild t)).goto t .exited)
    else some (s.goto t .exited)
  | .exited => none
  | .waitChild child =>
    if child ≤ c.children then
      if s.childDone child = 0 then some (s.goto t (.waitChild (child + 1)))
      else some (s.goto t (.waitFutex child))
    else some (s.goto t .report)
  | .waitFutex child =>
    if s.childDone child = 1 then some (s.goto t (.waitSleep child))
    else some (s.goto t (.waitChild child))
  | .waitSleep _ => none
  | .report =>
    some { s.goto t .returned with
      output := s.output ++ [.text "Counter", .number s.counter]
      status := some 0 }
  | .returned => none

/-- What an action does, if it can happen. -/
def act (s : State) (action : Action) : Option State :=
  if s.status.isSome then none
  else match action with
    | .run t woken => advance c s t woken
    | .spurious t =>
      match (s.threads t).pc with
      | .sleep => some (s.goto t .exchange)
      | .waitSleep child => some (s.goto t (.waitChild child))
      | _ => none
    | .cloneFails =>
      match (s.threads 0).pc with
      | .clone child => if child ≤ c.children then some { s with status := some 1 } else none
      | _ => none

/-- A thread goes on, or something happens to the threads from outside. -/
def Step : Option ℕ → State → State → Prop
  | some t, s, s' => ∃ woken, act c s (.run t woken) = some s'
  | none, s, s' => (∃ t, act c s (.spurious t) = some s') ∨ act c s .cloneFails = some s'

/-- The states that the program can be in. -/
def Reachable (s : State) : Prop :=
  Relation.ReflTransGen (fun s s' => ∃ party, Step c party s s') .start s

end Step

end Hc.Threading
