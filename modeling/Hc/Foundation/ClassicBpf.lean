import Hc.Foundation.Counted

/-!
# Classic BPF

The part of the classic packet filter machine that compiled address and port expressions use: loads
from the frame into the accumulator, the index register as the length of an IP header, conditional
jumps and returns. Jumps go forward only, so that a run is a walk over the program that skips
instructions.
-/

namespace Hc.ClassicBpf

/-- `struct sock_filter`. -/
structure SockFilter where
  code : ℕ
  jt : ℕ
  jf : ℕ
  k : ℕ

/-- The conditions of jumps: the accumulator is the constant, or has one of its bits. -/
inductive Condition
  | jeq
  | jset
  deriving DecidableEq

/-- The instructions, with the number of bytes that a load takes. -/
inductive Instruction
  | ld (size k : ℕ)
  | ldIndexed (size k : ℕ)
  | ldxHeaderLength (k : ℕ)
  | jump (condition : Condition) (k jt jf : ℕ)
  | ret (k : ℕ)
  deriving DecidableEq

/-- The instruction of an operation code. -/
def SockFilter.decode (filter : SockFilter) : Option Instruction :=
  match filter.code with
  | 0x20 => some (.ld 4 filter.k)
  | 0x28 => some (.ld 2 filter.k)
  | 0x30 => some (.ld 1 filter.k)
  | 0x40 => some (.ldIndexed 4 filter.k)
  | 0x48 => some (.ldIndexed 2 filter.k)
  | 0x50 => some (.ldIndexed 1 filter.k)
  | 0xb1 => some (.ldxHeaderLength filter.k)
  | 0x15 => some (.jump .jeq filter.k filter.jt filter.jf)
  | 0x45 => some (.jump .jset filter.k filter.jt filter.jf)
  | 0x06 => some (.ret filter.k)
  | _ => none

/-- The accumulator and the index register. -/
structure Registers where
  a : ℕ
  x : ℕ

/-- A run is over, or goes on behind some instructions. -/
inductive Outcome
  | done (result : ℕ)
  | next (skip : ℕ) (registers : Registers)

/-- The result of a run that goes on with `resume`. -/
def Outcome.result (resume : ℕ → Registers → Option ℕ) : Outcome → Option ℕ
  | .done result => some result
  | .next skip registers => resume skip registers

/-- Go on with loaded bytes. A load behind the end of the frame ends the run with zero. -/
def withLoad (frame : List UInt8) (size offset : ℕ) (use : ℕ → Registers) : Outcome :=
  if offset + size ≤ frame.length then .next 0 (use (countAt size frame offset)) else .done 0

def Condition.holds (a k : ℕ) : Condition → Prop
  | .jeq => a = k
  | .jset => a &&& k ≠ 0

instance (a k : ℕ) (condition : Condition) : Decidable (condition.holds a k) :=
  match condition with
  | .jeq => inferInstanceAs (Decidable (a = k))
  | .jset => inferInstanceAs (Decidable (a &&& k ≠ 0))

/-- One instruction. -/
def step (frame : List UInt8) (registers : Registers) : Instruction → Outcome
  | .ld size k => withLoad frame size k fun value => { registers with a := value }
  | .ldIndexed size k =>
    withLoad frame size (registers.x + k) fun value => { registers with a := value }
  | .ldxHeaderLength k =>
    withLoad frame 1 k fun value => { registers with x := 4 * (value &&& 0xf) }
  | .jump condition k jt jf =>
    .next (if condition.holds registers.a k then jt else jf) registers
  | .ret k => .done k

/-- Run a program behind the instructions that are skipped. There is no result if the program ends
without a return or has an unknown operation code. -/
def run (frame : List UInt8) : List SockFilter → ℕ → Registers → Option ℕ
  | [], _, _ => none
  | _ :: rest, skip + 1, registers => run frame rest skip registers
  | filter :: rest, 0, registers =>
    match filter.decode with
    | none => none
    | some instruction => (step frame registers instruction).result (run frame rest)

/-- What a program returns for a frame. -/
def filterFrame (program : List SockFilter) (frame : List UInt8) : Option ℕ :=
  run frame program 0 ⟨0, 0⟩

/-! ## Running from an instruction on -/

/-- The instruction at a place of the program. -/
def fetch (program : List SockFilter) (i : ℕ) : Option Instruction :=
  program[i]?.bind SockFilter.decode

variable {program : List SockFilter} {frame : List UInt8} {i : ℕ} {registers : Registers}
  {instruction : Instruction}

/-- The instruction that is reached is run and says how it goes on. -/
theorem run_skip (hfetch : fetch program i = some instruction) :
    run frame program i registers =
      (step frame registers instruction).result fun skip => run frame program (i + 1 + skip) := by
  induction program generalizing i with
  | nil => cases hfetch
  | cons first rest ih =>
      cases i with
      | zero =>
          replace hfetch : first.decode = some instruction := hfetch
          rw [run, hfetch]
          dsimp only
          congr 1
          funext skip registers
          rw [Nat.zero_add, Nat.add_comm 1, run]
      | succ i =>
          rw [run, ih (by rwa [fetch, List.getElem?_cons_succ] at hfetch)]
          congr 1
          funext skip registers
          rw [Nat.add_right_comm (i + 1) 1 skip, run]

theorem run_ret {k : ℕ} (hfetch : fetch program i = some (.ret k)) :
    run frame program i registers = some k := by
  rw [run_skip hfetch, step, Outcome.result]

theorem run_ld {size k : ℕ} (hfetch : fetch program i = some (.ld size k))
    (hfits : k + size ≤ frame.length) :
    run frame program i registers =
      run frame program (i + 1) { registers with a := countAt size frame k } := by
  rw [run_skip hfetch, step, withLoad, if_pos hfits, Outcome.result]

theorem run_ldIndexed {size k : ℕ} (hfetch : fetch program i = some (.ldIndexed size k))
    (hfits : registers.x + k + size ≤ frame.length) :
    run frame program i registers =
      run frame program (i + 1)
        { registers with a := countAt size frame (registers.x + k) } := by
  rw [run_skip hfetch, step, withLoad, if_pos hfits, Outcome.result]

theorem run_ldxHeaderLength {k : ℕ} (hfetch : fetch program i = some (.ldxHeaderLength k))
    (hfits : k + 1 ≤ frame.length) :
    run frame program i registers =
      run frame program (i + 1) { registers with x := 4 * (countAt 1 frame k &&& 0xf) } := by
  rw [run_skip hfetch, step, withLoad, if_pos hfits, Outcome.result]

theorem run_jump {condition : Condition} {k jt jf : ℕ}
    (hfetch : fetch program i = some (.jump condition k jt jf)) :
    run frame program i registers =
      if condition.holds registers.a k then run frame program (i + 1 + jt) registers
      else run frame program (i + 1 + jf) registers := by
  rw [run_skip hfetch, step, Outcome.result]
  split
  next h => rfl
  next h => rfl

end Hc.ClassicBpf
