import Mathlib.Data.List.Basic

/-!
# Parsers that can be cut at any byte

A `Scan` parses one unit of a byte stream and asks for the bytes one at a time;
it ends by emitting events or by rejecting the stream. A stream is a sequence of
units, and a `Session` is what is known about it so far. Since a session is a fold
over bytes, it does not depend on how the bytes were grouped. A reader that keeps
the bytes of an unfinished unit and parses them again from the start reaches the
same session.
-/

namespace Hc

/-- The parser of one unit. -/
inductive Scan (ε : Type) where
  | done (events : List ε)
  | reject
  | more (next : UInt8 → Scan ε)

/-- What is known after some bytes: the parser that waits for the next one with
the bytes of its unit so far, or the fact that the stream was rejected. -/
inductive Phase (ε : Type) where
  | waiting (next : UInt8 → Scan ε) (pending : List UInt8)
  | rejected

/-- The progress on a stream; `consumed` stops counting at a rejection. -/
structure Session (ε : Type) where
  phase : Phase ε
  events : List ε
  consumed : ℕ

namespace Scan

variable {ε : Type}

/-- The unit is settled after at most `n` more bytes. -/
def DepthLE (n : ℕ) : Scan ε → Prop
  | done _ => True
  | reject => True
  | more next => 0 < n ∧ ∀ b, DepthLE (n - 1) (next b)

theorem DepthLE.mono {scan : Scan ε} {n m : ℕ} (h : scan.DepthLE n) (hle : n ≤ m) :
    scan.DepthLE m := by
  induction scan generalizing n m with
  | done events => exact trivial
  | reject => exact trivial
  | more next ih =>
      obtain ⟨hpos, hnext⟩ := h
      exact ⟨Nat.lt_of_lt_of_le hpos hle, fun b => ih b (hnext b) (Nat.sub_le_sub_right hle 1)⟩

theorem DepthLE.of_next {next : UInt8 → Scan ε} {n : ℕ} (h : ∀ b, (next b).DepthLE n) :
    (more next).DepthLE (n + 1) :=
  ⟨Nat.succ_pos n, h⟩

theorem DepthLE.ite {c : Prop} [Decidable c] {s t : Scan ε} {n : ℕ} (hs : s.DepthLE n)
    (ht : t.DepthLE n) : (if c then s else t).DepthLE n := by
  split
  next => exact hs
  next => exact ht

/-- The session once a unit has got to `scan` with the bytes `pending`. -/
def session (start : UInt8 → Scan ε) (scan : Scan ε) (pending : List UInt8) (events : List ε)
    (consumed : ℕ) : Session ε :=
  match scan with
  | done new => ⟨.waiting start [], events ++ new, consumed⟩
  | reject => ⟨.rejected, events, consumed⟩
  | more next => ⟨.waiting next pending, events, consumed⟩

end Scan

namespace Session

variable {ε : Type} (start : UInt8 → Scan ε)

/-- Before the first byte of a unit. -/
def idle (events : List ε) (consumed : ℕ) : Session ε := ⟨.waiting start [], events, consumed⟩

/-- One byte. -/
def feed (s : Session ε) (b : UInt8) : Session ε :=
  match s.phase with
  | .waiting next pending => (next b).session start (pending ++ [b]) s.events (s.consumed + 1)
  | .rejected => s

/-- Some bytes. -/
def feedAll (s : Session ε) (bytes : List UInt8) : Session ε := bytes.foldl (feed start) s

variable {start}

theorem feed_waiting (next : UInt8 → Scan ε) (pending : List UInt8) (events : List ε)
    (consumed : ℕ) (b : UInt8) :
    feed start ⟨.waiting next pending, events, consumed⟩ b =
      (next b).session start (pending ++ [b]) events (consumed + 1) := rfl

@[simp] theorem feedAll_nil (s : Session ε) : s.feedAll start [] = s := rfl

theorem feedAll_cons (s : Session ε) (b : UInt8) (bytes : List UInt8) :
    s.feedAll start (b :: bytes) = (s.feed start b).feedAll start bytes := rfl

theorem feedAll_append (s : Session ε) (left right : List UInt8) :
    s.feedAll start (left ++ right) = (s.feedAll start left).feedAll start right :=
  List.foldl_append

theorem feedAll_rejected (events : List ε) (consumed : ℕ) (bytes : List UInt8) :
    feedAll start ⟨.rejected, events, consumed⟩ bytes = ⟨.rejected, events, consumed⟩ := by
  induction bytes with
  | nil => rfl
  | cons b bytes ih => exact ih

/-- Bytes that are units of their own, each emitting its event. -/
theorem feedAll_idle_of_done {emit : UInt8 → ε} {bytes : List UInt8}
    (hdone : ∀ b ∈ bytes, start b = .done [emit b]) (events : List ε) (consumed : ℕ) :
    feedAll start (idle start events consumed) bytes =
      idle start (events ++ bytes.map emit) (consumed + bytes.length) := by
  induction bytes generalizing events consumed with
  | nil => simp
  | cons b bytes ih =>
      have hb : feed start (idle start events consumed) b =
          idle start (events ++ [emit b]) (consumed + 1) := by
        rw [idle, feed_waiting, hdone b List.mem_cons_self]
        rfl
      rw [feedAll_cons, hb, ih fun c hc => hdone c (List.mem_cons_of_mem b hc)]
      simp [Nat.add_comm, Nat.add_left_comm]

/-! ## Parsing the pending bytes again -/

end Session

/-- The parser after some bytes of one unit. -/
def Scan.resume {ε : Type} : (UInt8 → Scan ε) → List UInt8 → Option (UInt8 → Scan ε)
  | next, [] => some next
  | next, b :: bytes =>
    match next b with
    | .more next' => resume next' bytes
    | _ => none

namespace Session

variable {ε : Type} {start : UInt8 → Scan ε}

/-- The pending bytes lead from the start of a unit to the parser that waits. -/
def Coherent (start : UInt8 → Scan ε) (s : Session ε) : Prop :=
  match s.phase with
  | .waiting next pending => Scan.resume start pending = some next ∧ pending.length ≤ s.consumed
  | .rejected => True

theorem resume_concat {first next next' : UInt8 → Scan ε} {bytes : List UInt8} {b : UInt8}
    (h : Scan.resume first bytes = some next) (hb : next b = .more next') :
    Scan.resume first (bytes ++ [b]) = some next' := by
  induction bytes generalizing first with
  | nil =>
      obtain rfl : first = next := Option.some.inj h
      simp [Scan.resume, hb]
  | cons c bytes ih =>
      rw [Scan.resume] at h
      rw [List.cons_append, Scan.resume]
      split at h
      next => exact ih h
      next => cases h

theorem feed_coherent {s : Session ε} (h : s.Coherent start) (b : UInt8) :
    (s.feed start b).Coherent start := by
  obtain ⟨phase, events, consumed⟩ := s
  cases phase with
  | rejected => exact trivial
  | waiting next pending =>
      obtain ⟨hresume, hlength⟩ := h
      rw [feed_waiting]
      cases hb : next b with
      | done new => exact ⟨rfl, Nat.zero_le _⟩
      | reject => exact trivial
      | more next' =>
          refine ⟨resume_concat hresume hb, ?_⟩
          change (pending ++ [b]).length ≤ consumed + 1
          rw [List.length_append]
          exact Nat.succ_le_succ hlength

theorem feedAll_coherent {s : Session ε} (h : s.Coherent start) (bytes : List UInt8) :
    (s.feedAll start bytes).Coherent start := by
  induction bytes generalizing s with
  | nil => exact h
  | cons b bytes ih => exact ih (feed_coherent h b)

theorem feedAll_of_resume {first next : UInt8 → Scan ε} {bytes : List UInt8}
    (h : Scan.resume first bytes = some next) (pending : List UInt8) (events : List ε)
    (consumed : ℕ) :
    feedAll start ⟨.waiting first pending, events, consumed⟩ bytes =
      ⟨.waiting next (pending ++ bytes), events, consumed + bytes.length⟩ := by
  induction bytes generalizing first pending consumed with
  | nil =>
      obtain rfl : first = next := Option.some.inj h
      simp
  | cons b bytes ih =>
      rw [Scan.resume] at h
      split at h
      next next' hb =>
        rw [feedAll_cons, feed_waiting, hb]
        refine (ih h (pending ++ [b]) (consumed + 1)).trans ?_
        simp [Nat.add_comm, Nat.add_left_comm]
      next => cases h

/-- Earlier events and bytes only shift the session. -/
theorem feedAll_shift (phase : Phase ε) (earlier events : List ε) (offset consumed : ℕ)
    (bytes : List UInt8) :
    feedAll start ⟨phase, earlier ++ events, offset + consumed⟩ bytes =
      ⟨(feedAll start ⟨phase, events, consumed⟩ bytes).phase,
        earlier ++ (feedAll start ⟨phase, events, consumed⟩ bytes).events,
        offset + (feedAll start ⟨phase, events, consumed⟩ bytes).consumed⟩ := by
  induction bytes generalizing phase events consumed with
  | nil => rfl
  | cons b bytes ih =>
      rw [feedAll_cons, feedAll_cons]
      cases phase with
      | rejected => exact ih _ _ _
      | waiting next pending =>
          rw [feed_waiting, feed_waiting]
          cases next b with
          | done new =>
              simp only [Scan.session, List.append_assoc, Nat.add_assoc]
              exact ih _ _ _
          | reject =>
              simp only [Scan.session, Nat.add_assoc]
              exact ih _ _ _
          | more next' =>
              simp only [Scan.session, Nat.add_assoc]
              exact ih _ _ _

end Session

end Hc
