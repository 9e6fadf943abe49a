import Mathlib.Control.Basic
import Mathlib.Data.List.TakeWhile
import Hc.Foundation.Resumable
import Hc.Router.TelnetServer

/-!
# The telnet server does not depend on how the stream is split

The telnet grammar is written as a parser that can be cut at any byte. A call
of the handler feeds its buffer to that parser, and the saved bytes are the
bytes of the command it is in the middle of. Reads in any grouping then reach
the session of the whole stream.
-/

namespace Hc.TelnetServer

/-- What the client's stream means for the shell. -/
inductive Event where
  | byte (b : UInt8)
  | resize (col row : UInt16)

/-- A call as the events it stands for. -/
def Effect.events : Effect → List Event
  | .write bytes => bytes.map .byte
  | .setWinsize col row => [.resize col row]

/-! ## The grammar -/

/-- One byte of a window size, where IAC is doubled. -/
def nawsByte (next : UInt8 → Scan Event) : Scan Event :=
  .more fun b =>
    if b = telnetIAC then
      .more fun b => if b ≠ telnetIAC then .reject else next b
    else
      next b

def nawsU16 (next : UInt16 → Scan Event) : Scan Event :=
  nawsByte fun msb => nawsByte fun lsb => next ((msb.toUInt16 <<< 8) ||| lsb.toUInt16)

/-- The rest of a window size negotiation. -/
def nawsCommand : Scan Event :=
  nawsU16 fun col => nawsU16 fun row => .more fun iac => .more fun se =>
    if iac ≠ telnetIAC ∨ se ≠ telnetSE then .reject else .done [.resize col row]

/-- The rest of a command after IAC. -/
def iacCommand (followup : UInt8) : Scan Event :=
  if telnetNOP ≤ followup ∧ followup ≤ telnetGoAhead then
    .done []
  else if telnetWILL ≤ followup ∧ followup ≤ telnetDONT then
    .more fun _ => .done []
  else if followup = telnetIAC then
    .done [.byte telnetIAC]
  else if followup = telnetSB then
    .more fun opt => if opt = telnetOptNAWS then nawsCommand else .reject
  else
    .reject

/-- The rest of a line end after CR. -/
def crCommand (followup : UInt8) : Scan Event :=
  if followup = 0 ∨ followup = lineFeed then .done [.byte carriageReturn] else .reject

/-- One unit of the stream. -/
def command (b : UInt8) : Scan Event :=
  if b = telnetIAC then .more iacCommand
  else if b = carriageReturn then .more crCommand
  else .done [.byte b]

/-! ## The handler runs the grammar on its buffer -/

variable (buffer : List UInt8) (saved : Bytes 12) (startI : ℕ)

/-- A parser run on the buffer with the primitive of the code. -/
def runScan : Scan Event → ℕ → Except Stop (List Event × ℕ)
  | .done events, currI => .ok (events, currI)
  | .reject, currI => .error (.kick currI)
  | .more next, currI => do
    let r ← getByteOrSave buffer saved startI currI
    runScan (next r.1) r.2

theorem runScan_ite (c : Prop) [Decidable c] (s t : Scan Event) (currI : ℕ) :
    runScan buffer saved startI (if c then s else t) currI =
      if c then runScan buffer saved startI s currI else runScan buffer saved startI t currI :=
  apply_ite (fun x => runScan buffer saved startI x currI) c s t

theorem runScan_nawsByte (next : UInt8 → Scan Event) (currI : ℕ) :
    runScan buffer saved startI (nawsByte next) currI =
      (getNawsByteOrSave buffer saved startI currI >>= fun r =>
        runScan buffer saved startI (next r.1) r.2) := by
  simp only [nawsByte, getNawsByteOrSave, runScan, runScan_ite, bind_assoc]
  congr 1
  funext r
  split
  next =>
    simp only [bind_assoc]
    congr 1
    funext r
    split
    next => rfl
    next => rfl
  next => rfl

theorem runScan_nawsU16 (next : UInt16 → Scan Event) (currI : ℕ) :
    runScan buffer saved startI (nawsU16 next) currI =
      (getNawsU16OrSave buffer saved startI currI >>= fun r =>
        runScan buffer saved startI (next r.1) r.2) := by
  simp only [nawsU16, getNawsU16OrSave, runScan_nawsByte, bind_assoc, pure_bind]

/-- The result of a command with its calls read as events. -/
def toEvents (r : List Effect × ℕ) : List Event × ℕ := (r.1.flatMap Effect.events, r.2)

theorem map_ite (c : Prop) [Decidable c] (x y : Except Stop (List Effect × ℕ)) :
    toEvents <$> (if c then x else y) = if c then toEvents <$> x else toEvents <$> y :=
  apply_ite (toEvents <$> ·) c x y

theorem map_throw (stop : Stop) :
    toEvents <$> (throw stop : Except Stop (List Effect × ℕ)) = .error stop := rfl

/-- The calls of a command are the events of the grammar. -/
theorem handleCommand_eq (i : ℕ) (hcommand : isPlain (byteAt buffer i) = false) :
    toEvents <$> handleCommand buffer saved i =
      runScan buffer saved i (command (byteAt buffer i)) (i + 1) := by
  unfold handleCommand command
  by_cases hiac : byteAt buffer i = telnetIAC
  · simp only [hiac, if_true, runScan, map_bind, map_ite, map_pure, map_throw, iacCommand,
      runScan_ite, nawsCommand, runScan_nawsU16]
    rfl
  · have hcr : byteAt buffer i = carriageReturn := by
      simpa [isPlain, hiac] using hcommand
    simp only [hcr, if_true, runScan, map_bind, map_ite, map_pure, map_throw,
      crCommand, runScan_ite]
    rfl

/-- The outcome of parsing from `currI` to the end of the buffer agrees with the
session that the rest of the buffer leads to. -/
def Agrees (final : Session Event) (events : List Event) (consumed currI : ℕ) :
    Except Stop (List Event × ℕ) → Prop
  | .ok (new, next) => currI ≤ next ∧ next ≤ buffer.length ∧
      final = (Session.idle command (events ++ new) (consumed + (next - currI))).feedAll command
        (buffer.drop next)
  | .error (.done saved') => (buffer.drop startI).length ≤ 12 ∧
      saved' = saved.write (12 - (buffer.drop startI).length) (buffer.drop startI) ∧
      ∃ next, final =
        ⟨.waiting next (buffer.drop startI), events, consumed + (buffer.length - currI)⟩
  | .error (.kick position) => currI ≤ position ∧
      final = ⟨.rejected, events, consumed + (position - currI)⟩
  | .error .overflow => False
  | .error .stuck => False

variable {buffer saved startI}

/-- A byte read counts as consumed. -/
theorem Agrees.read {final : Session Event} {events : List Event} {consumed currI : ℕ}
    {r : Except Stop (List Event × ℕ)} (hlt : currI < buffer.length)
    (h : Agrees buffer saved startI final events (consumed + 1) (currI + 1) r) :
    Agrees buffer saved startI final events consumed currI r := by
  match r, h with
  | .ok (new, next), ⟨hnext, hle, hfinal⟩ =>
      refine ⟨by omega, hle, ?_⟩
      rw [hfinal]
      congr 2
      omega
  | .error (.done saved'), ⟨hlength, hsaved, next, hfinal⟩ =>
      refine ⟨hlength, hsaved, next, ?_⟩
      rw [hfinal]
      congr 1
      omega
  | .error (.kick position), ⟨hposition, hfinal⟩ =>
      refine ⟨by omega, ?_⟩
      rw [hfinal]
      congr 1
      omega

variable (buffer saved startI)

theorem runScan_agrees (scan : Scan Event) {depth currI : ℕ} (hdepth : scan.DepthLE depth)
    (hstart : startI ≤ currI) (hle : currI ≤ buffer.length) (hfits : currI + depth ≤ startI + 13)
    (events : List Event) (consumed : ℕ) :
    Agrees buffer saved startI
      ((scan.session command ((buffer.take currI).drop startI) events consumed).feedAll command
        (buffer.drop currI)) events consumed currI (runScan buffer saved startI scan currI) := by
  induction scan generalizing currI depth consumed with
  | done new =>
      refine ⟨le_rfl, hle, ?_⟩
      rw [Nat.sub_self, Nat.add_zero]
      rfl
  | reject =>
      refine ⟨le_rfl, ?_⟩
      rw [Nat.sub_self, Nat.add_zero]
      exact Session.feedAll_rejected _ _ _
  | more next ih =>
      obtain ⟨hpos, hdepth⟩ := hdepth
      rw [runScan, getByteOrSave]
      by_cases hend : currI ≥ buffer.length
      · -- The unit is cut by the end of the buffer.
        obtain rfl : currI = buffer.length := le_antisymm hle hend
        have hsave : buffer.length - startI ≤ 12 := by omega
        simp only [hend, if_true, hsave]
        refine ⟨by rwa [List.length_drop], by rw [List.length_drop], next, ?_⟩
        simp [Scan.session]
      · have hlt : currI < buffer.length := by omega
        have hbyte : byteAt buffer currI = buffer[currI] := List.getD_eq_getElem _ _ hlt
        have hpending : (buffer.take (currI + 1)).drop startI =
            (buffer.take currI).drop startI ++ [buffer[currI]] := by
          rw [List.take_succ_eq_append_getElem hlt, List.drop_append_of_le_length]
          rw [List.length_take]
          omega
        have hnext := ih buffer[currI] (hdepth buffer[currI])
          (show startI ≤ currI + 1 by omega) (by omega) (by omega) (consumed + 1)
        simp only [hend, if_false]
        have hfeed : (((Scan.more next).session command ((buffer.take currI).drop startI) events
            consumed).feedAll command (buffer.drop currI)) =
            ((next buffer[currI]).session command ((buffer.take (currI + 1)).drop startI) events
              (consumed + 1)).feedAll command (buffer.drop (currI + 1)) := by
          rw [List.drop_eq_getElem_cons hlt, Session.feedAll_cons, hpending]
          rfl
        rw [hfeed]
        change Agrees buffer saved startI _ events consumed currI
          (runScan buffer saved startI (next (byteAt buffer currI)) (currI + 1))
        rw [hbyte]
        exact hnext.read hlt

/-! ## The loop -/

theorem nawsByte_depth {next : UInt8 → Scan Event} {n : ℕ} (h : ∀ b, (next b).DepthLE n) :
    (nawsByte next).DepthLE (n + 2) := by
  refine .of_next fun b => .ite (.of_next fun b => .ite ?_ (h b)) ((h b).mono (Nat.le_succ n))
  exact trivial

theorem nawsU16_depth {next : UInt16 → Scan Event} {n : ℕ} (h : ∀ b, (next b).DepthLE n) :
    (nawsU16 next).DepthLE (n + 4) :=
  nawsByte_depth fun _ => nawsByte_depth fun _ => h _

theorem nawsCommand_depth : nawsCommand.DepthLE 10 := by
  refine nawsU16_depth fun col => nawsU16_depth fun row => ?_
  exact .of_next fun iac => .of_next fun se => .ite trivial trivial

theorem iacCommand_depth (followup : UInt8) : (iacCommand followup).DepthLE 11 := by
  refine .ite trivial (.ite ?_ (.ite trivial (.ite ?_ trivial)))
  · exact .of_next fun _ => trivial
  · exact .of_next fun opt => .ite nawsCommand_depth trivial

theorem command_depth (b : UInt8) : (command b).DepthLE 12 := by
  refine .ite ?_ (.ite ?_ trivial)
  · exact .of_next iacCommand_depth
  · exact .of_next fun followup => .ite trivial trivial

theorem command_plain {b : UInt8} (h : isPlain b = true) : command b = .done [.byte b] := by
  obtain ⟨hcr, hiac⟩ : b ≠ carriageReturn ∧ b ≠ telnetIAC := by simpa [isPlain] using h
  rw [command, if_neg hiac, if_neg hcr]

/-- What a call of the handler leaves, next to the session of its buffer. -/
def Finished (final : Session Event) (log : List Effect) : Stop → Prop
  | .done saved' => ∃ next pending, pending.length ≤ 12 ∧
      saved' = saved.write (12 - pending.length) pending ∧
      final = ⟨.waiting next pending, log.flatMap Effect.events, buffer.length⟩
  | .kick position => final = ⟨.rejected, log.flatMap Effect.events, position⟩
  | .overflow => False
  | .stuck => False

/-- The handling of the command at `i` agrees with the session from there. -/
theorem handleCommand_agrees {i : ℕ} (hi : i < buffer.length)
    (hcommand : isPlain (byteAt buffer i) = false) (events : List Event) :
    Agrees buffer saved i
      ((Session.idle command events i).feedAll command (buffer.drop i)) events (i + 1) (i + 1)
      (toEvents <$> handleCommand buffer saved i) := by
  have hbyte : byteAt buffer i = buffer[i] := List.getD_eq_getElem _ _ hi
  have hagrees := runScan_agrees buffer saved i (command buffer[i]) (command_depth buffer[i])
    (Nat.le_succ i) hi (by omega) events (i + 1)
  have hpending : (buffer.take (i + 1)).drop i = [buffer[i]] := by
    rw [List.take_succ_eq_append_getElem hi, List.drop_append_of_le_length, List.drop_take_self]
    · rfl
    · rw [List.length_take]
      omega
  rw [handleCommand_eq buffer saved i hcommand, List.drop_eq_getElem_cons hi, Session.feedAll_cons,
    hbyte]
  rw [hpending] at hagrees
  exact hagrees

/-- The events of plain bytes, which are written together. -/
theorem flatMap_events_write (log : List Effect) (plain : List UInt8) :
    (if plain.length > 0 then log ++ [.write plain] else log).flatMap Effect.events =
      log.flatMap Effect.events ++ plain.map Event.byte := by
  split
  next => simp [Effect.events]
  next hempty => simp [List.eq_nil_of_length_eq_zero (Nat.eq_zero_of_not_pos hempty)]

theorem clientLoop_finished (fuel baseI : ℕ) (log : List Effect) (hle : baseI ≤ buffer.length)
    (hfuel : buffer.length < baseI + fuel) :
    Finished buffer saved
      ((Session.idle command (log.flatMap Effect.events) baseI).feedAll command
        (buffer.drop baseI))
      (clientLoop buffer saved fuel baseI log).1 (clientLoop buffer saved fuel baseI log).2 := by
  induction fuel generalizing baseI log with
  | zero => omega
  | succ fuel ih =>
      have hall : ∀ b ∈ (buffer.drop baseI).takeWhile isPlain, command b = .done [.byte b] :=
        fun b hb => command_plain (List.mem_takeWhile_imp hb)
      have hnext := drop_eq_takeWhile_or isPlain buffer baseI
      dsimp only at hnext
      rw [clientLoop]
      generalize (buffer.drop baseI).takeWhile isPlain = plain at hall hnext
      have hevents := flatMap_events_write log plain
      generalize (if plain.length > 0 then log ++ [.write plain] else log) = log' at hevents
      generalize hi : baseI + plain.length = i at hnext
      rcases hnext with ⟨hend, hdrop⟩ | ⟨hlt, hcommand, hdrop⟩
      · have hlength := congrArg List.length hdrop
        rw [List.length_drop] at hlength
        obtain rfl : i = buffer.length := by omega
        rw [hdrop, Session.feedAll_idle_of_done hall, ← hevents, hi, if_pos hend]
        exact ⟨_, [], Nat.zero_le _, (Bytes.write_nil _ _).symm, rfl⟩
      · have hrest := drop_add_length hdrop
        rw [hi] at hrest
        rw [hdrop, ← hrest, Session.feedAll_append, Session.feedAll_idle_of_done hall, ← hevents,
          hi]
        have hagrees := handleCommand_agrees buffer saved hlt hcommand
          (log'.flatMap Effect.events)
        rw [if_neg (Nat.not_le.mpr hlt)]
        generalize handleCommand buffer saved i = result at hagrees
        match result with
        | .ok (effects, currI) =>
            obtain ⟨hcurr, hle', hfinal⟩ := hagrees
            have hih := ih currI (log' ++ effects) hle' (by omega)
            rw [List.flatMap_append] at hih
            rw [hfinal, show i + 1 + (currI - (i + 1)) = currI by omega]
            exact hih
        | .error (.done saved') =>
            obtain ⟨hlength, hsaved, next, hfinal⟩ := hagrees
            refine ⟨next, buffer.drop i, hlength, hsaved, ?_⟩
            rw [hfinal]
            congr 1
            omega
        | .error (.kick position) =>
            obtain ⟨hposition, hfinal⟩ := hagrees
            refine hfinal.trans ?_
            congr 1
            omega

/-! ## Successive reads -/

/-- `saved` holds the bytes `pending`, at its end and after zeros. -/
def Saves (saved : Bytes 12) (pending : List UInt8) : Prop :=
  pending.length ≤ 12 ∧ saved.toList = List.replicate (12 - pending.length) 0 ++ pending

/-- The first byte of an unfinished command is not zero, so the zeros before it mark
where the saved bytes begin. -/
theorem savedBytes_eq {saved : Bytes 12} {pending : List UInt8} {next : UInt8 → Scan Event}
    (hsaves : Saves saved pending) (hresume : Scan.resume command pending = some next) :
    savedBytes saved = pending := by
  rw [savedBytes, hsaves.2, List.dropWhile_append_of_pos (by simp)]
  cases pending with
  | nil => rfl
  | cons b pending =>
      have hb : b ≠ 0 := by
        rintro rfl
        cases hresume
      simp [hb]

theorem toList_zeros : (List.Vector.replicate 12 (0 : UInt8)).toList = List.replicate 12 0 := rfl

/-- Taking the saved bytes out leaves zeros. -/
theorem saves_write_zero {saved : Bytes 12} {pending : List UInt8} (hsaves : Saves saved pending) :
    saved.write (12 - pending.length) (List.replicate pending.length 0) =
      List.Vector.replicate 12 0 := by
  obtain ⟨hlength, hsaved⟩ := hsaves
  have hzeros : 12 - pending.length + (List.replicate pending.length (0 : UInt8)).length = 12 := by
    rw [List.length_replicate]
    omega
  apply List.Vector.toList_injective
  rw [Bytes.toList_write _ _ _ hzeros.le, hzeros, hsaved, toList_zeros,
    List.take_left' (List.length_replicate ..), List.drop_of_length_le, List.append_nil,
    ← List.replicate_add, Nat.sub_add_cancel hlength]
  rw [List.length_append, List.length_replicate]
  omega

theorem saves_write {pending : List UInt8} (hlength : pending.length ≤ 12) :
    Saves (Bytes.write (List.Vector.replicate 12 0) (12 - pending.length) pending) pending := by
  refine ⟨hlength, ?_⟩
  rw [Bytes.toList_write _ _ _ (by omega), toList_zeros, List.take_replicate,
    List.drop_of_length_le, List.append_nil, Nat.min_eq_left (Nat.sub_le 12 _)]
  rw [List.length_replicate]
  omega

/-- The calls so far have done what the stream so far means. -/
structure Tracks (r : Run) (session : Session Event) : Prop where
  events : r.log.flatMap Effect.events = session.events
  faulted : r.faulted = false
  phase : match session.phase with
    | .waiting _ pending => r.state.connected = true ∧ r.kickedAfter = none ∧
        r.received = session.consumed ∧ Saves r.state.saved pending
    | .rejected => r.state.connected = false ∧ r.kickedAfter = some session.consumed

theorem read_tracks {r : Run} {session : Session Event} (h : Tracks r session)
    (hcoherent : session.Coherent command) {received : List UInt8} (hreceived : received ≠ []) :
    Tracks (r.read received) (session.feedAll command received) := by
  obtain ⟨phase, events, consumed⟩ := session
  obtain ⟨hevents, hfaulted, hphase⟩ := h
  cases phase with
  | rejected =>
      obtain ⟨hconnected, hkicked⟩ := hphase
      have hread : r.read received = r := by
        rw [Run.read, hconnected]
        rfl
      rw [hread, Session.feedAll_rejected]
      exact ⟨hevents, hfaulted, hconnected, hkicked⟩
  | waiting next pending =>
      obtain ⟨hconnected, hkicked, hcount, hsaves⟩ := hphase
      obtain ⟨hresume, hlength⟩ := hcoherent
      have hbytes := savedBytes_eq hsaves hresume
      -- The handler parses the pending bytes again and goes on with the new ones.
      have hloop := clientLoop_finished (pending ++ received) (List.Vector.replicate 12 0)
        ((pending ++ received).length + 1) 0 [] (Nat.zero_le _) (by omega)
      have hagain : (Session.idle command ([].flatMap Effect.events) 0).feedAll command
          (pending ++ received) =
          Session.feedAll command ⟨.waiting next pending, [], pending.length⟩ received := by
        rw [Session.feedAll_append, Session.idle, Session.feedAll_of_resume hresume]
        simp
      have hcall : onClientFd r.state received = clientLoop (pending ++ received)
          (List.Vector.replicate 12 0) ((pending ++ received).length + 1) 0 [] := by
        rw [onClientFd, if_neg (by simpa using hreceived), hbytes, saves_write_zero hsaves]
      rw [List.drop_zero, hagain, ← hcall] at hloop
      have hshift : Session.feedAll command _ received = _ :=
        Session.feedAll_shift (.waiting next pending) events [] (consumed - pending.length)
          pending.length received
      rw [List.append_nil, Nat.sub_add_cancel hlength] at hshift
      rw [hshift, Run.read, if_pos hconnected, hbytes]
      generalize onClientFd r.state received = call at hloop
      obtain ⟨log, stop⟩ := call
      cases stop with
      | done saved =>
          obtain ⟨next', pending', hpending, rfl, hfinal⟩ := hloop
          rw [hfinal]
          refine ⟨?_, hfaulted, hconnected, hkicked, ?_, saves_write hpending⟩
          · simp only [List.flatMap_append, hevents]
          · have hle : pending.length ≤ consumed := hlength
            simp only [hcount, List.length_append]
            omega
      | kick position =>
          change Session.feedAll command _ received = _ at hloop
          rw [hloop]
          refine ⟨?_, hfaulted, rfl, ?_⟩
          · simp only [List.flatMap_append, hevents]
          · rw [hcount]
      | overflow => exact hloop.elim
      | stuck => exact hloop.elim

theorem reads_tracks {r : Run} {session : Session Event} (h : Tracks r session)
    (hcoherent : session.Coherent command) {chunks : List (List UInt8)}
    (hchunks : ∀ chunk ∈ chunks, chunk ≠ []) :
    Tracks (r.reads chunks) (session.feedAll command chunks.flatten) := by
  induction chunks generalizing r session with
  | nil => exact h
  | cons chunk chunks ih =>
      rw [List.flatten_cons, Session.feedAll_append]
      exact ih (read_tracks h hcoherent (hchunks chunk List.mem_cons_self))
        (Session.feedAll_coherent hcoherent chunk)
        fun c hc => hchunks c (List.mem_cons_of_mem chunk hc)

/-- Reads in any grouping have done what the whole stream means. -/
theorem reads_start_tracks {chunks : List (List UInt8)} (hchunks : ∀ chunk ∈ chunks, chunk ≠ []) :
    Tracks (Run.start.reads chunks)
      ((Session.idle command [] 0).feedAll command chunks.flatten) := by
  have htracks : Tracks Run.start (Session.idle command [] 0) :=
    ⟨rfl, rfl, rfl, rfl, rfl, Nat.zero_le _, rfl⟩
  have hcoherent : (Session.idle command [] 0).Coherent command := ⟨rfl, le_rfl⟩
  exact reads_tracks htracks hcoherent hchunks

/-- The byte of an event. -/
def Event.byte? : Event → Option UInt8
  | .byte b => some b
  | .resize _ _ => none

/-- The window size of an event. -/
def Event.winsize? : Event → Option (UInt16 × UInt16)
  | .byte _ => none
  | .resize col row => some (col, row)

theorem ptyBytes_eq (log : List Effect) :
    ptyBytes log = (log.flatMap Effect.events).filterMap Event.byte? := by
  induction log with
  | nil => rfl
  | cons effect log ih =>
      rw [List.flatMap_cons, List.filterMap_append, ← ih]
      cases effect with
      | write bytes => simp [ptyBytes, Effect.events, List.filterMap_map, Function.comp_def,
        Event.byte?]
      | setWinsize col row => rfl

theorem winsizes_eq (log : List Effect) :
    winsizes log = (log.flatMap Effect.events).filterMap Event.winsize? := by
  induction log with
  | nil => rfl
  | cons effect log ih =>
      rw [List.flatMap_cons, List.filterMap_append, ← ih]
      cases effect with
      | write bytes => simp [winsizes, Effect.events, List.filterMap_map, Function.comp_def,
        Event.winsize?]
      | setWinsize col row => rfl

theorem Tracks.kickedAfter_eq {r r' : Run} {session : Session Event} (h : Tracks r session)
    (h' : Tracks r' session) : r.kickedAfter = r'.kickedAfter := by
  obtain ⟨-, -, hphase⟩ := h
  obtain ⟨-, -, hphase'⟩ := h'
  obtain ⟨phase, events, consumed⟩ := session
  cases phase with
  | waiting next pending => rw [hphase.2.1, hphase'.2.1]
  | rejected => rw [hphase.2, hphase'.2]

/-- The effect of a stream does not depend on how it is split into reads, and the
saved bytes always fit. -/
theorem reads_split_independent (chunks chunks' : List (List UInt8))
    (hchunks : ∀ chunk ∈ chunks, chunk ≠ []) (hchunks' : ∀ chunk ∈ chunks', chunk ≠ [])
    (hstream : chunks.flatten = chunks'.flatten) :
    ptyBytes (Run.start.reads chunks).log = ptyBytes (Run.start.reads chunks').log ∧
    winsizes (Run.start.reads chunks).log = winsizes (Run.start.reads chunks').log ∧
    (Run.start.reads chunks).kickedAfter = (Run.start.reads chunks').kickedAfter ∧
    (Run.start.reads chunks).faulted = false := by
  have h := reads_start_tracks hchunks
  have h' := reads_start_tracks hchunks'
  rw [← hstream] at h'
  refine ⟨?_, ?_, h.kickedAfter_eq h', h.faulted⟩
  · rw [ptyBytes_eq, ptyBytes_eq, h.events, h'.events]
  · rw [winsizes_eq, winsizes_eq, h.events, h'.events]

/-- A command cut after its second byte, and a line end cut after its first. -/
theorem reads_split_independent_cut :
    ptyBytes (Run.start.reads [[255, 253], [1, 65, 13], [0]]).log =
      ptyBytes (Run.start.reads [[255, 253, 1, 65, 13, 0]]).log ∧
    winsizes (Run.start.reads [[255, 253], [1, 65, 13], [0]]).log =
      winsizes (Run.start.reads [[255, 253, 1, 65, 13, 0]]).log ∧
    (Run.start.reads [[255, 253], [1, 65, 13], [0]]).kickedAfter =
      (Run.start.reads [[255, 253, 1, 65, 13, 0]]).kickedAfter ∧
    (Run.start.reads [[255, 253], [1, 65, 13], [0]]).faulted = false :=
  reads_split_independent _ _ (by decide) (by decide) rfl

end Hc.TelnetServer
