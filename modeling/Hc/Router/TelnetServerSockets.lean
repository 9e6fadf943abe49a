import Mathlib.Data.Finset.Basic
import Hc.Foundation.Runs
import Hc.Router.TelnetServer

/-!
# The sockets of the telnet server

`telnetServer_onListenFd`, `telnetServer_onPtMasterFd` and `telnetServer_onClientFd` with the
sockets that they accept and close, for any results of their system calls. All of them close
sockets through `_telnetServer_kickClient`, which knows the stored one only. A new client is
stored after its handshake was sent, and if that fails its socket stays open.
-/

namespace Hc.TelnetServer

open Runs

/-- The server, and the accepted sockets that are open. -/
structure System where
  clientFd : ℤ
  saved : Bytes 12
  openFds : Finset ℤ

namespace System

/-- `telnetServer_init`. -/
def init : System := ⟨-1, List.Vector.replicate 12 0, ∅⟩

/-- `_telnetServer_kickClient`. -/
def kickClient (system : System) : System :=
  if system.clientFd ≥ 0 then
    { system with clientFd := -1, openFds := system.openFds.erase system.clientFd }
  else system

/-- The size of `handshake`: IAC WILL ECHO, IAC WILL SGA and IAC DO NAWS. -/
abbrev handshakeSize : ℤ := 9

/-- `telnetServer_onListenFd`, with the results of `sys_accept4` and `sys_sendto`. -/
def onListenFd (system : System) (newClientFd sent : ℤ) : System :=
  if newClientFd < 0 then system
  else
    let system := { system with openFds := insert newClientFd system.openFds }
    let system := system.kickClient
    if sent ≠ handshakeSize then system.kickClient
    else { system with clientFd := newClientFd, saved := List.Vector.replicate 12 0 }

end System

/-! ## Output of the shell -/

/-- Neither CR, NL nor IAC. -/
def isPlainOutput (b : UInt8) : Bool := b != carriageReturn && b != lineFeed && b != telnetIAC

/-- What is sent for a CR, NL or IAC. -/
def escapeOutput (b : UInt8) : List UInt8 :=
  if b = carriageReturn then [carriageReturn, 0]
  else if b = lineFeed then [carriageReturn, lineFeed]
  else [telnetIAC, telnetIAC]

/-- The loop of `telnetServer_onPtMasterFd` from `baseI` on, with a bound on the number of
iterations: the data of the sends, and whether one of them failed. `sendto` gives the result of
each send in order. -/
def ptMasterLoop (buffer : List UInt8) (sendto : ℕ → ℤ) :
    ℕ → ℕ → List (List UInt8) → List (List UInt8) × Bool
  | 0, _, sends => (sends, false)
  | fuel + 1, baseI, sends =>
    let plain := (buffer.drop baseI).takeWhile isPlainOutput
    let i := baseI + plain.length
    if plain.length > 0 ∧ sendto sends.length ≠ plain.length then (sends ++ [plain], true)
    else
      let sends := if plain.length > 0 then sends ++ [plain] else sends
      if i ≥ buffer.length then (sends, false)
      else
        let bytes := escapeOutput (byteAt buffer i)
        if sendto sends.length ≠ 2 then (sends ++ [bytes], true)
        else ptMasterLoop buffer sendto fuel (i + 1) (sends ++ [bytes])

namespace System

/-- `telnetServer_onPtMasterFd` when `sys_read` returns the bytes `buffer`. -/
def onPtMasterFd (system : System) (buffer : List UInt8) (sendto : ℕ → ℤ) : System :=
  if system.clientFd < 0 then system
  else if (ptMasterLoop buffer sendto (buffer.length + 1) 0 []).2 then system.kickClient
  else system

end System

/-! ## Input of the client -/

/-- Whether the handler goes on after the result of a call. -/
def Effect.succeeds : Effect → ℤ → Bool
  | .write bytes, result => result = bytes.length
  | .setWinsize _ _, result => 0 ≤ result

namespace System

/-- `telnetServer_onClientFd` when `sys_recvfrom` returns the bytes `received`, or none and an
error or the end; `results` gives the results of the calls that follow in order. -/
def onClientFd (system : System) (received : List UInt8) (results : ℕ → ℤ) : System :=
  let (effects, stop) := TelnetServer.onClientFd ⟨true, system.saved⟩ received
  let kicked := { system with saved := List.Vector.replicate 12 0 }.kickClient
  if effects.zipIdx.all fun (effect, k) => effect.succeeds (results k) then
    match stop with
    | .done saved => { system with saved := saved }
    | .kick _ => kicked
    | .overflow => system
    | .stuck => system
  else kicked

/-! ## Runs -/

inductive Event where
  | listen (newClientFd sent : ℤ)
  | ptMaster (buffer : List UInt8) (sendto : ℕ → ℤ)
  | client (received : List UInt8) (results : ℕ → ℤ)
  | deinit

/-- An event. `sys_accept4` never returns a descriptor that is open, and only the stored socket
is reported. -/
def step (system : System) : Event → System
  | .listen newClientFd sent =>
    if newClientFd ∈ system.openFds then system else system.onListenFd newClientFd sent
  | .ptMaster buffer sendto => system.onPtMasterFd buffer sendto
  | .client received results =>
    if system.clientFd < 0 then system else system.onClientFd received results
  | .deinit => system.kickClient

/-- The open sockets are the stored one, or none. -/
def Owned (system : System) : Prop :=
  system.openFds = if system.clientFd ≥ 0 then {system.clientFd} else ∅

/-- The handshake is sent to every client that is accepted. -/
def HandshakeSent (system : System) : Event → Prop
  | .listen newClientFd sent =>
    0 ≤ newClientFd ∧ newClientFd ∉ system.openFds → sent = handshakeSize
  | _ => True

variable {system : System}

theorem kickClient_clientFd (system : System) : system.kickClient.clientFd < 0 := by
  unfold System.kickClient
  split
  next => exact Int.negSucc_lt_zero 0
  next hnone => exact not_le.mp hnone

theorem Owned.kickClient (h : system.Owned) : system.kickClient.Owned := by
  unfold Owned at h
  unfold System.kickClient
  split
  next hstored =>
    rw [if_pos hstored] at h
    rw [Owned, h, Finset.erase_singleton]
    rfl
  next => exact h

/-- A socket that is not stored is not closed. -/
theorem Owned.kickClient_insert (h : system.Owned) {newClientFd : ℤ}
    (hnew : newClientFd ∉ system.openFds) :
    { system with openFds := insert newClientFd system.openFds }.kickClient.openFds =
      {newClientFd} := by
  unfold Owned at h
  unfold System.kickClient
  dsimp only
  split
  next hstored =>
    rw [if_pos hstored] at h
    rw [h, Finset.mem_singleton] at hnew
    rw [h, Finset.erase_insert_of_ne hnew, Finset.erase_singleton]
    rfl
  next hnone =>
    rw [if_neg hnone] at h
    rw [h]
    rfl

theorem kickClient_of_neg (h : system.clientFd < 0) : system.kickClient = system :=
  if_neg (not_le.mpr h)

theorem Owned.of_saved (h : system.Owned) (saved : Bytes 12) :
    { system with saved := saved }.Owned := h

theorem Owned.onPtMasterFd (h : system.Owned) (buffer : List UInt8) (sendto : ℕ → ℤ) :
    (system.onPtMasterFd buffer sendto).Owned := by
  unfold System.onPtMasterFd
  split
  next => exact h
  next =>
    split
    next => exact h.kickClient
    next => exact h

theorem Owned.onClientFd (h : system.Owned) (received : List UInt8) (results : ℕ → ℤ) :
    (system.onClientFd received results).Owned := by
  unfold System.onClientFd
  dsimp only
  split
  next =>
    split
    next => exact h.of_saved _
    next => exact (h.of_saved _).kickClient
    next => exact h
    next => exact h
  next => exact (h.of_saved _).kickClient

/-- A new client takes the place of the stored one if its handshake is sent; otherwise its socket
is the one that is left open. -/
theorem Owned.onListenFd_iff (h : system.Owned) {newClientFd : ℤ} (sent : ℤ)
    (hnew : newClientFd ∉ system.openFds) :
    (system.onListenFd newClientFd sent).Owned ↔ (0 ≤ newClientFd → sent = handshakeSize) := by
  unfold System.onListenFd
  split
  next hfailed => exact iff_of_true h fun hnonneg => absurd hnonneg (not_le.mpr hfailed)
  next haccepted =>
    have hnonneg : 0 ≤ newClientFd := not_lt.mp haccepted
    have hopen := h.kickClient_insert hnew
    have hkicked := kickClient_clientFd
      { system with openFds := insert newClientFd system.openFds }
    dsimp only
    split
    next hlost =>
      refine iff_of_false ?_ fun hsent => hlost (hsent hnonneg)
      rw [kickClient_of_neg hkicked, Owned, hopen, if_neg (not_le.mpr hkicked)]
      exact Finset.singleton_ne_empty newClientFd
    next hsent =>
      refine iff_of_true ?_ fun _ => not_not.mp hsent
      rw [Owned, hopen, if_pos hnonneg]

theorem step_owned_iff (system : System) (event : Event) (h : system.Owned) :
    (system.step event).Owned ↔ system.HandshakeSent event := by
  cases event with
  | listen newClientFd sent =>
      unfold step HandshakeSent
      dsimp only
      split
      next hopen => exact iff_of_true h fun hnew => absurd hopen hnew.2
      next hnew =>
        rw [h.onListenFd_iff sent hnew]
        exact ⟨fun hsent haccepted => hsent haccepted.1, fun hsent hnonneg => hsent ⟨hnonneg, hnew⟩⟩
  | ptMaster buffer sendto => exact iff_of_true (h.onPtMasterFd buffer sendto) trivial
  | client received results =>
      refine iff_of_true ?_ trivial
      unfold step
      dsimp only
      split
      next => exact h
      next => exact h.onClientFd received results
  | deinit => exact iff_of_true h.kickClient trivial

/-- The open sockets are the stored one, or none, in every state of a run if and only if the
handshake is sent to every client that is accepted. -/
theorem owned_iff (events : List Event) :
    Throughout step Owned init events ↔ EveryStep step HandshakeSent init events :=
  throughout_iff rfl step_owned_iff

/-- A client that is gone before the handshake. -/
theorem not_owned_after_failed_handshake : ¬Throughout step Owned init [.listen 20 (-32)] := by
  intro h
  have howned : (init.step (.listen 20 (-32))).Owned := h [_] [] rfl
  revert howned
  unfold Owned
  decide +kernel

end System

end Hc.TelnetServer
