import Mathlib.Data.Finset.Filter
import Mathlib.Data.Finset.Insert
import Hc.Foundation.Runs
import Hc.Router.DhcpClient

/-!
# Runs of the DHCP client

The client together with what its system calls change: the timer, the addresses of the
interface, the default route and the messages sent. Events are the expiry of the timer, the
call of its handler, and messages with arbitrary contents.
-/

namespace Hc.DhcpClient

open Dhcp

/-- The one-shot timer. An expired timer waits for `dhcpClient_onTimerFd`. -/
inductive Timer where
  | disarmed
  | armed (seconds : ℕ)
  | expired
deriving DecidableEq

/-- `sys_timerfd_settime`: the time 0 disarms the timer. -/
def Timer.set (seconds : ℕ) : Timer := if seconds = 0 then .disarmed else .armed seconds

/-- The client and the state of the kernel that it changes. -/
structure System where
  client : DhcpClient
  timer : Timer
  addresses : Finset (Bytes 4 × ℕ)
  defaultRoute : Option (Bytes 4)
  sent : List (List UInt8)

namespace System

/-- What a system call changes. A request to remove an address names it without its prefix
length. -/
def act (system : System) : Act → System
  | .setTimer seconds => { system with timer := .set seconds }
  | .send _ message => { system with sent := system.sent ++ [message] }
  | .sendDiscover message => { system with sent := system.sent ++ [message] }
  | .newAddr _ address prefixLength =>
    { system with addresses := insert (address, prefixLength) system.addresses }
  | .delAddr _ address =>
    { system with addresses := system.addresses.filter fun configured => configured.1 ≠ address }
  | .newRoute gateway _ => { system with defaultRoute := some gateway }

/-- The result of a handler. -/
def perform (system : System) (result : DhcpClient × List Act) : System :=
  result.2.foldl act { system with client := result.1 }

inductive Event where
  | expire
  | timer
  | packet (datagram : Datagram)

/-- An event. Only an armed timer expires, and only an expired one is reported; reading it
leaves it disarmed. -/
def step (system : System) : Event → System
  | .expire =>
    match system.timer with
    | .armed _ => { system with timer := .expired }
    | _ => system
  | .timer =>
    match system.timer with
    | .expired => { system with timer := .disarmed }.perform system.client.onTimerFd
    | _ => system
  | .packet datagram => system.perform (system.client.onFd datagram)

/-- `dhcpClient_init`. -/
def init (ifMacAddress : Bytes 6) (ifIndex routePriority : ℕ) : System where
  client := .init ifMacAddress ifIndex routePriority
  timer := .set 10
  addresses := ∅
  defaultRoute := none
  sent := []

/-! ## Steps -/

variable (system : System) {datagram : Datagram}

theorem step_ignored (h : system.client.readMessage datagram = .ignored) :
    system.step (.packet datagram) = system := by
  simp only [step, onFd, h]
  rfl

theorem step_offer {leaseTime : ℕ} (h : system.client.readMessage datagram = .offer leaseTime) :
    system.step (.packet datagram) =
      { system with
        timer := .armed 10
        sent := system.sent ++ [system.client.requestMessage datagram leaseTime] } := by
  simp only [step, onFd, h]
  rfl

theorem step_nak (h : system.client.readMessage datagram = .nak) :
    system.step (.packet datagram) = { system with timer := .armed 5 } := by
  simp only [step, onFd, h]
  rfl

/-- A message that is no lease changes the timer at most, and sends a message at most. -/
theorem step_of_not_ack
    (h : ∀ subnetMask router dns leaseTime,
      system.client.readMessage datagram ≠ .ack subnetMask router dns leaseTime) :
    let after := system.step (.packet datagram)
    after.client = system.client ∧ after.addresses = system.addresses ∧
      after.defaultRoute = system.defaultRoute ∧
      (after.timer = system.timer ∨ after.timer = .armed 10 ∨ after.timer = .armed 5) := by
  cases hmessage : system.client.readMessage datagram with
  | ignored =>
      rw [system.step_ignored hmessage]
      exact ⟨rfl, rfl, rfl, .inl rfl⟩
  | offer leaseTime =>
      rw [system.step_offer hmessage]
      exact ⟨rfl, rfl, rfl, .inr (.inl rfl)⟩
  | nak =>
      rw [system.step_nak hmessage]
      exact ⟨rfl, rfl, rfl, .inr (.inr rfl)⟩
  | ack subnetMask router dns leaseTime => exact absurd hmessage (h _ _ _ _)

/-- A lease is taken whatever the client had before. -/
theorem step_ack {subnetMask router leaseTime : ℕ} {dns : Option ℕ}
    (h : system.client.readMessage datagram = .ack subnetMask router dns leaseTime) :
    let after := system.step (.packet datagram)
    let netmask := popcount32 (optionData datagram subnetMask)
    after.client.leasedIp = datagram.yourIp ∧ after.client.leasedIpNetmask = netmask ∧
      after.timer = .set ((leaseTimeValue datagram leaseTime + 1) / 2).toNat ∧
      after.addresses = insert (datagram.yourIp, netmask) system.addresses := by
  simp only [step, onFd, h]
  exact ⟨rfl, rfl, rfl, rfl⟩

/-- The handler of the timer renews the lease, gives it up, or goes on without one. -/
theorem step_timer (h : system.timer = .expired) :
    let after := system.step .timer
    after.timer = .armed 10 ∧ after.client.leasedIpNetmask = system.client.leasedIpNetmask ∧
      if system.client.leasedIp ≠ noIp ∧ system.client.renewServerIp ≠ noIp then
        after.client.leasedIp = system.client.leasedIp ∧ after.addresses = system.addresses
      else
        after.client.leasedIp = noIp ∧
          after.addresses =
            if system.client.leasedIp ≠ noIp then
              system.addresses.filter fun configured => configured.1 ≠ system.client.leasedIp
            else system.addresses := by
  simp only [step, onTimerFd, h]
  by_cases hrenew : system.client.leasedIp ≠ noIp ∧ system.client.renewServerIp ≠ noIp
  · rw [if_pos hrenew, if_pos hrenew]
    exact ⟨rfl, rfl, rfl, rfl⟩
  · rw [if_neg hrenew, if_neg hrenew]
    by_cases hleased : system.client.leasedIp ≠ noIp
    · rw [if_pos hleased, if_pos hleased]
      exact ⟨rfl, rfl, rfl, rfl⟩
    · rw [if_neg hleased, if_neg hleased]
      exact ⟨rfl, rfl, rfl, rfl⟩

theorem step_timer_of_ne (h : system.timer ≠ .expired) : system.step .timer = system := by
  unfold step
  dsimp only
  split
  next hexpired => exact absurd hexpired h
  next => rfl

end System

/-! ## A message -/

/-- The hardware address 2:0:0:0:0:1. -/
def sampleMac : Bytes 6 := ⟨[2, 0, 0, 0, 0, 1], rfl⟩

/-- A message of the server 10.0.0.1 to the client with the address `sampleMac`. -/
def sampleMessage (opcode : UInt8) (identifier yourIp : List UInt8) (messageType : UInt8)
    (subnetMask leaseTime : List UInt8) : Datagram where
  buffer :=
    [opcode, 1, 6, 0] ++ identifier ++ .replicate 8 0 ++ yourIp ++ [10, 0, 0, 1] ++
      .replicate 4 0 ++ (sampleMac.toList ++ .replicate 10 0) ++ .replicate 192 0 ++
      [0x63, 0x82, 0x53, 0x63] ++ [53, 1, messageType] ++ ([1, 4] ++ subnetMask) ++
      [3, 4, 10, 0, 0, 1] ++ ([51, 4] ++ leaseTime) ++ [255, 0]
  numRead := 263

end Hc.DhcpClient
