import Hc.Router.DhcpClientRun

/-!
# The timer of the DHCP client

The client goes on only when its timer does. Every path that sets the timer sets it to a constant
but the one that takes a lease, where half of the lease time, rounded up, is computed in 32 bits:
for the lease times 0 and `0xFFFFFFFF` the sum or the half is 0, which disarms the timer.
-/

namespace Hc.DhcpClient

open Dhcp Runs

/-- The timer will expire, or has expired. -/
def Timer.Live : Timer → Prop
  | .disarmed => False
  | .armed seconds => 0 < seconds
  | .expired => True

theorem Timer.set_live_iff (seconds : ℕ) : (Timer.set seconds).Live ↔ seconds ≠ 0 := by
  unfold Timer.set
  split
  next hzero => exact ⟨False.elim, fun h => h hzero⟩
  next hpos => exact ⟨fun _ => hpos, Nat.pos_of_ne_zero⟩

theorem toNat_timeout (value : BitVec 32) :
    ((value + 1) / 2).toNat = (value.toNat + 1) % 2 ^ 32 / 2 := by
  rw [BitVec.toNat_udiv, BitVec.toNat_add]
  rfl

theorem ne_max_iff (value : BitVec 32) : value ≠ 0xFFFFFFFF ↔ value.toNat ≠ 2 ^ 32 - 1 := by
  rw [ne_eq, ← BitVec.toNat_inj]
  rfl

/-- The timeout is 0 where the lease time is, and where adding 1 to it overflows. -/
theorem timeout_ne_zero_iff (value : BitVec 32) :
    ((value + 1) / 2).toNat ≠ 0 ↔ value ≠ 0 ∧ value ≠ 0xFFFFFFFF := by
  have hlt := value.isLt
  have hzero : value ≠ 0 ↔ value.toNat ≠ 0 := by
    rw [ne_eq, ← BitVec.toNat_inj]
    rfl
  rw [toNat_timeout, hzero, ne_max_iff]
  omega

theorem timeout_eq {value : BitVec 32} (hvalue : value ≠ 0xFFFFFFFF) :
    ((value + 1) / 2).toNat = (value.toNat + 1) / 2 := by
  have hlt := value.isLt
  rw [ne_max_iff] at hvalue
  rw [toNat_timeout]
  omega

namespace System

/-- No lease is taken for the time 0 or `0xFFFFFFFF`. -/
def Renewable (system : System) : Event → Prop
  | .packet datagram =>
    match system.client.readMessage datagram with
    | .ack _ _ _ leaseTime =>
      leaseTimeValue datagram leaseTime ≠ 0 ∧ leaseTimeValue datagram leaseTime ≠ 0xFFFFFFFF
    | _ => True
  | _ => True

/-- A lease arms the timer, and with half of its time, rounded up, where that is positive. -/
def ArmsHalf (system : System) : Event → Prop
  | .packet datagram =>
    match system.client.readMessage datagram with
    | .ack _ _ _ leaseTime =>
      let half := ((leaseTimeValue datagram leaseTime).toNat + 1) / 2
      ∃ seconds, (system.step (.packet datagram)).timer = .armed seconds ∧ 0 < seconds ∧
        (0 < half → seconds = half)
    | _ => True
  | _ => True

theorem step_live_iff (system : System) (event : Event) (hlive : system.timer.Live) :
    (system.step event).timer.Live ↔ system.Renewable event := by
  cases event with
  | expire =>
      refine iff_of_true ?_ trivial
      unfold step
      dsimp only
      split
      next => trivial
      next => exact hlive
  | timer =>
      refine iff_of_true ?_ trivial
      by_cases htimer : system.timer = .expired
      · rw [(system.step_timer htimer).1]
        exact Nat.succ_pos 9
      · rw [system.step_timer_of_ne htimer]
        exact hlive
  | packet datagram =>
      unfold Renewable
      dsimp only
      split
      next subnetMask router dns leaseTime hmessage =>
        rw [(system.step_ack hmessage).2.2.1, Timer.set_live_iff, timeout_ne_zero_iff]
      next hother =>
        refine iff_of_true ?_ trivial
        obtain ⟨-, -, -, htimer | htimer | htimer⟩ := system.step_of_not_ack hother
        · rw [htimer]
          exact hlive
        · rw [htimer]
          exact Nat.succ_pos 9
        · rw [htimer]
          exact Nat.succ_pos 4

theorem Renewable.armsHalf {system : System} {event : Event} (h : system.Renewable event) :
    system.ArmsHalf event := by
  cases event with
  | packet datagram =>
      unfold Renewable at h
      unfold ArmsHalf
      dsimp only at h ⊢
      split at h
      next subnetMask router dns leaseTime hmessage =>
        have hpos := (timeout_ne_zero_iff _).mpr h
        refine ⟨_, ?_, Nat.pos_of_ne_zero hpos, fun _ => timeout_eq h.2⟩
        rw [(system.step_ack hmessage).2.2.1, Timer.set, if_neg hpos]
      next => trivial
  | expire => trivial
  | timer => trivial

/-- In every state of a run the timer is armed or has expired, and every lease arms it with half
of its time, if and only if no lease of the run is for the time 0 or `0xFFFFFFFF`. -/
theorem timer_live_iff (ifMacAddress : Bytes 6) (ifIndex routePriority : ℕ) (events : List Event) :
    let start := init ifMacAddress ifIndex routePriority
    Throughout step (fun system => system.timer.Live) start events ∧
        EveryStep step ArmsHalf start events ↔
      EveryStep step Renewable start events := by
  intro start
  have hlive : start.timer.Live := Nat.succ_pos 9
  rw [throughout_iff (P := fun system : System => system.timer.Live) hlive step_live_iff]
  constructor
  · exact And.left
  · intro h
    exact ⟨h, fun before event after hevents => (h before event after hevents).armsHalf⟩

/-- One lease for the time 0, or for the time `0xFFFFFFFF`, leaves the timer disarmed. -/
theorem timer_disarmed_by_ack :
    let start := init sampleMac 2 100
    let lease (leaseTime : List UInt8) : Event :=
      .packet (sampleMessage 2 [0, 0, 0, 0] [10, 0, 0, 7] 5 [255, 255, 255, 0] leaseTime)
    ¬Throughout step (fun system => system.timer.Live) start [lease [0, 0, 0, 0]] ∧
      ¬Throughout step (fun system => system.timer.Live) start [lease [255, 255, 255, 255]] := by
  intro start lease
  constructor
  · intro h
    have hlive : (start.step (lease [0, 0, 0, 0])).timer.Live := h [_] [] rfl
    have htimer : (start.step (lease [0, 0, 0, 0])).timer = .disarmed := by decide +kernel
    rw [htimer] at hlive
    exact hlive
  · intro h
    have hlive : (start.step (lease [255, 255, 255, 255])).timer.Live := h [_] [] rfl
    have htimer : (start.step (lease [255, 255, 255, 255])).timer = .disarmed := by decide +kernel
    rw [htimer] at hlive
    exact hlive

end System

end Hc.DhcpClient
