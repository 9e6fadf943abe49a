import Mathlib.Data.Finset.Basic
import Hc.Router.DhcpClientRun

/-!
# The lease of the DHCP client

The addresses of the interface are in step with the lease as long as a lease is taken only
when there is none or to renew the same one. A lease with another address or another netmask
leaves the old address in place, a lease of the address 0 configures it, and a lost lease leaves
`leasedIpNetmask` behind.
-/

namespace Hc.DhcpClient.System

open Dhcp Runs

/-- The addresses are those of the lease. -/
def InStep (system : System) : Prop :=
  if system.client.leasedIp ≠ noIp then
    system.addresses = {(system.client.leasedIp, system.client.leasedIpNetmask)}
  else system.addresses = ∅ ∧ system.client.leasedIpNetmask = 0

/-- No lease with a netmask is lost, and leases are taken only anew or to renew the same
address with the same netmask. -/
def KeepsLease (system : System) : Event → Prop
  | .expire => True
  | .timer =>
    ¬(system.timer = .expired ∧ system.client.leasedIp ≠ noIp ∧
      system.client.renewServerIp = noIp ∧ system.client.leasedIpNetmask ≠ 0)
  | .packet datagram =>
    match system.client.readMessage datagram with
    | .ack subnetMask _ _ _ =>
      datagram.yourIp ≠ noIp ∧
        (system.client.leasedIp = noIp ∨
          system.client.leasedIp = datagram.yourIp ∧
            system.client.leasedIpNetmask = popcount32 (optionData datagram subnetMask))
    | _ => True

variable {system : System}

theorem InStep.of_eq {system' : System} (h : system.InStep)
    (hleasedIp : system'.client.leasedIp = system.client.leasedIp)
    (hnetmask : system'.client.leasedIpNetmask = system.client.leasedIpNetmask)
    (haddresses : system'.addresses = system.addresses) : system'.InStep := by
  unfold InStep
  rw [hleasedIp, hnetmask, haddresses]
  exact h

/-- The handler of the timer removes the address of a lost lease, but not the netmask. -/
theorem InStep.step_timer_iff (h : system.InStep) :
    (system.step .timer).InStep ↔ system.KeepsLease .timer := by
  unfold KeepsLease
  by_cases hexpired : system.timer = .expired
  · obtain ⟨-, hnetmask, hrest⟩ := system.step_timer hexpired
    split at hrest
    next hrenew =>
      refine iff_of_true (h.of_eq hrest.1 hnetmask hrest.2) ?_
      rintro ⟨-, -, hnoServer, -⟩
      exact hrenew.2 hnoServer
    next hnoRenew =>
      have haddresses : (system.step .timer).addresses = ∅ := by
        unfold InStep at h
        rw [hrest.2]
        split
        next hleased =>
          rw [if_pos hleased] at h
          rw [h, Finset.filter_singleton, if_neg (not_not_intro rfl)]
        next hnone =>
          rw [if_neg hnone] at h
          exact h.1
      unfold InStep at h ⊢
      rw [hrest.1, if_neg (not_not_intro rfl), haddresses, hnetmask]
      split at h
      next hleased =>
        have hnoServer : system.client.renewServerIp = noIp := by
          by_contra hserver
          exact hnoRenew ⟨hleased, hserver⟩
        simp [hexpired, hleased, hnoServer]
      next hnone => simp [h.2]
  · rw [system.step_timer_of_ne hexpired]
    exact iff_of_true h fun hlost => hexpired hlost.1

theorem insert_singleton_eq_iff {α : Type} [DecidableEq α] {a b : α} :
    insert a ({b} : Finset α) = {a} ↔ b = a := by
  constructor
  · intro h
    have hmem : b ∈ insert a ({b} : Finset α) := Finset.mem_insert_of_mem
      (Finset.mem_singleton_self b)
    rw [h] at hmem
    exact Finset.mem_singleton.mp hmem
  · rintro rfl
    exact Finset.pair_eq_singleton b

/-- A lease adds an address; the one that was there stays. -/
theorem InStep.step_ack_iff {datagram : Datagram} {subnetMask router leaseTime : ℕ}
    {dns : Option ℕ} (h : system.InStep)
    (hmessage : system.client.readMessage datagram = .ack subnetMask router dns leaseTime) :
    (system.step (.packet datagram)).InStep ↔
      datagram.yourIp ≠ noIp ∧
        (system.client.leasedIp = noIp ∨
          system.client.leasedIp = datagram.yourIp ∧
            system.client.leasedIpNetmask = popcount32 (optionData datagram subnetMask)) := by
  obtain ⟨hleasedIp, hnetmask, -, haddresses⟩ := system.step_ack hmessage
  unfold InStep at h ⊢
  rw [hleasedIp, hnetmask, haddresses]
  by_cases hzero : datagram.yourIp = noIp
  · simp [hzero]
  · rw [if_pos hzero]
    split at h
    next hleased =>
      rw [h, insert_singleton_eq_iff, Prod.mk.injEq, and_iff_right hzero, or_iff_right hleased]
    next hnone =>
      rw [h.1]
      exact iff_of_true (LawfulSingleton.insert_empty_eq _) ⟨hzero, .inl (not_not.mp hnone)⟩

theorem step_inStep_iff (system : System) (event : Event) (h : system.InStep) :
    (system.step event).InStep ↔ system.KeepsLease event := by
  cases event with
  | expire =>
      refine iff_of_true ?_ trivial
      unfold step
      dsimp only
      split
      next => exact h.of_eq rfl rfl rfl
      next => exact h
  | timer => exact h.step_timer_iff
  | packet datagram =>
      unfold KeepsLease
      dsimp only
      split
      next subnetMask router dns leaseTime hmessage => exact h.step_ack_iff hmessage
      next hother =>
        obtain ⟨hclient, haddresses, -, -⟩ := system.step_of_not_ack hother
        refine iff_of_true (h.of_eq ?_ ?_ haddresses) trivial
        · rw [hclient]
        · rw [hclient]

/-- The addresses are those of the lease in every state of a run if and only if the run loses no
lease with a netmask, and takes leases only anew or to renew the same one. -/
theorem inStep_iff (ifMacAddress : Bytes 6) (ifIndex routePriority : ℕ) (events : List Event) :
    Throughout step InStep (init ifMacAddress ifIndex routePriority) events ↔
      EveryStep step KeepsLease (init ifMacAddress ifIndex routePriority) events := by
  have hstart : (init ifMacAddress ifIndex routePriority).InStep :=
    (if_neg (not_not_intro rfl)).mpr ⟨rfl, rfl⟩
  exact throughout_iff hstart step_inStep_iff

/-- A lease of an address for 600 seconds. -/
def sampleAck (yourIp : List UInt8) : Event :=
  .packet (sampleMessage 2 [0, 0, 0, 0] yourIp 5 [255, 255, 255, 0] [0, 0, 2, 88])

/-- A lease that is lost after one attempt to renew it, and a lease that is followed by one of
another address. -/
theorem not_inStep_after_loss :
    ¬Throughout step InStep (init sampleMac 2 100)
        [sampleAck [10, 0, 0, 7], .expire, .timer, .expire, .timer] ∧
      ¬Throughout step InStep (init sampleMac 2 100)
        [sampleAck [10, 0, 0, 7], sampleAck [10, 0, 0, 8]] := by
  constructor
  · intro h
    have hlost := h _ [] (List.append_nil _).symm
    revert hlost
    unfold InStep
    decide +kernel
  · intro h
    have hreplaced := h _ [] (List.append_nil _).symm
    revert hreplaced
    unfold InStep
    decide +kernel

end Hc.DhcpClient.System
