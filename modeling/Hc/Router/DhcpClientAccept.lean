import Hc.Router.DhcpClientRun

/-!
# The messages that the DHCP client accepts

A message is taken by its hardware address, its type and its options. The opcode and the
identifier in front of them are never read, so that a message of another transaction does what a
reply to the last request does.
-/

namespace Hc.DhcpClient

open Dhcp Runs

variable {self : DhcpClient} {datagram datagram' : Datagram}

/-! ## What is read -/

/-- The offsets of all options are behind the header. -/
def Options.Behind (first : ℕ) (options : Options) : Prop :=
  (∀ current ∈ options.messageType, first ≤ current) ∧
    (∀ current ∈ options.subnetMask, first ≤ current) ∧
    (∀ current ∈ options.router, first ≤ current) ∧ (∀ current ∈ options.dns, first ≤ current) ∧
    ∀ current ∈ options.leaseTime, first ≤ current

theorem visitOption_behind {first : ℕ} (found : Options) (current : ℕ) (hcurrent : first ≤ current)
    (hfound : found.Behind first) : (visitOption datagram found current).Behind first := by
  obtain ⟨hmessageType, hsubnetMask, hrouter, hdns, hleaseTime⟩ := hfound
  have hself : ∀ offset ∈ some current, first ≤ offset := by
    rintro _ ⟨⟩
    exact hcurrent
  unfold visitOption
  dsimp only
  split_ifs
  all_goals first
    | exact ⟨hself, hsubnetMask, hrouter, hdns, hleaseTime⟩
    | exact ⟨hmessageType, hself, hrouter, hdns, hleaseTime⟩
    | exact ⟨hmessageType, hsubnetMask, hself, hdns, hleaseTime⟩
    | exact ⟨hmessageType, hsubnetMask, hrouter, hself, hleaseTime⟩
    | exact ⟨hmessageType, hsubnetMask, hrouter, hdns, hself⟩
    | exact ⟨hmessageType, hsubnetMask, hrouter, hdns, hleaseTime⟩

theorem findOptions_behind (datagram : Datagram) :
    (datagram.findOptions (visitOption datagram) {}).Behind headerSize :=
  datagram.findOptions_induction ⟨nofun, nofun, nofun, nofun, nofun⟩
    fun found current hcurrent _ => visitOption_behind found current hcurrent

theorem visitOption_eq (h : Datagram.SameFrom 8 datagram datagram') (found : Options) (current : ℕ)
    (hcurrent : 8 ≤ current) :
    visitOption datagram found current = visitOption datagram' found current := by
  rw [visitOption, visitOption, h.optionCode_eq hcurrent, h.optionLength_eq hcurrent]

theorem readMessage_eq (h : Datagram.SameFrom 8 datagram datagram') :
    self.readMessage datagram = self.readMessage datagram' := by
  have hbehind := findOptions_behind datagram'
  have hoptions := h.findOptions_eq {} (by decide) (visitOption_eq h)
  have hclientHwAddr : datagram.clientHwAddr = datagram'.clientHwAddr := h.bytesAt_eq 6 (by decide)
  unfold readMessage
  rw [h.1, hclientHwAddr, hoptions]
  dsimp only
  generalize datagram'.findOptions (visitOption datagram') {} = options at hbehind
  cases hmessageType : options.messageType with
  | none => rfl
  | some messageType =>
      have hfirst : 8 ≤ messageType := le_trans (by decide) (hbehind.1 messageType hmessageType)
      simp only [h.optionCode_eq (hfirst.trans (Nat.le_add_right messageType 2))]

/-- The options of an accepted message are behind the header. -/
def Message.Behind (first : ℕ) : Message → Prop
  | .ignored => True
  | .offer leaseTime => first ≤ leaseTime
  | .nak => True
  | .ack subnetMask router dns leaseTime =>
    first ≤ subnetMask ∧ first ≤ router ∧ (∀ current ∈ dns, first ≤ current) ∧ first ≤ leaseTime

theorem readMessage_behind (self : DhcpClient) (datagram : Datagram) :
    (self.readMessage datagram).Behind headerSize := by
  obtain ⟨-, hsubnetMask, hrouter, hdns, hleaseTime⟩ := findOptions_behind datagram
  unfold readMessage
  dsimp only
  split_ifs <;> try trivial
  split
  next => trivial
  next messageType hmessageType =>
    split_ifs <;> try trivial
    next =>
      split
      next => trivial
      next leaseTime hsome => exact hleaseTime _ hsome
    next =>
      split
      next hsome hsome' hsome'' => exact
        ⟨hsubnetMask _ hsome, hrouter _ hsome', hdns, hleaseTime _ hsome''⟩
      next => trivial

theorem optionData_eq (h : Datagram.SameFrom 8 datagram datagram') {current : ℕ}
    (hcurrent : headerSize ≤ current) :
      optionData datagram current = optionData datagram' current :=
  h.bytesAt_eq 4 (le_trans (by decide) (hcurrent.trans (Nat.le_add_right current 2)))

/-- Nothing in front of the byte 8 is read. -/
theorem onFd_eq (h : Datagram.SameFrom 8 datagram datagram') :
    self.onFd datagram = self.onFd datagram' := by
  have hbehind := self.readMessage_behind datagram'
  have hyourIp : datagram.yourIp = datagram'.yourIp := h.bytesAt_eq 4 (by decide)
  have hserverIp : datagram.serverIp = datagram'.serverIp := h.bytesAt_eq 4 (by decide)
  unfold onFd requestMessage leaseTimeValue
  rw [readMessage_eq h, hyourIp, hserverIp]
  cases hmessage : self.readMessage datagram' with
  | ignored => rfl
  | nak => rfl
  | offer leaseTime =>
      rw [hmessage] at hbehind
      simp only [optionData_eq h hbehind]
  | ack subnetMask router dns leaseTime =>
      rw [hmessage] at hbehind
      obtain ⟨hsubnetMask, hrouter, hdns, hleaseTime⟩ := hbehind
      cases dns with
      | none => simp only [optionData_eq h hsubnetMask, optionData_eq h hrouter,
        optionData_eq h hleaseTime]
      | some dns =>
          simp only [optionData_eq h hsubnetMask, optionData_eq h hrouter,
            optionData_eq h hleaseTime, optionData_eq h (hdns dns rfl)]

/-! ## What is accepted -/

/-- The message is for the client, and is an offer or a lease with all options it needs. -/
def Acceptable (self : DhcpClient) (datagram : Datagram) : Prop :=
  let options := datagram.findOptions (visitOption datagram) {}
  headerSize ≤ datagram.numRead ∧ datagram.clientHwAddr = self.ifMacAddress ∧
    ∃ messageType, options.messageType = some messageType ∧
      (datagram.optionCode (messageType + 2) = offer ∧ options.leaseTime.isSome ∨
        datagram.optionCode (messageType + 2) = Dhcp.ack ∧ options.subnetMask.isSome ∧
          options.router.isSome ∧ options.leaseTime.isSome)

theorem readMessage_cases (self : DhcpClient) (datagram : Datagram) :
    self.readMessage datagram = .ignored ∨ self.readMessage datagram = .nak ∨
      self.Acceptable datagram := by
  unfold readMessage
  dsimp only
  split
  next => exact .inl rfl
  next hlong =>
    split
    next => exact .inl rfl
    next hmac =>
      rw [not_not, Bytes.memCompare_eq_zero_iff] at hmac
      cases hmessageType : (datagram.findOptions (visitOption datagram) {}).messageType with
      | none => exact .inl rfl
      | some messageType =>
          dsimp only
          split
          next hoffer =>
            split
            next => exact .inl rfl
            next leaseTime hleaseTime =>
              refine .inr (.inr ⟨not_lt.mp hlong, hmac, messageType, hmessageType,
                .inl ⟨hoffer, ?_⟩⟩)
              exact Option.isSome_of_eq_some hleaseTime
          next =>
            split
            next => exact .inr (.inl rfl)
            next =>
              split
              next hack =>
                split
                next subnetMask router leaseTime hsubnetMask hrouter hleaseTime =>
                  refine .inr (.inr ⟨not_lt.mp hlong, hmac, messageType, hmessageType,
                    .inr ⟨hack, ?_⟩⟩)
                  exact ⟨Option.isSome_of_eq_some hsubnetMask, Option.isSome_of_eq_some hrouter,
                    Option.isSome_of_eq_some hleaseTime⟩
                next => exact .inl rfl
              next => exact .inl rfl

namespace System

/-- What the client has leased, and what it has configured for it. -/
structure Lease where
  leasedIp : Bytes 4
  leasedIpNetmask : ℕ
  renewServerIp : Bytes 4
  dnsIp : Bytes 4
  addresses : Finset (Bytes 4 × ℕ)
  defaultRoute : Option (Bytes 4)

def lease (system : System) : Lease where
  leasedIp := system.client.leasedIp
  leasedIpNetmask := system.client.leasedIpNetmask
  renewServerIp := system.client.renewServerIp
  dnsIp := system.client.dnsIp
  addresses := system.addresses
  defaultRoute := system.defaultRoute

/-- The message changes the lease, or makes the client send a request. -/
def Takes (system : System) (datagram : Datagram) : Prop :=
  (system.step (.packet datagram)).lease ≠ system.lease ∨
    (system.step (.packet datagram)).sent ≠ system.sent

/-- The message is a BOOTREPLY with the identifier of the last message sent. -/
def IsReply (system : System) (datagram : Datagram) : Prop :=
  byteAt datagram.buffer 0 = 2 ∧
    datagram.identifier.toList = beBytes 4 system.client.currentIdentifier.toNat

/-- Only replies are taken. -/
def TakesReplies (system : System) : Event → Prop
  | .packet datagram => system.Takes datagram → system.IsReply datagram
  | _ => True

/-- Only offers and leases for the hardware address of the client are taken, whatever the opcode
and the identifier. -/
def TakesAcceptable (system : System) : Event → Prop
  | .packet datagram =>
    (system.Takes datagram → system.client.Acceptable datagram) ∧
      ∀ datagram', Datagram.SameFrom 8 datagram datagram' →
        system.step (.packet datagram) = system.step (.packet datagram')
  | _ => True

theorem acceptable_of_takes {system : System} (h : system.Takes datagram) :
    system.client.Acceptable datagram := by
  rcases system.client.readMessage_cases datagram with hignored | hnak | hacceptable
  · rw [Takes, system.step_ignored hignored] at h
    exact absurd rfl (h.resolve_left (not_not_intro rfl))
  · rw [Takes, system.step_nak hnak] at h
    exact absurd rfl (h.resolve_left (not_not_intro rfl))
  · exact hacceptable

/-- In every run, a message changes the lease or leads to a request only if it is long enough, is
for the hardware address of the client and is an offer or a lease with the options it needs; the
bytes in front of its identifier and the identifier are not read. -/
theorem takesAcceptable (ifMacAddress : Bytes 6) (ifIndex routePriority : ℕ) (events : List Event) :
    EveryStep step TakesAcceptable (init ifMacAddress ifIndex routePriority) events := by
  intro before event after _
  cases event with
  | expire => trivial
  | timer => trivial
  | packet datagram =>
      refine ⟨acceptable_of_takes, fun datagram' hsame => ?_⟩
      simp only [step, onFd_eq hsame]

/-- After a DISCOVER with the identifier 1, a lease with another identifier is taken. -/
theorem takes_foreign_ack :
    ¬EveryStep step TakesReplies (init sampleMac 2 100)
      [.expire, .timer,
        .packet (sampleMessage 2 [9, 9, 9, 9] [10, 0, 0, 7] 5 [255, 255, 255, 0] [0, 0, 2,
          88])] := by
  intro h
  have hreply := h [.expire, .timer] _ [] rfl (.inl ?_)
  · exact absurd hreply.2 (by decide +kernel)
  · intro hlease
    have hleasedIp := congrArg Lease.leasedIp hlease
    revert hleasedIp
    decide +kernel

end System

end Hc.DhcpClient
