import Hc.Router.DhcpServer
import Hc.Router.DhcpClientAccept

/-!
# What the DHCP handlers read of a packet

A packet is read into the buffer that all handlers share, so that bytes of earlier packets follow
it. The loop over the options reads a length in front of the check for the end, and so reads some
of these bytes. They change nothing: an option that does not end in the packet ends the loop.
-/

namespace Hc.Dhcp.Datagram

/-- The loop over the options from an offset on comes to its `break`, with a result. -/
inductive LoopEnds {σ : Type} (datagram : Datagram) (visit : σ → ℕ → σ) : ℕ → σ → σ → Prop
  | break {current : ℕ} {found : σ}
      (hend : current + 2 + datagram.optionLength current > datagram.numRead) :
      LoopEnds datagram visit current found found
  | next {current : ℕ} {found result : σ}
      (hend : ¬current + 2 + datagram.optionLength current > datagram.numRead)
      (hnext : LoopEnds datagram visit (current + 2 + datagram.optionLength current)
        (visit found current) result) :
      LoopEnds datagram visit current found result

theorem optionLoop_ends {σ : Type} (datagram : Datagram) (visit : σ → ℕ → σ) {fuel current : ℕ}
    (found : σ) (hfuel : datagram.numRead < current + 2 * fuel) (hpos : 0 < fuel) :
    datagram.LoopEnds visit current found (datagram.optionLoop visit fuel current found) := by
  induction fuel generalizing current found with
  | zero => exact absurd hpos (lt_irrefl 0)
  | succ fuel ih =>
      unfold optionLoop
      dsimp only
      split
      next hend => exact .break hend
      next hend =>
        exact .next hend (ih _ (by omega) (by omega))

/-- The loop terminates, whatever follows the packet. -/
theorem findOptions_ends {σ : Type} (datagram : Datagram) (visit : σ → ℕ → σ) (none : σ)
    (hlong : headerSize ≤ datagram.numRead) :
    datagram.LoopEnds visit headerSize none (datagram.findOptions visit none) := by
  have hheader : headerSize = 240 := rfl
  exact datagram.optionLoop_ends visit none (by omega) (by omega)

/-- The two packets are the same, whatever the rest of the buffer. -/
def SamePacket (datagram datagram' : Datagram) : Prop :=
  datagram.numRead = datagram'.numRead ∧
    ∀ i < datagram.numRead, byteAt datagram.buffer i = byteAt datagram'.buffer i

namespace SamePacket

variable {datagram datagram' : Datagram} (h : SamePacket datagram datagram')
include h

theorem bytesAt_eq {offset : ℕ} (length : ℕ) (hend : offset + length ≤ datagram.numRead) :
    bytesAt datagram.buffer offset length = bytesAt datagram'.buffer offset length := by
  unfold bytesAt
  congr 1
  funext i
  exact h.2 _ (by omega)

theorem optionCode_eq {current : ℕ} (hcurrent : current < datagram.numRead) :
    datagram.optionCode current = datagram'.optionCode current := by
  rw [optionCode, optionCode, h.2 current hcurrent]

theorem optionLength_eq {current : ℕ} (hcurrent : current + 1 < datagram.numRead) :
    datagram.optionLength current = datagram'.optionLength current := by
  rw [optionLength, optionLength, h.2 (current + 1) hcurrent]

/-- The loop reads the same options: where the length is not in the packet, both end. -/
theorem findOptions_eq {σ : Type} {visit visit' : σ → ℕ → σ} (none : σ)
    (hvisit : ∀ found current, current + 2 + datagram.optionLength current ≤ datagram.numRead →
      visit found current = visit' found current) :
    datagram.findOptions visit none = datagram'.findOptions visit' none := by
  suffices hloop : ∀ fuel current found,
      datagram.optionLoop visit fuel current found =
        datagram'.optionLoop visit' fuel current found by
    rw [findOptions, findOptions, h.1]
    exact hloop _ _ _
  intro fuel
  induction fuel with
  | zero => exact fun _ _ => rfl
  | succ fuel ih =>
      intro current found
      have hnumRead := h.1
      unfold optionLoop
      dsimp only
      by_cases hcurrent : current + 1 < datagram.numRead
      · rw [← h.optionLength_eq hcurrent, ← hnumRead]
        split
        next => rfl
        next hend => rw [hvisit found current (not_lt.mp hend), ih]
      · rw [if_pos (by omega), if_pos (by omega)]

end SamePacket

end Hc.Dhcp.Datagram

namespace Hc.DhcpServer

open Dhcp

variable {self : DhcpServer} {datagram datagram' : Datagram}

theorem visitOption_eq (h : datagram.SamePacket datagram') (messageType : Option ℕ) (current : ℕ)
    (hend : current + 2 + datagram.optionLength current ≤ datagram.numRead) :
    visitOption datagram messageType current = visitOption datagram' messageType current := by
  rw [visitOption, visitOption, h.optionCode_eq (by omega), h.optionLength_eq (by omega)]

/-- The data of the message type is in the packet. -/
theorem findOptions_within (datagram : Datagram) :
    ∀ current ∈ datagram.findOptions (visitOption datagram) none,
      current + 3 ≤ datagram.numRead := by
  refine datagram.findOptions_induction
    (P := fun found => ∀ current ∈ found, current + 3 ≤ datagram.numRead)
    nofun ?_
  intro found current _ hend hfound
  unfold visitOption
  split
  next hoption =>
    rintro _ ⟨⟩
    omega
  next => exact hfound

theorem isDiscover_eq (h : datagram.SamePacket datagram') :
    isDiscover datagram = isDiscover datagram' := by
  have hwithin := findOptions_within datagram
  unfold isDiscover
  rw [← h.findOptions_eq none (visitOption_eq h), ← h.1]
  split
  next => rfl
  next =>
    cases hmessageType : datagram.findOptions (visitOption datagram) none with
    | none => rfl
    | some messageType =>
        have hend := hwithin messageType hmessageType
        dsimp only
        rw [h.optionCode_eq (by omega)]

/-- The server reads nothing behind the packet. -/
theorem onFd_eq (h : datagram.SamePacket datagram') (currentTime : ℤ) (dnsIp : Bytes 4) :
    self.onFd datagram currentTime dnsIp = self.onFd datagram' currentTime dnsIp := by
  unfold onFd
  rw [← isDiscover_eq h]
  cases hdiscover : isDiscover datagram with
  | none => rfl
  | some discover =>
      have hlong : headerSize ≤ datagram.numRead := by
        by_contra hshort
        rw [isDiscover, if_pos (not_le.mp hshort)] at hdiscover
        exact absurd hdiscover (by simp)
      have hheader : headerSize = 240 := rfl
      have hclientHwAddr : datagram.clientHwAddr = datagram'.clientHwAddr :=
        h.bytesAt_eq 6 (by omega)
      have hidentifier : datagram.identifier = datagram'.identifier := h.bytesAt_eq 4 (by omega)
      have hclientIp : datagram.clientIp = datagram'.clientIp := h.bytesAt_eq 4 (by omega)
      simp only [reply, hclientHwAddr, hidentifier, hclientIp]

end Hc.DhcpServer

namespace Hc.DhcpClient

open Dhcp

variable {self : DhcpClient} {datagram datagram' : Datagram}

/-- The data that is used of the options ends in front of an offset. -/
def Options.Within (last : ℕ) (options : Options) : Prop :=
  (∀ current ∈ options.messageType, current + 3 ≤ last) ∧
    (∀ current ∈ options.subnetMask, current + 6 ≤ last) ∧
    (∀ current ∈ options.router, current + 6 ≤ last) ∧
      (∀ current ∈ options.dns, current + 6 ≤ last) ∧
    ∀ current ∈ options.leaseTime, current + 6 ≤ last

theorem visitOption_within {last : ℕ} (found : Options) (current : ℕ)
    (hend : current + 2 + datagram.optionLength current ≤ last) (hfound : found.Within last) :
    (visitOption datagram found current).Within last := by
  obtain ⟨hmessageType, hsubnetMask, hrouter, hdns, hleaseTime⟩ := hfound
  have hself {length : ℕ} (hlength : length ≤ datagram.optionLength current) :
      ∀ offset ∈ some current, offset + (2 + length) ≤ last := by
    rintro _ ⟨⟩
    omega
  unfold visitOption
  dsimp only
  split
  next =>
    split
    next hlength => exact ⟨hself hlength.ge, hsubnetMask, hrouter, hdns, hleaseTime⟩
    next => exact ⟨hmessageType, hsubnetMask, hrouter, hdns, hleaseTime⟩
  next =>
    split_ifs with _ hlength _ hlength _ hlength _ hlength
    · exact ⟨hmessageType, hself hlength.ge, hrouter, hdns, hleaseTime⟩
    · exact ⟨hmessageType, hsubnetMask, hrouter, hdns, hleaseTime⟩
    · exact ⟨hmessageType, hsubnetMask, hself hlength, hdns, hleaseTime⟩
    · exact ⟨hmessageType, hsubnetMask, hrouter, hdns, hleaseTime⟩
    · exact ⟨hmessageType, hsubnetMask, hrouter, hself hlength, hleaseTime⟩
    · exact ⟨hmessageType, hsubnetMask, hrouter, hdns, hleaseTime⟩
    · exact ⟨hmessageType, hsubnetMask, hrouter, hdns, hself hlength.ge⟩
    · exact ⟨hmessageType, hsubnetMask, hrouter, hdns, hleaseTime⟩
    · exact ⟨hmessageType, hsubnetMask, hrouter, hdns, hleaseTime⟩

theorem findOptions_within (datagram : Datagram) :
    (datagram.findOptions (visitOption datagram) {}).Within datagram.numRead :=
  datagram.findOptions_induction ⟨nofun, nofun, nofun, nofun, nofun⟩
    fun found current _ => visitOption_within found current

theorem visitOption_eq_of_samePacket (h : datagram.SamePacket datagram') (found : Options)
    (current : ℕ) (hend : current + 2 + datagram.optionLength current ≤ datagram.numRead) :
    visitOption datagram found current = visitOption datagram' found current := by
  rw [visitOption, visitOption, h.optionCode_eq (by omega), h.optionLength_eq (by omega)]

theorem readMessage_eq_of_samePacket (h : datagram.SamePacket datagram') :
    self.readMessage datagram = self.readMessage datagram' := by
  have hwithin := findOptions_within datagram
  have hheader : headerSize = 240 := rfl
  unfold readMessage
  rw [← h.findOptions_eq {} (visitOption_eq_of_samePacket h), ← h.1]
  split
  next => rfl
  next hlong =>
    have hclientHwAddr : datagram.clientHwAddr = datagram'.clientHwAddr := h.bytesAt_eq 6 (by omega)
    rw [← hclientHwAddr]
    dsimp only
    generalize datagram.findOptions (visitOption datagram) {} = options at hwithin
    cases hmessageType : options.messageType with
    | none => rfl
    | some messageType =>
        have hend := hwithin.1 messageType hmessageType
        simp only [h.optionCode_eq (show messageType + 2 < datagram.numRead by omega)]

/-- The data of the options of an accepted message ends in front of an offset. -/
def Message.Within (last : ℕ) : Message → Prop
  | .ignored => True
  | .offer leaseTime => headerSize ≤ last ∧ leaseTime + 6 ≤ last
  | .nak => True
  | .ack subnetMask router dns leaseTime =>
    headerSize ≤ last ∧ subnetMask + 6 ≤ last ∧ router + 6 ≤ last ∧
      (∀ current ∈ dns, current + 6 ≤ last) ∧ leaseTime + 6 ≤ last

theorem readMessage_within (self : DhcpClient) (datagram : Datagram) :
    (self.readMessage datagram).Within datagram.numRead := by
  obtain ⟨-, hsubnetMask, hrouter, hdns, hleaseTime⟩ := findOptions_within datagram
  unfold readMessage
  dsimp only
  split
  next => trivial
  next hshort =>
    have hlong := not_lt.mp hshort
    split_ifs <;> try trivial
    split
    next => trivial
    next messageType hmessageType =>
      split_ifs <;> try trivial
      next =>
        split
        next => trivial
        next leaseTime hsome => exact ⟨hlong, hleaseTime _ hsome⟩
      next =>
        split
        next hsome hsome' hsome'' =>
          exact ⟨hlong, hsubnetMask _ hsome, hrouter _ hsome', hdns, hleaseTime _ hsome''⟩
        next => trivial

theorem optionData_eq_of_samePacket (h : datagram.SamePacket datagram') {current : ℕ}
    (hend : current + 6 ≤ datagram.numRead) :
    optionData datagram current = optionData datagram' current :=
  h.bytesAt_eq 4 hend

/-- The client reads nothing behind the packet. -/
theorem onFd_eq_of_samePacket (h : datagram.SamePacket datagram') :
    self.onFd datagram = self.onFd datagram' := by
  have hwithin := self.readMessage_within datagram
  have hheader : headerSize = 240 := rfl
  have hip (hlong : headerSize ≤ datagram.numRead) :
      datagram.yourIp = datagram'.yourIp ∧ datagram.serverIp = datagram'.serverIp :=
    ⟨h.bytesAt_eq 4 (by omega), h.bytesAt_eq 4 (by omega)⟩
  unfold onFd requestMessage leaseTimeValue
  rw [← readMessage_eq_of_samePacket h]
  cases hmessage : self.readMessage datagram with
  | ignored => rfl
  | nak => rfl
  | offer leaseTime =>
      rw [hmessage] at hwithin
      obtain ⟨hlong, hleaseTime⟩ := hwithin
      obtain ⟨hyourIp, hserverIp⟩ := hip hlong
      simp only [hyourIp, hserverIp, optionData_eq_of_samePacket h hleaseTime]
  | ack subnetMask router dns leaseTime =>
      rw [hmessage] at hwithin
      obtain ⟨hlong, hsubnetMask, hrouter, hdns, hleaseTime⟩ := hwithin
      obtain ⟨hyourIp, hserverIp⟩ := hip hlong
      cases dns with
      | none =>
          simp only [hyourIp, hserverIp, optionData_eq_of_samePacket h hsubnetMask,
            optionData_eq_of_samePacket h hrouter, optionData_eq_of_samePacket h hleaseTime]
      | some dns =>
          simp only [hyourIp, hserverIp, optionData_eq_of_samePacket h hsubnetMask,
            optionData_eq_of_samePacket h hrouter, optionData_eq_of_samePacket h hleaseTime,
            optionData_eq_of_samePacket h (hdns dns rfl)]

end Hc.DhcpClient

namespace Hc.Dhcp

/-- Two packets that are the same up to their end do the same, whatever follows them in the buffer:
the server and the client come to the same state and send the same; and the loops over their options
end. -/
theorem packet_decides {datagram datagram' : Datagram} (h : datagram.SamePacket datagram') :
    (∀ (server : DhcpServer) (currentTime : ℤ) (dnsIp : Bytes 4),
        server.onFd datagram currentTime dnsIp = server.onFd datagram' currentTime dnsIp) ∧
      (∀ client : DhcpClient, client.onFd datagram = client.onFd datagram') ∧
      (headerSize ≤ datagram.numRead →
        datagram.LoopEnds (DhcpServer.visitOption datagram) headerSize none
            (datagram.findOptions (DhcpServer.visitOption datagram) none) ∧
          datagram.LoopEnds (DhcpClient.visitOption datagram) headerSize {}
            (datagram.findOptions (DhcpClient.visitOption datagram) {})) := by
  refine ⟨fun server => DhcpServer.onFd_eq h, fun client => DhcpClient.onFd_eq_of_samePacket h, ?_⟩
  intro hlong
  exact ⟨datagram.findOptions_ends _ _ hlong, datagram.findOptions_ends _ _ hlong⟩

/-- A DISCOVER that is cut off behind the code of another message type. -/
def truncatedPacket (rest : List UInt8) : Datagram where
  buffer := (.replicate 240 0 ++ [53, 1, 1, 53]) ++ rest
  numRead := 244

/-- What would be a REQUEST in the rest of the buffer is not read. -/
theorem packet_decides_truncated :
    (truncatedPacket []).SamePacket (truncatedPacket [1, 3]) ∧
      ∀ (server : DhcpServer) (currentTime : ℤ) (dnsIp : Bytes 4),
        server.onFd (truncatedPacket []) currentTime dnsIp =
          server.onFd (truncatedPacket [1, 3]) currentTime dnsIp := by
  have hsame : (truncatedPacket []).SamePacket (truncatedPacket [1, 3]) := by
    refine ⟨rfl, fun i hi => ?_⟩
    have hlength : i < (List.replicate 240 (0 : UInt8) ++ [53, 1, 1, 53]).length := by
      rw [List.length_append, List.length_replicate]
      exact hi
    simp only [truncatedPacket, byteAt]
    rw [List.getD_append _ _ _ _ hlength, List.getD_append _ _ _ _ hlength]
  exact ⟨hsame, (packet_decides hsame).1⟩

end Hc.Dhcp
