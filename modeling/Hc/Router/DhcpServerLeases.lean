import Hc.Foundation.LruTable
import Hc.Router.DhcpServer

/-!
# Leases of the DHCP server

The entries of the server are a table with least-recently-used replacement: the scan of
`dhcpServer_getEntry` finds the first entry with the address of the client, and otherwise the
oldest entry. So the addresses in use are distinct, and an entry changes its owner only after
all entries were served since.
-/

namespace Hc.DhcpServer

open Dhcp LruTable

/-- The entries as slots of the table. -/
def slots (entries : ℕ → Entry) (i : ℕ) : Slot (Bytes 6) :=
    ⟨(entries i).timeSec, (entries i).macAddr⟩

theorem slots_update (entries : ℕ → Entry) (i : ℕ) (entry : Entry) :
    slots (Function.update entries i entry) =
      Function.update (slots entries) i ⟨entry.timeSec, entry.macAddr⟩ := by
  funext j
  rcases eq_or_ne j i with rfl | hne
  · simp only [slots, Function.update_self]
  · simp only [slots, Function.update_of_ne hne]

/-! ## The scan -/

/-- What the scan says about the table. -/
def Lookup.Describes (entries : ℕ → Entry) (macAddr : Bytes 6) : Lookup → Prop
  | .found i => i < numEntries ∧ (entries i).macAddr = macAddr ∧ ∀ j < i,
    (entries j).macAddr ≠ macAddr
  | .absent oldestIndex =>
    oldestIndex < numEntries ∧ (∀ j < numEntries, (entries j).macAddr ≠ macAddr) ∧
      ∀ j < numEntries, (entries oldestIndex).timeSec ≤ (entries j).timeSec

/-- The scan, from an entry with none of the address before it and the oldest entry up to it. -/
theorem getEntryLoop_describes {entries : ℕ → Entry} {macAddr : Bytes 6} {fuel i oldestIndex : ℕ}
    (hfuel : fuel + i = numEntries) (hi : i < numEntries)
    (hbefore : ∀ j < i, (entries j).macAddr ≠ macAddr) (holdest : oldestIndex ≤ i)
    (hle : ∀ j ≤ i, (entries oldestIndex).timeSec ≤ (entries j).timeSec) :
    (getEntryLoop entries macAddr fuel i oldestIndex (entries oldestIndex).timeSec).Describes
      entries macAddr := by
  induction fuel generalizing i oldestIndex with
  | zero => omega
  | succ fuel ih =>
      unfold getEntryLoop
      simp only [Bytes.memCompare_eq_zero_iff]
      split
      next hsame => exact ⟨hi, hsame.symm, hbefore⟩
      next hother =>
        have hbefore' : ∀ j < i + 1, (entries j).macAddr ≠ macAddr := by
          intro j hj
          rcases Nat.lt_succ_iff_lt_or_eq.mp hj with hlt | rfl
          · exact hbefore j hlt
          · exact Ne.symm hother
        split
        next hend =>
          refine ⟨holdest.trans_lt hi, ?_, ?_⟩
          · rw [← hend]
            exact hbefore'
          · intro j hj
            exact hle j (by omega)
        next hmore =>
          split
          next hyounger =>
            refine ih (by omega) (by omega) hbefore' le_rfl ?_
            intro j hj
            rcases Nat.le_succ_iff.mp hj with hj | rfl
            · exact hyounger.le.trans (hle j hj)
            · exact le_rfl
          next holder =>
            refine ih (by omega) (by omega) hbefore' (by omega) ?_
            intro j hj
            rcases Nat.le_succ_iff.mp hj with hj | rfl
            · exact hle j hj
            · exact not_lt.mp holder

theorem getEntry_describes (self : DhcpServer) (macAddr : Bytes 6) :
    (getEntryLoop self.entries macAddr numEntries 0 0 (self.entries 0).timeSec).Describes
      self.entries macAddr := by
  refine getEntryLoop_describes rfl (by decide) nofun le_rfl ?_
  intro j hj
  rw [Nat.le_zero.mp hj]

/-- `dhcpServer_getEntry` is a request to the table, and leaves the address of the server. -/
theorem getEntry_step (self : DhcpServer) (macAddr : Bytes 6) (allowCreate : Bool)
    (currentTime : ℤ) :
    Step numEntries (slots self.entries) currentTime macAddr
      (slots (self.getEntry macAddr allowCreate currentTime).1.entries)
      (self.getEntry macAddr allowCreate currentTime).2 := by
  have hdescribes := self.getEntry_describes macAddr
  unfold getEntry
  split
  next i hfound =>
    rw [hfound] at hdescribes
    obtain ⟨hi, hsame, hfirst⟩ := hdescribes
    rw [slots_update, hsame]
    exact .hit hi hsame hfirst
  next oldestIndex habsent =>
    rw [habsent] at hdescribes
    obtain ⟨hi, hmiss, holdest⟩ := hdescribes
    cases allowCreate with
    | true =>
        rw [if_pos rfl, slots_update]
        exact .evict hi hmiss holdest
    | false => exact .miss hmiss

theorem getEntry_serverIp (self : DhcpServer) (macAddr : Bytes 6) (allowCreate : Bool)
    (currentTime : ℤ) :
    (self.getEntry macAddr allowCreate currentTime).1.serverIp = self.serverIp := by
  unfold getEntry
  split
  next => rfl
  next => cases allowCreate <;> rfl

/-! ## Runs -/

/-- A message, when it is handled, and the address of the name server then. -/
structure Packet where
  datagram : Datagram
  currentTime : ℤ
  dnsIp : Bytes 4

/-- The server and the requests it has served. -/
structure Session where
  server : DhcpServer
  history : List (Serve (Bytes 6))

/-- A message to the server. -/
def Session.receive (session : Session) (packet : Packet) : Session :=
  match session.server.onFd packet.datagram packet.currentTime packet.dnsIp with
  | (server, none) => ⟨server, session.history⟩
  | (server, some (entryIndex, _)) =>
    ⟨server, session.history ++ [⟨packet.currentTime, packet.datagram.clientHwAddr, entryIndex⟩]⟩

/-- The messages to a server since `dhcpServer_init`. -/
def run (self : DhcpServer) (serverIp : Bytes 4) (packets : List Packet) : Session :=
  packets.foldl Session.receive ⟨init self serverIp, []⟩

/-- The clock of the messages is positive and never goes back. -/
def Clocked (packets : List Packet) : Prop :=
  (∀ packet ∈ packets, 0 < packet.currentTime) ∧
    packets.Pairwise fun packet packet' => packet.currentTime ≤ packet'.currentTime

theorem Clocked.of_append {packets more : List Packet} (h : Clocked (packets ++ more)) :
    Clocked packets :=
  ⟨fun packet hmem => h.1 packet (List.mem_append_left _ hmem), (List.pairwise_append.mp h.2).1⟩

theorem Clocked.le_of_append {packets : List Packet} {packet : Packet}
    (h : Clocked (packets ++ [packet])) : ∀ earlier ∈ packets,
      earlier.currentTime ≤ packet.currentTime := by
  intro earlier hmem
  exact (List.pairwise_append.mp h.2).2.2 earlier hmem packet List.mem_cons_self

/-- A message is no request to the table, or one request for the address in it. -/
theorem Session.receive_cases (session : Session) (packet : Packet) :
    session.receive packet = session ∨
      ∃ result, Step numEntries (slots session.server.entries) packet.currentTime
          packet.datagram.clientHwAddr (slots (session.receive packet).server.entries) result ∧
        (session.receive packet).history = session.history ++
          result.toList.map fun i => ⟨packet.currentTime, packet.datagram.clientHwAddr, i⟩ := by
  unfold receive onFd
  cases hdiscover : isDiscover packet.datagram with
  | none => exact .inl rfl
  | some allowCreate =>
      right
      have hstep := session.server.getEntry_step packet.datagram.clientHwAddr allowCreate
        packet.currentTime
      dsimp only
      generalize session.server.getEntry packet.datagram.clientHwAddr allowCreate
        packet.currentTime = outcome at hstep ⊢
      obtain ⟨server, result⟩ := outcome
      cases result with
      | none => exact ⟨none, hstep, (List.append_nil _).symm⟩
      | some i => exact ⟨some i, hstep, rfl⟩

theorem run_append (self : DhcpServer) (serverIp : Bytes 4) (packets : List Packet)
    (packet : Packet) :
    run self serverIp (packets ++ [packet]) = (run self serverIp packets).receive packet := by
  rw [run, List.foldl_append]
  rfl

theorem onFd_serverIp (self : DhcpServer) (datagram : Datagram) (currentTime : ℤ)
    (dnsIp : Bytes 4) : (self.onFd datagram currentTime dnsIp).1.serverIp = self.serverIp := by
  unfold onFd
  cases isDiscover datagram with
  | none => rfl
  | some allowCreate =>
      have hserverIp := self.getEntry_serverIp datagram.clientHwAddr allowCreate currentTime
      dsimp only
      split <;> simp_all

theorem Session.receive_server (session : Session) (packet : Packet) :
    (session.receive packet).server =
      (session.server.onFd packet.datagram packet.currentTime packet.dnsIp).1 := by
  unfold receive
  split <;> simp_all

theorem run_serverIp (self : DhcpServer) (serverIp : Bytes 4) (packets : List Packet) :
    (run self serverIp packets).server.serverIp = serverIp := by
  induction packets using List.reverseRecOn with
  | nil => rfl
  | append_singleton packets packet ih =>
      rw [run_append, Session.receive_server, onFd_serverIp, ih]

/-- The messages to a server are requests to its table. -/
theorem run_table (self : DhcpServer) (serverIp : Bytes 4) {packets : List Packet}
    (hclock : Clocked packets) :
    ∃ last, Run numEntries (slots (run self serverIp packets).server.entries) last
        (run self serverIp packets).history ∧
      ∀ now, 0 < now → (∀ packet ∈ packets, packet.currentTime ≤ now) → last ≤ now := by
  induction packets using List.reverseRecOn with
  | nil => exact ⟨0, .start fun _ _ => rfl, fun _ hpos _ => hpos.le⟩
  | append_singleton packets packet ih =>
      obtain ⟨last, htable, hlast⟩ := ih hclock.of_append
      have hpos : 0 < packet.currentTime := hclock.1 packet (by simp)
      have hle : last ≤ packet.currentTime := hlast _ hpos hclock.le_of_append
      rw [run_append]
      rcases (run self serverIp packets).receive_cases packet with hsame | ⟨result, hstep, hhistory⟩
      · rw [hsame]
        refine ⟨last, htable, fun now hnow hpackets => hlast now hnow ?_⟩
        intro earlier hmem
        exact hpackets earlier (List.mem_append_left _ hmem)
      · refine ⟨packet.currentTime, ?_, fun now _ hpackets => hpackets packet (by simp)⟩
        rw [hhistory]
        cases result with
        | none =>
            rw [Option.toList_none, List.map_nil, List.append_nil]
            exact .miss htable hpos hle hstep
        | some i => exact .serve htable hpos hle hstep

/-! ## Leases -/

theorem address_injective (serverIp : Bytes 4) {i j : ℕ} (hi : i < numEntries) (hj : j < numEntries)
    (h : address serverIp i = address serverIp j) : i = j := by
  have hoctet := congrArg UInt8.toNat (List.singleton_inj.mp (List.append_cancel_left h))
  rw [UInt8.toNat_ofNat', UInt8.toNat_ofNat'] at hoctet
  unfold firstOctet numEntries at *
  omega

/-- Whatever messages the server gets: the hardware addresses of used entries are distinct, an
entry goes to another client only after 215 clients other than that one were served since the last
use of the entry, and while 600 seconds never see more than 215 clients, no address is given
away before its lease of 600 seconds has run out. -/
theorem run_leases (self : DhcpServer) (serverIp : Bytes 4) (packets : List Packet)
    (hclock : Clocked packets) :
    let session := run self serverIp packets
    let entries := session.server.entries
    session.server.serverIp = serverIp ∧
    (∀ i < 215, ∀ j < 215, i ≠ j → (entries i).timeSec ≠ 0 → (entries j).timeSec ≠ 0 →
      (entries i).macAddr ≠ (entries j).macAddr) ∧
    (∀ (macAddr : Bytes 6) (allowCreate : Bool) (now : ℤ) (i : ℕ), 0 < now →
      (∀ packet ∈ packets, packet.currentTime ≤ now) →
      (session.server.getEntry macAddr allowCreate now).2 = some i →
      (entries i).timeSec ≠ 0 → (entries i).macAddr ≠ macAddr →
      ∃ macAddrs : Finset (Bytes 6), macAddrs.card = 215 ∧ macAddr ∉ macAddrs ∧
        ServedWithin session.history macAddrs (entries i).timeSec now) ∧
    (Uncrowded 215 600 session.history →
      session.history.Pairwise fun serve serve' =>
        address serverIp serve.index = address serverIp serve'.index → serve.key ≠ serve'.key →
          serve.time + 600 ≤ serve'.time) := by
  obtain ⟨last, htable, hlast⟩ := run_table self serverIp hclock
  have hserverIp := run_serverIp self serverIp packets
  intro session entries
  refine ⟨hserverIp, ?_, ?_, ?_⟩
  · intro i hi j hj hne hused hused'
    exact htable.inv.key_ne hi hj hne hused hused'
  · intro macAddr allowCreate now i hpos hnow hentry hused hother
    have hstep := session.server.getEntry_step macAddr allowCreate now
    rw [hentry] at hstep
    generalize slots (session.server.getEntry macAddr allowCreate now).1.entries = slots' at hstep
    cases hstep with
    | hit hi hkey hfirst => exact absurd hkey hother
    | evict hi hmiss holdest =>
        exact htable.inv.servedWithin (hlast now hpos hnow) hi hused hmiss holdest
  · intro huncrowded
    refine (htable.leases huncrowded).pairwise.imp_of_mem ?_
    intro serve serve' hserve hserve' hlease haddress hne
    have hindex := address_injective serverIp (htable.index_lt serve hserve)
      (htable.index_lt serve' hserve') haddress
    exact hlease hindex hne

/-- A struct full of zeros. -/
def blank : DhcpServer :=
  ⟨⟨[0, 0, 0, 0], by decide⟩, fun _ => ⟨0, ⟨[0, 0, 0, 0, 0, 0], by decide⟩⟩⟩

/-- A DISCOVER of a client, told by the last byte of its address. -/
def discoverPacket (lastByte : UInt8) (currentTime : ℤ) : Packet where
  datagram :=
    { buffer := .replicate 33 0 ++ [lastByte] ++ .replicate 206 0 ++ [53, 1, 1, 255, 0]
      numRead := 244 }
  currentTime := currentTime
  dnsIp := ⟨[0, 0, 0, 0], by decide⟩

/-- Two clients in one second. -/
def twoClients : List Packet := [discoverPacket 1 5, discoverPacket 2 5]

theorem run_leases_twoClients :
    let session := run blank ⟨[192, 168, 0, 1], rfl⟩ twoClients
    session.history.map Serve.index = [0, 1] ∧
      (session.server.entries 0).macAddr ≠ (session.server.entries 1).macAddr := by
  have htime (lastByte : UInt8) : (discoverPacket lastByte 5).currentTime = 5 := rfl
  have hclock : Clocked twoClients := by
    simp [twoClients, Clocked, htime]
  have hused : ((run blank ⟨[192, 168, 0, 1], rfl⟩ twoClients).server.entries 0).timeSec ≠ 0 ∧
      ((run blank ⟨[192, 168, 0, 1], rfl⟩ twoClients).server.entries 1).timeSec ≠ 0 := by
    decide +kernel
  have hdistinct := (run_leases blank ⟨[192, 168, 0, 1], rfl⟩ twoClients hclock).2.1
  refine ⟨by decide +kernel, ?_⟩
  exact hdistinct 0 (by norm_num) 1 (by norm_num) (by norm_num) hused.1 hused.2

end Hc.DhcpServer
