import Mathlib.Logic.Function.Basic
import Hc.Router.Dhcp

/-!
# The DHCP server of the router

`router/router/dhcpServer.c`: every client gets the address of its entry in a table of
hardware addresses. The scan for an address and the search for the oldest entry are one loop.
-/

namespace Hc

/-- `dhcpServer_FIRST_OCTET`. -/
abbrev DhcpServer.firstOctet : ℕ := 40

/-- `dhcpServer_NUM_ENTRIES`. -/
abbrev DhcpServer.numEntries : ℕ := 215

/-- `struct dhcpServer_entry`; `timeSec` is 0 if unused. -/
structure DhcpServer.Entry where
  timeSec : ℤ
  macAddr : Bytes 6

/-- `struct dhcpServer`, without its descriptors. -/
structure DhcpServer where
  serverIp : Bytes 4
  entries : ℕ → DhcpServer.Entry

namespace DhcpServer

open Dhcp

/-- How the loop of `dhcpServer_getEntry` ends. -/
inductive Lookup where
  | found (i : ℕ)
  | absent (oldestIndex : ℕ)

/-- The loop of `dhcpServer_getEntry` from the entry `i` on, for `fuel` entries at most. -/
def getEntryLoop (entries : ℕ → Entry) (macAddr : Bytes 6) : ℕ → ℕ → ℕ → ℤ → Lookup
  | 0, _, oldestIndex, _ => .absent oldestIndex
  | fuel + 1, i, oldestIndex, oldestTimeSec =>
      if memCompare macAddr.toList (entries i).macAddr.toList = 0 then .found i
      else if i + 1 = numEntries then .absent oldestIndex
      else if (entries (i + 1)).timeSec < oldestTimeSec then
        getEntryLoop entries macAddr fuel (i + 1) (i + 1) (entries (i + 1)).timeSec
      else getEntryLoop entries macAddr fuel (i + 1) oldestIndex oldestTimeSec

/-- `dhcpServer_getEntry` at the time `currentTime`; `none` for the result -1. -/
def getEntry (self : DhcpServer) (macAddr : Bytes 6) (allowCreate : Bool) (currentTime : ℤ) :
    DhcpServer × Option ℕ :=
  match getEntryLoop self.entries macAddr numEntries 0 0 (self.entries 0).timeSec with
  | .found i =>
    let entry := { self.entries i with timeSec := currentTime }
    ({ self with entries := Function.update self.entries i entry }, some i)
  | .absent oldestIndex =>
    if allowCreate then
      let entry := ⟨currentTime, macAddr⟩
      ({ self with entries := Function.update self.entries oldestIndex entry }, some oldestIndex)
    else (self, none)

/-- The state that `dhcpServer_init` leaves, over a struct with arbitrary contents. -/
def init (self : DhcpServer) (serverIp : Bytes 4) : DhcpServer :=
  ⟨serverIp, fun i => { self.entries i with timeSec := 0 }⟩

/-! ## Messages -/

/-- The switch over the options in `dhcpServer_onFd`: the offset of the message type. -/
def visitOption (datagram : Datagram) (messageType : Option ℕ) (current : ℕ) : Option ℕ :=
  if datagram.optionCode current = messageTypeCode ∧ datagram.optionLength current = 1 then
    some current
  else messageType

/-- The beginning of `dhcpServer_onFd`: whether the message is a DISCOVER or a REQUEST; `none` if
it is neither. -/
def isDiscover (datagram : Datagram) : Option Bool :=
  if datagram.numRead < headerSize then none
  else
    match datagram.findOptions (visitOption datagram) none with
    | none => none
    | some messageType =>
      let type := datagram.optionCode (messageType + 2)
      if type = discover then some true
      else if type = request then some false
      else none

/-- A message and where it is sent. -/
structure Reply where
  sinAddr : List UInt8
  message : List UInt8

/-- The address of an entry, `yourIp` in the reply. -/
def address (serverIp : Bytes 4) (entryIndex : ℕ) : List UInt8 :=
  serverIp.toList.take 3 ++ [UInt8.ofNat (firstOctet + entryIndex)]

/-- The reply of `dhcpServer_onFd`; `dnsIp` is that of the WAN client. -/
def reply (self : DhcpServer) (datagram : Datagram) (isDiscover : Bool) (entryIndex : ℕ)
    (dnsIp : Bytes 4) : Reply :=
  let yourIp := address self.serverIp entryIndex
  let header : List UInt8 :=
    [2, 1, 6, 0] ++ datagram.identifier.toList ++ [0, 0, 0, 0] ++ [0, 0, 0, 0] ++ yourIp ++
      self.serverIp.toList ++ [0, 0, 0, 0] ++ (datagram.clientHwAddr.toList ++ .replicate 10 0) ++
      .replicate 64 0 ++ .replicate 128 0 ++ [0x63, 0x82, 0x53, 0x63]
  let options : List UInt8 :=
    [53, 1, if isDiscover then 2 else 5] ++ ([54, 4] ++ self.serverIp.toList) ++
      [1, 4, 255, 255, 255, 0] ++ ([3, 4] ++ self.serverIp.toList) ++ [51, 4, 0, 0, 2, 88] ++
      ([6, 4] ++ if dnsIp.toList ≠ [0, 0, 0, 0] then dnsIp.toList else [8, 8, 8, 8]) ++ [255, 0, 0]
  -- Unicast if the client says it already has the IP.
  let unicast := memCompare datagram.clientIp.toList yourIp = 0
  ⟨if unicast then yourIp else [255, 255, 255, 255], header ++ options⟩

/-- `dhcpServer_onFd`: the new state, the index of the entry that was served, and the reply. -/
def onFd (self : DhcpServer) (datagram : Datagram) (currentTime : ℤ) (dnsIp : Bytes 4) :
    DhcpServer × Option (ℕ × Reply) :=
  match isDiscover datagram with
  | none => (self, none)
  | some isDiscover =>
    match self.getEntry datagram.clientHwAddr isDiscover currentTime with
    | (self, none) => (self, none)
    | (self, some entryIndex) =>
      (self, some (entryIndex, self.reply datagram isDiscover entryIndex dnsIp))

end DhcpServer

end Hc
