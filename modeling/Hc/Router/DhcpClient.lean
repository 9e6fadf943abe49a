import Hc.Router.Dhcp

/-!
# The DHCP client of the router

`router/router/dhcpClient.c`: the handler of the timer renews the lease once, and after that
gives the address up and starts again with a DISCOVER; the handler of the socket answers
offers and takes leases. Both return the state and the system calls they make.

The acknowledgements that `netlink_talk` receives into the shared buffer are shorter than the
header of a message, so the options are still there for the calls that follow.
-/

namespace Hc

/-- `struct dhcpClient`, without its descriptors and its name. -/
structure DhcpClient where
  dnsIp : Bytes 4
  currentIdentifier : BitVec 32
  leasedIp : Bytes 4
  renewServerIp : Bytes 4
  ifIndex : ℕ
  routePriority : ℕ
  ifMacAddress : Bytes 6
  leasedIpNetmask : ℕ

namespace DhcpClient

open Dhcp

/-- The IP address 0. -/
def noIp : Bytes 4 := ⟨[0, 0, 0, 0], rfl⟩

/-- The system calls with an effect outside the client. A DISCOVER goes through the packet
socket to the broadcast address, behind a constant IP and UDP header. -/
inductive Act where
  | setTimer (seconds : ℕ)
  | send (sinAddr : Bytes 4) (message : List UInt8)
  | sendDiscover (message : List UInt8)
  | newAddr (ifIndex : ℕ) (address : Bytes 4) (prefixLength : ℕ)
  | delAddr (ifIndex : ℕ) (address : Bytes 4)
  | newRoute (gateway : Bytes 4) (priority : ℕ)
deriving DecidableEq

/-- `dhcpClient_init`, before it sets the timer to 10 seconds. -/
def init (ifMacAddress : Bytes 6) (ifIndex routePriority : ℕ) : DhcpClient where
  dnsIp := noIp
  currentIdentifier := 0
  leasedIp := noIp
  renewServerIp := noIp
  ifIndex := ifIndex
  routePriority := routePriority
  ifMacAddress := ifMacAddress
  leasedIpNetmask := 0

/-- The header of the messages of the client. -/
def header (self : DhcpClient) (broadcast : Bool) (clientIp : Bytes 4) : List UInt8 :=
  [1, 1, 6, 0] ++ beBytes 4 self.currentIdentifier.toNat ++ [0, 0] ++
    (if broadcast then [0x80, 0] else [0, 0]) ++ clientIp.toList ++ .replicate 12 0 ++
    (self.ifMacAddress.toList ++ .replicate 10 0) ++ .replicate 64 0 ++ .replicate 128 0 ++
    [0x63, 0x82, 0x53, 0x63]

/-- `requestMsg` in `dhcpClient_onTimerFd`. -/
def timerMessage (self : DhcpClient) (broadcast : Bool) (clientIp : Bytes 4) (messageType : UInt8) :
    List UInt8 :=
  self.header broadcast clientIp ++ [53, 1, messageType] ++ [55, 3, 1, 3, 6] ++ [255, 0, 0, 0]

/-- `dhcpClient_onTimerFd`. -/
def onTimerFd (self : DhcpClient) : DhcpClient × List Act :=
  let self := { self with currentIdentifier := self.currentIdentifier + 1 }
  if self.leasedIp ≠ noIp ∧ self.renewServerIp ≠ noIp then
    -- Attempt to renew the leased IP once.
    ({ self with renewServerIp := noIp },
      [.send self.renewServerIp (self.timerMessage false self.leasedIp 3), .setTimer 10])
  else
    -- Either we had no leased IP, or we failed to renew it.
    let removal : List Act :=
      if self.leasedIp ≠ noIp then [.delAddr self.ifIndex self.leasedIp] else []
    let self := { self with leasedIp := noIp }
    (self, removal ++ [.sendDiscover (self.timerMessage true noIp 1), .setTimer 10])

/-! ## Messages -/

/-- The offsets of the options that `dhcpClient_onFd` looks for. -/
structure Options where
  messageType : Option ℕ := none
  subnetMask : Option ℕ := none
  router : Option ℕ := none
  dns : Option ℕ := none
  leaseTime : Option ℕ := none

/-- The switch over the options. -/
def visitOption (datagram : Datagram) (found : Options) (current : ℕ) : Options :=
  let code := datagram.optionCode current
  let length := datagram.optionLength current
  if code = messageTypeCode then
    if length = 1 then { found with messageType := some current } else found
  else if code = subnetMaskCode then
    if length = 4 then { found with subnetMask := some current } else found
  else if code = routerCode then
    if length ≥ 4 then { found with router := some current } else found
  else if code = dnsCode then
    if length ≥ 4 then { found with dns := some current } else found
  else if code = leaseTimeCode then
    if length = 4 then { found with leaseTime := some current } else found
  else found

/-- What a message is to the client, with the offsets of the options it uses. -/
inductive Message where
  | ignored
  | offer (leaseTime : ℕ)
  | nak
  | ack (subnetMask router : ℕ) (dns : Option ℕ) (leaseTime : ℕ)

/-- The checks of `dhcpClient_onFd`, up to the early returns of the cases. -/
def readMessage (self : DhcpClient) (datagram : Datagram) : Message :=
  if datagram.numRead < headerSize then .ignored
  -- Make sure the packet is for us.
  else if memCompare datagram.clientHwAddr.toList self.ifMacAddress.toList ≠ 0 then .ignored
  else
    let options := datagram.findOptions (visitOption datagram) {}
    match options.messageType with
    | none => .ignored
    | some messageType =>
      let type := datagram.optionCode (messageType + 2)
      if type = offer then
        match options.leaseTime with
        | none => .ignored
        | some leaseTime => .offer leaseTime
      else if type = nak then .nak
      else if type = Dhcp.ack then
        match options.subnetMask, options.router, options.leaseTime with
        | some subnetMask, some router, some leaseTime =>
          .ack subnetMask router options.dns leaseTime
        | _, _, _ => .ignored
      else .ignored

/-- Four bytes of data of the option at an offset. -/
def optionData (datagram : Datagram) (current : ℕ) : Bytes 4 := bytesAt datagram.buffer
    (current + 2) 4

/-- The number that is the value of the option `leaseTime`. -/
def leaseTimeValue (datagram : Datagram) (leaseTime : ℕ) : BitVec 32 :=
  BitVec.ofNat 32 (beNat (optionData datagram leaseTime).toList)

/-- `hc_POPCOUNT32` of the netmask. -/
def popcount32 (netmask : Bytes 4) : ℕ :=
  ((List.range 32).filter (leNat netmask.toList).testBit).length

/-- `requestMsg` in `dhcpClient_onFd`. -/
def requestMessage (self : DhcpClient) (datagram : Datagram) (leaseTime : ℕ) : List UInt8 :=
  self.header true noIp ++ [53, 1, 3] ++ [55, 3, 1, 3, 6] ++
    ([51, 4] ++ (optionData datagram leaseTime).toList) ++ ([54, 4] ++ datagram.serverIp.toList) ++
    ([50, 4] ++ datagram.yourIp.toList) ++ [255, 0]

/-- `dhcpClient_onFd`. -/
def onFd (self : DhcpClient) (datagram : Datagram) : DhcpClient × List Act :=
  match self.readMessage datagram with
  | .ignored => (self, [])
  | .offer leaseTime =>
    (self, [.send ⟨[255, 255, 255, 255], rfl⟩ (self.requestMessage datagram leaseTime),
    .setTimer 10])
  | .nak => (self, [.setTimer 5])
  | .ack subnetMask router dns leaseTime =>
    let self :=
      { self with
        dnsIp := match dns with
          | some dns => optionData datagram dns
          | none => noIp
        leasedIpNetmask := popcount32 (optionData datagram subnetMask)
        renewServerIp := datagram.serverIp
        leasedIp := datagram.yourIp }
    -- Half of the lease time, rounded up.
    let timeout := (leaseTimeValue datagram leaseTime + 1) / 2
    (self, [.setTimer timeout.toNat, .newAddr self.ifIndex datagram.yourIp self.leasedIpNetmask,
      .newRoute (optionData datagram router) self.routePriority])

end DhcpClient

end Hc
