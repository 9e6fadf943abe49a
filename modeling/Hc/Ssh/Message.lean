import Hc.Foundation.Mirror
import Hc.Core.Util
import Hc.Crypto.ChaCha20
import Hc.Crypto.Poly1305Tag

/-!
# SSH messages

`client_sendMessage`, `client_receive`, `client_peekMessage` and `client_ackMessage` of
`hc/examples/ssh/client.c`. A packet is sent from the memory of the caller; it is received in a
circular buffer that is mapped twice, and decrypted there when it is complete.
-/

namespace Hc.Ssh

open ChaCha20 (xorBytes)

/-- `enum _client_encryption`. -/
inductive Encryption where
  | none
  | chacha20Poly1305
  deriving DecidableEq

/-- `_client_macSize`. -/
def Encryption.macSize : Encryption → ℕ
  | .none => 0
  | .chacha20Poly1305 => 16

/-- `_client_MAX_PACKET_SIZE`. -/
abbrev maxPacketSize : ℕ := 35000

/-- `bufferSize`, as `client_init` sets it. -/
def initBufferSize (pageSize : ℕ) : ℕ := alignForward maxPacketSize pageSize

/-- `_client_MIN_PADDING`. -/
abbrev minPadding : ℕ := 4

/-- `_client_PADDING_SIZE`. -/
def paddingSize (payloadSize : ℕ) : ℕ :=
  minPadding + (64 - (4 + 1 + payloadSize + minPadding) % 64) % 64

/-- The size of a packet without the MAC. -/
def packetSize (messageSize : ℕ) : ℕ := 5 + messageSize + paddingSize messageSize

/-- The fields of `struct client` that messages are sent and received with. The four ciphers are the
ones to encrypt and decrypt packets and their sizes. -/
structure Client where
  buffer : ℕ → UInt8
  bufferPos : ℕ
  receivedSize : ℕ
  receiveSequenceNumber : BitVec 32
  sendSequenceNumber : BitVec 32
  encAead : ChaCha20
  encLen : ChaCha20
  decAead : ChaCha20
  decLen : ChaCha20
  encryption : Encryption
  /-- Negated if already decrypted. -/
  nextSize : ℤ

/-- The bytes that `poly1305_finish` stores for a packet. The structure on the stack is not
initialised before, and the key is the block of the cipher. -/
def mac (poly1305 : Poly1305) (cipher : ChaCha20) (packet : List UInt8) : List UInt8 :=
  Poly1305.finish (Poly1305.update (Poly1305.init poly1305 cipher.macKey) packet)

/-- What the caller of `client_sendMessage` has in memory: the message, and `struct
client_messageTail` and `struct poly1305`, which are not initialised. -/
structure Outgoing where
  message : List UInt8
  tail : Bytes 83
  poly1305 : Poly1305

namespace Client

section Send

variable (self : Client)

/-- The packet that `client_sendMessage` makes of a message. -/
def sealMessage (out : Outgoing) : Client × List UInt8 :=
  let paddingSize := paddingSize out.message.length
  let packetSize := 5 + out.message.length + paddingSize
  let size := beBytes 4 (packetSize - 4)
  let body := UInt8.ofNat paddingSize :: (out.message ++ out.tail.toList.take paddingSize)
  match self.encryption with
  | .none => (self, size ++ body)
  | .chacha20Poly1305 =>
    -- Encrypt size.
    let encLen := self.encLen.withNonce self.sendSequenceNumber
    let size := xorBytes size encLen.block.toList
    -- Encrypt packet (except size).
    let encAead := (self.encAead.withNonce self.sendSequenceNumber).reset
    let (encAead, body) := encAead.crypt body
    -- Append MAC.
    let encAead := encAead.reset
    ({ self with encAead, encLen }, size ++ body ++ mac out.poly1305 encAead (size ++ body))

/-- `client_sendMessage`, with the result of `sendto` for the packet. -/
def sendMessage (out : Outgoing) (sendto : List UInt8 → ℤ) : Client × ℤ :=
  let (self, packet) := self.sealMessage out
  if sendto packet ≠ packet.length then (self, -1)
  else ({ self with sendSequenceNumber := self.sendSequenceNumber + 1 }, 0)

end Send

section Receive

variable (bufferSize : ℕ) (self : Client)

/-- The bytes in the buffer from an address on. -/
def bytesAt (address length : ℕ) : List UInt8 := Mirror.read bufferSize self.buffer address length

/-- `client_receive`, where `recvfrom` delivers `data`. -/
def receive (data : List UInt8) : Client :=
  { self with
    buffer := Mirror.write bufferSize self.buffer (self.bufferPos + self.receivedSize) data
    receivedSize := self.receivedSize + data.length }

/-- `packet->paddingSize`. -/
def packetPadding : ℕ := (byteAt (self.bytesAt bufferSize (self.bufferPos + 4) 1) 0).toNat

/-- The switch of `client_peekMessage` that decrypts the size of the packet. -/
def decryptSize (size : List UInt8) : Client × ℕ :=
  match self.encryption with
  | .none => (self, beNat size)
  | .chacha20Poly1305 =>
    let decLen := self.decLen.withNonce self.receiveSequenceNumber
    ({ self with decLen }, beNat (xorBytes size decLen.block.toList))

/-- The part of `client_peekMessage` where `nextSize` is 0, with the status if it returns. -/
def readSize : Client × Option ℤ :=
  if self.receivedSize < 4 then (self, some 0)
  else
    let (self, size) := self.decryptSize (self.bytesAt bufferSize self.bufferPos 4)
    if size > maxPacketSize - 4 - self.encryption.macSize then (self, some (-1))
    -- rfc4253, 6. ensures max(8,blocksize) alignment, but we only need 4.
    else if size % 4 ≠ 0 then (self, some (-2))
    else ({ self with nextSize := size }, none)

/-- The loop of `client_peekMessage` that decrypts the packet, with the address of the next byte and
the number of bytes that remain. Words of four bytes are combined. -/
def decryptLoop (cipher : ChaCha20) (buffer : ℕ → UInt8) (address remaining : ℕ) :
    ChaCha20 × (ℕ → UInt8) :=
  let cipher := cipher.next
  let iEnd := min remaining 64
  let buffer := Mirror.write bufferSize buffer address
    (xorBytes (Mirror.read bufferSize buffer address (alignForward iEnd 4)) cipher.block.toList)
  if iEnd = remaining then (cipher, buffer)
  else decryptLoop cipher buffer (address + iEnd) (remaining - iEnd)
termination_by remaining
decreasing_by
  omega

/-- The switch of `client_peekMessage` that verifies and decrypts the packet, with the status if it
returns. -/
def decrypt (poly1305 : Poly1305) (packetSize : ℕ) : Client × Option ℤ :=
  match self.encryption with
  | .none => (self, none)
  | .chacha20Poly1305 =>
    -- Verify MAC.
    let decAead := (self.decAead.withNonce self.receiveSequenceNumber).reset
    let calculatedMac := mac poly1305 decAead (self.bytesAt bufferSize self.bufferPos packetSize)
    if memCompareConstantTime calculatedMac
        (self.bytesAt bufferSize (self.bufferPos + packetSize) 16) ≠ 0 then
      ({ self with decAead }, some (-3))
    else
      -- Decrypt packet (except size).
      let (decAead, buffer) :=
        decryptLoop bufferSize decAead self.buffer (self.bufferPos + 4) (packetSize - 4)
      ({ self with decAead, buffer }, none)

/-- The part of `client_peekMessage` where `nextSize` is known. -/
def peekPacket (poly1305 : Poly1305) : Client × ℤ :=
  let packetSize := 4 + self.nextSize.toNat
  if self.receivedSize < packetSize + self.encryption.macSize then (self, 0)
  else
    match self.decrypt bufferSize poly1305 packetSize with
    | (self, some status) => (self, status)
    | (self, none) =>
      let messageSize := self.nextSize - self.packetPadding bufferSize - 1
      if messageSize ≤ 0 then (self, -4)
      else
        ({ self with
          receiveSequenceNumber := self.receiveSequenceNumber + 1
          nextSize := -self.nextSize }, messageSize)

/-- `client_peekMessage`. -/
def peekMessage (poly1305 : Poly1305) : Client × ℤ :=
  if self.nextSize < 0 then (self, -self.nextSize - self.packetPadding bufferSize - 1)
  else if self.nextSize = 0 then
    match self.readSize bufferSize with
    | (self, some status) => (self, status)
    | (self, none) => self.peekPacket bufferSize poly1305
  else self.peekPacket bufferSize poly1305

/-- `*message` after `client_peekMessage` has returned a size. -/
def messageAt (messageSize : ℕ) : List UInt8 := self.bytesAt bufferSize
    (self.bufferPos + 5) messageSize

/-- `client_ackMessage`. -/
def ackMessage : Client :=
  let totalSize := (-self.nextSize).toNat + 4 + self.encryption.macSize
  { self with
    bufferPos := (self.bufferPos + totalSize) % bufferSize
    receivedSize := self.receivedSize - totalSize
    nextSize := 0 }

end Receive

end Client

end Hc.Ssh
