import Hc.Ssh.MessageDelivery

/-!
# Receiving from a socket that may fail

`client_receive` of `hc/examples/ssh/client.c` adds the result of `recvfrom` to `receivedSize`, also
when it is an error code. The client is followed here over any run of its calls, on a stream that
anybody may have sent: what it holds is compared with the bytes that were received and with the
sizes of the packets in them.
-/

namespace Hc.Ssh

/-- A call of `recvfrom`: it delivers bytes, or returns an error code. -/
inductive Recvfrom where
  | bytes (data : List UInt8)
  | error (code : ℤ) (negative : code < 0)

namespace Recvfrom

/-- The bytes that are stored, where there is room for `room` of them. -/
def delivered (room : ℕ) : Recvfrom → List UInt8
  | .bytes data => data.take room
  | .error _ _ => []

/-- The result of the call. -/
def numRead (room : ℕ) : Recvfrom → ℤ
  | .bytes data => (data.take room).length
  | .error code _ => code

/-- The call does not return an error code. -/
def Succeeds : Recvfrom → Prop
  | .bytes _ => True
  | .error _ _ => False

instance : DecidablePred Succeeds
  | .bytes _ => .isTrue trivial
  | .error _ _ => .isFalse id

end Recvfrom

/-- The keys that `_client_doKeyExchange` derives, and the mode that it sets. -/
def Client.newKeys (self : Client) (keys : Fin 4 → Bytes 32) : Client :=
  { self with
    encryption := .chacha20Poly1305
    encAead := { self.encAead with key := keys 0 }
    encLen := { self.encLen with key := keys 1 }
    decAead := { self.decAead with key := keys 2 }
    decLen := { self.decLen with key := keys 3 } }

/-- A client with its `receivedSize` as the code has it, an `int32_t`. The natural number of the
same name in `client` is not used. -/
structure Receiver where
  client : Client
  receivedSize : ℤ

namespace Receiver

section

variable (bufferSize : ℕ) (self : Receiver)

/-- The client as the comparisons in `client_peekMessage` see it: `receivedSize` is compared with
positive numbers only. -/
def view : Client := { self.client with receivedSize := self.receivedSize.toNat }

/-- The bytes in the buffer. -/
def buffered : List UInt8 :=
  self.view.bytesAt bufferSize self.client.bufferPos self.receivedSize.toNat

/-- `client_receive`. -/
def receive (result : Recvfrom) : Receiver :=
  let room := (bufferSize - self.receivedSize).toNat
  { client :=
      { self.client with
        buffer := Mirror.write bufferSize self.client.buffer
          (self.client.bufferPos + self.receivedSize).toNat (result.delivered room) }
    receivedSize := self.receivedSize + result.numRead room }

/-- `client_peekMessage`. -/
def peekMessage (poly1305 : Poly1305) : Receiver × ℤ :=
  let (client, size) := self.view.peekMessage bufferSize poly1305
  ({ self with client }, size)

/-- `client_ackMessage`. -/
def ackMessage : Receiver :=
  let totalSize := -self.client.nextSize + 4 + self.client.encryption.macSize
  { client := self.view.ackMessage bufferSize
    receivedSize := self.receivedSize - totalSize }

end

end Receiver

/-! ## Frames of a stream -/

/-- The size that the first four bytes of a packet say, if it is the packet with a sequence
number. -/
def Client.frameSize (self : Client) (sequence : BitVec 32) (bytes : List UInt8) : ℕ :=
  (Client.decryptSize { self with receiveSequenceNumber := sequence } bytes).2

/-- A call of one of the functions. -/
inductive ReceptionEvent where
  | receive (result : Recvfrom)
  | peekMessage (poly1305 : Poly1305)
  | ackMessage
  | sendMessage (out : Outgoing) (sendto : List UInt8 → ℤ)
  | newKeys (keys : Fin 4 → Bytes 32)

/-- No call of `recvfrom` returns an error code. -/
def ReceptionEvent.Succeeds : ReceptionEvent → Prop
  | .receive result => result.Succeeds
  | _ => True

/-- A receiver and its history: all bytes that were received, the position in them behind the
acknowledged packets and the sequence number of the packet there, whether `client_peekMessage` has
returned an error, and whether no `client_receive` that failed has changed anything. -/
structure Reception where
  receiver : Receiver
  received : List UInt8
  boundary : ℕ
  sequence : BitVec 32
  failed : Bool
  kept : Bool

namespace Reception

section

variable (bufferSize : ℕ) (s : Reception)

/-- The bytes of the stream that are not acknowledged. -/
def pending : List UInt8 := s.received.drop s.boundary

/-- The size of the packet at the boundary, with its size field and its MAC. It depends on the
stream and the keys only. -/
def frameEnd : ℕ :=
  4 + s.receiver.client.frameSize s.sequence (s.pending.take 4) +
    s.receiver.client.encryption.macSize

/-- What one call does. A message is acknowledged when it was returned, and keys are changed between
two messages. -/
def step : ReceptionEvent → Reception
  | .receive result =>
    let receiver := s.receiver.receive bufferSize result
    { s with
      receiver
      received := s.received ++ result.delivered (bufferSize - s.receiver.receivedSize).toNat
      kept := s.kept && (decide result.Succeeds ||
        decide (receiver.receivedSize = s.receiver.receivedSize ∧
          receiver.buffered bufferSize = s.receiver.buffered bufferSize)) }
  | .peekMessage poly1305 =>
    let (receiver, size) := s.receiver.peekMessage bufferSize poly1305
    { s with receiver, failed := s.failed || decide (size < 0) }
  | .ackMessage =>
    if s.receiver.client.nextSize < 0 then
      { s with
        receiver := s.receiver.ackMessage bufferSize
        boundary := s.boundary + s.frameEnd
        sequence := s.sequence + 1 }
    else s
  | .sendMessage out sendto =>
    { s with
      receiver := { s.receiver with client := (s.receiver.client.sendMessage out sendto).1 } }
  | .newKeys keys =>
    if s.receiver.client.nextSize = 0 then
      { s with receiver := { s.receiver with client := s.receiver.client.newKeys keys } }
    else s

end

end Reception

/-! ## The client and its stream -/

/-- The buffer holds the bytes `rest` of a stream. Where a packet was decrypted, its size and what
is behind it are still as they were received. -/
structure Frames (bufferSize : ℕ) (sequence : BitVec 32) (rest : List UInt8) (failed : Bool)
    (client : Client) : Prop where
  receivedSize_le : client.receivedSize ≤ bufferSize
  length_rest : rest.length = client.receivedSize
  take_eq : (client.bytesAt bufferSize client.bufferPos client.receivedSize).take 4 = rest.take 4
  drop_eq : (client.bytesAt bufferSize client.bufferPos client.receivedSize).drop
    (4 + client.nextSize.natAbs) = rest.drop (4 + client.nextSize.natAbs)
  /-- A packet that is not opened is as it was received. -/
  intact : 0 ≤ client.nextSize → failed = false →
    client.bytesAt bufferSize client.bufferPos client.receivedSize = rest
  sequence_eq : client.receiveSequenceNumber =
    if client.nextSize < 0 then sequence + 1 else sequence
  /-- The size of the packet is the one in the stream. -/
  size_eq : client.nextSize ≠ 0 → 4 ≤ client.receivedSize ∧ 4 ∣ client.nextSize.natAbs ∧
    client.nextSize.natAbs = client.frameSize sequence (rest.take 4)
  /-- A message is returned when its packet is complete. -/
  complete : client.nextSize < 0 →
    4 + client.nextSize.natAbs + client.encryption.macSize ≤ client.receivedSize

section Frames

variable {bufferSize : ℕ} {sequence : BitVec 32} {rest : List UInt8} {failed : Bool}
  {client : Client}

/-- The size of a packet depends on the mode and the key only. -/
theorem frameSize_congr {other : Client} (hencryption : other.encryption = client.encryption)
    (hkey : other.decLen.key = client.decLen.key)
    (hcounter : other.decLen.blockCounter = client.decLen.blockCounter) (sequence : BitVec 32)
    (bytes : List UInt8) : other.frameSize sequence bytes = client.frameSize sequence bytes := by
  rw [Client.frameSize, Client.frameSize, Client.decryptSize, Client.decryptSize]
  dsimp only
  rw [hencryption, ChaCha20.withNonce, ChaCha20.withNonce, hkey, hcounter]
  cases client.encryption with
  | none => rfl
  | chacha20Poly1305 => rfl

/-- Between two packets the buffer is the stream. -/
theorem Frames.bytesAt_eq (h : Frames bufferSize sequence rest failed client)
    (hnext : client.nextSize = 0) :
    client.bytesAt bufferSize client.bufferPos client.receivedSize = rest := by
  have hdrop := h.drop_eq
  rw [hnext] at hdrop
  rw [← List.take_append_drop 4 (client.bytesAt _ _ _), h.take_eq]
  exact (congrArg (rest.take 4 ++ ·) hdrop).trans (List.take_append_drop 4 rest)

/-- What is received goes to the end of the stream. -/
theorem Frames.receive (h : Frames bufferSize sequence rest failed client) {data : List UInt8}
    (hfits : client.receivedSize + data.length ≤ bufferSize) :
    Frames bufferSize sequence (rest ++ data) failed (client.receive bufferSize data) := by
  have hbuffer : (client.receive bufferSize data).bytesAt bufferSize client.bufferPos
      (client.receivedSize + data.length) =
        client.bytesAt bufferSize client.bufferPos client.receivedSize ++ data :=
    Mirror.read_write_append _ _ hfits
  have hlength : (client.bytesAt bufferSize client.bufferPos client.receivedSize).length =
      rest.length := by
    rw [h.length_rest]
    exact Mirror.length_read _ _
  constructor
  · exact hfits
  · rw [List.length_append, h.length_rest]
    rfl
  · change List.take 4 ((client.receive bufferSize data).bytesAt bufferSize client.bufferPos
      (client.receivedSize + data.length)) = _
    rw [hbuffer, List.take_append, List.take_append, h.take_eq, hlength]
  · change List.drop (4 + client.nextSize.natAbs) ((client.receive bufferSize data).bytesAt
      bufferSize client.bufferPos (client.receivedSize + data.length)) =
        List.drop (4 + client.nextSize.natAbs) _
    rw [hbuffer, List.drop_append, List.drop_append, h.drop_eq, hlength]
  · intro hnext hfailed
    rw [← h.intact hnext hfailed]
    exact hbuffer
  · exact h.sequence_eq
  · intro hnext
    obtain ⟨hfour, hdvd, hsize⟩ := h.size_eq hnext
    refine ⟨?_, hdvd, ?_⟩
    · exact hfour.trans (Nat.le_add_right _ _)
    · rw [List.take_append_of_le_length (by rw [h.length_rest]; exact hfour)]
      have hcongr : (client.receive bufferSize data).frameSize sequence (rest.take 4) =
          client.frameSize sequence (rest.take 4) :=
        frameSize_congr (by rfl) (by rfl) (by rfl) _ _
      exact hsize.trans hcongr.symm
  · intro hnext
    exact (h.complete hnext).trans (Nat.le_add_right _ _)

/-- Other fields of the client may change. -/
theorem Frames.congr (h : Frames bufferSize sequence rest failed client) {other : Client}
    (hreceived : other.receivedSize = client.receivedSize)
    (hbytes : other.bytesAt bufferSize other.bufferPos other.receivedSize =
      client.bytesAt bufferSize client.bufferPos client.receivedSize)
    (hsequence : other.receiveSequenceNumber = client.receiveSequenceNumber)
    (hnext : other.nextSize = client.nextSize)
    (hkeys : client.nextSize ≠ 0 → other.encryption = client.encryption ∧
      other.decLen.key = client.decLen.key ∧
      other.decLen.blockCounter = client.decLen.blockCounter) :
    Frames bufferSize sequence rest failed other := by
  constructor
  · rw [hreceived]
    exact h.receivedSize_le
  · rw [hreceived]
    exact h.length_rest
  · rw [hbytes]
    exact h.take_eq
  · rw [hbytes, hnext]
    exact h.drop_eq
  · rw [hbytes, hnext]
    exact h.intact
  · rw [hsequence, hnext]
    exact h.sequence_eq
  · rw [hreceived, hnext]
    intro hne
    obtain ⟨hencryption, hkey, hcounter⟩ := hkeys hne
    rw [frameSize_congr hencryption hkey hcounter]
    exact h.size_eq hne
  · rw [hreceived, hnext]
    intro hlt
    rw [(hkeys hlt.ne).1]
    exact h.complete hlt

/-- Less is known after an error. -/
theorem Frames.or_failed (h : Frames bufferSize sequence rest failed client) (error : Bool) :
    Frames bufferSize sequence rest (failed || error) client :=
  { h with intact := fun hnext hfailed => h.intact hnext (Bool.or_eq_false_iff.mp hfailed).1 }

/-- The size of the next packet is read from the stream. -/
theorem Frames.readSize (h : Frames bufferSize sequence rest failed client)
    (hnext : client.nextSize = 0) :
    Frames bufferSize sequence rest failed (client.readSize bufferSize).1 ∧
      0 ≤ (client.readSize bufferSize).1.nextSize := by
  rw [Client.readSize]
  split
  next hshort => exact ⟨h, hnext.ge⟩
  next hlong =>
    obtain ⟨decLen, hclient, hkey, hcounter⟩ :=
      decryptSize_fst client (client.bytesAt bufferSize client.bufferPos 4)
    have hfour : client.bytesAt bufferSize client.bufferPos 4 = rest.take 4 := by
      rw [← h.bytesAt_eq hnext, Client.bytesAt, Client.bytesAt, Mirror.take_read _ (by omega)]
    have hsequence := h.sequence_eq
    rw [if_neg (by omega)] at hsequence
    have hframe : (client.decryptSize (client.bytesAt bufferSize client.bufferPos 4)).2 =
        client.frameSize sequence (rest.take 4) := by
      rw [hfour, ← hsequence]
      rfl
    have hkept : Frames bufferSize sequence rest failed { client with decLen } :=
      h.congr rfl rfl rfl rfl fun _ => ⟨rfl, hkey, hcounter⟩
    dsimp only
    rw [hframe, hclient]
    split
    next => exact ⟨hkept, hnext.ge⟩
    next =>
      split
      next => exact ⟨hkept, hnext.ge⟩
      next hdvd =>
        have hbytes := h.bytesAt_eq hnext
        refine ⟨⟨h.receivedSize_le, h.length_rest, h.take_eq, congrArg (List.drop _) hbytes,
          fun _ _ => hbytes, ?_, ?_, ?_⟩, Int.natCast_nonneg _⟩
        · exact hsequence.trans (if_neg (Int.not_lt.mpr (Int.natCast_nonneg _))).symm
        · intro _
          refine ⟨Nat.not_lt.mp hlong, ?_, ?_⟩
          · exact Nat.dvd_of_mod_eq_zero (not_not.mp hdvd)
          · exact (frameSize_congr (by rfl) hkey hcounter _ _).symm
        · intro hlt
          exact absurd hlt (Int.not_lt.mpr (Int.natCast_nonneg _))

/-- A packet is decrypted in place; its size and what is behind it stay as they are. -/
theorem decrypt_frames {n : ℕ} (hfour : 4 ∣ n) (hreceived : 4 + n ≤ client.receivedSize)
    (hsize : client.receivedSize ≤ bufferSize) (poly1305 : Poly1305) :
    ∃ decAead buffer status, client.decrypt bufferSize poly1305 (4 + n) =
        ({ client with decAead, buffer }, status) ∧
      (Mirror.read bufferSize buffer client.bufferPos client.receivedSize).take 4 =
        (client.bytesAt bufferSize client.bufferPos client.receivedSize).take 4 ∧
      (Mirror.read bufferSize buffer client.bufferPos client.receivedSize).drop (4 + n) =
        (client.bytesAt bufferSize client.bufferPos client.receivedSize).drop (4 + n) ∧
      ∀ code ∈ status, code < 0 := by
  rw [Client.decrypt]
  split
  next => exact ⟨client.decAead, client.buffer, none, rfl, rfl, rfl, fun _ h => nomatch h⟩
  next hmode =>
    dsimp only
    split
    next =>
      refine ⟨_, _, _, rfl, rfl, rfl, ?_⟩
      intro code hcode
      obtain rfl := Option.some.inj hcode
      decide
    next =>
      rw [Nat.add_sub_cancel_left, decryptLoop_eq _ _ _ hfour (by omega)]
      have hlength : ∀ cipher : ChaCha20, (cipher.crypt (Mirror.read bufferSize client.buffer
          (client.bufferPos + 4) n)).2.length = n := by
        intro cipher
        rw [(@ChaCha20.crypt_spec _ cipher).1, Mirror.length_read]
      have htake : ((client.bytesAt bufferSize client.bufferPos client.receivedSize).take
          4).length = 4 := by
        rw [Client.bytesAt, Mirror.take_read _ (by omega), Mirror.length_read]
      refine ⟨_, _, _, rfl, ?_, ?_, fun _ h => nomatch h⟩
      · rw [Mirror.read_write _ (by rw [hlength]; exact hreceived) hsize, List.append_assoc]
        exact List.take_left' htake
      · rw [Mirror.read_write _ (by rw [hlength]; exact hreceived) hsize, hlength]
        apply List.drop_left'
        rw [List.length_append, hlength]
        exact congrArg (· + n) htake

/-- The packet is not as it was received any more, the stream behind it is. -/
theorem Frames.decrypted {n : ℕ} (h : Frames bufferSize sequence rest failed client)
    (hn : client.nextSize = n) (decAead : ChaCha20) {buffer : ℕ → UInt8}
    (htake : (Mirror.read bufferSize buffer client.bufferPos client.receivedSize).take 4 =
      (client.bytesAt bufferSize client.bufferPos client.receivedSize).take 4)
    (hdrop : (Mirror.read bufferSize buffer client.bufferPos client.receivedSize).drop (4 + n) =
      (client.bytesAt bufferSize client.bufferPos client.receivedSize).drop (4 + n)) :
    Frames bufferSize sequence rest true { client with decAead, buffer } := by
  have hbehind := h.drop_eq
  constructor
  · exact h.receivedSize_le
  · exact h.length_rest
  · exact htake.trans h.take_eq
  · rw [hn, Int.natAbs_natCast] at hbehind ⊢
    exact hdrop.trans hbehind
  · intro _ hfailed
    cases hfailed
  · exact h.sequence_eq
  · intro hne
    rw [@frameSize_congr client _ (by rfl) (by rfl) (by rfl)]
    exact h.size_eq hne
  · exact h.complete

/-- The message is returned, and the sequence number is that of the next packet. -/
theorem Frames.opened {n : ℕ} (h : Frames bufferSize sequence rest failed client)
    (hn : client.nextSize = n) (hpos : 0 < n)
    (hcomplete : 4 + n + client.encryption.macSize ≤ client.receivedSize) (failed' : Bool) :
    Frames bufferSize sequence rest failed'
      { client with
        receiveSequenceNumber := client.receiveSequenceNumber + 1
        nextSize := -client.nextSize } := by
  have hsequence := h.sequence_eq
  rw [if_neg (by omega)] at hsequence
  have hneg : -client.nextSize < 0 := by omega
  constructor
  · exact h.receivedSize_le
  · exact h.length_rest
  · exact h.take_eq
  · rw [Int.natAbs_neg]
    exact h.drop_eq
  · intro hnonneg
    exact absurd hneg (Int.not_lt.mpr hnonneg)
  · rw [if_pos hneg, hsequence]
  · intro _
    rw [Int.natAbs_neg, @frameSize_congr client _ (by rfl) (by rfl) (by rfl)]
    exact h.size_eq (by omega)
  · intro _
    rw [Int.natAbs_neg, hn, Int.natAbs_natCast]
    exact hcomplete

/-- A complete packet is opened. -/
theorem Frames.peekPacket (h : Frames bufferSize sequence rest failed client)
    (hnext : 0 ≤ client.nextSize) (poly1305 : Poly1305) :
    Frames bufferSize sequence rest
      (failed || decide ((client.peekPacket bufferSize poly1305).2 < 0))
      (client.peekPacket bufferSize poly1305).1 := by
  obtain ⟨n, hn⟩ := Int.eq_ofNat_of_zero_le hnext
  have hfour : 4 ∣ n := by
    rcases Nat.eq_zero_or_pos n with rfl | hpos
    · exact Nat.dvd_zero 4
    · have hsize := (h.size_eq (by omega)).2.1
      rwa [hn, Int.natAbs_natCast] at hsize
  rw [Client.peekPacket, hn, Int.toNat_natCast]
  split
  next hincomplete => exact h.or_failed _
  next hcomplete =>
    obtain ⟨decAead, buffer, status, hdecrypt, htake, hdrop, hstatus⟩ :=
      decrypt_frames hfour (by omega) h.receivedSize_le poly1305
    have hdecrypted := h.decrypted hn decAead htake hdrop
    rw [hdecrypt]
    cases status with
    | some code =>
        dsimp only
        rw [decide_eq_true (hstatus code rfl), Bool.or_true]
        exact hdecrypted
    | none =>
        dsimp only
        split
        next => simpa using hdecrypted
        next hmessage =>
          have hpos : 0 < n := by omega
          have hsize := Int.not_lt.mpr (Int.not_le.mp hmessage).le
          rw [decide_eq_false hsize, Bool.or_false]
          exact hdecrypted.opened hn hpos (Nat.not_lt.mp hcomplete) failed

theorem Frames.peekMessage (h : Frames bufferSize sequence rest failed client)
    (poly1305 : Poly1305) :
    Frames bufferSize sequence rest
      (failed || decide ((client.peekMessage bufferSize poly1305).2 < 0))
      (client.peekMessage bufferSize poly1305).1 := by
  rw [Client.peekMessage]
  split
  next hopened => exact h.or_failed _
  next hnext =>
    split
    next hzero =>
      have hread := h.readSize hzero
      split
      next client' status heq =>
        rw [heq] at hread
        exact hread.1.or_failed _
      next client' heq =>
        rw [heq] at hread
        exact hread.1.peekPacket hread.2 poly1305
    next => exact h.peekPacket (Int.not_lt.mp hnext) poly1305

/-- The next packet follows the acknowledged one. -/
theorem Frames.ackMessage (h : Frames bufferSize sequence rest failed client)
    (hnext : client.nextSize < 0) :
    Frames bufferSize (sequence + 1)
      (rest.drop (4 + client.frameSize sequence (rest.take 4) + client.encryption.macSize)) failed
      (client.ackMessage bufferSize) := by
  have hcomplete := h.complete hnext
  obtain ⟨-, -, hsize⟩ := h.size_eq hnext.ne
  rw [← hsize]
  have htotal : (-client.nextSize).toNat + 4 + client.encryption.macSize =
      4 + client.nextSize.natAbs + client.encryption.macSize := by
    omega
  have hbytes : (client.ackMessage bufferSize).bytesAt bufferSize
      (client.ackMessage bufferSize).bufferPos (client.ackMessage bufferSize).receivedSize =
        rest.drop (4 + client.nextSize.natAbs + client.encryption.macSize) := by
    simp only [Client.ackMessage, Client.bytesAt, htotal, Mirror.read_mod]
    rw [← List.drop_drop, ← h.drop_eq, List.drop_drop, Client.bytesAt, Mirror.drop_read _ hcomplete]
  have hsequence := h.sequence_eq
  rw [if_pos hnext] at hsequence
  constructor
  · exact (Nat.sub_le _ _).trans h.receivedSize_le
  · rw [List.length_drop, h.length_rest, ← htotal]
    rfl
  · rw [hbytes]
  · rw [hbytes]
  · intro _ _
    exact hbytes
  · exact hsequence
  · intro hne
    exact absurd rfl hne
  · intro hlt
    exact absurd hlt (Int.lt_irrefl 0)

end Frames

/-! ## Runs -/

namespace Reception

/-- The size is in its bounds, no failed call has changed anything, and the buffer holds the stream
from the boundary on. -/
structure Framed (bufferSize : ℕ) (s : Reception) : Prop where
  receivedSize_nonneg : 0 ≤ s.receiver.receivedSize
  receivedSize_le : s.receiver.receivedSize ≤ bufferSize
  kept : s.kept = true
  boundary_le : s.boundary ≤ s.received.length
  frames : Frames bufferSize s.sequence s.pending s.failed s.receiver.view

variable {bufferSize : ℕ} {s : Reception}

/-- As long as the size is in its bounds, the signed number is the natural one. -/
theorem view_receive {receiver : Receiver} (hnonneg : 0 ≤ receiver.receivedSize)
    (data : List UInt8) :
    (receiver.receive bufferSize (.bytes data)).view =
      receiver.view.receive bufferSize
        (data.take (bufferSize - receiver.receivedSize).toNat) := by
  obtain ⟨n, hn⟩ := Int.eq_ofNat_of_zero_le hnonneg
  rw [Receiver.view, Receiver.view, Receiver.receive, Client.receive, hn]
  rfl

theorem framed_receive_bytes (h : s.Framed bufferSize) (data : List UInt8) :
    (s.step bufferSize (.receive (.bytes data))).Framed bufferSize := by
  have hlength := List.length_take_le (bufferSize - s.receiver.receivedSize).toNat data
  have hnonneg := h.receivedSize_nonneg
  have hle := h.receivedSize_le
  have hreceived : (s.receiver.receive bufferSize (.bytes data)).receivedSize =
      s.receiver.receivedSize +
        (data.take (bufferSize - s.receiver.receivedSize).toNat).length := rfl
  constructor
  · change 0 ≤ (s.receiver.receive bufferSize (.bytes data)).receivedSize
    omega
  · change (s.receiver.receive bufferSize (.bytes data)).receivedSize ≤ bufferSize
    omega
  · change (s.kept && _) = true
    rw [h.kept]
    rfl
  · change s.boundary ≤ (s.received ++ _).length
    rw [List.length_append]
    exact h.boundary_le.trans (Nat.le_add_right _ _)
  · change Frames bufferSize s.sequence ((s.received ++ _).drop s.boundary) s.failed
      (s.receiver.receive bufferSize (.bytes data)).view
    rw [view_receive hnonneg, List.drop_append_of_le_length h.boundary_le]
    apply h.frames.receive
    change s.receiver.receivedSize.toNat +
      (data.take (bufferSize - s.receiver.receivedSize).toNat).length ≤ bufferSize
    omega

/-- A call that fails changes the size. -/
theorem not_framed_receive_error (code : ℤ) (negative : code < 0) :
    ¬ (s.step bufferSize (.receive (.error code negative))).Framed bufferSize := by
  intro h
  have hreceived : (s.receiver.receive bufferSize (.error code negative)).receivedSize =
      s.receiver.receivedSize + code := rfl
  have hkept := (Bool.and_eq_true _ _).mp h.kept
  rw [Bool.or_eq_true, decide_eq_true_iff, decide_eq_true_iff] at hkept
  rcases hkept.2 with hsucceeds | ⟨hsize, -⟩
  · exact hsucceeds
  · omega

theorem view_ackMessage {receiver : Receiver} (hnext : receiver.client.nextSize < 0) :
    (receiver.ackMessage bufferSize).view = receiver.view.ackMessage bufferSize := by
  have hsize : (receiver.ackMessage bufferSize).receivedSize.toNat =
      (receiver.view.ackMessage bufferSize).receivedSize := by
    change (receiver.receivedSize - (-receiver.client.nextSize + 4 +
      receiver.client.encryption.macSize)).toNat = receiver.receivedSize.toNat -
        ((-receiver.client.nextSize).toNat + 4 + receiver.client.encryption.macSize)
    omega
  rw [Receiver.view, hsize]
  rfl

theorem framed_ackMessage (h : s.Framed bufferSize) :
    (s.step bufferSize .ackMessage).Framed bufferSize := by
  rw [step]
  split
  next hnext =>
    have hcomplete := h.frames.complete hnext
    have hlength := h.frames.length_rest
    have hview : s.receiver.view.frameSize s.sequence (s.pending.take 4) =
        s.receiver.client.frameSize s.sequence (s.pending.take 4) :=
      frameSize_congr (by rfl) (by rfl) (by rfl) _ _
    have hframeEnd : s.frameEnd = 4 + s.receiver.client.nextSize.natAbs +
        s.receiver.client.encryption.macSize := by
      rw [frameEnd, ← hview, ← (h.frames.size_eq hnext.ne).2.2]
      rfl
    have hreceived : (s.receiver.ackMessage bufferSize).receivedSize =
        s.receiver.receivedSize - s.frameEnd := by
      change s.receiver.receivedSize - (-s.receiver.client.nextSize + 4 +
        s.receiver.client.encryption.macSize) = _
      omega
    change 4 + s.receiver.client.nextSize.natAbs + s.receiver.client.encryption.macSize ≤
      s.receiver.receivedSize.toNat at hcomplete
    change (s.received.drop s.boundary).length = s.receiver.receivedSize.toNat at hlength
    rw [List.length_drop] at hlength
    have hnonneg := h.receivedSize_nonneg
    have hle := h.receivedSize_le
    constructor
    · change 0 ≤ (s.receiver.ackMessage bufferSize).receivedSize
      omega
    · change (s.receiver.ackMessage bufferSize).receivedSize ≤ bufferSize
      omega
    · exact h.kept
    · change s.boundary + s.frameEnd ≤ s.received.length
      omega
    · change Frames bufferSize (s.sequence + 1) (s.received.drop (s.boundary + s.frameEnd)) s.failed
        (s.receiver.ackMessage bufferSize).view
      have hframes := h.frames.ackMessage hnext
      rw [hview] at hframes
      rw [view_ackMessage hnext, ← List.drop_drop]
      exact hframes
  next => exact h

/-- What does not touch the size is a matter of the client alone. -/
theorem Framed.withClient (h : s.Framed bufferSize) {client : Client} {failed : Bool}
    (hframes : Frames bufferSize s.sequence s.pending failed
      { client with receivedSize := s.receiver.receivedSize.toNat }) :
    Framed bufferSize { s with receiver := { s.receiver with client }, failed } :=
  ⟨h.receivedSize_nonneg, h.receivedSize_le, h.kept, h.boundary_le, hframes⟩

theorem framed_peekMessage (h : s.Framed bufferSize) (poly1305 : Poly1305) :
    (s.step bufferSize (.peekMessage poly1305)).Framed bufferSize := by
  have hframes := h.frames.peekMessage poly1305
  have hsize : (s.receiver.view.peekMessage bufferSize poly1305).1.receivedSize =
      s.receiver.receivedSize.toNat :=
    hframes.length_rest.symm.trans h.frames.length_rest
  apply h.withClient
  rw [← hsize]
  exact hframes

theorem framed_sendMessage (h : s.Framed bufferSize) (out : Outgoing) (sendto : List UInt8 → ℤ) :
    (s.step bufferSize (.sendMessage out sendto)).Framed bufferSize := by
  apply h.withClient
  obtain ⟨encAead, encLen, hclient, -⟩ := sealMessage_fst s.receiver.client out
  rw [Client.sendMessage]
  dsimp only
  split
  next =>
    rw [hclient]
    exact h.frames.congr rfl rfl rfl rfl fun _ => ⟨rfl, rfl, rfl⟩
  next =>
    rw [hclient]
    exact h.frames.congr rfl rfl rfl rfl fun _ => ⟨rfl, rfl, rfl⟩

theorem framed_newKeys (h : s.Framed bufferSize) (keys : Fin 4 → Bytes 32) :
    (s.step bufferSize (.newKeys keys)).Framed bufferSize := by
  rw [step]
  split
  next hnext =>
    apply h.withClient
    exact h.frames.congr rfl rfl rfl rfl fun hne => absurd hnext hne
  next => exact h

/-- Everything but a failed call keeps the frames. -/
theorem framed_step_iff (h : s.Framed bufferSize) (event : ReceptionEvent) :
    (s.step bufferSize event).Framed bufferSize ↔ event.Succeeds := by
  cases event with
  | receive result =>
      cases result with
      | bytes data => exact iff_of_true (framed_receive_bytes h data) trivial
      | error code negative => exact iff_of_false (not_framed_receive_error code negative) id
  | peekMessage poly1305 => exact iff_of_true (framed_peekMessage h poly1305) trivial
  | ackMessage => exact iff_of_true (framed_ackMessage h) trivial
  | sendMessage out sendto => exact iff_of_true (framed_sendMessage h out sendto) trivial
  | newKeys keys => exact iff_of_true (framed_newKeys h keys) trivial

/-- The client behind the greeting, with the bytes that came with it. -/
def start (bufferSize : ℕ) (client : Client) : Reception where
  receiver := ⟨client, client.receivedSize⟩
  received := client.bytesAt bufferSize client.bufferPos client.receivedSize
  boundary := 0
  sequence := client.receiveSequenceNumber
  failed := false
  kept := true

theorem framed_start {client : Client} (hsize : client.receivedSize ≤ bufferSize)
    (hnext : client.nextSize = 0) : (start bufferSize client).Framed bufferSize := by
  refine ⟨Int.natCast_nonneg _, Int.ofNat_le.mpr hsize, rfl, Nat.zero_le _, ?_⟩
  constructor
  · exact hsize
  · exact Mirror.length_read _ _
  · rfl
  · rfl
  · intro _ _
    rfl
  · exact (if_neg (Int.not_lt.mpr hnext.ge)).symm
  · intro hne
    exact absurd hnext hne
  · intro hlt
    exact absurd hnext hlt.ne

/-- In every run from a client between two packets, the size stays in its bounds, a failed call
leaves everything as it is, and the packets are taken from the stream where they are, if and only if
no call of `recvfrom` fails. -/
theorem framed_throughout_iff {bufferSize : ℕ} {client : Client}
    (hsize : client.receivedSize ≤ bufferSize) (hnext : client.nextSize = 0)
    (events : List ReceptionEvent) :
    Runs.Throughout (step bufferSize) (Framed bufferSize) (start bufferSize client) events ↔
      ∀ event ∈ events, event.Succeeds := by
  rw [Runs.throughout_iff (framed_start hsize hnext) fun s event h => framed_step_iff h event,
    Runs.everyStep_iff_forall_mem]

/-- A client that has not changed its keys. -/
def plainClient : Client := { Session.sampleClient 1 3 0 with encryption := .none }

/-- A packet arrives in two parts, is peeked twice and acknowledged. -/
theorem framed_throughout_two_parts :
    plainClient.receivedSize ≤ 36864 ∧
      Runs.Throughout (step 36864) (Framed 36864) (start 36864 plainClient)
        [.receive (.bytes [0, 0, 0]), .peekMessage Session.samplePoly1305,
          .receive (.bytes [12, 4, 2, 2, 2, 2, 2, 2, 2, 0, 0, 0, 0]),
          .peekMessage Session.samplePoly1305, .ackMessage] := by
  refine ⟨by decide, (framed_throughout_iff (by decide) rfl _).mpr ?_⟩
  simp [ReceptionEvent.Succeeds, Recvfrom.Succeeds]

/-- A call that is interrupted between two others. -/
def interruptedReads : List ReceptionEvent :=
  [.receive (.bytes [1, 2, 3, 4, 5, 6]), .receive (.error (-4) (by decide)),
    .receive (.bytes [7, 8])]

/-- The error code is taken off the size: the next bytes overwrite received ones, and the size of an
empty buffer gets negative. -/
theorem interruptedReads_lose_bytes :
    (interruptedReads.foldl (step 36864)
      (start 36864 plainClient)).receiver.buffered 36864 = [1, 2, 7, 8] ∧
    ((start 36864 plainClient).step 36864
      (.receive (.error (-4) (by decide)))).receiver.receivedSize = -4 ∧
    ¬ Runs.Throughout (step 36864) (Framed 36864) (start 36864 plainClient)
      interruptedReads := by
  refine ⟨by decide, by decide, ?_⟩
  intro h
  exact not_framed_receive_error (-4) (by decide)
    (h (interruptedReads.take 2) (interruptedReads.drop 2) rfl)

end Reception

end Hc.Ssh
