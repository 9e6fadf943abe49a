import Hc.Foundation.Runs
import Hc.Ssh.Packet

/-!
# Delivery of SSH messages

A sender and a receiver with the same keys, and a stream between them that delivers any number of
bytes at a time. Between two calls the next packet is in the buffer and in the stream as it was
sent, or it is complete in the buffer and decrypted; in this case the sequence number is already
that of the packet behind it.
-/

namespace Hc.Ssh

/-- A message that may be sent. -/
structure Message extends Outgoing where
  ne_nil : message ≠ []
  fits : packetSize message.length ≤ maxPacketSize

namespace Client

variable (self : Client)

/-- The sender after a message, of which `sendto` has taken the whole packet. -/
def sent (message : Message) : Client :=
  (self.sendMessage message.toOutgoing fun packet => packet.length).1

/-- The packets of messages that are sent one after the other. -/
def sendAll (self : Client) : List Message → List UInt8
  | [] => []
  | message :: more => (self.sealMessage message.toOutgoing).2 ++ (self.sent message).sendAll more

end Client

/-! ## The sender -/

variable {sender receiver : Client}

theorem sealMessage_fst (sender : Client) (out : Outgoing) :
    ∃ encAead encLen, (sender.sealMessage out).1 = { sender with encAead, encLen } ∧
      encAead.key = sender.encAead.key ∧ encLen.key = sender.encLen.key ∧
      encLen.blockCounter = sender.encLen.blockCounter := by
  unfold Client.sealMessage
  split
  next => exact ⟨_, _, rfl, rfl, rfl, rfl⟩
  next =>
    have hreset := (@ChaCha20.crypt_spec out.body sender.sendCipher).2
    have hkey : (sender.sendCipher.crypt out.body).1.reset.key = sender.encAead.key := by
      rw [hreset]
      rfl
    exact ⟨_, _, rfl, hkey, rfl, rfl⟩

theorem sent_eq (sender : Client) (message : Message) :
    sender.sent message = { (sender.sealMessage message.toOutgoing).1 with
      sendSequenceNumber := (sender.sealMessage message.toOutgoing).1.sendSequenceNumber + 1 } := by
  rw [Client.sent, Client.sendMessage]
  exact congrArg Prod.fst (if_neg (not_not.mpr rfl))

theorem sent_sequence (sender : Client) (message : Message) :
    (sender.sent message).sendSequenceNumber = sender.sendSequenceNumber + 1 := by
  obtain ⟨encAead, encLen, hclient, -⟩ := sealMessage_fst sender message.toOutgoing
  rw [sent_eq, hclient]

/-- The keys stay the same when a message is sent. -/
theorem Matches.sent (h : Matches sender receiver) (message : Message) :
    Matches (sender.sent message) receiver := by
  obtain ⟨encAead, encLen, hclient, haead, hlen, hcounter⟩ :=
    sealMessage_fst sender message.toOutgoing
  rw [sent_eq, hclient]
  exact ⟨h.encryption_eq, h.aeadKey_eq.trans haead.symm, h.lenKey_eq.trans hlen.symm,
    hcounter.trans h.encLen_counter, h.decLen_counter⟩

/-- The keys stay the same when a message is peeked. -/
theorem Matches.peeked (h : Matches sender receiver) {client : Client}
    (hencryption : client.encryption = receiver.encryption)
    (haead : client.decAead.key = receiver.decAead.key)
    (hlen : client.decLen.key = receiver.decLen.key)
    (hcounter : client.decLen.blockCounter = receiver.decLen.blockCounter) :
      Matches sender client :=
  ⟨hencryption.trans h.encryption_eq, haead.trans h.aeadKey_eq, hlen.trans h.lenKey_eq,
    h.encLen_counter, hcounter.trans h.decLen_counter⟩

/-! ## The receiver -/

/-- A receiver and its stream: the bytes that were sent and not received, what `peekMessage` has
returned since the last message was acknowledged, whether it has returned an error, and the
acknowledged messages. -/
structure Session where
  client : Client
  stream : List UInt8
  returned : List (List UInt8) := []
  failed : Bool := false
  delivered : List (List UInt8) := []

/-- A call of one of the functions. The argument of `receive` is how much `recvfrom` delivers at
most; the structure on the stack of `peekMessage` may hold anything. -/
inductive Event where
  | receive (numRead : ℕ)
  | peekMessage (poly1305 : Poly1305)
  | ackMessage

namespace Session

section

variable (bufferSize : ℕ) (s : Session)

/-- What one call does. `recvfrom` delivers no more than there is room for, and `ackMessage` is only
called for a message that was peeked. -/
def step : Event → Session
  | .receive numRead =>
    let data := s.stream.take (min numRead (bufferSize - s.client.receivedSize))
    { s with client := s.client.receive bufferSize data, stream := s.stream.drop data.length }
  | .peekMessage poly1305 =>
    let (client, size) := s.client.peekMessage bufferSize poly1305
    { s with
      client
      returned := if size > 0 then s.returned ++ [client.messageAt bufferSize size.toNat]
        else s.returned
      failed := s.failed || decide (size < 0) }
  | .ackMessage =>
    match s.returned with
    | [] => s
    | message :: _ =>
      { s with
        client := s.client.ackMessage bufferSize
        returned := []
        delivered := s.delivered ++ [message] }

/-- The bytes in the buffer. -/
def buffered : List UInt8 := s.client.bytesAt bufferSize s.client.bufferPos s.client.receivedSize

/-- The number of bytes that the packet of a message takes. -/
def totalSize (message : Message) : ℕ :=
  packetSize message.message.length + s.client.encryption.macSize

/-- What `peekMessage` returns if the messages `rest` are still to be delivered: the size of the
first one, or 0 if its packet is not complete. -/
def nextMessageSize : List Message → ℕ
  | [] => 0
  | message :: _ => if s.totalSize message ≤ s.client.receivedSize then message.message.length
    else 0

/-- The messages `done` are delivered, and `rest` follows. -/
structure Delivered (done rest : List Message) : Prop where
  delivered_eq : s.delivered = done.map fun message => message.message
  not_failed : s.failed = false
  returned : ∀ bytes ∈ s.returned, ∃ message ∈ rest.head?, bytes = message.message
  peek : ∀ poly1305, (s.client.peekMessage bufferSize poly1305).2 = s.nextMessageSize rest
  -- What is missing of the next packet can be received.
  progress : ∀ message ∈ rest.head?, s.client.receivedSize < s.totalSize message →
    s.stream ≠ [] ∧ s.client.receivedSize < bufferSize
  complete : rest = [] → s.stream = [] ∧ s.client.receivedSize = 0

/-- The position and the size are in their bounds, and what was delivered are the first messages. -/
def Delivers (messages : List Message) : Prop :=
  s.client.bufferPos < bufferSize ∧ 4 ∣ s.client.bufferPos ∧ s.client.receivedSize ≤ bufferSize ∧
    ∃ done rest, messages = done ++ rest ∧ s.Delivered bufferSize done rest

/-- The next packet is as it was sent. -/
structure Sealed (sender : Client) (rest : List Message) : Prop where
  matched : Matches sender s.client
  sequence_eq : s.client.receiveSequenceNumber = sender.sendSequenceNumber
  nextSize : s.client.nextSize = 0 ∨ ∃ message ∈ rest.head?, s.client.nextSize = message.body.length
  bytes_eq : s.buffered bufferSize ++ s.stream = sender.sendAll rest
  returned_eq : s.returned = []

/-- The packet of a message is decrypted, and `rest` follows it. -/
structure Opened (sender : Client) (message : Message) (rest : List Message) : Prop where
  matched : Matches sender s.client
  sequence_eq : s.client.receiveSequenceNumber = sender.sendSequenceNumber
  nextSize_eq : s.client.nextSize = -message.body.length
  bytes_eq : ∃ size tag more, size.length = 4 ∧ tag.length = s.client.encryption.macSize ∧
    s.buffered bufferSize = size ++ (message.body ++ (tag ++ more)) ∧
    more ++ s.stream = sender.sendAll rest
  returned_ne : s.returned ≠ []
  returned_eq : ∀ bytes ∈ s.returned, bytes = message.message

/-- The state between two calls. -/
structure Invariant (messages done rest : List Message) : Prop where
  bufferPos_lt : s.client.bufferPos < bufferSize
  four_dvd_bufferPos : 4 ∣ s.client.bufferPos
  receivedSize_le : s.client.receivedSize ≤ bufferSize
  messages_eq : messages = done ++ rest
  delivered_eq : s.delivered = done.map fun message => message.message
  not_failed : s.failed = false
  packet : ∃ sender, s.Sealed bufferSize sender rest ∨
    ∃ message more, rest = message :: more ∧ s.Opened bufferSize sender message more

end

variable {bufferSize : ℕ} {s : Session} {sender receiver : Client} {message : Message}
  {messages done rest more : List Message}

@[simp] theorem length_buffered : (s.buffered bufferSize).length = s.client.receivedSize :=
  Mirror.length_read _ _

theorem totalSize_eq (message : Message) :
    s.totalSize message = 4 + message.body.length + s.client.encryption.macSize := by
  rw [totalSize, ← message.four_add_length_body]

/-- When the size of the next packet is there, `peekMessage` goes on with the packet. -/
theorem peekMessage_eq_peekPacket {client : Client} {out : Outgoing} {size sealed tag : List UInt8}
    (h : Opens client size sealed tag out.body)
    (hfits : packetSize out.message.length ≤ maxPacketSize)
    (hnext : client.nextSize = 0 ∨ client.nextSize = out.body.length)
    (hreceived : 4 ≤ client.receivedSize)
    (hbytes : client.bytesAt bufferSize client.bufferPos 4 = size)
    (poly1305 : Poly1305) :
    ∃ decLen, client.peekMessage bufferSize poly1305 =
        Client.peekPacket bufferSize { client with decLen, nextSize := out.body.length } poly1305 ∧
      decLen.key = client.decLen.key ∧ decLen.blockCounter = client.decLen.blockCounter := by
  have hbody := out.length_body
  rcases hnext with hnext | hnext
  · obtain ⟨decLen, hread, hkeys⟩ := readSize_spec h hfits hreceived hbytes
    refine ⟨decLen, ?_, hkeys⟩
    rw [Client.peekMessage, if_neg (by omega), if_pos hnext, hread]
  · refine ⟨client.decLen, ?_, rfl, rfl⟩
    rw [Client.peekMessage, if_neg (by omega), if_neg (by omega), ← hnext]

/-- Nothing is returned when nothing more was sent. -/
theorem Sealed.peek_nil (h : s.Sealed bufferSize sender []) (poly1305 : Poly1305) :
    s.client.peekMessage bufferSize poly1305 = (s.client, 0) := by
  have hlength := congrArg List.length h.bytes_eq
  rw [List.length_append, length_buffered, Client.sendAll, List.length_nil] at hlength
  have hnext : s.client.nextSize = 0 := by
    rcases h.nextSize with hnext | ⟨message, hmessage, -⟩
    · exact hnext
    · exact absurd hmessage (Option.not_mem_none _)
  rw [Client.peekMessage, if_neg (by omega), if_pos hnext, Client.readSize, if_pos (by omega)]

theorem Sealed.nextSize_cons (h : s.Sealed bufferSize sender (message :: more)) :
    s.client.nextSize = 0 ∨ s.client.nextSize = message.body.length := by
  rcases h.nextSize with hnext | ⟨message', hmessage, hnext⟩
  · exact .inl hnext
  · obtain rfl := Option.some.inj hmessage
    exact .inr hnext

/-- The buffer begins with the packet of the next message, as far as it was received. -/
theorem Sealed.opens (h : s.Sealed bufferSize sender (message :: more)) :
    ∃ size sealed tag, Opens s.client size sealed tag message.body ∧
      s.buffered bufferSize ++ s.stream =
        size ++ (sealed ++ (tag ++ (sender.sent message).sendAll more)) := by
  obtain ⟨size, sealed, tag, hpacket, hopens⟩ :=
    sealMessage_opens message.toOutgoing h.matched h.sequence_eq message.fits
  refine ⟨size, sealed, tag, hopens, ?_⟩
  rw [h.bytes_eq, Client.sendAll, hpacket, List.append_assoc, List.append_assoc]

/-- The size of the next packet is at the beginning of the buffer. -/
theorem bytesAt_four {size after : List UInt8} (hsize : size.length = 4)
    (hreceived : 4 ≤ s.client.receivedSize)
    (hbytes : s.buffered bufferSize ++ s.stream = size ++ after) :
    s.client.bytesAt bufferSize s.client.bufferPos 4 = size := by
  have htake := congrArg (List.take 4) hbytes
  rw [List.take_append_of_le_length (by rw [length_buffered]; exact hreceived),
    List.take_left' hsize, buffered, Client.bytesAt, Mirror.take_read _ hreceived] at htake
  exact htake

/-- The next message is not returned before its packet is complete. -/
theorem Sealed.peek_incomplete (h : s.Sealed bufferSize sender (message :: more))
    (hreceived : s.client.receivedSize < s.totalSize message) (poly1305 : Poly1305) :
    ∃ decLen nextSize, s.client.peekMessage bufferSize poly1305 =
        ({ s.client with decLen, nextSize }, 0) ∧
      decLen.key = s.client.decLen.key ∧ decLen.blockCounter = s.client.decLen.blockCounter ∧
      (nextSize = 0 ∨ nextSize = message.body.length) := by
  obtain ⟨size, sealed, tag, hopens, hbytes⟩ := h.opens
  have hnext := h.nextSize_cons
  rw [totalSize_eq] at hreceived
  rcases Nat.lt_or_ge s.client.receivedSize 4 with hshort | hlong
  · refine ⟨s.client.decLen, s.client.nextSize, ?_, rfl, rfl, hnext⟩
    rcases hnext with hnext | hnext
    · rw [Client.peekMessage, if_neg (by omega), if_pos hnext, Client.readSize, if_pos hshort]
    · have hbody := message.length_body
      rw [Client.peekMessage, if_neg (by omega), if_neg (by omega),
        peekPacket_incomplete hnext hreceived]
  · obtain ⟨decLen, hpeek, hkey, hcounter⟩ :=
      peekMessage_eq_peekPacket hopens message.fits hnext hlong
      (bytesAt_four hopens.length_size hlong hbytes) poly1305
    refine ⟨decLen, message.body.length, ?_, hkey, hcounter, .inr rfl⟩
    exact hpeek.trans (@peekPacket_incomplete
      { s.client with decLen, nextSize := message.body.length }
      bufferSize message.body.length rfl hreceived poly1305)

/-- The next message is returned when its packet is complete, and the packet is decrypted. -/
theorem Sealed.peek_complete (h : s.Sealed bufferSize sender (message :: more))
    (hsize : s.client.receivedSize ≤ bufferSize)
    (hreceived : s.totalSize message ≤ s.client.receivedSize) (poly1305 : Poly1305) :
    ∃ decLen decAead buffer, s.client.peekMessage bufferSize poly1305 =
        ({ s.client with
          decLen, decAead, buffer, receiveSequenceNumber := s.client.receiveSequenceNumber + 1,
          nextSize := -message.body.length }, (message.message.length : ℤ)) ∧
      decLen.key = s.client.decLen.key ∧ decLen.blockCounter = s.client.decLen.blockCounter ∧
      decAead.key = s.client.decAead.key ∧
      ∃ size tag after, size.length = 4 ∧ tag.length = s.client.encryption.macSize ∧
        Mirror.read bufferSize buffer s.client.bufferPos s.client.receivedSize =
          size ++ (message.body ++ (tag ++ after)) ∧
        after ++ s.stream = (sender.sent message).sendAll more := by
  obtain ⟨size, sealed, tag, hopens, hbytes⟩ := h.opens
  have hnext := h.nextSize_cons
  rw [totalSize_eq] at hreceived
  obtain ⟨after, hbuffered, hafter⟩ : ∃ after, s.buffered bufferSize =
      size ++ (sealed ++ (tag ++ after)) ∧
        after ++ s.stream = (sender.sent message).sendAll more := by
    have hlength : (size ++ (sealed ++ tag)).length ≤ (s.buffered bufferSize).length := by
      rw [length_buffered, List.length_append, List.length_append, hopens.length_size,
        hopens.length_sealed, hopens.length_tag]
      omega
    have hpacket : size ++ (sealed ++ tag) <+: s.buffered bufferSize ++ s.stream := by
      rw [hbytes]
      exact ⟨(sender.sent message).sendAll more, by rw [List.append_assoc, List.append_assoc]⟩
    obtain ⟨after, hafter⟩ := List.prefix_of_prefix_length_le hpacket
      (List.prefix_append _ _) hlength
    rw [List.append_assoc, List.append_assoc] at hafter
    refine ⟨after, hafter.symm, ?_⟩
    rw [← hafter, List.append_assoc, List.append_assoc, List.append_assoc] at hbytes
    exact List.append_cancel_left (List.append_cancel_left (List.append_cancel_left hbytes))
  obtain ⟨decLen, hpeek, hkey, hcounter⟩ := peekMessage_eq_peekPacket hopens message.fits hnext
    (by omega)
    (bytesAt_four hopens.length_size (by omega) hbytes) poly1305
  obtain ⟨decAead, buffer, hpacket, haead, hopened⟩ :=
    peekPacket_complete (hopens.readSize hkey hcounter message.body.length) message.ne_nil rfl hsize
      hbuffered poly1305
  exact ⟨decLen, decAead, buffer, hpeek.trans hpacket, hkey, hcounter, haead, size, tag, after,
    hopens.length_size, hopens.length_tag, hopened, hafter⟩

/-- A decrypted message is returned again. -/
theorem Opened.peek (h : s.Opened bufferSize sender message more) (poly1305 : Poly1305) :
    s.client.peekMessage bufferSize poly1305 = (s.client, (message.message.length : ℤ)) ∧
      s.client.messageAt bufferSize message.message.length = message.message := by
  obtain ⟨size, tag, after, hsize, -, hbuffered, -⟩ := h.bytes_eq
  have hbody := message.length_body
  have hnext := h.nextSize_eq
  refine ⟨?_, messageAt_eq hsize hbuffered⟩
  rw [Client.peekMessage, if_pos (by omega), packetPadding_eq hsize hbuffered, hnext]
  congr 1
  omega

theorem macSize_cases (encryption : Encryption) :
    encryption.macSize = 0 ∨ encryption.macSize = 16 := by
  cases encryption
  · exact .inl rfl
  · exact .inr rfl

/-- A multiple of 64 that fits leaves room for the MAC. -/
theorem totalSize_le (s : Session) (message : Message) : s.totalSize message ≤ maxPacketSize := by
  have hfits := message.fits
  have hmod := packetSize_mod message.message.length
  have hmac := macSize_cases s.client.encryption
  unfold totalSize maxPacketSize at *
  omega

theorem Opened.totalSize_le (h : s.Opened bufferSize sender message more) :
    s.totalSize message ≤ s.client.receivedSize := by
  obtain ⟨size, tag, after, hsize, htag, hbuffered, -⟩ := h.bytes_eq
  have hlength := congrArg List.length hbuffered
  rw [length_buffered, List.length_append, List.length_append, List.length_append, hsize,
    htag] at hlength
  rw [totalSize_eq]
  omega

/-- A part of the next packet that was not received is in the stream. -/
theorem Sealed.stream_ne (h : s.Sealed bufferSize sender (message :: more))
    (hreceived : s.client.receivedSize < s.totalSize message) : s.stream ≠ [] := by
  intro hstream
  obtain ⟨size, sealed, tag, hopens, hbytes⟩ := h.opens
  have hlength := congrArg List.length hbytes
  rw [hstream, List.append_nil, length_buffered, List.length_append, List.length_append,
    List.length_append, hopens.length_size, hopens.length_sealed, hopens.length_tag] at hlength
  rw [totalSize_eq] at hreceived
  omega

theorem nextMessageSize_cons (message : Message) (more : List Message)
    (h : s.totalSize message ≤ s.client.receivedSize) :
    s.nextMessageSize (message :: more) = message.message.length :=
  if_pos h

/-- The invariant says what `peekMessage` returns next. -/
theorem delivered_of_invariant (hbuffer : maxPacketSize ≤ bufferSize)
    (h : s.Invariant bufferSize messages done rest) : s.Delivered bufferSize done rest := by
  obtain ⟨sender, hsealed | ⟨message, more, rfl, hopened⟩⟩ := h.packet
  · have hreturned : ∀ bytes ∈ s.returned, ∃ message ∈ rest.head?, bytes = message.message := by
      rw [hsealed.returned_eq]
      exact nofun
    cases rest with
    | nil =>
        have hlength := congrArg List.length hsealed.bytes_eq
        rw [List.length_append, length_buffered, Client.sendAll, List.length_nil] at hlength
        refine ⟨h.delivered_eq, h.not_failed, hreturned, fun poly1305 => ?_,
          fun message hmessage => ?_, fun _ => ⟨?_, by omega⟩⟩
        · rw [hsealed.peek_nil]
          rfl
        · exact absurd hmessage (Option.not_mem_none _)
        · exact List.length_eq_zero_iff.mp (by omega)
    | cons message more =>
        refine ⟨h.delivered_eq, h.not_failed, hreturned, fun poly1305 => ?_, ?_, nofun⟩
        · rcases Nat.lt_or_ge s.client.receivedSize (s.totalSize message) with hlt | hge
          · obtain ⟨decLen, nextSize, hpeek, -⟩ := hsealed.peek_incomplete hlt poly1305
            rw [hpeek, nextMessageSize, if_neg (by omega)]
            rfl
          · obtain ⟨decLen, decAead, buffer, hpeek, -⟩ :=
              hsealed.peek_complete h.receivedSize_le hge poly1305
            rw [hpeek, nextMessageSize_cons message more hge]
        · intro message' hmessage hlt
          obtain rfl := Option.some.inj hmessage
          have htotal := totalSize_le s message
          exact ⟨hsealed.stream_ne hlt, by omega⟩
  · have htotal := hopened.totalSize_le
    refine ⟨h.delivered_eq, h.not_failed, ?_, fun poly1305 => ?_, ?_, nofun⟩
    · exact fun bytes hbytes => ⟨message, rfl, hopened.returned_eq bytes hbytes⟩
    · rw [(hopened.peek poly1305).1, nextMessageSize_cons message more htotal]
    · intro message' hmessage hlt
      obtain rfl := Option.some.inj hmessage
      omega

/-! ## What a call keeps -/

theorem invariant_receive (h : s.Invariant bufferSize messages done rest) (numRead : ℕ) :
    (s.step bufferSize (.receive numRead)).Invariant bufferSize messages done rest := by
  have hreceived := h.receivedSize_le
  unfold step
  dsimp only
  obtain ⟨hlength, hstream⟩ := Mirror.taken_spec s.stream numRead
    (bufferSize - s.client.receivedSize)
  generalize s.stream.take (min numRead (bufferSize - s.client.receivedSize)) = data
    at hlength hstream ⊢
  have hbuffered : Mirror.read bufferSize (s.client.receive bufferSize data).buffer
      s.client.bufferPos
      (s.client.receivedSize + data.length) = s.buffered bufferSize ++ data :=
    Mirror.read_write_append _ _ (by omega)
  refine ⟨h.bufferPos_lt, h.four_dvd_bufferPos, ?_, h.messages_eq, h.delivered_eq, h.not_failed, ?_⟩
  · change s.client.receivedSize + data.length ≤ bufferSize
    omega
  · obtain ⟨sender, hsealed | ⟨message, more, hrest, hopened⟩⟩ := h.packet
    · refine ⟨sender, .inl ⟨?_, hsealed.sequence_eq, hsealed.nextSize, ?_, hsealed.returned_eq⟩⟩
      · exact hsealed.matched.peeked rfl rfl rfl rfl
      · rw [← hsealed.bytes_eq, ← hstream, ← List.append_assoc, ← hbuffered, hstream]
        rfl
    · obtain ⟨size, tag, after, hsize, htag, hbytes, hafter⟩ := hopened.bytes_eq
      refine ⟨sender, .inr ⟨message, more, hrest, ?_, hopened.sequence_eq, hopened.nextSize_eq,
        ⟨size, tag, after ++ data, hsize, htag, ?_, ?_⟩, hopened.returned_ne, hopened.returned_eq⟩⟩
      · exact hopened.matched.peeked rfl rfl rfl rfl
      · rw [hbytes, List.append_assoc, List.append_assoc, List.append_assoc] at hbuffered
        exact hbuffered
      · rw [List.append_assoc, hstream, hafter]

theorem step_of_peek_zero {client : Client} {poly1305 : Poly1305}
    (h : s.client.peekMessage bufferSize poly1305 = (client, 0)) :
    s.step bufferSize (.peekMessage poly1305) = { s with client } := by
  simp [step, h]

theorem step_of_peek_pos {client : Client} {poly1305 : Poly1305} {size : ℕ}
    (h : s.client.peekMessage bufferSize poly1305 = (client, (size : ℤ))) (hsize : 0 < size) :
    s.step bufferSize (.peekMessage poly1305) =
      { s with client, returned := s.returned ++ [client.messageAt bufferSize size] } := by
  have hnot : ¬(size : ℤ) < 0 := by omega
  simp [step, h, hsize, hnot]

theorem invariant_peekMessage (h : s.Invariant bufferSize messages done rest)
    (poly1305 : Poly1305) :
    (s.step bufferSize (.peekMessage poly1305)).Invariant bufferSize messages done rest := by
  obtain ⟨sender, hsealed | ⟨message, more, hrest, hopened⟩⟩ := h.packet
  · cases rest with
    | nil =>
        rw [step_of_peek_zero (hsealed.peek_nil poly1305)]
        exact h
    | cons message more =>
        rcases Nat.lt_or_ge s.client.receivedSize (s.totalSize message) with hlt | hge
        · obtain ⟨decLen, nextSize, hpeek, hkey, hcounter, hnext⟩ :=
            hsealed.peek_incomplete hlt poly1305
          rw [step_of_peek_zero hpeek]
          refine ⟨h.bufferPos_lt, h.four_dvd_bufferPos, h.receivedSize_le, h.messages_eq,
            h.delivered_eq, h.not_failed, sender,
            .inl ⟨?_, hsealed.sequence_eq, ?_, hsealed.bytes_eq,
              hsealed.returned_eq⟩⟩
          · exact hsealed.matched.peeked rfl rfl hkey hcounter
          · exact hnext.imp_right fun hnext => ⟨message, rfl, hnext⟩
        · obtain ⟨decLen, decAead, buffer, hpeek, hkey, hcounter, haead, size, tag, after, hsize,
            htag, hbytes, hafter⟩ := hsealed.peek_complete h.receivedSize_le hge poly1305
          have hmessage : Client.messageAt bufferSize { s.client with
              decLen, decAead, buffer, receiveSequenceNumber := s.client.receiveSequenceNumber + 1,
              nextSize := -message.body.length } message.message.length = message.message :=
            messageAt_eq hsize hbytes
          rw [step_of_peek_pos hpeek (List.length_pos_of_ne_nil message.ne_nil), hmessage,
            hsealed.returned_eq]
          refine ⟨h.bufferPos_lt, h.four_dvd_bufferPos, h.receivedSize_le, h.messages_eq,
            h.delivered_eq, h.not_failed, sender.sent message,
            .inr ⟨message, more, rfl, ?_, ?_, rfl,
              ⟨size, tag, after, hsize, htag, hbytes, hafter⟩, List.cons_ne_nil _ _, ?_⟩⟩
          · apply Matches.sent
            exact hsealed.matched.peeked rfl haead hkey hcounter
          · rw [sent_sequence, ← hsealed.sequence_eq]
          · intro bytes hbytes
            exact List.mem_singleton.mp hbytes
  · obtain ⟨hpeek, hmessage⟩ := hopened.peek poly1305
    rw [step_of_peek_pos hpeek (List.length_pos_of_ne_nil message.ne_nil), hmessage]
    refine ⟨h.bufferPos_lt, h.four_dvd_bufferPos, h.receivedSize_le, h.messages_eq, h.delivered_eq,
      h.not_failed, sender, .inr ⟨message, more, hrest, hopened.matched, hopened.sequence_eq,
        hopened.nextSize_eq, hopened.bytes_eq, ?_, ?_⟩⟩
    · exact List.append_ne_nil_of_right_ne_nil _ (List.cons_ne_nil _ _)
    · intro bytes hbytes
      rcases List.mem_append.mp hbytes with hbytes | hbytes
      · exact hopened.returned_eq bytes hbytes
      · exact List.mem_singleton.mp hbytes

theorem invariant_ackMessage (hfour : 4 ∣ bufferSize)
    (h : s.Invariant bufferSize messages done rest) :
    ∃ done rest, (s.step bufferSize .ackMessage).Invariant bufferSize messages done rest := by
  obtain ⟨sender, hsealed | ⟨message, more, rfl, hopened⟩⟩ := h.packet
  · refine ⟨done, rest, ?_⟩
    simp only [step, hsealed.returned_eq]
    exact h
  · obtain ⟨bytes, returned, hreturned⟩ := List.exists_cons_of_ne_nil hopened.returned_ne
    obtain rfl : bytes = message.message := hopened.returned_eq bytes
      (by rw [hreturned]; exact List.mem_cons_self)
    obtain ⟨size, tag, after, hsize, htag, hbytes, hafter⟩ := hopened.bytes_eq
    have htotal : (-s.client.nextSize).toNat + 4 + s.client.encryption.macSize =
      s.totalSize message := by
      rw [hopened.nextSize_eq, neg_neg, Int.toNat_natCast, totalSize_eq]
      omega
    have hreceived := hopened.totalSize_le
    have hdrop : Mirror.read bufferSize s.client.buffer (s.client.bufferPos + s.totalSize message)
        (s.client.receivedSize - s.totalSize message) = after := by
      have hpacket : (size ++ (message.body ++ tag)).length = s.totalSize message := by
        rw [List.length_append, List.length_append, hsize, htag, totalSize_eq]
        omega
      rw [← Mirror.drop_read _ hreceived]
      change (s.buffered bufferSize).drop _ = after
      rw [hbytes, ← List.append_assoc message.body, ← List.append_assoc, List.drop_left' hpacket]
    refine ⟨done ++ [message], more, ?_⟩
    simp only [step, hreturned]
    refine ⟨Nat.mod_lt _ (Nat.zero_lt_of_lt h.bufferPos_lt), ?_, ?_, ?_, ?_, h.not_failed,
      sender, .inl ⟨?_, hopened.sequence_eq, .inl rfl, ?_, rfl⟩⟩
    · have hbody := message.four_dvd_length_body
      have hpos := h.four_dvd_bufferPos
      have hmac := macSize_cases s.client.encryption
      rw [totalSize_eq] at htotal
      change 4 ∣ (s.client.bufferPos + _) % bufferSize
      rw [Nat.dvd_mod_iff hfour, htotal]
      omega
    · exact (Nat.sub_le _ _).trans h.receivedSize_le
    · rw [h.messages_eq, List.append_assoc, List.singleton_append]
    · rw [h.delivered_eq, List.map_append, List.map_singleton]
    · exact hopened.matched.peeked rfl rfl rfl rfl
    · rw [← hafter, ← hdrop]
      simp only [buffered, Client.bytesAt, Client.ackMessage, htotal, Mirror.read_mod]

/-- Every call keeps the invariant. -/
theorem invariant_step (hfour : 4 ∣ bufferSize) (h : s.Invariant bufferSize messages done rest)
    (event : Event) : ∃ done rest,
      (s.step bufferSize event).Invariant bufferSize messages done rest := by
  cases event with
  | receive numRead => exact ⟨done, rest, invariant_receive h numRead⟩
  | peekMessage poly1305 => exact ⟨done, rest, invariant_peekMessage h poly1305⟩
  | ackMessage => exact invariant_ackMessage hfour h

/-- A receiver for a sender, with an empty buffer. -/
structure Ready (bufferSize : ℕ) (sender receiver : Client) : Prop where
  matched : Matches sender receiver
  sequence_eq : receiver.receiveSequenceNumber = sender.sendSequenceNumber
  bufferPos_lt : receiver.bufferPos < bufferSize
  four_dvd_bufferPos : 4 ∣ receiver.bufferPos
  receivedSize_eq : receiver.receivedSize = 0
  nextSize_eq : receiver.nextSize = 0

/-- The receiver before the first call, when the messages were sent. -/
def start (sender receiver : Client) (messages : List Message) : Session where
  client := receiver
  stream := sender.sendAll messages

theorem invariant_start (h : Ready bufferSize sender receiver) (messages : List Message) :
    (start sender receiver messages).Invariant bufferSize messages [] messages := by
  refine ⟨h.bufferPos_lt, h.four_dvd_bufferPos, h.receivedSize_eq.trans_le (Nat.zero_le _), rfl,
    rfl, rfl, sender, .inl ⟨h.matched, h.sequence_eq, .inl h.nextSize_eq, ?_, rfl⟩⟩
  rw [buffered, start, h.receivedSize_eq]
  rfl

/-- In every run, whatever `recvfrom` delivers at a time, the acknowledged messages are the first
ones that were sent, in order; `peekMessage` has returned the one that follows, as often as it was
called since then, and never an error; and it returns this message as soon as its packet is
complete. -/
theorem delivers_messages {k : ℕ} (hk : 2 ≤ k) {sender receiver : Client}
    (h : Ready (initBufferSize (2 ^ k)) sender receiver) (messages : List Message)
    (events : List Event) :
    Runs.Throughout (step (initBufferSize (2 ^ k)))
      (fun s => s.Delivers (initBufferSize (2 ^ k)) messages)
      (start sender receiver messages) events := by
  have hfour : 4 ∣ initBufferSize (2 ^ k) := (Nat.pow_dvd_pow 2 hk).trans (dvd_alignForward _ _)
  have hbuffer : maxPacketSize ≤ initBufferSize (2 ^ k) := le_alignForward (Nat.two_pow_pos k)
  have hinvariant : Runs.Throughout (step (initBufferSize (2 ^ k)))
      (fun s => ∃ done rest, s.Invariant (initBufferSize (2 ^ k)) messages done rest)
      (start sender receiver messages) events := by
    refine Runs.Throughout.of_everyStep (C := fun _ _ => True) ?_ ?_ fun _ _ _ _ => trivial
    · exact ⟨[], messages, invariant_start h messages⟩
    · rintro s event ⟨done, rest, h⟩ -
      exact invariant_step hfour h event
  intro before after hevents
  obtain ⟨done, rest, h⟩ := hinvariant before after hevents
  exact ⟨h.bufferPos_lt, h.four_dvd_bufferPos, h.receivedSize_le, done, rest, h.messages_eq,
    delivered_of_invariant hbuffer h⟩

/-- A cipher with a key of equal bytes. -/
def sampleCipher (byte : UInt8) : ChaCha20 :=
  ⟨⟨.replicate 32 byte, List.length_replicate⟩, 0, ⟨.replicate 8 0, List.length_replicate⟩⟩

/-- A client whose next numbers are the last ones before they wrap. -/
def sampleClient (enc dec : UInt8) (bufferPos : ℕ) : Client where
  buffer := fun _ => 0
  bufferPos
  receivedSize := 0
  receiveSequenceNumber := -1
  sendSequenceNumber := -1
  encAead := sampleCipher enc
  encLen := sampleCipher (enc + 1)
  decAead := sampleCipher dec
  decLen := sampleCipher (dec + 1)
  encryption := .chacha20Poly1305
  nextSize := 0

/-- The structure before `poly1305_init`. -/
def samplePoly1305 : Poly1305 :=
  ⟨⟨0, 0, 0, 0, 0, 0, 0, 0⟩, 0, ⟨.replicate 16 0, List.length_replicate⟩⟩

/-- Messages of 1 and of 100 bytes. -/
def sampleMessages : List Message :=
  [⟨⟨[5], ⟨.replicate 83 0, List.length_replicate⟩, samplePoly1305⟩, by decide, by decide⟩,
    ⟨⟨.replicate 100 7, ⟨.replicate 83 0, List.length_replicate⟩, samplePoly1305⟩, by decide,
      by decide⟩]

/-- The second packet wraps around the end of a buffer of 36864 bytes, and arrives in two parts. -/
theorem delivers_messages_sample :
    2 ≤ 12 ∧ Ready (initBufferSize (2 ^ 12)) (sampleClient 1 3 0) (sampleClient 3 1 36700) ∧
      Runs.Throughout (step (initBufferSize (2 ^ 12)))
        (fun s => s.Delivers (initBufferSize (2 ^ 12)) sampleMessages)
        (start (sampleClient 1 3 0) (sampleClient 3 1 36700) sampleMessages)
        [.receive 100, .peekMessage samplePoly1305, .peekMessage samplePoly1305, .ackMessage,
          .peekMessage samplePoly1305, .receive 200, .peekMessage samplePoly1305, .ackMessage] := by
  have hready : Ready (initBufferSize (2 ^ 12)) (sampleClient 1 3 0) (sampleClient 3 1 36700) :=
    ⟨⟨rfl, rfl, rfl, rfl, rfl⟩, rfl, by decide, by decide, rfl, rfl⟩
  exact ⟨by decide, hready, delivers_messages (by decide) hready _ _⟩

end Session

end Hc.Ssh
