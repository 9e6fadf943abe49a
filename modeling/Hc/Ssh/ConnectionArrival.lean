import Hc.Ssh.ConnectionKeys

/-!
# Messages that arrive

Where the stream goes on with the packet of a message, `client_waitForMessage` returns the message,
however few bytes each call of `recvfrom` delivers. Behind it the stream is as it was in front of
it, with the bytes that follow the packet.
-/

namespace Hc.Ssh

/-- The next calls of `recvfrom` deliver something, and they are enough for the whole stream. -/
structure Enough (stream : List UInt8) (limits : List ℕ) : Prop where
  pos : ∀ limit ∈ limits, 0 < limit
  length_le : stream.length ≤ limits.length

/-- What receiving leaves as it is. -/
structure Client.Receives (before after : Client) : Prop where
  encryption_eq : after.encryption = before.encryption
  encAead_eq : after.encAead = before.encAead
  encLen_eq : after.encLen = before.encLen
  sendSequenceNumber_eq : after.sendSequenceNumber = before.sendSequenceNumber
  aeadKey_eq : after.decAead.key = before.decAead.key
  lenKey_eq : after.decLen.key = before.decLen.key
  counter_eq : after.decLen.blockCounter = before.decLen.blockCounter

theorem Client.Receives.trans {first second third : Client} (h : first.Receives second)
    (h' : second.Receives third) : first.Receives third :=
  ⟨h'.encryption_eq.trans h.encryption_eq, h'.encAead_eq.trans h.encAead_eq,
    h'.encLen_eq.trans h.encLen_eq, h'.sendSequenceNumber_eq.trans h.sendSequenceNumber_eq,
    h'.aeadKey_eq.trans h.aeadKey_eq, h'.lenKey_eq.trans h.lenKey_eq,
    h'.counter_eq.trans h.counter_eq⟩

theorem Client.Receives.receive (bufferSize : ℕ) (client : Client) (data : List UInt8) :
    client.Receives (client.receive bufferSize data) :=
  ⟨rfl, rfl, rfl, rfl, rfl, rfl, rfl⟩

theorem Client.Receives.sameKeys {before after : Client} (h : before.Receives after) :
    before.SameKeys after :=
  ⟨h.encryption_eq, congrArg _ h.encAead_eq, congrArg _ h.encLen_eq, h.aeadKey_eq, h.lenKey_eq⟩

section

variable (bufferSize : ℕ)

/-- The position and the size of what is in the buffer. -/
structure Client.Placed (client : Client) : Prop where
  bufferPos_lt : client.bufferPos < bufferSize
  four_dvd_bufferPos : 4 ∣ client.bufferPos
  receivedSize_le : client.receivedSize ≤ bufferSize

/-- The bytes that were received, and those that will be. -/
def Client.incoming (client : Client) (stream : List UInt8) : List UInt8 :=
  client.bytesAt bufferSize client.bufferPos client.receivedSize ++ stream

/-- No packet is begun, and these bytes are incoming. -/
structure Client.Rests (client : Client) (stream bytes : List UInt8) : Prop extends
    client.Placed bufferSize where
  nextSize_eq : client.nextSize = 0
  incoming_eq : client.incoming bufferSize stream = bytes

/-- The packet of a message is incoming, and `more` follows it. -/
structure Client.Expects (client : Client) (stream : List UInt8) (message : Message)
    (more : List UInt8) : Prop extends client.Placed bufferSize where
  opens : ∃ size sealed tag, Opens client size sealed tag message.body ∧
    client.incoming bufferSize stream = size ++ (sealed ++ (tag ++ more))
  nextSize : client.nextSize = 0 ∨ client.nextSize = message.body.length

end

variable {bufferSize : ℕ} {client : Client} {stream more : List UInt8} {message : Message}

/-- The number of bytes of a packet. -/
def Client.totalSize (client : Client) (message : Message) : ℕ :=
  4 + message.body.length + client.encryption.macSize

/-- The size of the next packet is at the beginning of the buffer. -/
theorem Client.Expects.bytesAt_four {size after : List UInt8} (hsize : size.length = 4)
    (hreceived : 4 ≤ client.receivedSize)
    (hbytes : client.incoming bufferSize stream = size ++ after) :
    client.bytesAt bufferSize client.bufferPos 4 = size :=
  @Session.bytesAt_four bufferSize { client, stream } size after hsize hreceived hbytes

/-- The packet is left alone until it is complete. -/
theorem Client.Expects.incomplete (h : client.Expects bufferSize stream message more)
    (hreceived : client.receivedSize < client.totalSize message) (poly1305 : Poly1305) :
    ∃ other, client.peekMessage bufferSize poly1305 = (other, 0) ∧
      client.Receives other ∧ other.receivedSize = client.receivedSize ∧
      other.receiveSequenceNumber = client.receiveSequenceNumber ∧
      other.Expects bufferSize stream message more := by
  obtain ⟨size, sealed, tag, hopens, hbytes⟩ := h.opens
  have hnext := h.nextSize
  rw [totalSize] at hreceived
  have hgoal {decLen : ChaCha20} (hkey : decLen.key = client.decLen.key)
      (hcounter : decLen.blockCounter = client.decLen.blockCounter) {nextSize : ℤ}
      (hnext : nextSize = 0 ∨ nextSize = message.body.length)
      (hpeek : client.peekMessage bufferSize poly1305 = ({ client with decLen, nextSize }, 0)) :
      ∃ other, client.peekMessage bufferSize poly1305 = (other, 0) ∧
        client.Receives other ∧ other.receivedSize = client.receivedSize ∧
        other.receiveSequenceNumber = client.receiveSequenceNumber ∧
        other.Expects bufferSize stream message more :=
    ⟨_, hpeek, ⟨rfl, rfl, rfl, rfl, rfl, hkey, hcounter⟩, rfl, rfl,
      ⟨h.bufferPos_lt, h.four_dvd_bufferPos, h.receivedSize_le⟩,
      ⟨size, sealed, tag, hopens.readSize hkey hcounter nextSize, hbytes⟩, hnext⟩
  rcases Nat.lt_or_ge client.receivedSize 4 with hshort | hlong
  · refine hgoal rfl rfl hnext ?_
    rcases hnext with hnext | hnext
    · rw [Client.peekMessage, if_neg (by omega), if_pos hnext, Client.readSize, if_pos hshort]
    · have hbody := message.length_body
      rw [Client.peekMessage, if_neg (by omega), if_neg (by omega),
        peekPacket_incomplete hnext hreceived]
  · obtain ⟨decLen, hpeek, hkey, hcounter⟩ :=
      Session.peekMessage_eq_peekPacket hopens message.fits hnext hlong
        (bytesAt_four hopens.length_size hlong hbytes) poly1305
    exact hgoal hkey hcounter (.inr rfl) (hpeek.trans (@peekPacket_incomplete
      { client with decLen, nextSize := message.body.length }
      bufferSize message.body.length rfl hreceived poly1305))

/-- What follows a packet rests when it is acknowledged. -/
theorem Client.rests_ackMessage (h : client.Placed bufferSize) (hfour : 4 ∣ bufferSize)
    (hnext : client.nextSize = -message.body.length) {size tag after : List UInt8}
    (hsize : size.length = 4) (htag : tag.length = client.encryption.macSize)
    (hbytes : client.bytesAt bufferSize client.bufferPos client.receivedSize =
      size ++ (message.body ++ (tag ++ after))) :
    (client.ackMessage bufferSize).Rests bufferSize stream (after ++ stream) := by
  have htotal : (-client.nextSize).toNat + 4 + client.encryption.macSize =
      client.totalSize message := by
    rw [hnext, neg_neg, Int.toNat_natCast, totalSize]
    omega
  have hpacket : (size ++ (message.body ++ tag)).length = client.totalSize message := by
    rw [List.length_append, List.length_append, hsize, htag, totalSize]
    omega
  rw [← List.append_assoc message.body, ← List.append_assoc] at hbytes
  have hreceived : client.totalSize message ≤ client.receivedSize := by
    have hlength := congrArg List.length hbytes
    rw [bytesAt, Mirror.length_read, List.length_append, hpacket] at hlength
    omega
  have hafter : Mirror.read bufferSize client.buffer
      (client.bufferPos + client.totalSize message)
      (client.receivedSize - client.totalSize message) = after := by
    rw [← Mirror.drop_read _ hreceived]
    change (client.bytesAt bufferSize client.bufferPos client.receivedSize).drop _ = after
    rw [hbytes, List.drop_left' hpacket]
  refine ⟨⟨Nat.mod_lt _ (Nat.zero_lt_of_lt h.bufferPos_lt), ?_,
    (Nat.sub_le _ _).trans h.receivedSize_le⟩, rfl, ?_⟩
  · have hbody := message.four_dvd_length_body
    have hpos := h.four_dvd_bufferPos
    have hmac := Session.macSize_cases client.encryption
    rw [totalSize] at htotal
    change 4 ∣ (client.bufferPos + _) % bufferSize
    rw [Nat.dvd_mod_iff hfour, htotal]
    omega
  · rw [← hafter]
    simp only [incoming, bytesAt, ackMessage, htotal, Mirror.read_mod]

/-- A packet that is complete is decrypted and acknowledged. -/
theorem Client.Expects.complete (h : client.Expects bufferSize stream message more)
    (hfour : 4 ∣ bufferSize) (hreceived : client.totalSize message ≤ client.receivedSize)
    (poly1305 : Poly1305) :
    ∃ other, client.nextMessage bufferSize poly1305 =
        (other, (message.message.length : ℤ), message.message) ∧
      client.Receives other ∧
      other.receiveSequenceNumber = client.receiveSequenceNumber + 1 ∧
      other.Rests bufferSize stream more := by
  obtain ⟨size, sealed, tag, hopens, hbytes⟩ := h.opens
  rw [totalSize] at hreceived
  obtain ⟨after, hbuffered, hafter⟩ :
      ∃ after, client.bytesAt bufferSize client.bufferPos client.receivedSize =
        size ++ (sealed ++ (tag ++ after)) ∧ after ++ stream = more := by
    have hpacket : size ++ (sealed ++ tag) <+: client.incoming bufferSize stream := by
      rw [hbytes]
      exact ⟨more, by rw [List.append_assoc, List.append_assoc]⟩
    obtain ⟨after, hafter⟩ := List.prefix_of_prefix_length_le hpacket (List.prefix_append _ _) (by
      rw [bytesAt, Mirror.length_read, List.length_append, List.length_append, hopens.length_size,
        hopens.length_sealed, hopens.length_tag]
      omega)
    rw [List.append_assoc, List.append_assoc] at hafter
    refine ⟨after, hafter.symm, ?_⟩
    rw [incoming, ← hafter, List.append_assoc, List.append_assoc, List.append_assoc] at hbytes
    exact List.append_cancel_left (List.append_cancel_left (List.append_cancel_left hbytes))
  obtain ⟨decLen, hpeek, hkey, hcounter⟩ := Session.peekMessage_eq_peekPacket hopens message.fits
    h.nextSize (by omega) (bytesAt_four hopens.length_size (by omega) hbytes) poly1305
  obtain ⟨decAead, buffer, hpacket, haead, hopened⟩ :=
    peekPacket_complete (hopens.readSize hkey hcounter message.body.length) message.ne_nil rfl
      h.receivedSize_le hbuffered poly1305
  rw [← hpeek] at hpacket
  generalize hopen : ({ client with
    decLen, decAead, buffer, receiveSequenceNumber := client.receiveSequenceNumber + 1,
    nextSize := -message.body.length } : Client) = opened at hpacket
  have hmessage : opened.messageAt bufferSize message.message.length = message.message := by
    rw [← hopen]
    exact messageAt_eq hopens.length_size hopened
  have hnext : client.nextMessage bufferSize poly1305 =
      (opened.ackMessage bufferSize, (message.message.length : ℤ), message.message) := by
    have hpositive := List.length_pos_of_ne_nil message.ne_nil
    rw [Client.nextMessage, hpacket]
    dsimp only
    rw [if_pos (by omega), Int.toNat_natCast, hmessage]
  refine ⟨_, hnext, ?_, ?_, ?_⟩
  · rw [← hopen]
    exact ⟨rfl, rfl, rfl, rfl, haead, hkey, hcounter⟩
  · rw [← hopen]
    rfl
  · have hplaced : opened.Placed bufferSize := by
      rw [← hopen]
      exact ⟨h.bufferPos_lt, h.four_dvd_bufferPos, h.receivedSize_le⟩
    have hnextSize : opened.nextSize = -message.body.length := by rw [← hopen]
    have htag : tag.length = opened.encryption.macSize := by
      rw [← hopen]
      exact hopens.length_tag
    have hbytes : opened.bytesAt bufferSize opened.bufferPos opened.receivedSize =
        size ++ (message.body ++ (tag ++ after)) := by
      rw [← hopen]
      exact hopened
    rw [← hafter]
    exact rests_ackMessage hplaced hfour hnextSize hopens.length_size htag hbytes

/-! ## Waiting -/

theorem Client.Expects.receive (h : client.Expects bufferSize stream message more)
    {data : List UInt8} (hdata : data <+: stream)
    (hroom : client.receivedSize + data.length ≤ bufferSize) :
    (client.receive bufferSize data).Expects bufferSize (stream.drop data.length) message more := by
  obtain ⟨size, sealed, tag, hopens, hbytes⟩ := h.opens
  refine ⟨⟨h.bufferPos_lt, h.four_dvd_bufferPos, hroom⟩, ⟨size, sealed, tag, ?_, ?_⟩, h.nextSize⟩
  · refine ⟨hopens.length_size, hopens.length_sealed, hopens.length_tag, ?_, hopens.none,
      hopens.tag_eq, hopens.crypt_eq⟩
    rw [← hopens.size_eq, decryptSize, decryptSize, Client.receive]
    dsimp only
    cases client.encryption <;> rfl
  · have hread : (client.receive bufferSize data).bytesAt bufferSize client.bufferPos
        (client.receivedSize + data.length) =
          client.bytesAt bufferSize client.bufferPos client.receivedSize ++ data :=
      Mirror.read_write_append _ _ hroom
    have hstream : data ++ stream.drop data.length = stream := by
      obtain ⟨rest, rfl⟩ := hdata
      rw [List.drop_left]
    rw [← hbytes, incoming, incoming, ← hstream, ← List.append_assoc, ← hread, hstream]
    rfl

/-- What is missing of a packet is in the stream. -/
theorem Client.Expects.length_lt (h : client.Expects bufferSize stream message more)
    (hreceived : client.receivedSize < client.totalSize message) : 0 < stream.length := by
  obtain ⟨size, sealed, tag, hopens, hbytes⟩ := h.opens
  have hlength := congrArg List.length hbytes
  rw [incoming, bytesAt, List.length_append, Mirror.length_read, List.length_append,
    List.length_append, List.length_append, hopens.length_size, hopens.length_sealed,
    hopens.length_tag] at hlength
  rw [totalSize] at hreceived
  omega

theorem Client.totalSize_le (client : Client) (message : Message) :
    client.totalSize message ≤ maxPacketSize :=
  (Session.totalSize_eq (s := { client, stream := [] }) message).ge.trans
    (Session.totalSize_le { client, stream := [] } message)

/-- What is received is the message, whatever the calls of `recvfrom` deliver at a time. -/
theorem waitLoop_delivers (hfour : 4 ∣ bufferSize) (hbuffer : maxPacketSize ≤ bufferSize)
    (poly1305 : ℕ → Poly1305) {limits : List ℕ} (hlimits : Enough stream limits)
    (h : client.Expects bufferSize stream message more) :
    ∃ other stream' limits', waitLoop bufferSize poly1305 client stream limits =
        ⟨other, stream', limits', message.message.length, message.message⟩ ∧
      client.Receives other ∧
      other.receiveSequenceNumber = client.receiveSequenceNumber + 1 ∧
      other.Rests bufferSize stream' more ∧ Enough stream' limits' := by
  have hpositive := List.length_pos_of_ne_nil message.ne_nil
  induction limits generalizing client stream with
  | nil =>
      have hlength := hlimits.length_le
      rcases Nat.lt_or_ge client.receivedSize (client.totalSize message) with hlt | hge
      · have hmissing := h.length_lt hlt
        exact absurd hlength (Nat.not_le.mpr hmissing)
      · obtain ⟨other, hnext, hreceives, hsequence, hrests⟩ :=
          h.complete hfour hge (poly1305 ([] : List ℕ).length)
        refine ⟨other, stream, [], ?_, hreceives, hsequence, hrests, hlimits⟩
        rw [waitLoop, hnext]
        exact if_pos (by omega)
  | cons limit limits ih =>
      rcases Nat.lt_or_ge client.receivedSize (client.totalSize message) with hlt | hge
      · have hmissing := h.length_lt hlt
        have htotal := client.totalSize_le message
        have hlimit := hlimits.pos limit List.mem_cons_self
        obtain ⟨other, hpeek, hreceives, hreceived, hsequence, hexpects⟩ :=
          h.incomplete hlt (poly1305 (limit :: limits).length)
        have hnext : client.nextMessage bufferSize (poly1305 (limit :: limits).length) =
            (other, 0, []) := by
          rw [Client.nextMessage, hpeek]
          rfl
        generalize hdata : stream.take (min limit (bufferSize - other.receivedSize)) = data
        have hlength : data.length =
            min (min limit (bufferSize - other.receivedSize)) stream.length := by
          rw [← hdata, List.length_take]
        have hne : data ≠ [] := List.ne_nil_of_length_pos (by omega)
        have hrest : Enough (stream.drop data.length) limits := by
          refine ⟨fun l hl => hlimits.pos l (List.mem_cons_of_mem _ hl), ?_⟩
          have hle := hlimits.length_le
          rw [List.length_cons] at hle
          rw [List.length_drop]
          omega
        obtain ⟨other', stream', limits', hloop, hreceives', hsequence', hrests, henough⟩ :=
          ih hrest (hexpects.receive (hdata ▸ List.take_prefix _ _) (by omega))
        refine ⟨other', stream', limits', ?_,
          hreceives.trans (.trans (.receive bufferSize other data) hreceives'), ?_, hrests, henough⟩
        · rw [waitLoop, hnext]
          dsimp only
          rw [if_neg (by decide), if_neg (by decide), hdata, if_neg hne, hloop]
        · rw [hsequence', ← hsequence]
          rfl
      · obtain ⟨other, hnext, hreceives, hsequence, hrests⟩ :=
          h.complete hfour hge (poly1305 (limit :: limits).length)
        refine ⟨other, stream, limit :: limits, ?_, hreceives, hsequence, hrests, hlimits⟩
        rw [waitLoop, hnext]
        exact if_pos (by omega)

end Hc.Ssh
