import Hc.Ssh.Message

/-!
# Packets, sealed and opened

A receiver with the keys and the sequence number of the sender takes a packet apart that
`client_sendMessage` has made.
-/

namespace Hc.Ssh

open ChaCha20 (xorBytes xorBytes_xorBytes length_block)

theorem paddingSize_le (n : ℕ) : paddingSize n ≤ 67 := by
  unfold paddingSize minPadding
  omega

theorem packetSize_mod (n : ℕ) : packetSize n % 64 = 0 := by
  unfold packetSize paddingSize minPadding
  omega

namespace Outgoing

variable (out : Outgoing)

/-- The packet behind its size, before it is encrypted. -/
def body : List UInt8 :=
  UInt8.ofNat (paddingSize out.message.length) ::
    (out.message ++ out.tail.toList.take (paddingSize out.message.length))

theorem length_body : out.body.length = 1 + out.message.length +
    paddingSize out.message.length := by
  have hpadding := paddingSize_le out.message.length
  rw [body, List.length_cons, List.length_append, List.length_take, out.tail.toList_length,
    min_eq_left (by omega)]
  omega

theorem four_add_length_body : 4 + out.body.length = packetSize out.message.length := by
  rw [length_body, packetSize]
  omega

theorem four_dvd_length_body : 4 ∣ out.body.length := by
  have hmod := packetSize_mod out.message.length
  have hsize := out.four_add_length_body
  omega

theorem byteAt_body : (byteAt out.body 0).toNat = paddingSize out.message.length := by
  have hpadding := paddingSize_le out.message.length
  change (UInt8.ofNat (paddingSize out.message.length)).toNat = _
  rw [UInt8.toNat_ofNat', Nat.mod_eq_of_lt (by omega)]

end Outgoing

/-! ## The sender and its receiver -/

/-- The mode and the keys of the receiver are those of the sender. The counters that the sizes are
encrypted with are never changed. -/
structure Matches (sender receiver : Client) : Prop where
  encryption_eq : receiver.encryption = sender.encryption
  aeadKey_eq : receiver.decAead.key = sender.encAead.key
  lenKey_eq : receiver.decLen.key = sender.encLen.key
  encLen_counter : sender.encLen.blockCounter = 0
  decLen_counter : receiver.decLen.blockCounter = 0

/-- The cipher of the next packet to send. -/
def Client.sendCipher (self : Client) : ChaCha20 :=
  (self.encAead.withNonce self.sendSequenceNumber).reset

/-- The cipher of the next packet to receive. -/
def Client.receiveCipher (self : Client) : ChaCha20 :=
  (self.decAead.withNonce self.receiveSequenceNumber).reset

/-- The receiver takes the three parts of a packet for the body of a message. -/
structure Opens (receiver : Client) (size sealed tag body : List UInt8) : Prop where
  length_size : size.length = 4
  length_sealed : sealed.length = body.length
  length_tag : tag.length = receiver.encryption.macSize
  size_eq : (receiver.decryptSize size).2 = body.length
  none : receiver.encryption = .none → sealed = body
  tag_eq : receiver.encryption = .chacha20Poly1305 →
    ∀ poly1305, mac poly1305 receiver.receiveCipher (size ++ sealed) = tag
  crypt_eq : receiver.encryption = .chacha20Poly1305 → (receiver.receiveCipher.crypt sealed).2 =
    body

variable {sender receiver : Client}

theorem length_mac (poly1305 : Poly1305) (cipher : ChaCha20) (packet : List UInt8) :
    (mac poly1305 cipher packet).length = 16 :=
  Poly1305.length_finish_update _ _ _

theorem mac_congr (poly1305 poly1305' : Poly1305) (cipher : ChaCha20) (packet : List UInt8) :
    mac poly1305 cipher packet = mac poly1305' cipher packet :=
  Poly1305.finish_update_congr _ _ _ _

theorem beNat_size {n : ℕ} (h : n < 2 ^ 32) : beNat (beBytes 4 n) = n := by
  rw [beNat_beBytes]
  exact Nat.mod_eq_of_lt h

theorem Matches.lenCipher_eq (h : Matches sender receiver)
    (hseq : receiver.receiveSequenceNumber = sender.sendSequenceNumber) :
    receiver.decLen.withNonce receiver.receiveSequenceNumber =
      sender.encLen.withNonce sender.sendSequenceNumber := by
  rw [hseq, ChaCha20.withNonce, ChaCha20.withNonce, h.lenKey_eq, h.decLen_counter, h.encLen_counter]

theorem Matches.receiveCipher_eq (h : Matches sender receiver)
    (hseq : receiver.receiveSequenceNumber = sender.sendSequenceNumber) :
    receiver.receiveCipher = sender.sendCipher := by
  rw [Client.receiveCipher, Client.sendCipher, hseq, ChaCha20.withNonce, ChaCha20.withNonce,
    h.aeadKey_eq]
  rfl

section Seal

variable (out : Outgoing)

theorem sealMessage_none (hmode : sender.encryption = .none) :
    (sender.sealMessage out).2 = beBytes 4 out.body.length ++ out.body := by
  have hsize : packetSize out.message.length - 4 = out.body.length := by
    rw [← out.four_add_length_body, Nat.add_sub_cancel_left]
  rw [← hsize, Client.sealMessage, hmode]
  rfl

theorem sealMessage_chacha20Poly1305 (hmode : sender.encryption = .chacha20Poly1305) :
    ∃ size sealed, size = xorBytes (beBytes 4 out.body.length)
        (sender.encLen.withNonce sender.sendSequenceNumber).block.toList ∧
      sealed = (sender.sendCipher.crypt out.body).2 ∧
      (sender.sealMessage out).2 =
        size ++ (sealed ++ mac out.poly1305 sender.sendCipher (size ++ sealed)) := by
  have hsize : packetSize out.message.length - 4 = out.body.length := by
    rw [← out.four_add_length_body, Nat.add_sub_cancel_left]
  have hreset : (sender.sendCipher.crypt out.body).1.reset = sender.sendCipher :=
    (@ChaCha20.crypt_spec out.body sender.sendCipher).2
  refine ⟨_, _, rfl, rfl, ?_⟩
  rw [← hsize, ← List.append_assoc, Client.sealMessage, hmode]
  change _ ++ _ ++ mac _ (sender.sendCipher.crypt out.body).1.reset _ = _
  rw [hreset]
  rfl

/-- A packet has three parts that the receiver takes for the body of the message. -/
theorem sealMessage_opens (h : Matches sender receiver)
    (hseq : receiver.receiveSequenceNumber = sender.sendSequenceNumber)
    (hfits : packetSize out.message.length ≤ maxPacketSize) :
    ∃ size sealed tag, (sender.sealMessage out).2 = size ++ (sealed ++ tag) ∧
      Opens receiver size sealed tag out.body := by
  have hlt : out.body.length < 2 ^ 32 := by
    have hbody := out.four_add_length_body
    unfold maxPacketSize at hfits
    omega
  cases hmode : sender.encryption with
  | none =>
      have hreceiver : receiver.encryption = .none := h.encryption_eq.trans hmode
      refine ⟨beBytes 4 out.body.length, out.body, [], ?_, length_beBytes _ _, rfl, ?_, ?_,
        fun _ => rfl, ?_, ?_⟩
      · rw [sealMessage_none out hmode, List.append_nil]
      · rw [hreceiver]
        rfl
      · rw [Client.decryptSize, hreceiver]
        exact beNat_size hlt
      · exact fun hchacha => absurd (hreceiver.symm.trans hchacha) (by decide)
      · exact fun hchacha => absurd (hreceiver.symm.trans hchacha) (by decide)
  | chacha20Poly1305 =>
      have hreceiver : receiver.encryption = .chacha20Poly1305 := h.encryption_eq.trans hmode
      have hstream : (beBytes 4 out.body.length).length ≤
          (sender.encLen.withNonce sender.sendSequenceNumber).block.toList.length := by
        rw [length_beBytes, length_block]
        decide
      obtain ⟨size, sealed, hsize, hsealed, hpacket⟩ := sealMessage_chacha20Poly1305 out hmode
      refine ⟨size, sealed, _, hpacket, ?_, ?_, ?_, ?_, ?_, fun _ poly1305 => ?_, fun _ => ?_⟩
      · rw [hsize, ChaCha20.length_xorBytes hstream, length_beBytes]
      · rw [hsealed, (@ChaCha20.crypt_spec out.body sender.sendCipher).1]
      · rw [length_mac, hreceiver]
        rfl
      · rw [Client.decryptSize, hreceiver]
        dsimp only
        rw [h.lenCipher_eq hseq, hsize, xorBytes_xorBytes hstream, beNat_size hlt]
      · exact fun hnone => absurd (hreceiver.symm.trans hnone) (by decide)
      · rw [h.receiveCipher_eq hseq]
        exact mac_congr _ _ _ _
      · rw [h.receiveCipher_eq hseq, hsealed, ChaCha20.crypt_crypt]

end Seal

/-! ## The circular buffer -/

section Open

variable {bufferSize : ℕ}

/-- The loop decrypts a range of addresses in place. -/
theorem decryptLoop_eq (cipher : ChaCha20) (buffer : ℕ → UInt8) (address : ℕ) {remaining : ℕ}
    (hfour : 4 ∣ remaining) (hsize : remaining ≤ bufferSize) :
    Client.decryptLoop bufferSize cipher buffer address remaining =
      ((cipher.crypt (Mirror.read bufferSize buffer address remaining)).1,
        Mirror.write bufferSize buffer address
          (cipher.crypt (Mirror.read bufferSize buffer address remaining)).2) := by
  induction hn : remaining using Nat.strong_induction_on generalizing cipher buffer address
    remaining with
  | h n ih =>
      subst hn
      rw [Client.decryptLoop]
      rcases Nat.lt_or_ge 64 remaining with hgt | hle
      · have halign : alignForward 64 4 = 64 := rfl
        rw [Nat.min_eq_right hgt.le, if_neg hgt.ne, halign]
        have hlength : (xorBytes (Mirror.read bufferSize buffer address 64)
            cipher.next.block.toList).length = 64 := by
          rw [ChaCha20.length_xorBytes_block _ (Mirror.length_read _ _).le, Mirror.length_read]
        rw [ih _ (by omega) cipher.next _ _ (by omega) (by omega) rfl,
          Mirror.read_write_of_ge (by rw [hlength]) (by omega),
          ChaCha20.crypt_of_gt cipher (by rwa [Mirror.length_read]), Mirror.take_read _ hgt.le,
          Mirror.drop_read _ hgt.le, Mirror.write_append, hlength]
      · have halign : alignForward remaining 4 = remaining := by
          unfold alignForward
          omega
        rw [Nat.min_eq_left hle, if_pos rfl, halign,
          ChaCha20.crypt_of_le cipher (by rwa [Mirror.length_read])]

/-- A complete packet is accepted, and decrypted in the buffer. -/
theorem decrypt_spec {size sealed tag body more : List UInt8}
    (h : Opens receiver size sealed tag body)
    (hfour : 4 ∣ body.length) (hsize : receiver.receivedSize ≤ bufferSize)
    (hbytes : receiver.bytesAt bufferSize receiver.bufferPos receiver.receivedSize =
      size ++ (sealed ++ (tag ++ more))) (poly1305 : Poly1305) :
    ∃ decAead buffer,
      receiver.decrypt bufferSize poly1305 (4 + body.length) =
        ({ receiver with decAead, buffer }, none) ∧
      decAead.key = receiver.decAead.key ∧
      Mirror.read bufferSize buffer receiver.bufferPos receiver.receivedSize =
        size ++ (body ++ (tag ++ more)) := by
  unfold Client.decrypt
  split
  next hmode =>
    refine ⟨_, _, rfl, rfl, ?_⟩
    rw [← h.none hmode]
    exact hbytes
  next hmode =>
    have hlength := congrArg List.length hbytes
    rw [Client.bytesAt, Mirror.length_read, List.length_append, List.length_append, h.length_size,
      h.length_sealed] at hlength
    have hpacket : receiver.bytesAt bufferSize receiver.bufferPos
      (4 + body.length) = size ++ sealed := by
      rw [← List.append_assoc] at hbytes
      have hread := @Mirror.read_of_append _ _ _ _ _ [] _ _ hbytes
      rwa [List.length_append, h.length_size, h.length_sealed] at hread
    have htag : receiver.bytesAt bufferSize (receiver.bufferPos + (4 + body.length)) 16 = tag := by
      rw [← List.append_assoc] at hbytes
      have hread := Mirror.read_of_append hbytes
      rw [List.length_append, h.length_size, h.length_sealed, h.length_tag, hmode] at hread
      exact hread
    have hsealed : Mirror.read bufferSize receiver.buffer (receiver.bufferPos + 4) body.length =
        sealed := by
      have hread := Mirror.read_of_append hbytes
      rwa [h.length_size, h.length_sealed] at hread
    have hmac := h.tag_eq hmode poly1305
    have hcrypt := h.crypt_eq hmode
    have hreset := (@ChaCha20.crypt_spec sealed receiver.receiveCipher).2
    have hloop := decryptLoop_eq receiver.receiveCipher receiver.buffer
      (receiver.bufferPos + 4) hfour
      (by omega : body.length ≤ bufferSize)
    rw [hsealed, hcrypt] at hloop
    dsimp only
    change ∃ decAead buffer, (if memCompareConstantTime
      (mac poly1305 receiver.receiveCipher _) _ ≠ 0
      then _ else _) = _ ∧ _
    rw [hpacket, htag, hmac, memCompareConstantTime_self, if_neg (not_not.mpr rfl),
      Nat.add_sub_cancel_left]
    refine ⟨_, _, rfl, ?_, ?_⟩
    · change (Client.decryptLoop bufferSize receiver.receiveCipher _ _ _).1.key = _
      rw [hloop]
      exact (congrArg ChaCha20.key hreset :)
    · change Mirror.read bufferSize
        (Client.decryptLoop bufferSize receiver.receiveCipher _ _ _).2 _ _ = _
      rw [hloop, Mirror.read_write _ (by omega) hsize]
      rw [Client.bytesAt] at hbytes
      rw [hbytes, List.take_left' h.length_size, List.append_assoc]
      congr 2
      rw [← List.append_assoc, List.drop_left'
        (by rw [List.length_append, h.length_size, h.length_sealed])]

variable {out : Outgoing} {size sealed tag more : List UInt8}

/-- The padding of a decrypted packet. -/
theorem packetPadding_eq (hsize : size.length = 4)
    (hbytes : receiver.bytesAt bufferSize receiver.bufferPos receiver.receivedSize =
      size ++ (out.body ++ more)) :
    receiver.packetPadding bufferSize = paddingSize out.message.length := by
  have hread := @Mirror.read_of_append _ _ _ _ _ size [byteAt out.body 0] _ hbytes
  rw [hsize] at hread
  have hbyte : receiver.bytesAt bufferSize (receiver.bufferPos + 4) 1 = [byteAt out.body 0] := hread
  rw [← out.byteAt_body, Client.packetPadding, hbyte]
  rfl

/-- The message of a decrypted packet. -/
theorem messageAt_eq (hsize : size.length = 4)
    (hbytes : receiver.bytesAt bufferSize receiver.bufferPos receiver.receivedSize =
      size ++ (out.body ++ more)) :
    receiver.messageAt bufferSize out.message.length = out.message := by
  have hsplit : size ++ (out.body ++ more) = size ++ [byteAt out.body 0] ++
      (out.message ++ (out.tail.toList.take (paddingSize out.message.length) ++ more)) := by
    rw [Outgoing.body, List.append_assoc, ← List.append_assoc out.message]
    rfl
  have hread := Mirror.read_of_append (hbytes.trans hsplit)
  rwa [List.length_append, hsize] at hread

/-- Only a cipher changes when a size is decrypted. -/
theorem decryptSize_fst (receiver : Client) (size : List UInt8) :
    ∃ decLen, (receiver.decryptSize size).1 = { receiver with decLen } ∧
      decLen.key = receiver.decLen.key ∧ decLen.blockCounter = receiver.decLen.blockCounter := by
  unfold Client.decryptSize
  split
  next => exact ⟨_, rfl, rfl, rfl⟩
  next => exact ⟨_, rfl, rfl, rfl⟩

/-- The size is read and decrypted when its four bytes are there. -/
theorem readSize_spec (h : Opens receiver size sealed tag out.body)
    (hfits : packetSize out.message.length ≤ maxPacketSize) (hreceived : 4 ≤ receiver.receivedSize)
    (hbytes : receiver.bytesAt bufferSize receiver.bufferPos 4 = size) :
    ∃ decLen, receiver.readSize bufferSize =
        ({ receiver with decLen, nextSize := out.body.length }, none) ∧
      decLen.key = receiver.decLen.key ∧ decLen.blockCounter = receiver.decLen.blockCounter := by
  obtain ⟨decLen, hfst, hkey, hcounter⟩ := decryptSize_fst receiver size
  have hdecrypt : receiver.decryptSize size = ({ receiver with decLen }, out.body.length) :=
    Prod.ext hfst h.size_eq
  have hmac : receiver.encryption.macSize ≤ 16 := by
    cases receiver.encryption <;> decide
  have hbody := out.four_add_length_body
  have hmod := packetSize_mod out.message.length
  refine ⟨decLen, ?_, hkey, hcounter⟩
  rw [Client.readSize, if_neg (by omega), hbytes, hdecrypt]
  -- A multiple of 64 that fits leaves room for the MAC.
  have hroom : ¬out.body.length > maxPacketSize - 4 - receiver.encryption.macSize := by
    unfold maxPacketSize at hfits ⊢
    omega
  dsimp only
  rw [if_neg hroom, if_neg (by omega)]

/-- What is known of a packet does not change when its size is read. -/
theorem Opens.readSize (h : Opens receiver size sealed tag out.body) {decLen : ChaCha20}
    (hkey : decLen.key = receiver.decLen.key)
    (hcounter : decLen.blockCounter = receiver.decLen.blockCounter)
    (nextSize : ℤ) : Opens { receiver with decLen, nextSize } size sealed tag out.body := by
  refine ⟨h.length_size, h.length_sealed, h.length_tag, ?_, h.none, h.tag_eq, h.crypt_eq⟩
  rw [← h.size_eq, Client.decryptSize, Client.decryptSize]
  dsimp only
  rw [ChaCha20.withNonce, ChaCha20.withNonce, hkey, hcounter]
  cases receiver.encryption <;> rfl

/-- A packet is left alone until it is complete. -/
theorem peekPacket_incomplete {n : ℕ} (hnext : receiver.nextSize = n)
    (hreceived : receiver.receivedSize < 4 + n + receiver.encryption.macSize)
    (poly1305 : Poly1305) :
    receiver.peekPacket bufferSize poly1305 = (receiver, 0) := by
  rw [Client.peekPacket, hnext, Int.toNat_natCast, if_pos hreceived]

/-- A complete packet is opened. -/
theorem peekPacket_complete (h : Opens receiver size sealed tag out.body) (hne : out.message ≠ [])
    (hnext : receiver.nextSize = out.body.length) (hsize : receiver.receivedSize ≤ bufferSize)
    (hbytes : receiver.bytesAt bufferSize receiver.bufferPos receiver.receivedSize =
      size ++ (sealed ++ (tag ++ more))) (poly1305 : Poly1305) :
    ∃ decAead buffer,
      receiver.peekPacket bufferSize poly1305 =
        ({ receiver with
          decAead, buffer, receiveSequenceNumber := receiver.receiveSequenceNumber + 1,
          nextSize := -out.body.length }, (out.message.length : ℤ)) ∧
      decAead.key = receiver.decAead.key ∧
      Mirror.read bufferSize buffer receiver.bufferPos receiver.receivedSize =
        size ++ (out.body ++ (tag ++ more)) := by
  obtain ⟨decAead, buffer, hdecrypt, hkey, hopened⟩ :=
    decrypt_spec h out.four_dvd_length_body hsize hbytes poly1305
  have hlength := congrArg List.length hbytes
  rw [Client.bytesAt, Mirror.length_read, List.length_append, List.length_append,
    List.length_append, h.length_size, h.length_sealed, h.length_tag] at hlength
  have hbody := out.length_body
  have hpositive := List.length_pos_of_ne_nil hne
  refine ⟨decAead, buffer, ?_, hkey, hopened⟩
  have hpadding := @packetPadding_eq
    { receiver with decAead, buffer } bufferSize out size _ h.length_size hopened
  rw [Client.peekPacket, hnext, Int.toNat_natCast, if_neg (by omega), hdecrypt]
  dsimp only
  rw [hpadding, hnext, if_neg (by omega)]
  congr 1
  omega

end Open

end Hc.Ssh
