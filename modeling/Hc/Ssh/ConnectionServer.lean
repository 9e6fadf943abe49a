import Hc.Crypto.Ed25519Signature
import Hc.Crypto.X25519Secret
import Hc.Ssh.ConnectionArrival
import Hc.Ssh.ConnectionStages

/-!
# The server that a connection succeeds with

A server that follows the protocol has the same session id and the same keys as the client, and what
it sends behind the SERVICE_ACCEPT message is delivered. Its identification has to arrive in one
piece, as the client hashes another one otherwise; everything behind it may arrive in any pieces.
-/

namespace Hc.Ssh

/-- A server that follows the protocol, with what it pads its packets with. Its identification can
be read, the client accepts its algorithms, and its signatures are verified. -/
structure Server where
  id : List UInt8
  init : KexInit
  hostKey : Bytes 32
  secret : Bytes 32
  sign : List UInt8 → Bytes 64
  tail : Bytes 83
  poly1305 : Poly1305
  starts : ascii "SSH-2.0-" <+: id
  length_id : id.length < 254
  no_cr : ∀ b ∈ id, b ≠ 13
  accepted : init.Accepted
  fits : packetSize init.bytes.length ≤ maxPacketSize
  verifies : ∀ hash, Ed25519.verify hash hostKey.toList (sign hash).toList = 0

theorem length_sha256 (bytes : List UInt8) : (Fips180.sha256 bytes).length = 32 := by
  have hfed := (fed_init ⟨0, default, default⟩).update bytes
  rw [List.nil_append] at hfed
  rw [← hfed.finish_eq, length_finish]

/-- The two keys that are derived for a letter. -/
def derivedPair (sharedSecret hash : List UInt8) (letter : UInt8) (sessionId : List UInt8) :
    Bytes 32 × Bytes 32 :=
  let first := Fips180.sha256 (sharedSecret ++ hash ++ [letter] ++ sessionId)
  (⟨first, length_sha256 _⟩, ⟨Fips180.sha256 (sharedSecret ++ hash ++ first), length_sha256 _⟩)

/-- The bytes of a derived key determine its two parts. -/
theorem eq_derivedPair {sharedSecret hash sessionId : List UInt8} {letter : UInt8}
    {aead len : Bytes 32}
    (h : aead.toList ++ len.toList = deriveKey sharedSecret hash letter sessionId) :
    (aead, len) = derivedPair sharedSecret hash letter sessionId := by
  obtain ⟨haead, hlen⟩ := List.append_inj h (by rw [List.Vector.toList_length, length_sha256])
  exact Prod.ext (List.Vector.toList_injective haead) (List.Vector.toList_injective hlen)

namespace Server

variable (server : Server)

/-! ## What the server computes -/

section Exchange

-- The KEXINIT message and the public key of the client.
variable (clientInit : List UInt8) (clientKey : Bytes 32)

/-- The shared secret, as the server encodes it. -/
def encodedSecret : List UInt8 := mpint (beNat (X25519.x25519 server.secret clientKey))

/-- The exchange, with a signature. -/
def exchange (signature : Bytes 64) : Exchange where
  clientId := helloIdentification
  serverId := server.id
  clientInit
  serverInit := server.init.bytes
  clientKey
  reply := ⟨server.hostKey, ecdhPublicKey server.secret, signature⟩

/-- The exchange hash. It does not depend on the signature. -/
def hash : List UInt8 :=
  (server.exchange clientInit clientKey (.replicate 64 0)).hash (server.encodedSecret clientKey)

/-- The KEX_ECDH_REPLY message. -/
def reply : EcdhReply where
  hostKey := server.hostKey
  publicKey := ecdhPublicKey server.secret
  signature := server.sign (server.hash clientInit clientKey)

/-- The keys from the client to the server are those of the letter C, and the other ones those of
the letter D. -/
def keys (letter : UInt8) : Bytes 32 × Bytes 32 :=
  derivedPair (server.encodedSecret clientKey) (server.hash clientInit clientKey) letter
    (server.hash clientInit clientKey)

/-- The server after three messages from each side, with these keys. -/
def sender : Client where
  buffer := fun _ => 0
  bufferPos := 0
  receivedSize := 0
  receiveSequenceNumber := 3
  sendSequenceNumber := 3
  encAead := ⟨(server.keys clientInit clientKey 68).1, 0, .replicate 8 0⟩
  encLen := ⟨(server.keys clientInit clientKey 68).2, 0, .replicate 8 0⟩
  decAead := ⟨(server.keys clientInit clientKey 67).1, 0, .replicate 8 0⟩
  decLen := ⟨(server.keys clientInit clientKey 67).2, 0, .replicate 8 0⟩
  encryption := .chacha20Poly1305
  nextSize := 0

end Exchange

/-! ## What the server sends -/

/-- A message with the padding of the server. -/
def padded (message : List UInt8) : Outgoing := ⟨message, server.tail, server.poly1305⟩

/-- A packet that is not encrypted. -/
def plain (out : Outgoing) : List UInt8 := beBytes 4 out.body.length ++ out.body

theorem serviceAccept_spec : serviceAccept ≠ [] ∧
    packetSize serviceAccept.length ≤ maxPacketSize := by decide

/-- The KEXINIT message. -/
def initMessage : Message where
  toOutgoing := server.padded server.init.bytes
  ne_nil := List.cons_ne_nil _ _
  fits := server.fits

/-- The KEX_ECDH_REPLY message. -/
def replyMessage (clientInit : List UInt8) (clientKey : Bytes 32) : Message where
  toOutgoing := server.padded (server.reply clientInit clientKey).bytes
  ne_nil := List.cons_ne_nil _ _
  fits := by
    rw [padded, EcdhReply.length_bytes]
    decide

/-- The NEWKEYS message. -/
def newKeysMessage : Message where
  toOutgoing := server.padded [msgNewKeys]
  ne_nil := List.cons_ne_nil _ _
  fits := le_of_eq_of_le rfl (by decide : packetSize [msgNewKeys].length ≤ maxPacketSize)

/-- The SERVICE_ACCEPT message. -/
def accept : Message where
  toOutgoing := server.padded serviceAccept
  ne_nil := serviceAccept_spec.1
  fits := serviceAccept_spec.2

/-- Everything behind the identification, with messages that follow. -/
def packets (clientInit : List UInt8) (clientKey : Bytes 32) (messages : List Message) :
    List UInt8 :=
  plain server.initMessage.toOutgoing ++
    (plain (server.replyMessage clientInit clientKey).toOutgoing ++
      (plain server.newKeysMessage.toOutgoing ++
        (server.sender clientInit clientKey).sendAll (server.accept :: messages)))

end Server

/-! ## The client -/

/-- What is known of a connection, with the numbers of the messages that were received and sent and
the bytes that are incoming. -/
structure Progress (bufferSize : ℕ) (k : Known) (received sent : BitVec 32) (bytes : List UInt8)
    (s : Connection) : Prop where
  knows : s.Knows k
  rests : s.client.Rests bufferSize s.stream bytes
  enough : Enough s.stream s.limits
  received_eq : s.client.receiveSequenceNumber = received
  sent_eq : s.client.sendSequenceNumber = sent
  encLen_counter : s.client.encLen.blockCounter = 0
  decLen_counter : s.client.decLen.blockCounter = 0

/-- The hashes stay as they are. -/
def SameHashes (before after : Connection) : Prop :=
  after.partialExchangeHash = before.partialExchangeHash ∧ after.tempHash = before.tempHash

section Runs

variable {bufferSize : ℕ} {env : Environment} {k : Known} {received sent : BitVec 32}
  {bytes : List UInt8} {s : Connection}

/-- A message is sent. -/
theorem Progress.sendMessage (h : Progress bufferSize k received sent bytes s)
    (hsendto : ∀ n packet, env.sendto n packet = packet.length) (message : List UInt8)
    (status : ℤ) :
    ∃ after, (Ssh.sendMessage env message status).run s = .ok () after ∧ SameHashes s after ∧
      Progress bufferSize (k.send message) received (sent + 1) bytes after := by
  obtain ⟨out, hout⟩ : ∃ out : Outgoing,
    out = ⟨message, env.tail s.sent.length, env.poly1305 s.sent.length⟩ := ⟨_, rfl⟩
  obtain ⟨encAead, encLen, hclient, -, -, hcounter⟩ := sealMessage_fst s.client out
  have hsend : s.client.sendMessage out (env.sendto s.sent.length) =
      ({ s.client with encAead, encLen, sendSequenceNumber := s.client.sendSequenceNumber + 1 },
        0) := by
    obtain ⟨packet, hsealed⟩ : ∃ packet, s.client.sealMessage out =
      ({ s.client with encAead, encLen }, packet) := ⟨_, Prod.ext hclient rfl⟩
    rw [Client.sendMessage, hsealed]
    exact if_neg (not_not.mpr (hsendto _ _))
  have hknows := h.knows.sendMessage out (env.sendto s.sent.length) message
  rw [hsend] at hknows
  refine ⟨_, ?_, ?_, hknows, ?_, h.enough, ?_, ?_, ?_, ?_⟩
  · simp [Ssh.sendMessage, ← hout, hsend]
  · exact ⟨rfl, rfl⟩
  · exact ⟨⟨h.rests.bufferPos_lt, h.rests.four_dvd_bufferPos, h.rests.receivedSize_le⟩,
      h.rests.nextSize_eq, h.rests.incoming_eq⟩
  · exact h.received_eq
  · exact congrArg (· + 1) h.sent_eq
  · exact hcounter.trans h.encLen_counter
  · exact h.decLen_counter

/-- A message is received. -/
theorem Progress.waitForMessage (env : Environment) {message : Message} {packet more : List UInt8}
    (h : Progress bufferSize k received sent (packet ++ more) s) (hfour : 4 ∣ bufferSize)
    (hbuffer : maxPacketSize ≤ bufferSize)
    (hpacket : ∃ size sealed tag, Opens s.client size sealed tag message.body ∧
      packet = size ++ (sealed ++ tag)) :
    ∃ after, (Ssh.waitForMessage bufferSize env).run s =
        .ok ((message.message.length : ℤ), message.message) after ∧ SameHashes s after ∧
      Progress bufferSize (k.receive message.message) (received + 1) sent more after := by
  have hpositive := List.length_pos_of_ne_nil message.ne_nil
  have hexpects : s.client.Expects bufferSize s.stream message more := by
    obtain ⟨size, sealed, tag, hopens, rfl⟩ := hpacket
    refine ⟨h.rests.toPlaced, ⟨size, sealed, tag, hopens, ?_⟩, .inl h.rests.nextSize_eq⟩
    rw [h.rests.incoming_eq, List.append_assoc, List.append_assoc]
  obtain ⟨client, stream, limits, hloop, hreceives, hsequence, hrests, henough⟩ :=
    waitLoop_delivers hfour hbuffer env.poly1305 h.enough hexpects
  obtain ⟨hknown, -⟩ := h.knows
  refine ⟨{ s with
    client, stream, limits
    received := s.received ++ [(s.client.encryption, message.message)] }, ?_, ⟨rfl, rfl⟩,
    ⟨?_, ?_⟩, hrests, henough, ?_, ?_, ?_, ?_⟩
  · simp [Ssh.waitForMessage, hloop, message.ne_nil]
  · rw [← hknown]
    exact congrArg (fun known : Known => { known with
      received := s.received ++ [(s.client.encryption, message.message)] })
        (Connection.known_of_sameKeys hreceives.sameKeys)
  · rw [Client.Bounded, hrests.nextSize_eq]
    exact Nat.zero_le _
  · rw [← h.received_eq, ← hsequence]
  · rw [← h.sent_eq, ← hreceives.sendSequenceNumber_eq]
  · rw [← h.encLen_counter, ← hreceives.encLen_eq]
  · rw [← h.decLen_counter, ← hreceives.counter_eq]

/-- Hashes make no difference. -/
theorem Progress.withHashes (h : Progress bufferSize k received sent bytes s)
    (partialExchangeHash tempHash : Sha256) :
    Progress bufferSize k received sent bytes { s with partialExchangeHash, tempHash } :=
  ⟨⟨h.knows.known_eq, h.knows.bounded⟩, h.rests, h.enough, h.received_eq, h.sent_eq,
    h.encLen_counter, h.decLen_counter⟩

/-- A packet that is not encrypted is opened, whatever the keys are. -/
theorem Progress.opens_plain (h : Progress bufferSize k received sent bytes s)
    (hmode : k.encryption = .none) (message : Message) :
    ∃ size sealed tag, Opens s.client size sealed tag message.body ∧
      Server.plain message.toOutgoing = size ++ (sealed ++ tag) := by
  have hencryption : s.client.encryption = .none :=
    (congrArg Known.encryption h.knows.known_eq).trans hmode
  obtain ⟨sender, hsender⟩ : ∃ sender : Client, sender = { s.client with
    encAead := s.client.decAead
    encLen := s.client.decLen
    sendSequenceNumber := s.client.receiveSequenceNumber } := ⟨_, rfl⟩
  have hmatches : Matches sender s.client := by
    rw [hsender]
    exact ⟨rfl, rfl, rfl, h.decLen_counter, h.decLen_counter⟩
  obtain ⟨size, sealed, tag, hpacket, hopens⟩ :=
    sealMessage_opens message.toOutgoing hmatches (by rw [hsender]) message.fits
  rw [sealMessage_none _ (hmatches.encryption_eq.symm.trans hencryption)] at hpacket
  exact ⟨size, sealed, tag, hopens, hpacket⟩

end Runs

/-! ## The identification -/

/-- What a client needs of a server and of its environment: the whole identification is delivered by
the first call of `recvfrom`, and `bytes` behind it. -/
structure Serves (server : Server) (bufferSize : ℕ) (env : Environment) (bytes : List UInt8) :
    Prop where
  connect_nonneg : 0 ≤ env.connect
  helloSent_eq : env.helloSent = helloIdentification.length + 2
  sendto_eq : ∀ n packet, env.sendto n packet = packet.length
  segments : ∃ data rest, env.segments = (server.id ++ ([13, 10] ++ data)) :: rest ∧
    (server.id ++ ([13, 10] ++ data)).length ≤ bufferSize ∧ data ++ rest.flatten = bytes
  enough : Enough bytes env.limits

theorem Server.isLine (server : Server) (data : List UInt8) :
    IsLine (server.id ++ ([13, 10] ++ data)) server.id.length := by
  have hlength := server.length_id
  have hlong : 8 ≤ server.id.length := server.starts.length_le
  refine ⟨⟨?_, ?_, fun j hj => ?_⟩, ?_, hlong, ?_⟩
  · simp only [List.length_append, List.length_cons, List.length_nil]
    omega
  · rw [byteAt_append_right _ le_rfl, Nat.sub_self]
    rfl
  · rw [byteAt_append_left _ hj, byteAt, List.getD_eq_getElem _ _ hj]
    exact server.no_cr _ (List.getElem_mem hj)
  · rw [byteAt_append_right _ (Nat.le_add_right _ 1), Nat.add_sub_cancel_left]
    rfl
  · obtain ⟨rest, hrest⟩ := server.starts
    rw [List.take_append_of_le_length hlong, ← hrest]
    exact List.take_left' rfl

section Steps

variable {server : Server} {bufferSize : ℕ} {env : Environment} {bytes : List UInt8}

/-- What is behind the identification rests in the buffer and in the stream. -/
theorem Serves.doHello (h : Serves server bufferSize env bytes)
    (hbuffer : maxPacketSize ≤ bufferSize) :
    ∃ accepted, Ssh.doHello bufferSize env.segments = .ok accepted ∧
      accepted.hashed = counted 4 server.id ∧
      accepted.bufferPos < bufferSize ∧ 4 ∣ accepted.bufferPos ∧
      accepted.receivedSize ≤ bufferSize ∧
      accepted.buffered bufferSize ++ accepted.rest.flatten = bytes := by
  obtain ⟨data, rest, hsegments, hfits, rfl⟩ := h.segments
  have hline := server.isLine data
  rw [hsegments]
  rcases @doHello_cons bufferSize (server.id ++ ([13, 10] ++ data)) rest (by simp) hfits with
    ⟨i, hi, hanswers⟩ | ⟨hnone, -⟩
  · obtain rfl := hi.unique hline.1
    obtain ⟨accepted, hok, hhashed, hbuffered, hrest⟩ := hanswers.1 hline
    obtain ⟨hfour, hpos⟩ := helloLoop_aligned bufferSize _ _ 0 0 accepted hok
    have hdata : accepted.buffered bufferSize = data := by
      rw [hbuffered, ← List.drop_drop, List.drop_left]
      rfl
    have hreceived : accepted.receivedSize = data.length := by
      rw [← hdata, Accepted.buffered, Mirror.length_read]
    rw [List.length_append, List.length_append] at hfits
    refine ⟨accepted, hok, ?_, ?_, hfour, ?_, ?_⟩
    · rw [hhashed, List.take_left, counted]
    · unfold maxPacketSize at hbuffer
      omega
    · omega
    · rw [hdata, hrest]
  · exact absurd hline.1 (hnone _)

/-- The identifications are exchanged and hashed. -/
theorem Serves.helloServer (h : Serves server bufferSize env bytes)
    (hbuffer : maxPacketSize ≤ bufferSize) {k : Known} {s : Connection} (hknows : s.Knows k)
    (hnext : s.client.nextSize = 0) (hreceived : s.client.receiveSequenceNumber = 0)
    (hsent : s.client.sendSequenceNumber = 0) (hencLen : s.client.encLen.blockCounter = 0)
    (hdecLen : s.client.decLen.blockCounter = 0) :
    ∃ after, (Ssh.helloServer bufferSize env).run s = .ok () after ∧
      Fed after.partialExchangeHash (counted 4 helloIdentification ++ counted 4 server.id) ∧
      Progress bufferSize k 0 0 bytes after := by
  obtain ⟨accepted, hok, hhashed, hpos, hfour, hsize, hincoming⟩ := h.doHello hbuffer
  have hfed := fed_identifications s.partialExchangeHash hhashed
  have hhello := h.helloSent_eq
  have henough : Enough accepted.rest.flatten env.limits := by
    refine ⟨h.enough.pos, le_trans ?_ h.enough.length_le⟩
    rw [← hincoming, List.length_append]
    exact Nat.le_add_left _ _
  refine ⟨{ s with
    client := { s.client with
      buffer := accepted.buffer
      bufferPos := accepted.bufferPos
      receivedSize := accepted.receivedSize }
    partialExchangeHash :=
      ((s.partialExchangeHash.init.update (counted 4 helloIdentification)).update
        (accepted.hashed.take 4)).update (accepted.hashed.drop 4)
    stream := accepted.rest.flatten
    limits := env.limits }, ?_, hfed, ⟨hknows.known_eq, hknows.bounded⟩,
    ⟨⟨hpos, hfour, hsize⟩, hnext, hincoming⟩, henough, hreceived, hsent, hencLen, hdecLen⟩
  simp [Ssh.helloServer, hhello, hok]

variable {k : Known} {received sent : BitVec 32} {more : List UInt8} {s : Connection}

/-- The KEXINIT message is hashed and sent. -/
theorem Serves.sendKeyExchangeInit (h : Serves server bufferSize env bytes) {cookie : Bytes 16}
    (hcookie : env.cookie = some cookie) (hprogress : Progress bufferSize k received sent more s)
    {hashed : List UInt8} (hfed : Fed s.partialExchangeHash hashed) :
    ∃ after, (Ssh.sendKeyExchangeInit env).run s = .ok () after ∧
      Fed after.tempHash (hashed ++ counted 4 (keyExchangeInit cookie).bytes) ∧
      Progress bufferSize (k.send (keyExchangeInit cookie).bytes) received (sent + 1) more
        after := by
  have hhashed := hprogress.withHashes s.partialExchangeHash
    (updateCounted s.partialExchangeHash (keyExchangeInit cookie).bytes)
  obtain ⟨after, hrun, ⟨-, htempHash⟩, hafter⟩ :=
    hhashed.sendMessage h.sendto_eq (keyExchangeInit cookie).bytes (-2)
  refine ⟨after, ?_, ?_, hafter⟩
  · simp [Ssh.sendKeyExchangeInit, hcookie, hrun]
  · rw [htempHash]
    exact hfed.updateCounted _

/-- The shared secret is the one of the server, and is hashed as the server hashes it. -/
theorem Server.flatten_sharedSecret (server : Server) (env : Environment) (secret : Bytes 32) :
    (sharedSecretUpdates
      (sharedSecretMemory env secret (ecdhPublicKey server.secret))).flatten =
        server.encodedSecret (ecdhPublicKey secret) := by
  have hshared : X25519.x25519 secret (ecdhPublicKey server.secret) =
      X25519.x25519 server.secret (ecdhPublicKey secret) := X25519.x25519_comm secret server.secret
  have hne : ∃ b ∈ X25519.x25519 secret (ecdhPublicKey server.secret), b ≠ 0 :=
    X25519.sharedSecret_ne_zero secret server.secret
  rw [flatten_sharedSecretMemory env hne, hshared, encodedSecret]

/-- The client computes the exchange hash of the server. -/
theorem Server.finish_exchangeHash (server : Server) (env : Environment) {cookie : Bytes 16}
    (secret : Bytes 32) {tempHash : Sha256}
    (hfed : Fed tempHash (hashedBefore cookie server.id ++ counted 4 server.init.bytes)) :
    (updateExchangeHash tempHash (ecdhPublicKey secret)
      (server.reply (keyExchangeInit cookie).bytes (ecdhPublicKey secret)).bytes
      (sharedSecretMemory env secret (ecdhPublicKey server.secret))).finish =
        server.hash (keyExchangeInit cookie).bytes (ecdhPublicKey secret) := by
  rw [(hfed.updateExchangeHash _ _ _).finish_eq, server.flatten_sharedSecret]
  simp only [Server.hash, Exchange.hash, Exchange.hashed, Server.exchange, Server.reply,
    EcdhReply.hostKeyBlob, hashedBefore]

/-- The signature of the server is verified. -/
theorem Serves.exchangeEcdh (h : Serves server bufferSize env bytes) (hfour : 4 ∣ bufferSize)
    (hbuffer : maxPacketSize ≤ bufferSize) {cookie : Bytes 16} {secret : Bytes 32}
    (hsecret : env.secret = some secret)
    (hprogress : Progress bufferSize k received sent (Server.plain (server.replyMessage
      (keyExchangeInit cookie).bytes (ecdhPublicKey secret)).toOutgoing ++ more) s)
    (hmode : k.encryption = .none)
    (hfed : Fed s.tempHash (hashedBefore cookie server.id ++ counted 4 server.init.bytes)) :
    ∃ after, (Ssh.exchangeEcdh bufferSize env).run s =
        .ok (sharedSecretMemory env secret (ecdhPublicKey server.secret),
          server.hash (keyExchangeInit cookie).bytes (ecdhPublicKey secret)) after ∧
      Progress bufferSize ((k.send (ecdhInit secret)).receive (server.reply
        (keyExchangeInit cookie).bytes (ecdhPublicKey secret)).bytes) (received + 1) (sent + 1)
        more after := by
  have hfinish := server.finish_exchangeHash env secret hfed
  obtain ⟨reply, hreply⟩ : ∃ reply, reply =
    server.reply (keyExchangeInit cookie).bytes (ecdhPublicKey secret) := ⟨_, rfl⟩
  obtain ⟨hash, hhash⟩ : ∃ hash, hash =
    server.hash (keyExchangeInit cookie).bytes (ecdhPublicKey secret) := ⟨_, rfl⟩
  have hverified := server.verifies hash
  have hsignature : reply.signature = server.sign hash := by rw [hreply, hhash]; rfl
  have hhostKey : reply.hostKey = server.hostKey := by rw [hreply]; rfl
  have hpublicKey : reply.publicKey = ecdhPublicKey server.secret := by rw [hreply]; rfl
  rw [← hsignature, ← hhostKey] at hverified
  obtain ⟨message, hmessage, hbytes⟩ : ∃ message : Message, message =
      server.replyMessage (keyExchangeInit cookie).bytes (ecdhPublicKey secret) ∧
      message.message = reply.bytes := ⟨_, rfl, by rw [hreply]; rfl⟩
  rw [← hmessage] at hprogress
  rw [← hreply, ← hhash] at hfinish ⊢
  obtain ⟨sentTo, hsend, ⟨-, hsentHash⟩, hsent⟩ :=
    hprogress.sendMessage h.sendto_eq (ecdhInit secret) (-13)
  obtain ⟨after, hwait, ⟨-, hafterHash⟩, hafter⟩ :=
    hsent.waitForMessage env hfour hbuffer (hsent.opens_plain hmode message)
  obtain ⟨hload, haccepted⟩ := reply.load_bytes
  rw [hbytes] at hwait hafter
  rw [reply.length_bytes] at hwait
  rw [← hsentHash, ← hafterHash] at hfinish
  refine ⟨_, ?_, hafter.withHashes after.partialExchangeHash
    (updateExchangeHash after.tempHash (ecdhPublicKey secret) reply.bytes
      (sharedSecretMemory env secret (ecdhPublicKey server.secret)))⟩
  rw [ecdhInit] at hsend
  have hsize : ¬ ((179 : ℕ) : ℤ) ≠ 179 := by decide
  have hverified' : ¬ Ed25519.verify hash reply.hostKey.toList reply.signature.toList ≠ 0 :=
    not_not.mpr hverified
  unfold Ssh.exchangeEcdh
  simp -implicitDefEqProofs only [hsecret, EStateM.run_bind, hsend, hwait, if_neg hsize,
    if_neg haccepted, hload, hpublicKey, EStateM.run_modify, EStateM.run_get, hfinish,
    if_neg hverified', EStateM.run_pure]

theorem Progress.newKeys (h : Progress bufferSize k received sent bytes s) (tempHash : Sha256)
    (keys : Fin 4 → Bytes 32) :
    Progress bufferSize { k with encryption := .chacha20Poly1305, keys } received sent bytes
      { s with tempHash, client := s.client.newKeys keys } :=
  ⟨h.knows.newKeys tempHash keys,
    ⟨⟨h.rests.bufferPos_lt, h.rests.four_dvd_bufferPos, h.rests.receivedSize_le⟩,
      h.rests.nextSize_eq, h.rests.incoming_eq⟩,
    h.enough, h.received_eq, h.sent_eq, h.encLen_counter, h.decLen_counter⟩

theorem Progress.setSessionId (h : Progress bufferSize k received sent bytes s)
    (sessionId : List UInt8) :
    Progress bufferSize { k with sessionId } received sent bytes { s with sessionId } := by
  obtain ⟨rfl, hbounded⟩ := h.knows
  exact ⟨⟨rfl, hbounded⟩, h.rests, h.enough, h.received_eq, h.sent_eq, h.encLen_counter,
    h.decLen_counter⟩

/-- The keys are derived from the exchange. -/
theorem Serves.changeKeys (h : Serves server bufferSize env bytes) (hfour : 4 ∣ bufferSize)
    (hbuffer : maxPacketSize ≤ bufferSize)
    (hprogress : Progress bufferSize k received sent
      (Server.plain server.newKeysMessage.toOutgoing ++ more) s) (hmode : k.encryption = .none)
    (sharedSecret : ℕ → UInt8) (exchangeHash : List UInt8) :
    ∃ after keys, (Ssh.changeKeys bufferSize env sharedSecret exchangeHash).run s =
        .ok () after ∧
      DerivedKeys (sharedSecretUpdates sharedSecret).flatten exchangeHash k.sessionId keys ∧
      Progress bufferSize { (k.send [msgNewKeys]).receive [msgNewKeys] with
        encryption := .chacha20Poly1305, keys } (received + 1) (sent + 1) more after := by
  obtain ⟨sentTo, hsend, -, hsent⟩ := hprogress.sendMessage h.sendto_eq [msgNewKeys] (-17)
  obtain ⟨after, hwait, -, hafter⟩ :=
    hsent.waitForMessage env hfour hbuffer (hsent.opens_plain hmode server.newKeysMessage)
  have hmessage : server.newKeysMessage.message = [msgNewKeys] := rfl
  rw [hmessage] at hwait hafter
  have hsession : after.sessionId = k.sessionId :=
    congrArg Known.sessionId hafter.knows.known_eq
  have hderived := deriveCiphers_derived after.tempHash sharedSecret exchangeHash after.sessionId
  rw [hsession] at hderived
  refine ⟨_, _, ?_, hderived, hafter.newKeys
    (deriveCiphers after.tempHash sharedSecret exchangeHash k.sessionId).1
    (deriveCiphers after.tempHash sharedSecret exchangeHash k.sessionId).2⟩
  have hsize : ¬ (([msgNewKeys].length : ℕ) : ℤ) ≠ 1 := by decide
  have hopcode : ¬ byteAt [msgNewKeys] 0 ≠ msgNewKeys := by decide
  unfold Ssh.changeKeys
  simp -implicitDefEqProofs only [EStateM.run_bind, hsend, hwait, if_neg hsize, if_neg hopcode,
    deriveKeys, EStateM.run_modify, hsession]

/-- The keys of the server are those of the client. -/
theorem DerivedKeys.keys_eq {clientInit : List UInt8} {clientKey : Bytes 32}
    {keys : Fin 4 → Bytes 32} (h : DerivedKeys (server.encodedSecret clientKey)
      (server.hash clientInit clientKey) (server.hash clientInit clientKey) keys) :
    (keys 0, keys 1) = server.keys clientInit clientKey 67 ∧
      (keys 2, keys 3) = server.keys clientInit clientKey 68 :=
  ⟨eq_derivedPair h.client, eq_derivedPair h.server⟩

/-- The exchange succeeds, with the session id and the keys of the server. -/
theorem Serves.doKeyExchange (h : Serves server bufferSize env bytes) (hfour : 4 ∣ bufferSize)
    (hbuffer : maxPacketSize ≤ bufferSize) {cookie : Bytes 16} {secret : Bytes 32}
    (hsecret : env.secret = some secret)
    (hprogress : Progress bufferSize k received sent
      (Server.plain (server.replyMessage (keyExchangeInit cookie).bytes
        (ecdhPublicKey secret)).toOutgoing ++
          (Server.plain server.newKeysMessage.toOutgoing ++ more)) s)
    (hmode : k.encryption = .none)
    (hfed : Fed s.tempHash (hashedBefore cookie server.id)) :
    ∃ after k', (Ssh.doKeyExchange bufferSize env server.init.bytes).run s = .ok () after ∧
      k'.encryption = .chacha20Poly1305 ∧
      k'.sessionId = server.hash (keyExchangeInit cookie).bytes (ecdhPublicKey secret) ∧
      DerivedKeys (server.encodedSecret (ecdhPublicKey secret))
        (server.hash (keyExchangeInit cookie).bytes (ecdhPublicKey secret))
        (server.hash (keyExchangeInit cookie).bytes (ecdhPublicKey secret)) k'.keys ∧
      Progress bufferSize k' (received + 1 + 1) (sent + 1 + 1) more after := by
  have hsize : server.init.bytes.length < 2 ^ 31 := by
    have hfits := server.fits
    unfold packetSize maxPacketSize at hfits
    omega
  have hchecked : (checkServerInit server.init.bytes).run s = .ok () s := by
    rw [checkServerInit, parseServerInit_of_accepted _ hsize server.accepted]
    rfl
  obtain ⟨exchanged, hexchange, hexchanged⟩ := h.exchangeEcdh hfour hbuffer hsecret
    (hprogress.withHashes s.partialExchangeHash (updateCounted s.tempHash server.init.bytes))
    hmode (hfed.updateCounted server.init.bytes)
  obtain ⟨changed, keys, hchange, hkeys, hprogress⟩ := h.changeKeys hfour hbuffer
    (hexchanged.setSessionId (server.hash (keyExchangeInit cookie).bytes (ecdhPublicKey secret)))
    hmode (sharedSecretMemory env secret (ecdhPublicKey server.secret))
    (server.hash (keyExchangeInit cookie).bytes (ecdhPublicKey secret))
  rw [server.flatten_sharedSecret] at hkeys
  refine ⟨changed, _, ?_, rfl, rfl, hkeys, hprogress⟩
  have hnone : exchanged.client.encryption = .none :=
    (congrArg Known.encryption hexchanged.knows.known_eq).trans hmode
  unfold Ssh.doKeyExchange setSessionId
  simp -implicitDefEqProofs only [EStateM.run_bind, hchecked, EStateM.run_modify, hexchange,
    if_pos hnone, hchange]

/-- Behind the exchange, the server and the client have the same keys. -/
theorem Progress.matches_sender (h : Progress bufferSize k received sent bytes s)
    (hmode : k.encryption = .chacha20Poly1305) {clientInit : List UInt8} {clientKey : Bytes 32}
    (hkeys : DerivedKeys (server.encodedSecret clientKey) (server.hash clientInit clientKey)
      (server.hash clientInit clientKey) k.keys) :
    Matches (server.sender clientInit clientKey) s.client ∧
      Matches s.client (server.sender clientInit clientKey) := by
  obtain ⟨hclient, hserver⟩ := hkeys.keys_eq
  obtain ⟨hencAead, hencLen⟩ := Prod.ext_iff.mp hclient
  obtain ⟨hdecAead, hdecLen⟩ := Prod.ext_iff.mp hserver
  have hknown := h.knows.known_eq
  have hencryption : s.client.encryption = .chacha20Poly1305 :=
    (congrArg Known.encryption hknown).trans hmode
  have hkey (i : Fin 4) : s.known.keys i = k.keys i := congrFun (congrArg Known.keys hknown) i
  exact ⟨⟨hencryption, (hkey 2).trans hdecAead, (hkey 3).trans hdecLen, rfl, h.decLen_counter⟩,
    ⟨hencryption.symm, hencAead.symm.trans (hkey 0).symm, hencLen.symm.trans (hkey 1).symm,
      h.encLen_counter, rfl⟩⟩

/-- The service is accepted. -/
theorem Serves.doServiceRequest (h : Serves server bufferSize env bytes) (hfour : 4 ∣ bufferSize)
    (hbuffer : maxPacketSize ≤ bufferSize) {clientInit : List UInt8} {clientKey : Bytes 32}
    (hprogress : Progress bufferSize k 3 sent
      (((server.sender clientInit clientKey).sealMessage server.accept.toOutgoing).2 ++ more) s)
    (hmode : k.encryption = .chacha20Poly1305)
    (hkeys : DerivedKeys (server.encodedSecret clientKey) (server.hash clientInit clientKey)
      (server.hash clientInit clientKey) k.keys) :
    ∃ after, (Ssh.doServiceRequest bufferSize env).run s = .ok () after ∧
      Progress bufferSize ((k.send serviceRequest).receive serviceAccept) 4 (sent + 1) more
        after := by
  obtain ⟨sentTo, hsend, -, hsent⟩ := hprogress.sendMessage h.sendto_eq serviceRequest (-1)
  obtain ⟨size, sealed, tag, hpacket, hopens⟩ := sealMessage_opens server.accept.toOutgoing
    (hsent.matches_sender hmode hkeys).1 hsent.received_eq server.accept.fits
  obtain ⟨after, hwait, -, hafter⟩ :=
    hsent.waitForMessage env hfour hbuffer ⟨size, sealed, tag, hopens, hpacket⟩
  have hmessage : server.accept.message = serviceAccept := rfl
  rw [hmessage] at hwait hafter
  refine ⟨after, ?_, hafter⟩
  have hsize : ¬ ((serviceAccept.length : ℕ) : ℤ) ≠ 17 := by decide
  have haccepted : ¬ serviceRefused serviceAccept := by decide
  rw [serviceRequest] at hsend
  unfold Ssh.doServiceRequest
  simp -implicitDefEqProofs only [EStateM.run_bind, hsend, hwait, if_neg hsize, if_neg haccepted,
    EStateM.run_pure]

/-- What is behind the packet of a message is what the sender sends next. -/
theorem Client.sendAll_cons (sender : Client) (message : Message) (more : List Message) :
    sender.sendAll (message :: more) =
      (sender.sealMessage message.toOutgoing).2 ++ (sender.sent message).sendAll more := rfl

/-- `client_connect` succeeds, with the session id and the keys of the server, and the messages that
the server sends behind are incoming. -/
theorem Serves.connect {cookie : Bytes 16} {secret : Bytes 32} {messages : List Message}
    (h : Serves server bufferSize env
      (server.packets (keyExchangeInit cookie).bytes (ecdhPublicKey secret) messages))
    (hfour : 4 ∣ bufferSize) (hbuffer : maxPacketSize ≤ bufferSize)
    (hcookie : env.cookie = some cookie) (hsecret : env.secret = some secret) {start : Connection}
    (hencLen : start.client.encLen.blockCounter = 0)
    (hdecLen : start.client.decLen.blockCounter = 0) :
    ∃ after k, (Ssh.connect bufferSize env).run start = .ok () after ∧
      k.encryption = .chacha20Poly1305 ∧
      k.sessionId = server.hash (keyExchangeInit cookie).bytes (ecdhPublicKey secret) ∧
      DerivedKeys (server.encodedSecret (ecdhPublicKey secret))
        (server.hash (keyExchangeInit cookie).bytes (ecdhPublicKey secret))
        (server.hash (keyExchangeInit cookie).bytes (ecdhPublicKey secret)) k.keys ∧
      Progress bufferSize k 4 4
        (((server.sender (keyExchangeInit cookie).bytes (ecdhPublicKey secret)).sent
          server.accept).sendAll messages) after := by
  obtain ⟨begun, hbegun⟩ : ∃ begun : Connection,
    begun = { start with client := start.client.reset } := ⟨_, rfl⟩
  have hknows : begun.Knows begun.known := ⟨rfl, by rw [hbegun]; exact Nat.zero_le _⟩
  obtain ⟨hello, hhello, hfed, hprogress⟩ := h.helloServer hbuffer hknows (by rw [hbegun]; rfl)
    (by rw [hbegun]; rfl) (by rw [hbegun]; rfl) (by rw [hbegun]; exact hencLen)
    (by rw [hbegun]; exact hdecLen)
  obtain ⟨sentTo, hsend, hfed, hprogress⟩ := h.sendKeyExchangeInit hcookie hprogress hfed
  have hmode : (begun.known.send (keyExchangeInit cookie).bytes).encryption = .none := by
    rw [hbegun]
    rfl
  rw [Server.packets] at hprogress
  obtain ⟨waited, hwait, ⟨-, htempHash⟩, hprogress⟩ := hprogress.waitForMessage env hfour hbuffer
    (hprogress.opens_plain hmode server.initMessage)
  rw [← htempHash] at hfed
  obtain ⟨exchanged, k, hexchange, hchacha, hsession, hkeys, hprogress⟩ :=
    h.doKeyExchange hfour hbuffer hsecret hprogress hmode hfed
  rw [Client.sendAll_cons] at hprogress
  obtain ⟨after, hservice, hprogress⟩ :=
    h.doServiceRequest hfour hbuffer hprogress hchacha hkeys
  refine ⟨after, (k.send serviceRequest).receive serviceAccept, ?_, hchacha, hsession, hkeys,
    hprogress⟩
  have hconnect : ¬ env.connect < 0 := not_lt.mpr h.connect_nonneg
  have hsize : ¬ ((server.initMessage.message.length : ℕ) : ℤ) ≤ 0 := by
    have hpositive := List.length_pos_of_ne_nil server.initMessage.ne_nil
    omega
  have hmessage : server.initMessage.message = server.init.bytes := rfl
  rw [hmessage] at hwait hsize
  unfold Ssh.connect orReturn
  simp -implicitDefEqProofs only [EStateM.run_bind, EStateM.run_modify, ← hbegun, if_neg hconnect,
    EStateM.run_adaptExcept, hhello, hsend, hwait, if_neg hsize, hexchange, hservice]

end Steps

/-- Every run from a session that keeps the invariant delivers the messages. -/
theorem Session.Invariant.delivers {k : ℕ} (hk : 2 ≤ k) {s : Session} {messages : List Message}
    (h : s.Invariant (initBufferSize (2 ^ k)) messages [] messages) (events : List Event) :
    Runs.Throughout (Session.step (initBufferSize (2 ^ k)))
      (fun s => s.Delivers (initBufferSize (2 ^ k)) messages) s events := by
  have hfour : 4 ∣ initBufferSize (2 ^ k) := (Nat.pow_dvd_pow 2 hk).trans (dvd_alignForward _ _)
  have hbuffer : maxPacketSize ≤ initBufferSize (2 ^ k) := le_alignForward (Nat.two_pow_pos k)
  have hinvariant : Runs.Throughout (Session.step (initBufferSize (2 ^ k)))
      (fun s => ∃ done rest, s.Invariant (initBufferSize (2 ^ k)) messages done rest) s events := by
    refine Runs.Throughout.of_everyStep (C := fun _ _ => True) ⟨[], messages, h⟩ ?_
      fun _ _ _ _ => trivial
    rintro s event ⟨done, rest, h⟩ -
    exact Session.invariant_step hfour h event
  intro before after hevents
  obtain ⟨done, rest, h⟩ := hinvariant before after hevents
  exact ⟨h.bufferPos_lt, h.four_dvd_bufferPos, h.receivedSize_le, done, rest, h.messages_eq,
    Session.delivered_of_invariant hbuffer h⟩

/-- A connection to a server that follows the protocol succeeds if the first call of `recvfrom`
delivers the whole identification, whatever the later ones deliver at a time. Both sides have the
session id and the keys of this exchange, and every run behind delivers the messages that the server
sends. -/
theorem connect_completes {k : ℕ} (hk : 2 ≤ k) (server : Server) {env : Environment}
    {cookie : Bytes 16} {secret : Bytes 32} {messages : List Message}
    (h : Serves server (initBufferSize (2 ^ k)) env
      (server.packets (keyExchangeInit cookie).bytes (ecdhPublicKey secret) messages))
    (hcookie : env.cookie = some cookie) (hsecret : env.secret = some secret) (start : Connection)
    (hencLen : start.client.encLen.blockCounter = 0)
    (hdecLen : start.client.decLen.blockCounter = 0) :
    ∃ s, (connect (initBufferSize (2 ^ k)) env).run start = .ok () s ∧
      s.sessionId = server.hash (keyExchangeInit cookie).bytes (ecdhPublicKey secret) ∧
      Matches (server.sender (keyExchangeInit cookie).bytes (ecdhPublicKey secret)) s.client ∧
      Matches s.client (server.sender (keyExchangeInit cookie).bytes (ecdhPublicKey secret)) ∧
      ∀ events, Runs.Throughout (Session.step (initBufferSize (2 ^ k)))
        (fun session => session.Delivers (initBufferSize (2 ^ k)) messages)
        { client := s.client, stream := s.stream } events := by
  have hfour : 4 ∣ initBufferSize (2 ^ k) := (Nat.pow_dvd_pow 2 hk).trans (dvd_alignForward _ _)
  have hbuffer : maxPacketSize ≤ initBufferSize (2 ^ k) := le_alignForward (Nat.two_pow_pos k)
  obtain ⟨s, known, hrun, hmode, hsession, hkeys, hprogress⟩ :=
    h.connect hfour hbuffer hcookie hsecret hencLen hdecLen
  obtain ⟨hreceives, hsends⟩ := hprogress.matches_sender hmode hkeys
  refine ⟨s, hrun, ?_, hreceives, hsends, fun events => Session.Invariant.delivers hk ?_ events⟩
  · rw [← hsession]
    exact congrArg Known.sessionId hprogress.knows.known_eq
  · refine ⟨hprogress.rests.bufferPos_lt, hprogress.rests.four_dvd_bufferPos,
      hprogress.rests.receivedSize_le, rfl, rfl, rfl, _, .inl ⟨hreceives.sent server.accept, ?_,
        .inl hprogress.rests.nextSize_eq, hprogress.rests.incoming_eq, rfl⟩⟩
    rw [sent_sequence]
    exact hprogress.received_eq

/-- A server whose signatures are verified for every message: its host key is the neutral
element. -/
def sampleServer : Server where
  id := ascii "SSH-2.0-server"
  init := keyExchangeInit (.replicate 16 7)
  hostKey := Ed25519.neutralBytes
  secret := .replicate 32 5
  sign := fun _ => ⟨Ed25519.neutralBytes.toList ++ leBytes 32 (0 * Ed25519.L), by
    rw [List.length_append, length_leBytes]
    rfl⟩
  tail := .replicate 83 0
  poly1305 := Session.samplePoly1305
  starts := by decide
  length_id := by decide
  no_cr := by decide +kernel
  accepted := ⟨.inl (by decide), by decide, by decide, by decide⟩
  fits := by decide +kernel
  verifies := fun hash => Ed25519.verify_neutral hash (by decide)

/-- The first call of `recvfrom` delivers the identification, and each other one a single byte. -/
def sampleEnvironment (packets : List UInt8) : Environment where
  connect := 0
  helloSent := 12
  segments := [sampleServer.id ++ ([13, 10] ++ []), packets]
  limits := List.replicate packets.length 1
  sendto := fun _ packet => packet.length
  cookie := some (.replicate 16 3)
  secret := some (.replicate 32 9)
  tail := fun _ => .replicate 83 0
  poly1305 := fun _ => Session.samplePoly1305
  behindSecret := fun _ => 0

theorem serves_sampleEnvironment (packets : List UInt8) :
    Serves sampleServer (initBufferSize (2 ^ 12)) (sampleEnvironment packets) packets where
  connect_nonneg := le_rfl
  helloSent_eq := rfl
  sendto_eq := fun _ _ => rfl
  segments := ⟨[], [packets], rfl, by decide, List.flatten_singleton⟩
  enough :=
    ⟨fun _ hlimit => (List.eq_of_mem_replicate hlimit).symm ▸ Nat.one_pos, List.length_replicate.ge⟩

/-- The client before `client_connect`. -/
def sampleConnection : Connection where
  client := Session.sampleClient 1 3 0
  partialExchangeHash := ⟨0, default, default⟩
  tempHash := ⟨0, default, default⟩
  sessionId := []
  stream := []
  limits := []
  sent := []
  received := []

theorem connect_completes_sample :
    ∃ packets s, Serves sampleServer (initBufferSize (2 ^ 12)) (sampleEnvironment packets) packets ∧
      (connect (initBufferSize (2 ^ 12)) (sampleEnvironment packets)).run sampleConnection =
        .ok () s := by
  obtain ⟨s, hrun, -⟩ := @connect_completes 12 (by decide) sampleServer (sampleEnvironment _)
    (.replicate 16 3) (.replicate 32 9) Session.sampleMessages (serves_sampleEnvironment _) rfl rfl
    sampleConnection rfl rfl
  exact ⟨_, s, serves_sampleEnvironment _, hrun⟩

end Hc.Ssh
