import Mathlib
import Hc.Ssh.ConnectionKeys

/-!
# What a connection has gone through

Every run of `client_connect` ends at one of a few stages, however the bytes arrive and whatever
they are. Nothing but the start of the key exchange is sent to a server that has not signed the
exchange hash, and a connection that succeeds has the session id and the keys of this exchange.
-/

namespace Hc.Ssh

open Std.Do

set_option mvcgen.warning false

/-! ## One exchange -/

/-- The shared secret is encoded as RFC 8731 says, unless it is zero. -/
theorem flatten_sharedSecretMemory (env : Environment) {secret publicKey : Bytes 32}
    (h : ∃ b ∈ X25519.x25519 secret publicKey, b ≠ 0) :
    (sharedSecretUpdates (sharedSecretMemory env secret publicKey)).flatten =
      mpint (beNat (X25519.x25519 secret publicKey)) := by
  have hlength := X25519.length_x25519 secret publicKey
  have hmemory : Memory.read (sharedSecretMemory env secret publicKey) 0 32 =
      X25519.x25519 secret publicKey := Memory.read_write_of_length 0 hlength
  rw [← hmemory]
  apply flatten_sharedSecretUpdates_eq_mpint
  rw [sharedSecretPos_lt_iff]
  obtain ⟨b, hb, hne⟩ := h
  obtain ⟨i, hi, rfl⟩ := List.getElem_of_mem hb
  rw [hlength] at hi
  refine ⟨i, hi, ?_⟩
  have hread : (Memory.read (sharedSecretMemory env secret publicKey) 0 32)[i]? =
      some (sharedSecretMemory env secret publicKey (0 + i)) := Memory.getElem?_read 0 hi
  rw [hmemory, List.getElem?_eq_getElem (hlength.symm ▸ hi), Nat.zero_add] at hread
  exact fun hzero => hne ((Option.some.inj hread).trans hzero)

/-- What a key exchange is made of: the random bytes that the client has used, the identification
that it has taken for the one of the server, and two messages. -/
structure Transcript (bufferSize : ℕ) (env : Environment) where
  cookie : Bytes 16
  secret : Bytes 32
  cookie_eq : env.cookie = some cookie
  secret_eq : env.secret = some secret
  serverId : List UInt8
  identifies : Identifies bufferSize env.segments serverId
  serverInit : List UInt8
  reply : EcdhReply

namespace Transcript

variable {bufferSize : ℕ} {env : Environment} (t : Transcript bufferSize env)

/-- What the client hashes. -/
def exchange : Exchange where
  clientId := helloIdentification
  serverId := t.serverId
  clientInit := (keyExchangeInit t.cookie).bytes
  serverInit := t.serverInit
  clientKey := ecdhPublicKey t.secret
  reply := t.reply

/-- The shared secret as it is hashed. -/
def encodedSecret : List UInt8 :=
  (sharedSecretUpdates (sharedSecretMemory env t.secret t.reply.publicKey)).flatten

/-- The exchange hash. -/
def hash : List UInt8 := t.exchange.hash t.encodedSecret

/-- What the client sends. -/
def sent : List (Encryption × List UInt8) :=
  [(.none, (keyExchangeInit t.cookie).bytes),
    (.none, msgKexEcdhInit :: counted 4 (ecdhPublicKey t.secret).toList), (.none, [msgNewKeys]),
    (.chacha20Poly1305, msgServiceRequest :: counted 4 serviceName)]

/-- What the server sends until the keys are changed. -/
def received : List (Encryption × List UInt8) :=
  [(.none, t.serverInit), (.none, t.reply.bytes), (.none, [msgNewKeys])]

/-- The server has the algorithms that are needed. -/
structure Agreed : Prop where
  accepted : ∃ init : KexInit, t.serverInit = init.bytes ∧ init.Accepted

/-- The signature of the server is verified for the exchange hash. -/
structure Authentic : Prop extends t.Agreed where
  verified : Ed25519.verify t.hash t.reply.hostKey.toList t.reply.signature.toList = 0

end Transcript

/-- The messages that may have been sent and received when `client_connect` returns. -/
inductive Stage (bufferSize : ℕ) (env : Environment) :
    List (Encryption × List UInt8) → List (Encryption × List UInt8) → Prop
  | identification {received} : Stage bufferSize env [] received
  | keyExchangeInit {received} (cookie : Bytes 16) (h : env.cookie = some cookie) :
      Stage bufferSize env [(.none, (keyExchangeInit cookie).bytes)] received
  | ecdhInit {received} (t : Transcript bufferSize env) (h : t.Agreed)
      (hr : t.received.take 1 <+: received) : Stage bufferSize env (t.sent.take 2) received
  | newKeys {received} (t : Transcript bufferSize env) (h : t.Authentic)
      (hr : t.received.take 2 <+: received) : Stage bufferSize env (t.sent.take 3) received
  | serviceRequest {received} (t : Transcript bufferSize env) (h : t.Authentic)
      (hr : t.received <+: received) : Stage bufferSize env t.sent received

/-! ## What is known of a connection -/

/-- The fields of a connection that do not depend on how the bytes arrive, without the hashes. -/
structure Known where
  encryption : Encryption
  keys : Fin 4 → Bytes 32
  sessionId : List UInt8
  sent : List (Encryption × List UInt8)
  received : List (Encryption × List UInt8)

namespace Known

variable (k : Known)

/-- The messages behind a call of `client_sendMessage`. -/
def send (message : List UInt8) : Known := { k with sent := k.sent ++ [(k.encryption, message)] }

/-- The messages behind a call of `client_waitForMessage`. -/
def wait (size : ℤ) (message : List UInt8) : Known :=
  { k with received := if size > 0 then k.received ++ [(k.encryption, message)] else k.received }

/-- A message was received. -/
def receive (message : List UInt8) : Known :=
  { k with received := k.received ++ [(k.encryption, message)] }

theorem received_wait (size : ℤ) (message : List UInt8) :
    k.received <+: (k.wait size message).received := by
  rw [wait]
  dsimp only
  split
  next => exact List.prefix_append _ _
  next => exact List.prefix_refl _

theorem wait_of_pos {size : ℤ} (hsize : 0 < size) (message : List UInt8) :
    k.wait size message = k.receive message := by
  rw [wait, if_pos hsize, receive]

end Known

namespace Connection

variable (s : Connection)

def known : Known where
  encryption := s.client.encryption
  keys := ![s.client.encAead.key, s.client.encLen.key, s.client.decAead.key, s.client.decLen.key]
  sessionId := s.sessionId
  sent := s.sent
  received := s.received

/-- This is known, and the next size is in its bounds. -/
structure Knows (k : Known) : Prop where
  known_eq : s.known = k
  bounded : s.client.Bounded

variable {s} {k : Known}

theorem known_of_sameKeys {client : Client} (h : s.client.SameKeys client) :
    { s with client }.known = s.known := by
  simp only [known, h.encryption, h.encAead, h.encLen, h.decAead, h.decLen]

theorem Knows.sent_eq (h : s.Knows k) : s.sent = k.sent := congrArg Known.sent h.known_eq

theorem Knows.received_eq (h : s.Knows k) : s.received = k.received :=
  congrArg Known.received h.known_eq

/-- Hashes are not part of what is known. -/
theorem Knows.withTempHash (h : s.Knows k) (tempHash : Sha256) :
    Connection.Knows { s with tempHash } k :=
  ⟨h.known_eq, h.bounded⟩

theorem Knows.setSessionId (h : s.Knows k) (exchangeHash : List UInt8) :
    Connection.Knows
      (if s.client.encryption = .none then { s with sessionId := exchangeHash } else s)
      { k with sessionId := if k.encryption = .none then exchangeHash else k.sessionId } := by
  obtain ⟨rfl, hbounded⟩ := h
  rw [show s.known.encryption = s.client.encryption from rfl]
  split
  next => exact ⟨rfl, hbounded⟩
  next => exact ⟨rfl, hbounded⟩

/-- The mode and the keys change. -/
theorem Knows.newKeys (h : s.Knows k) (tempHash : Sha256) (keys : Fin 4 → Bytes 32) :
    Connection.Knows { s with tempHash, client := s.client.newKeys keys }
      { k with encryption := .chacha20Poly1305, keys } := by
  obtain ⟨rfl, hbounded⟩ := h
  refine ⟨?_, hbounded⟩
  have hkeys : ![keys 0, keys 1, keys 2, keys 3] = keys := by
    funext i
    fin_cases i <;> rfl
  exact congrArg (Known.mk .chacha20Poly1305 · s.sessionId s.sent s.received) hkeys

end Connection

/-- What is known changes in the given way, and the hashes stay as they are. -/
structure Moves (f : Known → Known) (before after : Connection) : Prop where
  knows : ∀ k, before.Knows k → after.Knows (f k)
  partialExchangeHash_eq : after.partialExchangeHash = before.partialExchangeHash
  tempHash_eq : after.tempHash = before.tempHash

/-! ## Messages -/

section Messages

variable (bufferSize : ℕ) (env : Environment)

theorem Connection.Knows.sendMessage {k : Known} {s : Connection} (h : s.Knows k) (out : Outgoing)
    (sendto : List UInt8 → ℤ) (message : List UInt8) :
    Connection.Knows { s with
      client := (s.client.sendMessage out sendto).1
      sent := s.sent ++ [(s.client.encryption, message)] } (k.send message) := by
  obtain ⟨rfl, hbounded⟩ := h
  have hkeys := Client.SameKeys.sendMessage s.client out sendto
  obtain ⟨encAead, encLen, hclient, -⟩ := sealMessage_fst s.client out
  have hnext : (s.client.sendMessage out sendto).1.nextSize = s.client.nextSize := by
    rw [Client.sendMessage]
    dsimp only
    rw [hclient]
    split
    next => rfl
    next => rfl
  constructor
  · exact congrArg (fun known => { known with
      sent := s.sent ++ [(s.client.encryption, message)] }) (known_of_sameKeys hkeys)
  · rw [Client.Bounded, hnext]
    exact hbounded

/-- A message is handed over with the mode of the connection, also where it cannot be sent. -/
@[spec] theorem sendMessage_spec (message : List UInt8) (status : ℤ) (before : Connection) :
    ⦃fun s => ⌜s = before⌝⦄
    sendMessage env message status
    ⦃post⟨fun _ s => ⌜Moves (Known.send · message) before s⌝,
      fun exit s => ⌜exit ≠ .outside ∧ Moves (Known.send · message) before s⌝⟩⦄ := by
  mvcgen [sendMessage]
  case vc1.isTrue s hs _ _ =>
    subst hs
    exact ⟨nofun, fun k hk => hk.sendMessage _ _ _, rfl, rfl⟩
  case vc2.isFalse s hs _ _ =>
    subst hs
    exact ⟨fun k hk => hk.sendMessage _ _ _, rfl, rfl⟩

/-- What `client_waitForMessage` returns has the size of the message. -/
structure MovesBySize (size : ℤ) (message : List UInt8) (before after : Connection) : Prop extends
    Moves (Known.wait · size message) before after where
  size_le : before.client.Bounded → size ≤ maxPacketSize
  length_eq : before.client.Bounded → 0 < size → size = message.length

@[spec] theorem waitForMessage_spec (before : Connection) :
    ⦃fun s => ⌜s = before⌝⦄
    waitForMessage bufferSize env
    ⦃post⟨fun result s => ⌜MovesBySize result.1 result.2 before s⌝, fun _ _ => ⌜False⌝⟩⦄ := by
  mvcgen [waitForMessage]
  case vc1 s hs waited =>
    subst hs
    have hwaited (hbounded : s.client.Bounded) :=
      @waitLoop_waitedFor bufferSize env.poly1305 s.limits _ hbounded s.stream
    refine ⟨⟨?_, rfl, rfl⟩, fun h => (hwaited h).size_le, fun h => (hwaited h).size_eq⟩
    rintro k ⟨rfl, hbounded⟩
    refine ⟨?_, (hwaited hbounded).bounded⟩
    exact congrArg (fun known : Known => { known with
      received := if waited.size > 0 then s.received ++ [(s.client.encryption, waited.message)]
        else s.received }) (Connection.known_of_sameKeys (hwaited hbounded).sameKeys)

/-- A message of the expected size was received. -/
theorem MovesBySize.receives {size : ℤ} {message : List UInt8} {before after : Connection}
    (h : MovesBySize size message before after) {k : Known} (hk : before.Knows k)
    (hsize : 0 < size) : size = message.length ∧ after.Knows (k.receive message) :=
  ⟨h.length_eq hk.bounded hsize, k.wait_of_pos hsize message ▸ h.knows k hk⟩

/-- A message was handed over, and the answer is not the one that was expected. -/
def Unanswered (message : List UInt8) (before after : Connection) : Prop :=
  ∀ k, before.Knows k →
    after.sent = k.sent ++ [(k.encryption, message)] ∧ k.received <+: after.received

theorem Unanswered.withTempHash {message : List UInt8} {before after : Connection}
    (h : Unanswered message before after) (tempHash : Sha256) :
    Unanswered message before { after with tempHash } := h

theorem Moves.unanswered {message : List UInt8} {before after : Connection}
    (h : Moves (Known.send · message) before after) : Unanswered message before after := by
  intro k hk
  refine ⟨(h.knows k hk).sent_eq, ?_⟩
  rw [(h.knows k hk).received_eq]
  exact List.prefix_refl _

theorem MovesBySize.unanswered {message answer : List UInt8} {size : ℤ}
    {before sent after : Connection} (hsent : Moves (Known.send · message) before sent)
    (h : MovesBySize size answer sent after) : Unanswered message before after := by
  intro k hk
  have hknows := h.knows _ (hsent.knows k hk)
  refine ⟨hknows.sent_eq, ?_⟩
  rw [hknows.received_eq]
  exact Known.received_wait (k.send message) size answer

end Messages

/-! ## The hashes -/

section Hashes

variable {sha256 : Sha256} {before : List UInt8}

/-- The identifications are hashed behind their lengths. -/
theorem fed_identifications (self : Sha256) {hashed serverId : List UInt8}
    (h : hashed = counted 4 serverId) :
    Fed (((self.init.update (counted 4 helloIdentification)).update (hashed.take 4)).update
        (hashed.drop 4))
      (counted 4 helloIdentification ++ counted 4 serverId) := by
  have hfed := (((fed_init self).update (counted 4 helloIdentification)).update
    (hashed.take 4)).update (hashed.drop 4)
  rw [List.nil_append, List.append_assoc, List.take_append_drop] at hfed
  rwa [← h]

theorem Fed.updateCounted (h : Fed sha256 before) (bytes : List UInt8) :
    Fed (updateCounted sha256 bytes) (before ++ counted 4 bytes) := by
  have hfed := (h.update (beBytes 4 bytes.length)).update bytes
  unfold Ssh.updateCounted
  rwa [List.append_assoc] at hfed

theorem EcdhReply.length_hostKeyBlob (reply : EcdhReply) : reply.hostKeyBlob.length = 51 := by
  rw [hostKeyBlob, List.length_append, length_counted, length_counted, List.Vector.toList_length]
  rfl

/-- The exchange hash is fed with the host key, both public keys and the shared secret. -/
theorem Fed.updateExchangeHash (h : Fed sha256 before) (publicKey : Bytes 32) (reply : EcdhReply)
    (sharedSecret : ℕ → UInt8) :
    Fed (updateExchangeHash sha256 publicKey reply.bytes sharedSecret)
      (before ++ counted 4 reply.hostKeyBlob ++ counted 4 publicKey.toList ++
        counted 4 reply.publicKey.toList ++ (sharedSecretUpdates sharedSecret).flatten) := by
  have hhostKey : (reply.bytes.drop 1).take 55 = counted 4 reply.hostKeyBlob := by
    apply List.take_left'
    rw [length_counted, reply.length_hostKeyBlob]
  have hserverKey : (reply.bytes.drop 56).take 36 = counted 4 reply.publicKey.toList := by
    have hlength : (msgKexEcdhReply :: counted 4 reply.hostKeyBlob).length = 56 := by
      rw [List.length_cons, length_counted, reply.length_hostKeyBlob]
    have hbytes : reply.bytes = (msgKexEcdhReply :: counted 4 reply.hostKeyBlob) ++
        (counted 4 reply.publicKey.toList ++ counted 4 reply.signatureBlob) := rfl
    rw [hbytes, List.drop_left' hlength]
    apply List.take_left'
    rw [length_counted, List.Vector.toList_length]
  have hpublicKey : beBytes 4 32 ++ publicKey.toList = counted 4 publicKey.toList := by
    rw [counted, List.Vector.toList_length]
  have hfed := ((((h.update (counted 4 reply.hostKeyBlob)).update (beBytes 4 32)).update
    publicKey.toList).update (counted 4 reply.publicKey.toList)).sharedSecret sharedSecret
  unfold Ssh.updateExchangeHash
  rw [hhostKey, hserverKey, ← hpublicKey]
  simpa only [List.append_assoc] using hfed

/-- The keys that are derived, for the client and for the server. -/
structure DerivedKeys (sharedSecret exchangeHash sessionId : List UInt8)
    (keys : Fin 4 → Bytes 32) : Prop where
  client : (keys 0).toList ++ (keys 1).toList = deriveKey sharedSecret exchangeHash 67 sessionId
  server : (keys 2).toList ++ (keys 3).toList = deriveKey sharedSecret exchangeHash 68 sessionId

theorem toList_digestKey (h : Fed sha256 before) :
    (digestKey sha256).toList = Fips180.sha256 before :=
  h.finish_eq

theorem fed_hashForKey (tempHash : Sha256) (sharedSecret : ℕ → UInt8) (exchangeHash : List UInt8)
    (rest : List (List UInt8)) :
    Fed (hashForKey tempHash sharedSecret exchangeHash rest)
      ((sharedSecretUpdates sharedSecret).flatten ++ exchangeHash ++ rest.flatten) := by
  have hstart := ((fed_init tempHash).sharedSecret sharedSecret).update exchangeHash
  rw [List.nil_append] at hstart
  unfold hashForKey
  induction rest using List.reverseRecOn with
  | nil => simpa using hstart
  | append_singleton rest last ih =>
      have hlast := ih.update last
      rw [List.append_assoc] at hlast
      rwa [List.foldl_append, List.flatten_append, List.flatten_singleton]

theorem derivePair_eq (tempHash : Sha256) (sharedSecret : ℕ → UInt8)
    (exchangeHash sessionId : List UInt8) (i : ℕ) :
    (derivePair tempHash sharedSecret exchangeHash sessionId i).2.1.toList ++
        (derivePair tempHash sharedSecret exchangeHash sessionId i).2.2.toList =
      deriveKey (sharedSecretUpdates sharedSecret).flatten exchangeHash (UInt8.ofNat (67 + i))
        sessionId := by
  have hfirst := toList_digestKey (fed_hashForKey tempHash sharedSecret exchangeHash
    [[UInt8.ofNat (67 + i)], sessionId])
  have hsecond (key : List UInt8) (tempHash : Sha256) := toList_digestKey
    (fed_hashForKey tempHash sharedSecret exchangeHash [key])
  unfold derivePair
  dsimp only
  rw [hsecond, hfirst, deriveKey]
  simp only [List.flatten_cons, List.flatten_nil, List.append_nil, List.append_assoc]

theorem deriveCiphers_derived (tempHash : Sha256) (sharedSecret : ℕ → UInt8)
    (exchangeHash sessionId : List UInt8) :
    DerivedKeys (sharedSecretUpdates sharedSecret).flatten exchangeHash sessionId
      (deriveCiphers tempHash sharedSecret exchangeHash sessionId).2 :=
  ⟨derivePair_eq tempHash sharedSecret exchangeHash sessionId 0,
    derivePair_eq (derivePair tempHash sharedSecret exchangeHash sessionId 0).1 sharedSecret
      exchangeHash sessionId 1⟩

end Hashes

section Functions

variable (bufferSize : ℕ) (env : Environment)

/-- Both identifications are hashed. -/
@[spec] theorem helloServer_spec (before : Connection) :
    ⦃fun s => ⌜s = before⌝⦄
    helloServer bufferSize env
    ⦃post⟨fun _ s => ⌜∃ serverId, Identifies bufferSize env.segments serverId ∧
        Fed s.partialExchangeHash (counted 4 helloIdentification ++ counted 4 serverId) ∧
        ∀ k, before.Knows k → s.Knows k⌝,
      fun exit s => ⌜exit ≠ .outside ∧ s.sent = before.sent⌝⟩⦄ := by
  mvcgen [helloServer]
  case vc1.isTrue s hs => exact ⟨nofun, congrArg Connection.sent hs⟩
  case vc2.isFalse.h_1 s hs _ _ _ =>
    subst hs
    exact ⟨nofun, rfl⟩
  case vc3.isFalse.h_2 s hs _ accepted haccepted _ =>
    obtain ⟨serverId, hid, hhashed⟩ := exists_identifies haccepted
    subst hs
    exact ⟨serverId, hid, fed_identifications s.partialExchangeHash hhashed,
      fun k hk => ⟨hk.known_eq, hk.bounded⟩⟩

@[spec] theorem sendKeyExchangeInit_spec (before : Connection) :
    ⦃fun s => ⌜s = before⌝⦄
    sendKeyExchangeInit env
    ⦃post⟨fun _ s => ⌜∃ cookie, env.cookie = some cookie ∧
        s.tempHash = updateCounted before.partialExchangeHash (keyExchangeInit cookie).bytes ∧
        ∀ k, before.Knows k → s.Knows (k.send (keyExchangeInit cookie).bytes)⌝,
      fun exit s => ⌜exit ≠ .outside ∧ (s.sent = before.sent ∨ ∃ cookie,
        env.cookie = some cookie ∧ Unanswered (keyExchangeInit cookie).bytes before s)⌝⟩⦄ := by
  mvcgen [sendKeyExchangeInit]
  case vc1.h_1.post.success cookie hcookie _ s hs _ _ after =>
    subst hs
    intro hsent
    exact ⟨cookie, hcookie, hsent.tempHash_eq, fun k hk => hsent.knows k (hk.withTempHash _)⟩
  case vc2.h_1.post.except.handle cookie hcookie _ s hs _ _ after =>
    subst hs
    intro hexit hsent
    exact ⟨hexit, .inr ⟨cookie, hcookie, fun k hk => hsent.unanswered k (hk.withTempHash _)⟩⟩
  case vc3.h_2 s hs => exact ⟨nofun, .inl (congrArg Connection.sent hs)⟩

/-- What passes the checks is a message with the algorithms that are needed. -/
@[spec] theorem checkServerInit_spec (serverInit : List UInt8) (before : Connection) :
    ⦃fun s => ⌜s = before ∧ serverInit.length ≤ maxPacketSize⌝⦄
    checkServerInit serverInit
    ⦃post⟨fun _ s => ⌜s = before ∧
        ∃ init : KexInit, serverInit = init.bytes ∧ init.Accepted⌝,
      fun exit s => ⌜exit ≠ .outside ∧ s = before⌝⟩⦄ := by
  mvcgen [checkServerInit]
  case vc1.h_1 hok s hs =>
    obtain ⟨rfl, hsize⟩ := hs
    rcases attempts_parseServerInit (hsize.trans_lt (by decide)) with ⟨_, -, herror⟩ | ⟨_, -, hinit⟩
    · exact nomatch hok.symm.trans herror
    · exact ⟨rfl, hinit⟩
  case vc2.h_2 exit herror s hs =>
    obtain ⟨rfl, hsize⟩ := hs
    refine ⟨?_, rfl⟩
    rcases attempts_parseServerInit (hsize.trans_lt (by decide)) with
      ⟨_, hregular, herror'⟩ | ⟨_, hok, -⟩
    · rwa [Except.error.inj (herror.symm.trans herror')]
    · exact nomatch herror.symm.trans hok

/-- The KEX_ECDH_INIT message. -/
def ecdhInit (secret : Bytes 32) : List UInt8 :=
  msgKexEcdhInit :: counted 4 (ecdhPublicKey secret).toList

/-- What is known where the exchange of keys has failed. -/
def EcdhFailed (before after : Connection) : Prop :=
  after = before ∨ ∃ secret, env.secret = some secret ∧ Unanswered (ecdhInit secret) before after

/-- What is known where the signature of the server is verified. -/
structure EcdhVerified (secret : Bytes 32) (reply : EcdhReply) (before after : Connection)
    (sharedSecret : ℕ → UInt8) (exchangeHash : List UInt8) : Prop where
  secret_eq : env.secret = some secret
  sharedSecret_eq : sharedSecret = sharedSecretMemory env secret reply.publicKey
  exchangeHash_eq : exchangeHash =
    (updateExchangeHash before.tempHash (ecdhPublicKey secret) reply.bytes sharedSecret).finish
  verified : Ed25519.verify exchangeHash reply.hostKey.toList reply.signature.toList = 0
  knows : ∀ k, before.Knows k → after.Knows ((k.send (ecdhInit secret)).receive reply.bytes)

@[spec] theorem exchangeEcdh_spec (before : Connection) :
    ⦃fun s => ⌜s = before ∧ before.client.Bounded⌝⦄
    exchangeEcdh bufferSize env
    ⦃post⟨fun result s => ⌜∃ secret reply,
        EcdhVerified env secret reply before s result.1 result.2⌝,
      fun exit s => ⌜exit ≠ .outside ∧ EcdhFailed env before s⌝⟩⦄ := by
  mvcgen [exchangeEcdh]
  case vc1.h_1.post.success.post.success.isTrue secret hsecret _ s hs _ _ hsent _ _ _ _ hwait =>
    obtain ⟨rfl, -⟩ := hs
    exact ⟨nofun, .inr ⟨secret, hsecret, hwait.unanswered hsent⟩⟩
  case vc2.h_1.post.success.post.success.isFalse.isTrue secret hsecret _ s hs _ _ hsent _ _ _ _ _
      _ hwait =>
    obtain ⟨rfl, -⟩ := hs
    exact ⟨nofun, .inr ⟨secret, hsecret, hwait.unanswered hsent⟩⟩
  case vc3.h_1.post.success.post.success.isFalse.isFalse.isTrue secret hsecret _ s hs _ _ hsent _ _
      _ _ _ _ _ _ hwait _ _ _ _ =>
    obtain ⟨rfl, -⟩ := hs
    have hunanswered := (hwait.unanswered hsent).withTempHash
    exact ⟨nofun, .inr ⟨secret, hsecret, hunanswered _⟩⟩
  case vc4.h_1.post.success.post.success.isFalse.isFalse.isFalse secret hsecret _ s hs _ _ hsent
      result _ hsize _ haccepted _ _ after hwait _ _ _ hverified =>
    obtain ⟨rfl, hbounded⟩ := hs
    rw [not_not] at hsize hverified
    have hreceives {k : Known} (hk : s.Knows k) :=
      hwait.receives (hsent.knows k hk) (hsize ▸ (by decide))
    have hreply : (EcdhReply.load result.2).bytes = result.2 :=
      EcdhReply.bytes_load (by have := (hreceives ⟨rfl, hbounded⟩).1; omega) haccepted
    refine ⟨secret, .load result.2, hsecret, rfl, ?_, hverified, ?_⟩
    · rw [hreply, ← hsent.tempHash_eq, ← hwait.tempHash_eq]
    · intro k hk
      rw [hreply]
      exact (hreceives hk).2.withTempHash _
  case vc5.h_1.post.except.handle secret hsecret _ s hs exit after =>
    obtain ⟨rfl, -⟩ := hs
    exact fun hexit hsent => ⟨hexit, .inr ⟨secret, hsecret, hsent.unanswered⟩⟩
  case vc6.h_2 s hs => exact ⟨nofun, .inl hs.1⟩

@[spec] theorem setSessionId_spec (exchangeHash : List UInt8) (before : Connection) :
    ⦃fun s => ⌜s = before⌝⦄
    setSessionId exchangeHash
    ⦃post⟨fun _ s => ⌜∀ k, before.Knows k → s.Knows { k with
        sessionId := if k.encryption = .none then exchangeHash else k.sessionId }⌝,
      fun _ _ => ⌜False⌝⟩⦄ := by
  mvcgen [setSessionId]
  case vc1 s hs _ =>
    subst hs
    exact fun k hk => hk.setSessionId exchangeHash

@[spec] theorem deriveKeys_spec (sharedSecret : ℕ → UInt8) (exchangeHash : List UInt8)
    (before : Connection) :
    ⦃fun s => ⌜s = before⌝⦄
    deriveKeys sharedSecret exchangeHash
    ⦃post⟨fun _ s => ⌜∀ k, before.Knows k → ∃ keys,
        DerivedKeys (sharedSecretUpdates sharedSecret).flatten exchangeHash k.sessionId keys ∧
        s.Knows { k with encryption := .chacha20Poly1305, keys }⌝,
      fun _ _ => ⌜False⌝⟩⦄ := by
  mvcgen [deriveKeys]
  case vc1 s hs _ =>
    subst hs
    intro k hk
    have hsession : s.sessionId = k.sessionId := congrArg Known.sessionId hk.known_eq
    have hderived := deriveCiphers_derived s.tempHash sharedSecret exchangeHash s.sessionId
    have hknows := hk.newKeys (deriveCiphers s.tempHash sharedSecret exchangeHash s.sessionId).1
      (deriveCiphers s.tempHash sharedSecret exchangeHash s.sessionId).2
    rw [← hsession] at hknows ⊢
    exact ⟨_, hderived, hknows⟩

/-- What is known where the keys are changed. -/
def KeysChanged (before after : Connection) (sharedSecret : ℕ → UInt8)
    (exchangeHash : List UInt8) : Prop :=
  ∀ k, before.Knows k → ∃ keys,
    DerivedKeys (sharedSecretUpdates sharedSecret).flatten exchangeHash k.sessionId keys ∧
    after.Knows { (k.send [msgNewKeys]).receive [msgNewKeys] with
      encryption := .chacha20Poly1305, keys }

@[spec] theorem changeKeys_spec (sharedSecret : ℕ → UInt8) (exchangeHash : List UInt8)
    (before : Connection) :
    ⦃fun s => ⌜s = before ∧ before.client.Bounded⌝⦄
    changeKeys bufferSize env sharedSecret exchangeHash
    ⦃post⟨fun _ s => ⌜KeysChanged before s sharedSecret exchangeHash⌝,
      fun exit s => ⌜exit ≠ .outside ∧ Unanswered [msgNewKeys] before s⌝⟩⦄ := by
  mvcgen [changeKeys]
  case vc1.post.success.post.success.isTrue s hs _ _ hsent _ _ _ _ hwait =>
    obtain ⟨rfl, -⟩ := hs
    exact ⟨nofun, hwait.unanswered hsent⟩
  case vc2.post.success.post.success.isFalse.isTrue s hs _ _ hsent _ _ _ _ _ _ hwait =>
    obtain ⟨rfl, -⟩ := hs
    exact ⟨nofun, hwait.unanswered hsent⟩
  case vc3.post.success.post.success.isFalse.isFalse.post.success s hs _ _ hsent result _ hsize _
      hopcode _ hwait _ after =>
    obtain ⟨rfl, hbounded⟩ := hs
    rw [not_not] at hsize hopcode
    have hreceives {k : Known} (hk : s.Knows k) :=
      hwait.receives (hsent.knows k hk) (hsize ▸ (by decide))
    have hmessage : result.2 = [msgNewKeys] := by
      have hlength := (hreceives ⟨rfl, hbounded⟩).1
      obtain ⟨b, hb⟩ := List.length_eq_one_iff.mp (show result.2.length = 1 by omega)
      rw [hb] at hopcode ⊢
      exact congrArg (fun b => [b]) hopcode
    rw [hmessage] at hreceives
    exact fun hderived k hk => hderived _ (hreceives hk).2
  case vc4.post.except.handle s hs _ after =>
    obtain ⟨rfl, -⟩ := hs
    exact fun hexit hsent => ⟨hexit, hsent.unanswered⟩

/-! ## The whole exchange -/

/-- What is known where the KEXINIT message of the server was received. -/
structure Exchanging (cookie : Bytes 16) (serverId serverInit : List UInt8) (k : Known) :
    Prop where
  cookie_eq : env.cookie = some cookie
  identifies : Identifies bufferSize env.segments serverId
  encryption : k.encryption = .none
  sent : k.sent = [(.none, (keyExchangeInit cookie).bytes)]
  received : k.received = [(.none, serverInit)]

variable {bufferSize env}

/-- What is known where the signature of the server is verified. -/
structure Verified (t : Transcript bufferSize env) (k : Known) : Prop where
  authentic : t.Authentic
  encryption : k.encryption = .none
  sent : k.sent = t.sent.take 2
  received : k.received = t.received.take 2

/-- What is known where the exchange has succeeded. -/
structure Exchanged (t : Transcript bufferSize env) (k : Known) : Prop where
  authentic : t.Authentic
  encryption : k.encryption = .chacha20Poly1305
  sent : k.sent = t.sent.take 3
  received : k.received = t.received
  sessionId : k.sessionId = t.hash
  keys : DerivedKeys t.encodedSecret t.hash t.hash k.keys

/-- What is hashed in front of the KEXINIT message of the server. -/
def hashedBefore (cookie : Bytes 16) (serverId : List UInt8) : List UInt8 :=
  counted 4 helloIdentification ++ counted 4 serverId ++ counted 4 (keyExchangeInit cookie).bytes

/-- The server has signed the exchange hash of the messages so far. -/
theorem EcdhVerified.exists_transcript {secret : Bytes 32} {reply : EcdhReply}
    {before after : Connection} {sharedSecret : ℕ → UInt8} {exchangeHash : List UInt8}
    (h : EcdhVerified env secret reply before after sharedSecret exchangeHash)
    {cookie : Bytes 16} {serverId serverInit : List UInt8} {k : Known}
    (hfed : Fed before.tempHash (hashedBefore cookie serverId ++ counted 4 serverInit))
    (hexchanging : Exchanging bufferSize env cookie serverId serverInit k) (hk : before.Knows k)
    (haccepted : ∃ init : KexInit, serverInit = init.bytes ∧ init.Accepted) :
    ∃ (t : Transcript bufferSize env) (k' : Known), Verified t k' ∧ after.Knows k' ∧
      exchangeHash = t.hash ∧ (sharedSecretUpdates sharedSecret).flatten = t.encodedSecret := by
  obtain ⟨hsecret, rfl, hhash, hverified, hknows⟩ := h
  let t : Transcript bufferSize env :=
    ⟨cookie, secret, hexchanging.cookie_eq, hsecret, serverId, hexchanging.identifies, serverInit,
      reply⟩
  have hexchangeHash : exchangeHash = t.hash := by
    rw [hhash, (hfed.updateExchangeHash _ _ _).finish_eq]
    rfl
  rw [hexchangeHash] at hverified
  refine ⟨t, _, ⟨⟨⟨haccepted⟩, hverified⟩, ?_, ?_, ?_⟩, hknows k hk,
    hexchangeHash, rfl⟩
  · exact hexchanging.encryption
  · rw [Known.receive, Known.send, hexchanging.encryption, hexchanging.sent]
    rfl
  · rw [Known.receive, Known.send, hexchanging.encryption, hexchanging.received]
    rfl

theorem Verified.setSessionId {t : Transcript bufferSize env} {k : Known} (h : Verified t k) :
    ({ k with sessionId := if k.encryption = .none then t.hash else k.sessionId } : Known) =
      { k with sessionId := t.hash } := by
  rw [if_pos h.encryption]

/-- The keys of an exchange that was verified are changed. -/
theorem Verified.exchanged {t : Transcript bufferSize env} {k : Known} (h : Verified t k)
    {before after : Connection} (hk : before.Knows { k with sessionId := t.hash })
    {sharedSecret : ℕ → UInt8}
    (hsecret : (sharedSecretUpdates sharedSecret).flatten = t.encodedSecret)
    (hchanged : KeysChanged before after sharedSecret t.hash) :
    ∃ k', Exchanged t k' ∧ after.Knows k' := by
  obtain ⟨keys, hkeys, hknows⟩ := hchanged _ hk
  rw [hsecret] at hkeys
  refine ⟨_, ⟨h.authentic, rfl, ?_, ?_, rfl, hkeys⟩, hknows⟩
  · rw [Known.receive, Known.send]
    dsimp only
    rw [h.sent, h.encryption]
    rfl
  · rw [Known.receive, Known.send]
    dsimp only
    rw [h.received, h.encryption]
    rfl

theorem Verified.stage {t : Transcript bufferSize env} {k : Known} (h : Verified t k)
    {before after : Connection} (hk : before.Knows { k with sessionId := t.hash })
    (hfailed : Unanswered [msgNewKeys] before after) :
    Stage bufferSize env after.sent after.received := by
  obtain ⟨hsent, hreceived⟩ := hfailed _ hk
  dsimp only at hsent hreceived
  rw [h.sent, h.encryption] at hsent
  rw [h.received] at hreceived
  rw [hsent]
  exact .newKeys t h.authentic hreceived

theorem EcdhFailed.stage {before after : Connection} (h : EcdhFailed env before after)
    {cookie : Bytes 16} {serverId serverInit : List UInt8} {k : Known}
    (hexchanging : Exchanging bufferSize env cookie serverId serverInit k) (hk : before.Knows k)
    (haccepted : ∃ init : KexInit, serverInit = init.bytes ∧ init.Accepted) :
    Stage bufferSize env after.sent after.received := by
  rcases h with rfl | ⟨secret, hsecret, hunanswered⟩
  · rw [hk.sent_eq, hexchanging.sent]
    exact .keyExchangeInit cookie hexchanging.cookie_eq
  · obtain ⟨hsent, hreceived⟩ := hunanswered k hk
    rw [hexchanging.sent, hexchanging.encryption] at hsent
    rw [hexchanging.received] at hreceived
    rw [hsent]
    exact .ecdhInit ⟨cookie, secret, hexchanging.cookie_eq, hsecret, serverId,
      hexchanging.identifies, serverInit, .load []⟩ ⟨haccepted⟩ hreceived

variable (bufferSize env)

@[spec] theorem doKeyExchange_spec (serverInit : List UInt8) (before : Connection) :
    ⦃fun s => ⌜s = before ∧ before.client.Bounded ∧ serverInit.length ≤ maxPacketSize⌝⦄
    doKeyExchange bufferSize env serverInit
    ⦃post⟨fun _ s => ⌜∀ k cookie serverId, before.Knows k →
        Fed before.tempHash (hashedBefore cookie serverId) →
        Exchanging bufferSize env cookie serverId serverInit k →
        ∃ (t : Transcript bufferSize env) (k' : Known), Exchanged t k' ∧ s.Knows k'⌝,
      fun exit s => ⌜exit ≠ .outside ∧ ∀ k cookie serverId, before.Knows k →
        Fed before.tempHash (hashedBefore cookie serverId) →
        Exchanging bufferSize env cookie serverId serverInit k →
        Stage bufferSize env s.sent s.received⌝⟩⦄ := by
  mvcgen [doKeyExchange]
  case vc1.pre hs => exact ⟨trivial, hs.2.2⟩
  case vc2.post.success.pre hs _ _ hchecked _ =>
    obtain ⟨⟨rfl, hbounded, -⟩, rfl, -⟩ := And.intro hs hchecked
    exact ⟨trivial, hbounded⟩
  case vc3.post.success.post.success.post.success.pre hs _ _ hchecked _ _ _ hverified _ _ hsession =>
    obtain ⟨⟨rfl, hbounded, -⟩, rfl, -⟩ := And.intro hs hchecked
    obtain ⟨_, _, hverified⟩ := hverified
    exact ⟨trivial, (hsession _ (hverified.knows _ ⟨rfl, hbounded⟩)).bounded⟩
  case vc4.post.success.post.success.post.success.post.success hs _ _ hchecked _ result _ hverified
      _ _ hsession _ _ =>
    obtain ⟨⟨rfl, -⟩, rfl, haccepted⟩ := And.intro hs hchecked
    intro hchanged k cookie serverId hk hfed hexchanging
    obtain ⟨_, _, hverified⟩ := hverified
    obtain ⟨t, k', hverified, hknows, hhash, hsecret⟩ := hverified.exists_transcript
      (hfed.updateCounted serverInit) hexchanging (hk.withTempHash _) haccepted
    rw [hhash] at hchanged hsession
    obtain ⟨k'', hexchanged, hafter⟩ := hverified.exchanged
      (hverified.setSessionId ▸ hsession k' hknows) hsecret hchanged
    exact ⟨t, k'', hexchanged, hafter⟩
  case vc5.post.success.post.success.post.success.post.except.handle hs _ _ hchecked _ result _
      hverified _ _ hsession _ _ =>
    obtain ⟨⟨rfl, -⟩, rfl, haccepted⟩ := And.intro hs hchecked
    intro hexit hfailed
    refine ⟨hexit, fun k cookie serverId hk hfed hexchanging => ?_⟩
    obtain ⟨_, _, hverified⟩ := hverified
    obtain ⟨t, k', hverified, hknows, hhash, -⟩ := hverified.exists_transcript
      (hfed.updateCounted serverInit) hexchanging (hk.withTempHash _) haccepted
    rw [hhash] at hsession
    exact hverified.stage (hverified.setSessionId ▸ hsession k' hknows) hfailed
  case vc6.post.success.post.except.handle hs _ _ hchecked _ _ _ =>
    obtain ⟨⟨rfl, -⟩, rfl, haccepted⟩ := And.intro hs hchecked
    intro hexit hfailed
    refine ⟨hexit, fun k cookie serverId hk _ hexchanging => ?_⟩
    exact hfailed.stage hexchanging (hk.withTempHash _) haccepted
  case vc7.post.except.handle hs _ _ =>
    obtain ⟨rfl, -⟩ := hs
    rintro hexit rfl
    refine ⟨hexit, fun k cookie serverId hk _ hexchanging => ?_⟩
    rw [hk.sent_eq, hexchanging.sent]
    exact .keyExchangeInit cookie hexchanging.cookie_eq

/-! ## The service and the connection -/

/-- The SERVICE_ACCEPT message. -/
def serviceAccept : List UInt8 := msgServiceAccept :: counted 4 serviceName

/-- What is not refused is the SERVICE_ACCEPT message. -/
theorem eq_serviceAccept {response : List UInt8} (hlength : response.length = 17)
    (h : ¬ serviceRefused response) : response = serviceAccept := by
  simp only [serviceRefused, not_or, not_not] at h
  obtain ⟨hopcode, hsize, hname⟩ := h
  have hname : (Bytes.load 12 response 5).toList = serviceName :=
    (memCompare_eq_zero_iff (by rw [List.Vector.toList_length]; rfl)).mp hname
  have hstart : response = msgServiceAccept :: response.drop 1 := by
    cases response with
    | nil => simp at hlength
    | cons b rest =>
        rw [← hopcode]
        rfl
  rw [hstart, drop_eq_beBytes 4 (by omega), hsize, Bytes.drop_eq_load (n := 12) (by omega), hname,
    List.drop_of_length_le (by omega), List.append_nil]
  rfl

/-- The SERVICE_REQUEST message. -/
def serviceRequest : List UInt8 := msgServiceRequest :: counted 4 serviceName

@[spec] theorem doServiceRequest_spec (before : Connection) :
    ⦃fun s => ⌜s = before ∧ before.client.Bounded⌝⦄
    doServiceRequest bufferSize env
    ⦃post⟨fun _ s => ⌜∀ k, before.Knows k →
        s.Knows ((k.send serviceRequest).receive serviceAccept)⌝,
      fun exit s => ⌜exit ≠ .outside ∧ Unanswered serviceRequest before s⌝⟩⦄ := by
  mvcgen [doServiceRequest]
  case vc1.post.success.post.success.isTrue s hs _ _ hsent _ _ _ _ hwait =>
    obtain ⟨rfl, -⟩ := hs
    exact ⟨nofun, hwait.unanswered hsent⟩
  case vc2.post.success.post.success.isFalse.isTrue s hs _ _ hsent _ _ _ _ _ hwait =>
    obtain ⟨rfl, -⟩ := hs
    exact ⟨nofun, hwait.unanswered hsent⟩
  case vc3.post.success.post.success.isFalse.isFalse s hs _ _ hsent result _ hsize haccepted _
      hwait =>
    obtain ⟨rfl, hbounded⟩ := hs
    rw [not_not] at hsize
    have hreceives {k : Known} (hk : s.Knows k) :=
      hwait.receives (hsent.knows k hk) (hsize ▸ (by decide))
    have hlength := (hreceives ⟨rfl, hbounded⟩).1
    rw [eq_serviceAccept (by omega) haccepted] at hreceives
    exact fun k hk => (hreceives hk).2
  case vc4.post.except.handle s hs _ after =>
    obtain ⟨rfl, -⟩ := hs
    exact fun hexit hsent => ⟨hexit, hsent.unanswered⟩

/-- What is known where `client_connect` succeeds. -/
structure Connected (s : Connection) (t : Transcript bufferSize env) : Prop where
  authentic : t.Authentic
  encryption : s.client.encryption = .chacha20Poly1305
  sent : s.sent = t.sent
  received : s.received = t.received ++ [(.chacha20Poly1305, serviceAccept)]
  sessionId : s.sessionId = t.hash
  keys : DerivedKeys t.encodedSecret t.hash t.hash s.known.keys
  -- If the shared secret is not zero, all this is as RFC 8731 says.
  encodedSecret_eq : (∃ b ∈ X25519.x25519 t.secret t.reply.publicKey, b ≠ 0) →
    t.encodedSecret = mpint (beNat (X25519.x25519 t.secret t.reply.publicKey))

variable {bufferSize env} in
theorem Exchanged.connected {t : Transcript bufferSize env} {k : Known} (h : Exchanged t k)
    {s : Connection} (hs : s.Knows ((k.send serviceRequest).receive serviceAccept)) :
    Connected bufferSize env s t where
  authentic := h.authentic
  encryption := (congrArg Known.encryption hs.known_eq).trans h.encryption
  sent := by
    rw [hs.sent_eq, Known.receive, Known.send, h.encryption, h.sent]
    rfl
  received := by
    rw [hs.received_eq, Known.receive, Known.send, h.encryption, h.received]
  sessionId := (congrArg Known.sessionId hs.known_eq).trans h.sessionId
  keys := by
    rw [hs.known_eq]
    exact h.keys
  encodedSecret_eq := flatten_sharedSecretMemory env

variable {bufferSize env} in
theorem Exchanged.stage {t : Transcript bufferSize env} {k : Known} (h : Exchanged t k)
    {after : Connection} (hunanswered : after.sent = k.sent ++ [(k.encryption, serviceRequest)] ∧
      k.received <+: after.received) : Stage bufferSize env after.sent after.received := by
  obtain ⟨hsent, hreceived⟩ := hunanswered
  rw [h.sent, h.encryption] at hsent
  rw [h.received] at hreceived
  rw [hsent]
  exact .serviceRequest t h.authentic hreceived

end Functions

end Hc.Ssh
