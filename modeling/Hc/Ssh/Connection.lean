import Hc.Crypto.Ed25519
import Hc.Crypto.X25519Agreement
import Hc.Ssh.ExchangeHash
import Hc.Ssh.Hello
import Hc.Ssh.Receive

/-!
# The connection to a server

`client_connect` of `hc/examples/ssh/client.c` with the functions that it calls for the key exchange
and the service request. What comes from outside is in the environment: the bytes that the socket
delivers, the results of `sendto`, random bytes, and memory that is not initialised.
-/

namespace Hc.Ssh

/-- `proto_MSG_NEWKEYS`. -/
abbrev msgNewKeys : UInt8 := 21

/-- `proto_MSG_KEX_ECDH_INIT`. -/
abbrev msgKexEcdhInit : UInt8 := 30

/-- `proto_MSG_SERVICE_REQUEST`. -/
abbrev msgServiceRequest : UInt8 := 5

/-- `proto_MSG_SERVICE_ACCEPT`. -/
abbrev msgServiceAccept : UInt8 := 6

/-- `_client_HELLO_IDENTIFICATION`. -/
def helloIdentification : List UInt8 := ascii "SSH-2.0-hc"

/-- `_client_SERVICE_NAME`. -/
def serviceName : List UInt8 := ascii "ssh-userauth"

/-- What comes from outside. The results of `sendto` and the memory on the stack are numbered. -/
structure Environment where
  /-- The result of `connect`. -/
  connect : ℤ
  /-- The result of `sendto` for the identification. -/
  helloSent : ℤ
  /-- The data of the calls of `recvfrom` for the identification, and what later ones deliver. -/
  segments : List (List UInt8)
  /-- How much each of the later calls of `recvfrom` delivers at most. -/
  limits : List ℕ
  /-- The result of `sendto` for a packet. -/
  sendto : ℕ → List UInt8 → ℤ
  cookie : Option (Bytes 16)
  secret : Option (Bytes 32)
  tail : ℕ → Bytes 83
  poly1305 : ℕ → Poly1305
  /-- What is in memory behind `sharedSecret`. -/
  behindSecret : ℕ → UInt8

/-- `struct client`, with the bytes of the socket and the limits of the calls of `recvfrom`, and the
messages so far with the mode they had. -/
structure Connection where
  client : Client
  partialExchangeHash : Sha256
  tempHash : Sha256
  sessionId : List UInt8
  stream : List UInt8
  limits : List ℕ
  /-- What was handed to `client_sendMessage`. -/
  sent : List (Encryption × List UInt8)
  /-- What `client_waitForMessage` has returned. -/
  received : List (Encryption × List UInt8)

/-- A function of the client that may fail. -/
abbrev Connecting := EStateM Exit Connection

/-- Another status is returned. -/
def Exit.withStatus (status : ℤ) : Exit → Exit
  | .outside => .outside
  | .returned _ => .returned status

/-- `if (status < 0) return ...` behind the call of a function. -/
def orReturn {α : Type} (status : ℤ) (x : Connecting α) : Connecting α :=
  EStateM.adaptExcept (Exit.withStatus status) x

/-! ## Messages -/

/-- `client_nextMessage`. -/
def Client.nextMessage (bufferSize : ℕ) (self : Client) (poly1305 : Poly1305) :
    Client × ℤ × List UInt8 :=
  let (client, size) := self.peekMessage bufferSize poly1305
  if size > 0 then (client.ackMessage bufferSize, size, client.messageAt bufferSize size.toNat)
  else (client, size, [])

/-- What `client_waitForMessage` leaves, with the size and the message that it returns. -/
structure Waited where
  client : Client
  stream : List UInt8
  limits : List ℕ
  size : ℤ
  message : List UInt8

/-- The loop of `client_waitForMessage`. A call of `recvfrom` that delivers nothing stands for the
end of the stream and for an error; no caller tells them apart. -/
def waitLoop (bufferSize : ℕ) (poly1305 : ℕ → Poly1305) (client : Client) (stream : List UInt8)
    (limits : List ℕ) : Waited :=
  let (client, size, message) := client.nextMessage bufferSize (poly1305 limits.length)
  if size > 0 then ⟨client, stream, limits, size, message⟩
  else if size < 0 then ⟨client, stream, limits, -1, []⟩
  else match limits with
    | [] => ⟨client, stream, [], 0, []⟩
    | limit :: limits =>
      let data := stream.take (min limit (bufferSize - client.receivedSize))
      if data = [] then ⟨client, stream, limits, 0, []⟩
      else
        waitLoop bufferSize poly1305 (client.receive bufferSize data) (stream.drop data.length)
          limits

section Functions

variable (bufferSize : ℕ) (env : Environment)

/-- `client_waitForMessage`. -/
def waitForMessage : Connecting (ℤ × List UInt8) := do
  let s ← get
  let waited := waitLoop bufferSize env.poly1305 s.client s.stream s.limits
  set { s with
    client := waited.client
    stream := waited.stream
    limits := waited.limits
    received := if waited.size > 0 then s.received ++ [(s.client.encryption, waited.message)]
      else s.received }
  return (waited.size, waited.message)

/-- `client_sendMessage`, with the status that the caller returns if it fails. -/
def sendMessage (message : List UInt8) (status : ℤ) : Connecting Unit := do
  let s ← get
  let out : Outgoing := ⟨message, env.tail s.sent.length, env.poly1305 s.sent.length⟩
  let (client, result) := s.client.sendMessage out (env.sendto s.sent.length)
  set { s with client, sent := s.sent ++ [(s.client.encryption, message)] }
  if result < 0 then throw (.returned status)

/-! ## The identification -/

/-- The fields that `client_connect` sets first. -/
def Client.reset (client : Client) : Client :=
  { client with
    bufferPos := 0
    receivedSize := 0
    receiveSequenceNumber := 0
    sendSequenceNumber := 0
    encryption := .none
    nextSize := 0 }

/-- `_client_doHello`. -/
def helloServer : Connecting Unit := do
  if env.helloSent ≠ helloIdentification.length + 2 then throw (.returned (-1))
  modify fun s => { s with
    partialExchangeHash := s.partialExchangeHash.init.update (counted 4 helloIdentification) }
  match doHello bufferSize env.segments with
  | .failed status => throw (.returned status)
  | .ok accepted =>
    modify fun s => { s with
      client := { s.client with
        buffer := accepted.buffer
        bufferPos := accepted.bufferPos
        receivedSize := accepted.receivedSize }
      partialExchangeHash :=
        (s.partialExchangeHash.update (accepted.hashed.take 4)).update (accepted.hashed.drop 4)
      stream := accepted.rest.flatten
      limits := env.limits }

/-! ## The key exchange -/

/-- The two calls of `sha256_update` for a message behind its size. -/
@[irreducible] def updateCounted (sha256 : Sha256) (bytes : List UInt8) : Sha256 :=
  (sha256.update (beBytes 4 bytes.length)).update bytes

theorem length_cookie (cookie : Bytes 16) : cookie.toList.length = 16 := cookie.toList_length

theorem length_otherLists :
    ([[], [], ascii "none", ascii "none", [], []] : List (List UInt8)).length = 6 := rfl

theorem length_reserved : ([0, 0, 0, 0] : List UInt8).length = 4 := rfl

theorem keyExchangeInit_lists :
    ∀ list ∈ (kexCurve25519 ++ ascii "," ++ kexCurve25519Libssh) :: hostKeyEd25519 ::
      cipherChacha20Poly1305 :: cipherChacha20Poly1305 ::
      [[], [], ascii "none", ascii "none", [], []], list.length < 256 ^ 4 := by
  decide

/-- The KEXINIT message of the client. -/
def keyExchangeInit (cookie : Bytes 16) : KexInit where
  cookie := cookie.toList
  kexList := kexCurve25519 ++ ascii "," ++ kexCurve25519Libssh
  hostKeyList := hostKeyEd25519
  clientCipherList := cipherChacha20Poly1305
  serverCipherList := cipherChacha20Poly1305
  -- The lists for MACs, compression and languages, each for both directions.
  otherLists := [[], [], ascii "none", ascii "none", [], []]
  reserved := [0, 0, 0, 0]
  cookie_length := length_cookie cookie
  otherLists_length := length_otherLists
  reserved_length := length_reserved
  list_length := keyExchangeInit_lists

/-- `_client_sendKeyExchangeInit`. -/
def sendKeyExchangeInit : Connecting Unit := do
  let some cookie := env.cookie | throw (.returned (-1))
  let message := (keyExchangeInit cookie).bytes
  modify fun s => { s with tempHash := updateCounted s.partialExchangeHash message }
  sendMessage env message (-2)

/-- The checks of `_client_doKeyExchange` on the KEXINIT message of the server. -/
def checkServerInit (serverInit : List UInt8) : Connecting Unit :=
  match parseServerInit serverInit with
  | .ok () => pure ()
  | .error exit => throw exit

/-- `publicKey`, as it is computed from the secret of the client. -/
def ecdhPublicKey (secret : Bytes 32) : Bytes 32 :=
  ⟨X25519.x25519 secret X25519.ecdhBasepoint, X25519.length_x25519 _ _⟩

/-- `sharedSecret`, with what is in memory behind it. -/
def sharedSecretMemory (secret publicKey : Bytes 32) : ℕ → UInt8 :=
  Memory.write env.behindSecret 0 (X25519.x25519 secret publicKey)

/-- The calls of `sha256_update` that finish the exchange hash. -/
@[irreducible] def updateExchangeHash (tempHash : Sha256) (publicKey : Bytes 32)
    (reply : List UInt8) (sharedSecret : ℕ → UInt8) : Sha256 :=
  let tempHash := tempHash.update ((reply.drop 1).take 55)
  let tempHash := tempHash.update (beBytes 4 32)
  let tempHash := tempHash.update publicKey.toList
  let tempHash := tempHash.update ((reply.drop 56).take 36)
  sha256UpdateSharedSecret tempHash sharedSecret

/-- Set the session id, unless it was set by an earlier exchange. -/
def setSessionId (exchangeHash : List UInt8) : Connecting Unit :=
  modify fun s => if s.client.encryption = .none then { s with sessionId := exchangeHash } else s

/-- The calls that both keys of a turn begin with, and the ones for `rest`. -/
def hashForKey (tempHash : Sha256) (sharedSecret : ℕ → UInt8) (exchangeHash : List UInt8)
    (rest : List (List UInt8)) : Sha256 :=
  let tempHash := sha256UpdateSharedSecret tempHash.init sharedSecret
  let tempHash := tempHash.update exchangeHash
  rest.foldl Sha256.update tempHash

/-- A digest as a key. -/
def digestKey (tempHash : Sha256) : Bytes 32 := ⟨tempHash.finish, length_finish tempHash⟩

/-- One turn of the loop that derives keys: `tempHash`, and the keys for a packet and for its
size. -/
def derivePair (tempHash : Sha256) (sharedSecret : ℕ → UInt8) (exchangeHash sessionId : List UInt8)
    (i : ℕ) : Sha256 × Bytes 32 × Bytes 32 :=
  let tempHash := hashForKey tempHash sharedSecret exchangeHash [[UInt8.ofNat (67 + i)], sessionId]
  let key := digestKey tempHash
  -- Extend once.
  let tempHash := hashForKey tempHash sharedSecret exchangeHash [key.toList]
  (tempHash, key, digestKey tempHash)

/-- The loop that derives keys. -/
def deriveCiphers (tempHash : Sha256) (sharedSecret : ℕ → UInt8)
    (exchangeHash sessionId : List UInt8) : Sha256 × (Fin 4 → Bytes 32) :=
  let (tempHash, encAead, encLen) := derivePair tempHash sharedSecret exchangeHash sessionId 0
  let (tempHash, decAead, decLen) := derivePair tempHash sharedSecret exchangeHash sessionId 1
  (tempHash, ![encAead, encLen, decAead, decLen])

/-- The end of `_client_doKeyExchange`: the mode changes, and the keys are derived. -/
def deriveKeys (sharedSecret : ℕ → UInt8) (exchangeHash : List UInt8) : Connecting Unit :=
  modify fun s =>
    let (tempHash, keys) := deriveCiphers s.tempHash sharedSecret exchangeHash s.sessionId
    { s with tempHash, client := s.client.newKeys keys }

/-- The part of `_client_doKeyExchange` from the KEX_ECDH_INIT message to the signature, with
`sharedSecret` and `exchangeHash`. -/
def exchangeEcdh : Connecting ((ℕ → UInt8) × List UInt8) := do
  -- Send KEX_ECDH_INIT message.
  let some secret := env.secret | throw (.returned (-12))
  let publicKey := ecdhPublicKey secret
  sendMessage env (msgKexEcdhInit :: counted 4 publicKey.toList) (-13)
  -- Wait for server's KEX_ECDH_REPLY.
  let (replySize, reply) ← waitForMessage bufferSize env
  if replySize ≠ 179 then throw (.returned (-14))
  if ecdhReplyRefused reply then throw (.returned (-15))
  let ecdhReply := EcdhReply.load reply
  -- Calculate shared secret.
  let sharedSecret := sharedSecretMemory env secret ecdhReply.publicKey
  -- Finish exchange hash.
  modify fun s => { s with
    tempHash := updateExchangeHash s.tempHash publicKey reply sharedSecret }
  let exchangeHash := (← get).tempHash.finish
  -- Verify signature.
  if Ed25519.verify exchangeHash ecdhReply.hostKey.toList ecdhReply.signature.toList ≠ 0 then
    throw (.returned (-16))
  return (sharedSecret, exchangeHash)

/-- The part of `_client_doKeyExchange` behind the session id. -/
def changeKeys (sharedSecret : ℕ → UInt8) (exchangeHash : List UInt8) : Connecting Unit := do
  -- Send NEWKEYS message.
  sendMessage env [msgNewKeys] (-17)
  -- Wait for server's NEWKEYS message.
  let (newKeysSize, newKeys) ← waitForMessage bufferSize env
  if newKeysSize ≠ 1 then throw (.returned (-18))
  if byteAt newKeys 0 ≠ msgNewKeys then throw (.returned (-19))
  deriveKeys sharedSecret exchangeHash

/-- `_client_doKeyExchange`. -/
def doKeyExchange (serverInit : List UInt8) : Connecting Unit := do
  checkServerInit serverInit
  modify fun s => { s with tempHash := updateCounted s.tempHash serverInit }
  let (sharedSecret, exchangeHash) ← exchangeEcdh bufferSize env
  setSessionId exchangeHash
  changeKeys bufferSize env sharedSecret exchangeHash

/-! ## The service -/

/-- The checks of `_client_doServiceRequest` on the response. -/
def serviceRefused (response : List UInt8) : Prop :=
  byteAt response 0 ≠ msgServiceAccept ∨
  countAt 4 response 1 ≠ serviceName.length ∨
  memCompare (Bytes.load 12 response 5).toList serviceName ≠ 0

instance : DecidablePred serviceRefused := fun _ => inferInstanceAs (Decidable (_ ∨ _))

/-- `_client_doServiceRequest`. -/
def doServiceRequest : Connecting Unit := do
  sendMessage env (msgServiceRequest :: counted 4 serviceName) (-1)
  let (responseSize, response) ← waitForMessage bufferSize env
  if responseSize ≠ 17 then throw (.returned (-2))
  if serviceRefused response then throw (.returned (-3))

/-- `client_connect`. -/
def connect : Connecting Unit := do
  modify fun s => { s with client := s.client.reset }
  -- Connect to server.
  if env.connect < 0 then throw (.returned (-1))
  orReturn (-2) (helloServer bufferSize env)
  orReturn (-3) (sendKeyExchangeInit env)
  -- Receive next message (should be a KEXINIT).
  let (serverMessageSize, serverMessage) ← waitForMessage bufferSize env
  if serverMessageSize ≤ 0 then throw (.returned (-4))
  -- Perform key exchange.
  orReturn (-5) (doKeyExchange bufferSize env serverMessage)
  orReturn (-6) (doServiceRequest bufferSize env)

end Functions

end Hc.Ssh
