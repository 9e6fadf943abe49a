import Hc.Ssh.KeyExchange
import Hc.Ssh.SharedSecret

/-!
# The exchange hash

What the two sides of a key exchange hash and derive, as RFC 4253 and RFC 8731 define it, and the
KEX_ECDH_REPLY message of `_client_doKeyExchange` in `hc/examples/ssh/client.c` that it is about.
-/

namespace Hc.Ssh

/-! ## The reply of the server -/

/-- `proto_MSG_KEX_ECDH_REPLY`. -/
abbrev msgKexEcdhReply : UInt8 := 31

/-- What a KEX_ECDH_REPLY message holds: the host key, the public key of the exchange, and the
signature. -/
structure EcdhReply where
  hostKey : Bytes 32
  publicKey : Bytes 32
  signature : Bytes 64

namespace EcdhReply

/-- The host key with its type. -/
def hostKeyBlob (self : EcdhReply) : List UInt8 :=
  counted 4 hostKeyEd25519 ++ counted 4 self.hostKey.toList

/-- The signature with its type. -/
def signatureBlob (self : EcdhReply) : List UInt8 :=
  counted 4 hostKeyEd25519 ++ counted 4 self.signature.toList

/-- The bytes of the message. -/
def bytes (self : EcdhReply) : List UInt8 :=
  msgKexEcdhReply :: (counted 4 self.hostKeyBlob ++ (counted 4 self.publicKey.toList ++
    counted 4 self.signatureBlob))

/-- The fields that `_client_doKeyExchange` uses of a reply. -/
def load (reply : List UInt8) : EcdhReply where
  hostKey := .load 32 reply 24
  publicKey := .load 32 reply 60
  signature := .load 64 reply 115

end EcdhReply

/-- The checks of `_client_doKeyExchange` on the reply, which is an `ecdhReply` of 179 bytes. -/
def ecdhReplyRefused (reply : List UInt8) : Prop :=
  byteAt reply 0 ≠ msgKexEcdhReply ∨
  countAt 4 reply 1 ≠ 51 ∨
  countAt 4 reply 5 ≠ 11 ∨
  memCompare (Bytes.load 11 reply 9).toList hostKeyEd25519 ≠ 0 ∨
  countAt 4 reply 20 ≠ 32 ∨
  countAt 4 reply 56 ≠ 32 ∨
  countAt 4 reply 92 ≠ 83 ∨
  countAt 4 reply 96 ≠ 11 ∨
  memCompare (Bytes.load 11 reply 100).toList hostKeyEd25519 ≠ 0 ∨
  countAt 4 reply 111 ≠ 64

instance : DecidablePred ecdhReplyRefused := fun _ => inferInstanceAs (Decidable (_ ∨ _))

section Reply

variable {reply : List UInt8}

/-- A number that stands at an offset. -/
theorem drop_eq_beBytes (k : ℕ) {file : List UInt8} {offset : ℕ} (h : offset + k ≤ file.length) :
    file.drop offset = beBytes k (countAt k file offset) ++ file.drop (offset + k) := by
  have hbytes := beBytes_beNat ((file.drop offset).take k)
  rw [List.length_take_of_le (by rw [List.length_drop]; omega)] at hbytes
  rw [countAt, hbytes, ← List.drop_drop, List.take_append_drop]

/-- The number that stands at an offset is found, and what is behind it. -/
theorem countAt_of_beBytes {k n : ℕ} {file rest : List UInt8} {offset : ℕ} (hn : n < 256 ^ k)
    (h : file.drop offset = beBytes k n ++ rest) :
    countAt k file offset = n ∧ file.drop (offset + k) = rest := by
  have hrest := drop_add_length h
  rw [length_beBytes] at hrest
  refine ⟨?_, hrest⟩
  rw [countAt, h, List.take_left' (length_beBytes k n), beNat_beBytes, Nat.mod_eq_of_lt hn]

theorem EcdhReply.bytes_eq (r : EcdhReply) : r.bytes =
    msgKexEcdhReply :: (beBytes 4 51 ++ (beBytes 4 11 ++ (hostKeyEd25519 ++ (beBytes 4 32 ++
      (r.hostKey.toList ++ (beBytes 4 32 ++ (r.publicKey.toList ++ (beBytes 4 83 ++
        (beBytes 4 11 ++ (hostKeyEd25519 ++ (beBytes 4 64 ++ r.signature.toList))))))))))) := by
  have htype : hostKeyEd25519.length = 11 := rfl
  simp only [bytes, hostKeyBlob, signatureBlob, counted, List.length_append, length_beBytes, htype,
    List.Vector.toList_length, List.append_assoc]

theorem EcdhReply.length_bytes (r : EcdhReply) : r.bytes.length = 179 := by
  have htype : hostKeyEd25519.length = 11 := rfl
  simp only [bytes_eq, List.length_cons, List.length_append, length_beBytes, htype,
    List.Vector.toList_length]

/-- A reply stands field for field where it is looked for. -/
theorem EcdhReply.load_bytes (r : EcdhReply) : load r.bytes = r ∧ ¬ ecdhReplyRefused r.bytes := by
  have h1 : r.bytes.drop 1 = beBytes 4 51 ++ (beBytes 4 11 ++ (hostKeyEd25519 ++ (beBytes 4 32 ++
      (r.hostKey.toList ++ (beBytes 4 32 ++ (r.publicKey.toList ++ (beBytes 4 83 ++
        (beBytes 4 11 ++ (hostKeyEd25519 ++ (beBytes 4 64 ++ r.signature.toList)))))))))) := by
    rw [r.bytes_eq]
    rfl
  obtain ⟨hhostKeySize, h5⟩ := countAt_of_beBytes (by decide) h1
  obtain ⟨hkeyTypeSize, h9⟩ := countAt_of_beBytes (by decide) h5
  have htype : ∀ offset rest, r.bytes.drop offset = hostKeyEd25519 ++ rest →
      Bytes.load 11 r.bytes offset = ⟨hostKeyEd25519, rfl⟩ ∧ r.bytes.drop (offset + 11) = rest :=
    fun offset rest h => ⟨Bytes.load_of_drop ⟨hostKeyEd25519, rfl⟩ h, drop_add_length h⟩
  have hkey : ∀ offset (key : Bytes 32) rest, r.bytes.drop offset = key.toList ++ rest →
      Bytes.load 32 r.bytes offset = key ∧ r.bytes.drop (offset + 32) = rest := by
    intro offset key rest h
    have hrest := drop_add_length h
    rw [key.toList_length] at hrest
    exact ⟨Bytes.load_of_drop key h, hrest⟩
  obtain ⟨hkeyType, h20⟩ := htype _ _ h9
  obtain ⟨hpublicKeySize, h24⟩ := countAt_of_beBytes (by decide) h20
  obtain ⟨hhostKey, h56⟩ := hkey _ _ _ h24
  obtain ⟨hserverKeySize, h60⟩ := countAt_of_beBytes (by decide) h56
  obtain ⟨hserverKey, h92⟩ := hkey _ _ _ h60
  obtain ⟨hfullSize, h96⟩ := countAt_of_beBytes (by decide) h92
  obtain ⟨hsignatureTypeSize, h100⟩ := countAt_of_beBytes (by decide) h96
  obtain ⟨hsignatureType, h111⟩ := htype _ _ h100
  obtain ⟨hsignatureSize, h115⟩ := countAt_of_beBytes (by decide) h111
  have hsignature : Bytes.load 64 r.bytes 115 = r.signature :=
    Bytes.load_of_drop r.signature (h115.trans (List.append_nil _).symm)
  constructor
  · rw [load, hhostKey, hserverKey, hsignature]
  · have hopcode : byteAt r.bytes 0 = msgKexEcdhReply := rfl
    have hcompare : memCompare hostKeyEd25519 hostKeyEd25519 = 0 := by decide
    rw [ecdhReplyRefused, hhostKeySize, hkeyTypeSize, hkeyType, hpublicKeySize, hserverKeySize,
      hfullSize, hsignatureTypeSize, hsignatureType, hsignatureSize, hopcode]
    simp [List.Vector.toList, hcompare]

/-- What is not refused is a reply. -/
theorem EcdhReply.bytes_load (hlength : reply.length = 179) (h : ¬ ecdhReplyRefused reply) :
    (load reply).bytes = reply := by
  simp only [ecdhReplyRefused, not_or, not_not] at h
  obtain ⟨hopcode, hhostKeySize, hkeyTypeSize, hkeyType, hpublicKeySize, hserverKeySize, hfullSize,
    hsignatureTypeSize, hsignatureType, hsignatureSize⟩ := h
  have htype : ∀ offset, memCompare (Bytes.load 11 reply offset).toList hostKeyEd25519 = 0 →
      (Bytes.load 11 reply offset).toList = hostKeyEd25519 := fun offset h =>
    (memCompare_eq_zero_iff (by rw [List.Vector.toList_length]; rfl)).mp h
  have hnumber : ∀ offset n, offset + 4 ≤ 179 → countAt 4 reply offset = n →
      reply.drop offset = beBytes 4 n ++ reply.drop (offset + 4) := by
    intro offset n hle hcount
    rw [← hcount]
    exact drop_eq_beBytes 4 (hlength ▸ hle)
  have hbytes : ∀ (n : ℕ) offset, offset + n ≤ 179 →
      reply.drop offset = (Bytes.load n reply offset).toList ++ reply.drop (offset + n) :=
    fun n offset hle => Bytes.drop_eq_load (hlength ▸ hle)
  have hend : reply.drop (115 + 64) = [] := List.drop_of_length_le hlength.le
  have hstart : reply = msgKexEcdhReply :: reply.drop 1 := by
    cases reply with
    | nil => simp at hlength
    | cons b rest =>
        rw [← hopcode]
        rfl
  rw [bytes_eq]
  conv_rhs =>
    rw [hstart, hnumber 1 51 (by decide) hhostKeySize, hnumber 5 11 (by decide) hkeyTypeSize,
      hbytes 11 9 (by decide), htype _ hkeyType, hnumber 20 32 (by decide) hpublicKeySize,
      hbytes 32 24 (by decide), hnumber 56 32 (by decide) hserverKeySize,
      hbytes 32 60 (by decide), hnumber 92 83 (by decide) hfullSize,
      hnumber 96 11 (by decide) hsignatureTypeSize, hbytes 11 100 (by decide),
      htype _ hsignatureType, hnumber 111 64 (by decide) hsignatureSize, hbytes 64 115 (by decide),
      hend, List.append_nil]
  rfl

end Reply

/-! ## What is hashed -/

/-- The hash was fed with the bytes since it was initialised. -/
def Fed (sha256 : Sha256) (bytes : List UInt8) : Prop :=
  ∃ (self : Sha256) (chunks : List (List UInt8)),
    sha256 = chunks.foldl Sha256.update self.init ∧ bytes = chunks.flatten

section Hash

variable {sha256 : Sha256} {bytes : List UInt8}

theorem fed_init (self : Sha256) : Fed self.init [] := ⟨self, [], rfl, rfl⟩

theorem Fed.update (h : Fed sha256 bytes) (chunk : List UInt8) :
    Fed (sha256.update chunk) (bytes ++ chunk) := by
  obtain ⟨self, chunks, rfl, rfl⟩ := h
  refine ⟨self, chunks ++ [chunk], ?_, ?_⟩
  · rw [List.foldl_append]
    rfl
  · rw [List.flatten_append, List.flatten_singleton]

/-- What `_client_sha256UpdateSharedSecret` feeds. -/
theorem Fed.sharedSecret (h : Fed sha256 bytes) (secret : ℕ → UInt8) :
    Fed (sha256UpdateSharedSecret sha256 secret)
      (bytes ++ (sharedSecretUpdates secret).flatten) := by
  obtain ⟨self, chunks, rfl, rfl⟩ := h
  refine ⟨self, chunks ++ sharedSecretUpdates secret, ?_, ?_⟩
  · rw [List.foldl_append]
    rfl
  · rw [List.flatten_append]

/-- The digest is the one of the standard. -/
theorem Fed.finish_eq (h : Fed sha256 bytes) : sha256.finish = Fips180.sha256 bytes := by
  obtain ⟨self, chunks, rfl, rfl⟩ := h
  exact Sha256.digest_eq chunks self

theorem length_finish (self : Sha256) : self.finish.length = 32 := by
  simp only [Sha256.finish, List.length_flatMap, storeBE, length_beBytes]
  simp

end Hash

/-- What the two sides of an exchange know: their identifications, their KEXINIT messages, the
public key of the client, and the reply of the server. -/
structure Exchange where
  clientId : List UInt8
  serverId : List UInt8
  clientInit : List UInt8
  serverInit : List UInt8
  clientKey : Bytes 32
  reply : EcdhReply

namespace Exchange

/-- What is hashed in front of the shared secret. -/
def hashed (self : Exchange) : List UInt8 :=
  counted 4 self.clientId ++ counted 4 self.serverId ++ counted 4 self.clientInit ++
    counted 4 self.serverInit ++ counted 4 self.reply.hostKeyBlob ++
    counted 4 self.clientKey.toList ++ counted 4 self.reply.publicKey.toList

/-- The exchange hash of RFC 8731, section 3.1, with an encoded shared secret. -/
def hash (self : Exchange) (secret : List UInt8) : List UInt8 :=
  Fips180.sha256 (self.hashed ++ secret)

end Exchange

/-- The 64 bytes that RFC 4253, section 7.2, derives for a letter. -/
def deriveKey (secret hash : List UInt8) (letter : UInt8) (sessionId : List UInt8) : List UInt8 :=
  let first := Fips180.sha256 (secret ++ hash ++ [letter] ++ sessionId)
  first ++ Fips180.sha256 (secret ++ hash ++ first)

end Hc.Ssh
