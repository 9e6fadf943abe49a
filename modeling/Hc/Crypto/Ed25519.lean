import Hc.Crypto.Ed25519Ge
import Hc.Crypto.Sha2
import Hc.Crypto.X25519

/-!
# Ed25519 signatures

The end of `hc/core/hc/crypto/ed25519.c`: keys, signatures and their verification, and the
multiplication of the base point for X25519.
-/

namespace Hc.Ed25519

open Curve25519

/-- `sha512_init`, one `sha512_update` for each chunk, and `sha512_finish`, on a struct on
the stack. -/
def hash (chunks : List (List UInt8)) : List UInt8 :=
  let sha512 : Sha512 := ⟨(fun _ => 0, 0), 0, .replicate 128 0⟩
  (chunks.foldl Sha512.update sha512.init).finish

/-- `_ed25519_extSecret`. -/
def extSecret (secret : List UInt8) : List UInt8 := X25519.clamp (hash [secret])

/-- `_ed25519_hram`. -/
def hram (signature pub message : List UInt8) : List UInt8 :=
  hash [signature.take 32, pub, message]

/-- `ed25519_public`: the bytes of `publicOut`. -/
def publicKey (secret : List UInt8) : List UInt8 :=
  let a := modmLoad (extSecret secret) false
  pack (scalarmultBaseNiels a)

/-- `ed25519_sign`: the bytes of `signatureOut`. -/
def sign (message secret pub : List UInt8) : List UInt8 :=
  let extSecret := extSecret secret
  -- r = H(aExt[32..64], message)
  let hashr := hash [(extSecret.drop 32).take 32, message]
  let r := modmLoad hashr true
  -- R = rB
  let R := pack (scalarmultBaseNiels r)
  -- S = H(R,A,message)
  let S := modmLoad (hram R pub message) true
  -- S = H(R,A,message)a
  let a := modmLoad extSecret false
  let S := modmMul S a
  -- S = (r + H(R,A,message)a)
  let S := modmAdd S r
  R ++ modmStore S

/-- `ed25519_verify`: zero if the signature is valid. -/
def verify (message pub signature : List UInt8) : ℤ :=
  if byteAt signature 63 &&& 224 ≠ 0 then 1
  else
    match unpackNegativeVartime pub with
    | none => 1
    | some A =>
      let hram := modmLoad (hram signature pub message) true
      let S := modmLoad (signature.drop 32) false
      -- SB - H(R,A,message)A
      let checkR := pack (doubleScalarmultVartime A hram S)
      memCompare (signature.take 32) checkR

/-- `ed25519_x25519Basepoint`: the bytes of `publicOut`. -/
def x25519Basepoint (secret : List UInt8) : List UInt8 :=
  let s := modmLoad (X25519.clamp secret) false
  let p := scalarmultBaseNiels s
  -- u = (y + z) / (z - y)
  let yplusz := addNoReduce p.y p.z
  let zminusy := subNoReduce p.z p.y
  let zminusy := invert zminusy
  let yplusz := mul yplusz zminusy
  store (reduce yplusz)

end Hc.Ed25519
