import TokenLedger.Ed25519.Curve
import TokenLedger.Hash.Sha512

/-!
# Ed25519 signatures

Signing and verification over edwards25519 with SHA-512. A signature is a point `R` and a number
`S`; it is accepted if `S` is reduced and `R` is exactly the encoding of `S B - k A`, where `k` is
the challenge. The comparison is of encodings, so a non-canonical `R` is never accepted, while the
key may be any encoding that decodes, points of small order included.
-/

namespace TokenLedger

/-- An Ed25519 signature: 64 bytes, of which nothing else is known. -/
structure Signature where
  toBytes : Bytes
  length_toBytes : toBytes.length = 64
deriving DecidableEq

namespace Signature

def ofBytes? (bytes : Bytes) : Option Signature :=
  if whole : bytes.length = 64 then some ⟨bytes, whole⟩ else none

@[simp] theorem ofBytes?_toBytes (s : Signature) : ofBytes? s.toBytes = some s := by
  simp [ofBytes?, s.length_toBytes]

def ofHalves (r s : Bytes32) : Signature :=
  ⟨r.toBytes ++ s.toBytes, by simp [r.length_toBytes, s.length_toBytes]⟩

/-- The first half, the encoding of a point. -/
def pointHalf (s : Signature) : Bytes32 :=
  ⟨s.toBytes.take 32, by simp [s.length_toBytes]⟩

/-- The second half, the encoding of a number. -/
def numberHalf (s : Signature) : Bytes32 :=
  ⟨s.toBytes.drop 32, by simp [s.length_toBytes]⟩

end Signature

namespace Ed25519

/-- The order of the base point. -/
def groupOrder : Nat := (1 <<< 252) + 27742317777372353535851937790883648493

/-- The secret number and the nonce key that a seed expands to. -/
structure Expanded where
  scalar : Nat
  nonceKey : Bytes

/-- Hashes a seed; the low half becomes a multiple of 8 between `2^254` and `2^255`. -/
def expand (seed : Bytes32) : Expanded :=
  let h := Sha512.digest seed.toBytes
  let n := Bytes.toNatLE (h.take 32)
  { scalar := (1 <<< 254) + (n % (1 <<< 254)) / 8 * 8
    nonceKey := h.drop 32 }

def publicKey (seed : Bytes32) : Bytes32 :=
  (Point.multiple (expand seed).scalar Point.base).encode

/-- The bytes whose hash is the challenge of a signature. -/
def challengeInput (r key : Bytes32) (message : Bytes) : Bytes :=
  r.toBytes ++ key.toBytes ++ message

/-- The challenge, a hash read as a number modulo the group order. -/
def challenge (r key : Bytes32) (message : Bytes) : Nat :=
  Bytes.toNatLE (Sha512.digest (challengeInput r key message)) % groupOrder

def sign (seed : Bytes32) (message : Bytes) : Signature :=
  let secret := expand seed
  let key := publicKey seed
  let nonce := Bytes.toNatLE (Sha512.digest (secret.nonceKey ++ message)) % groupOrder
  let r := (Point.multiple nonce Point.base).encode
  let k := challenge r key message
  .ofHalves r (.ofNatLE ((nonce + k * secret.scalar) % groupOrder))

/-- Why a signature is not accepted. -/
inductive VerifyError where
  /-- The key is no point of the curve. -/
  | badKey
  | badSignature
deriving DecidableEq

/-- Checks a signature of a message against a public key. -/
def verify (key : Bytes32) (message : Bytes) (signature : Signature) : Except VerifyError Unit :=
  match Point.decode? key with
  | none => .error .badKey
  | some a =>
    let s := signature.numberHalf.toNatLE
    if groupOrder ≤ s then .error .badSignature
    else
      let k := challenge signature.pointHalf key message
      let expected := (Point.multiple s Point.base).add (Point.multiple k a.neg)
      if expected.encode = signature.pointHalf then .ok () else .error .badSignature

end Ed25519

end TokenLedger
