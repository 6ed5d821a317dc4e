import TokenLedger.Codec

/-!
# Signing and authenticating operations

An operation is signed as its canonical bytes behind a fixed tag. Whoever applies operations is
handed a way to bind an envelope to the principal who signed it, an `Authenticator`; the one that
checks signatures is `Authenticator.ed25519`.
-/

namespace TokenLedger

/-- The tag that keeps signed operations apart from all other signed messages. -/
def Operation.signingDomain : Bytes := Bytes.ofText "mintledger-op-v0:"

def Operation.signingMessage (operation : Operation) : Bytes :=
  Operation.signingDomain ++ operation.encode

/-- The envelope in which a keypair asks for an operation. -/
def SignedOperation.sign (keypair : Keypair) (operation : Operation) : SignedOperation :=
  { signer := keypair.principal, operation, signature := keypair.sign operation.signingMessage }

def Principal.verify (p : Principal) (message : Bytes) (signature : Signature) :
    Except CoreError Unit :=
  match Ed25519.verify p.raw message signature with
  | .ok () => .ok ()
  | .error .badKey => .error .invalidPublicKey
  | .error .badSignature => .error .invalidSignature

/-- Binds an envelope to the principal who signed it, or refuses it. -/
structure Authenticator where
  authenticate : SignedOperation → Except CoreError Principal

namespace Authenticator

/-- Believes the claimed signer if the signature is theirs. -/
def ed25519 : Authenticator where
  authenticate envelope :=
    match envelope.signer.verify envelope.operation.signingMessage envelope.signature with
    | .ok () => .ok envelope.signer
    | .error e => .error e

/-- Believes every claim: for envelopes whose signatures were checked elsewhere. -/
def trusting : Authenticator where
  authenticate envelope := .ok envelope.signer

def refusing : Authenticator where
  authenticate _ := .error .invalidSignature

end Authenticator

end TokenLedger
