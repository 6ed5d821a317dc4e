import TokenLedger.Hex
import TokenLedger.Ed25519.Signature

/-!
# Addresses and principals

Mints, token accounts and principals are named by 32 bytes each, and kept apart by type. A mint's
address is any value, an account's address is derived from its owner and mint, and a principal is
an Ed25519 public key. All are shown by their first 16 hex digits and read from all 64.
-/

namespace TokenLedger

structure MintAddress where
  raw : Bytes32
deriving DecidableEq

structure AccountAddress where
  raw : Bytes32
deriving DecidableEq

/-- Someone who can sign: an Ed25519 public key, not necessarily a point of the curve. -/
structure Principal where
  raw : Bytes32
deriving DecidableEq

inductive Address where
  | mint (address : MintAddress)
  | account (address : AccountAddress)
deriving DecidableEq

namespace MintAddress

def toBytes (a : MintAddress) : Bytes := a.raw.toBytes

def text (a : MintAddress) : String := a.raw.short

/-- How the address is shown with its kind, for diagnosis. -/
def label (a : MintAddress) : String := "Mint(" ++ a.text ++ ")"

def ofHex (text : String) : Except HexError MintAddress := (Hex.decode32 text).map (⟨·⟩)

def ofBytes? (bytes : Bytes) : Option MintAddress := (Bytes32.ofBytes? bytes).map (⟨·⟩)

end MintAddress

namespace AccountAddress

def toBytes (a : AccountAddress) : Bytes := a.raw.toBytes

def text (a : AccountAddress) : String := a.raw.short

/-- How the address is shown with its kind, for diagnosis. -/
def label (a : AccountAddress) : String := "Account(" ++ a.text ++ ")"

def ofHex (text : String) : Except HexError AccountAddress := (Hex.decode32 text).map (⟨·⟩)

def ofBytes? (bytes : Bytes) : Option AccountAddress := (Bytes32.ofBytes? bytes).map (⟨·⟩)

end AccountAddress

namespace Principal

def toBytes (p : Principal) : Bytes := p.raw.toBytes

def text (p : Principal) : String := p.raw.short

def label (p : Principal) : String := "Principal(" ++ p.text ++ ")"

def ofHex (text : String) : Except HexError Principal := (Hex.decode32 text).map (⟨·⟩)

def ofBytes? (bytes : Bytes) : Option Principal := (Bytes32.ofBytes? bytes).map (⟨·⟩)

end Principal

namespace Address

/-- The address with the kind of record it names. -/
def text : Address → String
  | .mint a => "mint " ++ a.text
  | .account a => "account " ++ a.text

end Address

namespace Signature

def hex (s : Signature) : String := Hex.encode s.toBytes

def label (s : Signature) : String := "Ed25519Sig(" ++ Hex.encode (s.toBytes.take 8) ++ "...)"

end Signature

/-- A signer's secret: the seed from which its keys are computed. -/
structure Keypair where
  seed : Bytes32
deriving DecidableEq

namespace Keypair

def principal (k : Keypair) : Principal := ⟨Ed25519.publicKey k.seed⟩

def sign (k : Keypair) (message : Bytes) : Signature := Ed25519.sign k.seed message

/-- How the keypair is shown: by its public half. -/
def label (k : Keypair) : String := "Keypair(" ++ k.principal.label ++ ")"

end Keypair

end TokenLedger
