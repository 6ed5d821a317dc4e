import TokenLedger.Hash.Blake3
import TokenLedger.Record

/-!
# Derived account addresses

An account's address is the hash of a preimage that names its owner and its mint, so that anyone
can compute it. The preimage begins with a fixed tag and a namespace of the ledger's choosing, whose
length is written before it: no two triples of namespace, owner and mint share a preimage.
-/

namespace TokenLedger

namespace Derivation

/-- The tag that keeps account addresses apart from all other hashes. -/
def domain : Bytes := Bytes.ofText "mintledger-account-v0:"

def defaultNamespace : Bytes := Bytes.ofText "token"

def preimage (ns : Bytes) (owner : Principal) (mint : MintAddress) : Bytes :=
  domain ++ Bytes.ofNatLE 8 ns.length ++ ns ++ owner.toBytes ++ mint.toBytes

end Derivation

/-- The address of an owner's account for a mint, within a namespace. -/
def AccountAddress.derive (ns : Bytes) (owner : Principal) (mint : MintAddress) : AccountAddress :=
  ⟨Blake3.hash (Derivation.preimage ns owner mint)⟩

def AccountAddress.deriveDefault (owner : Principal) (mint : MintAddress) : AccountAddress :=
  .derive Derivation.defaultNamespace owner mint

/-- An owner's empty account for a mint, at its derived address. -/
def AccountRecord.create (ns : Bytes) (owner : Principal) (mint : MintAddress) : AccountRecord :=
  .empty (.derive ns owner mint) owner mint

end TokenLedger
