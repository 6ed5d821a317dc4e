import TokenLedger.Identity

/-!
# Mint and account records

The two kinds of record that a ledger keeps. A mint has an authority that may issue and a total
supply; an account holds an amount of one mint for one owner. Supply and amount move; the other
fields are the record's identity and never change.
-/

namespace TokenLedger

/-- A mint: a kind of token. -/
structure MintRecord where
  address : MintAddress
  authority : Principal
  decimals : UInt8
  supply : UInt64
deriving DecidableEq

/-- A token account: what one owner has of one mint. -/
structure AccountRecord where
  address : AccountAddress
  owner : Principal
  mint : MintAddress
  amount : UInt64
deriving DecidableEq

namespace MintRecord

/-- A mint before anything is issued. -/
def empty (address : MintAddress) (authority : Principal) (decimals : UInt8) : MintRecord :=
  { address, authority, decimals, supply := 0 }

/-- Whether two records agree in all that never changes. -/
def SameIdentity (a b : MintRecord) : Prop :=
  a.address = b.address ∧ a.authority = b.authority ∧ a.decimals = b.decimals

instance (a b : MintRecord) : Decidable (SameIdentity a b) :=
  inferInstanceAs (Decidable (_ ∧ _ ∧ _))

end MintRecord

namespace AccountRecord

/-- An account before anything is moved into it. -/
def empty (address : AccountAddress) (owner : Principal) (mint : MintAddress) : AccountRecord :=
  { address, owner, mint, amount := 0 }

/-- Whether two records agree in all that never changes. -/
def SameIdentity (a b : AccountRecord) : Prop :=
  a.address = b.address ∧ a.owner = b.owner ∧ a.mint = b.mint

instance (a b : AccountRecord) : Decidable (SameIdentity a b) :=
  inferInstanceAs (Decidable (_ ∧ _ ∧ _))

end AccountRecord

end TokenLedger
