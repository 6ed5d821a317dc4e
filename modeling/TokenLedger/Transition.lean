import TokenLedger.Record

/-!
# Issuing, transferring and burning

The three ways in which balances move, as functions from records to records. Each checks its rules
in a fixed order and answers with the first one broken, or with the new records; whoever calls it
decides whether to keep them.
-/

namespace TokenLedger

/-- Why a rule of the ledger rejects an operation. -/
inductive Rejection where
  | unauthorized (required asserted : Principal)
  | mintMismatch (expected actual : MintAddress)
  | insufficientFunds (available requested : UInt64)
  /-- A supply or a balance would leave the range of amounts. -/
  | overflow
  | alreadyExists (address : Address)
  /-- Nothing was to be moved, and the ledger refuses that. -/
  | zeroAmount
deriving DecidableEq

def Rejection.message : Rejection → String
  | unauthorized required asserted =>
    "unauthorized: required signer " ++ required.text ++ ", got " ++ asserted.text
  | mintMismatch expected actual =>
    "mint mismatch: expected " ++ expected.text ++ ", got " ++ actual.text
  | insufficientFunds available requested =>
    "insufficient funds: balance " ++ toString available ++ ", requested " ++ toString requested
  | overflow => "arithmetic overflow"
  | alreadyExists address => "already initialized: " ++ address.text
  | zeroAmount => "zero amount rejected"

/-- A mint and one of its accounts after an issue or a burn. -/
structure SupplyChange where
  mint : MintRecord
  account : AccountRecord
deriving DecidableEq

structure TransferChange where
  sender : AccountRecord
  recipient : AccountRecord
deriving DecidableEq

namespace Transition

/-! ## Checks -/

/-- Whether `asserted` may act where `required` is needed. -/
def authorize (required asserted : Principal) : Bool := required = asserted

/-- Checks that `asserted` may act where `required` is needed. -/
def requireSigner (required asserted : Principal) : Except Rejection Unit :=
  if authorize required asserted then .ok () else .error (.unauthorized required asserted)

def requireMint (expected actual : MintAddress) : Except Rejection Unit :=
  if actual = expected then .ok () else .error (.mintMismatch expected actual)

def plus (a b : UInt64) : Except Rejection UInt64 :=
  if a.toNat + b.toNat < UInt64.size then .ok (a + b) else .error .overflow

def minus (a b : UInt64) : Except Rejection UInt64 :=
  if b ≤ a then .ok (a - b) else .error .overflow

/-- What is left in an account after `amount` is taken out, if it holds that much. -/
def debit (account : AccountRecord) (amount : UInt64) : Except Rejection UInt64 :=
  if amount ≤ account.amount then .ok (account.amount - amount)
  else .error (.insufficientFunds account.amount amount)

/-! ## Transitions -/

/-- Adds `amount` to an account and to its mint's supply, if the mint's authority signs. -/
def issue (mint : MintRecord) (account : AccountRecord) (signer : Principal) (amount : UInt64) :
    Except Rejection SupplyChange := do
  requireSigner mint.authority signer
  requireMint mint.address account.mint
  let supply ← plus mint.supply amount
  let balance ← plus account.amount amount
  return { mint := { mint with supply }, account := { account with amount := balance } }

/-- Moves `amount` from one account to another of the same mint, if the sender's owner signs. From
    an account to itself nothing moves. -/
def transfer (sender recipient : AccountRecord) (signer : Principal) (amount : UInt64) :
    Except Rejection TransferChange := do
  requireSigner sender.owner signer
  requireMint sender.mint recipient.mint
  let debited ← debit sender amount
  if sender.address = recipient.address then return { sender, recipient }
  let credited ← plus recipient.amount amount
  return { sender := { sender with amount := debited }
           recipient := { recipient with amount := credited } }

/-- Takes `amount` out of an account and out of its mint's supply, if the account's owner signs. -/
def burn (mint : MintRecord) (account : AccountRecord) (signer : Principal) (amount : UInt64) :
    Except Rejection SupplyChange := do
  requireSigner account.owner signer
  requireMint mint.address account.mint
  let balance ← debit account amount
  let supply ← minus mint.supply amount
  return { mint := { mint with supply }, account := { account with amount := balance } }

end Transition

end TokenLedger
