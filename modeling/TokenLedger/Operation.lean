import TokenLedger.Identity

/-!
# Operations and signed operations

What a principal can ask a ledger to do, as data that can be encoded and signed. Who asks is not
part of an operation: it is the signer of the envelope around it.
-/

namespace TokenLedger

/-- What can be asked of a ledger. -/
inductive Operation where
  /-- Create a mint at an address, with the signer as its authority. -/
  | createMint (mint : MintAddress) (decimals : UInt8)
  /-- Create an owner's account for a mint, at the signer's expense. -/
  | createAccount (mint : MintAddress) (owner : Principal)
  /-- Add tokens to an account and to the supply. -/
  | issue (mint : MintAddress) (account : AccountAddress) (amount : UInt64)
  | transfer (sender recipient : AccountAddress) (amount : UInt64)
  /-- Take tokens out of an account and out of the supply. -/
  | burn (mint : MintAddress) (account : AccountAddress) (amount : UInt64)
deriving DecidableEq

inductive OperationKind where
  | createMint
  | createAccount
  | issue
  | transfer
  | burn
deriving DecidableEq

namespace OperationKind

/-- All kinds, in the order of their codes. -/
def all : List OperationKind := [createMint, createAccount, issue, transfer, burn]

/-- The number that stands for the kind in encodings. -/
def code : OperationKind → UInt8
  | createMint => 0
  | createAccount => 1
  | issue => 2
  | transfer => 3
  | burn => 4

def ofCode? (code : Nat) : Option OperationKind := all[code]?

@[simp] theorem ofCode?_code (kind : OperationKind) : ofCode? kind.code.toNat = some kind := by
  cases kind <;> rfl

def text : OperationKind → String
  | createMint => "initialize"
  | createAccount => "create_token_account"
  | issue => "issue"
  | transfer => "transfer"
  | burn => "burn"

end OperationKind

def Operation.kind : Operation → OperationKind
  | .createMint .. => .createMint
  | .createAccount .. => .createAccount
  | .issue .. => .issue
  | .transfer .. => .transfer
  | .burn .. => .burn

/-- An operation with the principal who claims to have signed it and the signature to prove it. -/
structure SignedOperation where
  signer : Principal
  operation : Operation
  signature : Signature
deriving DecidableEq

end TokenLedger
