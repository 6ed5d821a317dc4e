import TokenLedger.Audit
import TokenLedger.Operation
import TokenLedger.Store.Basic
import TokenLedger.Transition

/-!
# Failures and events

How a ledger's operations end when they do not succeed, and what they report on the way. Both are
data; their wording is in one place each.
-/

namespace TokenLedger

/-! ## Failures -/

/-- Why an operation of a ledger did not succeed. -/
inductive Failure where
  | rejected (reason : Rejection)
  | storage (reason : StoreError)
  | authentication (reason : CoreError)
  | mintNotFound (address : MintAddress)
  | accountNotFound (address : AccountAddress)
deriving DecidableEq

namespace Failure

def message : Failure → String
  | rejected reason => "rejected: " ++ reason.message
  | storage reason => "storage error: " ++ reason.message
  | authentication reason => "authentication failed: " ++ reason.message
  | mintNotFound address => "mint not found: " ++ address.text
  | accountNotFound address => "token account not found: " ++ address.text

/-- The rule behind the failure, if there is one. -/
def rejection? : Failure → Option Rejection
  | rejected reason => some reason
  | _ => none

/-- The texts of what caused the failure, outermost first. -/
def causes : Failure → List String
  | rejected reason => [reason.message]
  | storage reason => reason.messages
  | authentication reason => [reason.message]
  | mintNotFound _ => []
  | accountNotFound _ => []

/-- The texts of the failure, outermost first. -/
def messages (failure : Failure) : List String := failure.message :: failure.causes

end Failure

/-! ## Events -/

/-- How much attention an event deserves. -/
inductive Level where
  | debug
  | info
  | warn
deriving DecidableEq

def Level.text : Level → String
  | debug => "DEBUG"
  | info => "INFO"
  | warn => "WARN"

/-- Something that a ledger reports. -/
inductive Event where
  | addressesLocked (count : Nat)
  | mintCreated (record : MintRecord)
  | mintTaken (mint : MintAddress)
  | candidateTaken (address : Address) (attempt : Nat)
  | accountCreated (record : AccountRecord) (payer : Principal)
  | accountTaken (account : AccountAddress)
  | zeroAmountRejected
  | operationRejected (kind : OperationKind) (reason : Rejection)
  | commitRetried (kind : OperationKind) (subject : Subject) (attempt : Nat)
  | tokensIssued (mint : MintAddress) (account : AccountAddress) (amount supply : UInt64)
  | tokensTransferred (sender recipient : AccountAddress) (amount : UInt64)
  | tokensBurned (mint : MintAddress) (account : AccountAddress) (amount supply : UInt64)
  | authenticationFailed (kind : OperationKind) (claimed : Principal)
  | supplyMismatch (report : SupplyReport)
  | schemaMigrated (found supported : Nat)
deriving DecidableEq

namespace Event

/-- The level of an event: what changed is for information, an unsound supply is a warning, and the
    rest is for finding errors. -/
def level : Event → Level
  | mintCreated .. | accountCreated .. => .info
  | tokensIssued .. | tokensTransferred .. | tokensBurned .. => .info
  | supplyMismatch .. => .warn
  | _ => .debug

def message : Event → String
  | addressesLocked .. => "acquired address locks"
  | mintCreated .. => "mint initialized"
  | mintTaken .. => "initialize rejected: already initialized"
  | candidateTaken .. => "random mint address taken, retrying"
  | accountCreated .. => "token account created"
  | accountTaken .. => "create rejected: already initialized"
  | zeroAmountRejected => "rejected zero amount"
  | operationRejected .. => "operation rejected"
  | commitRetried .. => "records changed before commit, retrying"
  | tokensIssued .. => "tokens issued"
  | tokensTransferred .. => "tokens transferred"
  | tokensBurned .. => "tokens burned"
  | authenticationFailed .. => "authentication failed"
  | supplyMismatch .. => "supply does not match account balances"
  | schemaMigrated .. => "migrated ledger schema"

/-- The particulars of an event, by name. -/
def fields : Event → List (String × String)
  | addressesLocked count => [("addresses", toString count)]
  | mintCreated record =>
    [("mint", record.address.text), ("authority", record.authority.text),
      ("decimals", toString record.decimals)]
  | mintTaken mint => [("mint", mint.text)]
  | candidateTaken address attempt => [("addr", address.text), ("attempt", toString attempt)]
  | accountCreated record payer =>
    [("account", record.address.text), ("owner", record.owner.text), ("mint", record.mint.text),
      ("payer", payer.text)]
  | accountTaken account => [("account", account.text)]
  | zeroAmountRejected => []
  | operationRejected kind reason => [("op", kind.text), ("error", reason.message)]
  | commitRetried kind subject attempt =>
    [("op", kind.text), ("record", subject.text), ("attempt", toString attempt)]
  | tokensIssued mint account amount supply | tokensBurned mint account amount supply =>
    [("mint", mint.text), ("account", account.text), ("amount", toString amount),
      ("supply", toString supply)]
  | tokensTransferred sender recipient amount =>
    [("from", sender.text), ("to", recipient.text), ("amount", toString amount)]
  | authenticationFailed kind claimed => [("kind", kind.text), ("claimed", claimed.text)]
  | supplyMismatch report =>
    [("mint", report.mint.text), ("total_supply", toString report.supply),
      ("account_sum", toString report.accountSum.toNat), ("accounts", toString report.accounts)]
  | schemaMigrated found supported =>
    [("from", toString found), ("to", toString supported)]

end Event

end TokenLedger
