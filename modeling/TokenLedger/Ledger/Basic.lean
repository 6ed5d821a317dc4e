import TokenLedger.Derivation
import TokenLedger.Envelope
import TokenLedger.Ledger.Program

/-!
# The ledger

A ledger joins a store, the rules of issuing, transferring and burning, and a way to authenticate.
An operation that writes locks the addresses it touches, loads the records, applies the rule, and
commits the result as one batch that names the records loaded. If another user of the store has
changed one of them in between, the commit conflicts and the operation starts over from the load, up
to a fixed number of times. An operation that moves nothing does not commit.
-/

namespace TokenLedger

/-- The choices that a ledger leaves open. -/
structure LedgerConfig where
  ns : Bytes := Derivation.defaultNamespace
  /-- Whether moving nothing is refused, instead of being accepted without effect. -/
  rejectZeroAmounts : Bool := false
  /-- Whether the supply is audited after every issue and burn. -/
  auditAfterCommit : Bool := false
deriving DecidableEq

/-- A ledger, without the store that it works on. -/
structure Ledger where
  config : LedgerConfig := {}
  authenticator : Authenticator := .ed25519

abbrev LedgerProgram := ExceptT Failure Program

/-- What a submitted operation brought about. -/
inductive Outcome where
  | mintCreated (record : MintRecord)
  | accountCreated (record : AccountRecord)
  | issued (change : SupplyChange)
  | transferred (change : TransferChange)
  | burned (change : SupplyChange)
deriving DecidableEq

namespace LedgerProgram

/-- Calls the store and takes its reply as it comes. -/
def reply (call : StoreCall) : LedgerProgram call.Reply :=
  ExceptT.lift (.perform (.call call) .done)

/-- Calls the store; its errors are failures. -/
def call (call : StoreCall) : LedgerProgram call.Answer := do
  match ← reply call with
  | .ok answer => return answer
  | .error e => throw (.storage e)

def note (event : Event) : LedgerProgram Unit :=
  ExceptT.lift (.perform (.note event) .done)

/-- Holds addresses until the end. -/
def lock (keys : List Bytes32) : LedgerProgram Unit := do
  ExceptT.lift (.perform (.acquire keys) .done)
  note (.addressesLocked keys.eraseDups.length)

/-- The mint at an address, which must be there. -/
def loadMint (address : MintAddress) : LedgerProgram MintRecord := do
  match ← call (.getMint address) with
  | some record => return record
  | none => throw (.mintNotFound address)

/-- The account at an address, which must be there. -/
def loadAccount (address : AccountAddress) : LedgerProgram AccountRecord := do
  match ← call (.getAccount address) with
  | some record => return record
  | none => throw (.accountNotFound address)

/-- The outcome of a rule. -/
def rule {α : Type} (kind : OperationKind) (outcome : Except Rejection α) : LedgerProgram α :=
  match outcome with
  | .ok a => return a
  | .error reason => do
    note (.operationRejected kind reason)
    throw (.rejected reason)

/-! ## Committing -/

/-- How often an operation tries to commit. -/
def maxCommitAttempts : Nat := 64

/-- Runs a cycle of loading and computing once, and commits what it asks to be committed. -/
def attempt {α : Type} (cycle : LedgerProgram (α × Option WriteBatch))
    (onConflict : Subject → LedgerProgram α) : LedgerProgram α := do
  let (result, batch?) ← cycle
  match batch? with
  | none => return result
  | some batch =>
    match ← reply (.commit batch) with
    | .ok () => return result
    | .error (.conflict subject) => onConflict subject
    | .error e => throw (.storage e)

/-- Runs a cycle until its batch is committed, with at most so many reruns after a conflict. -/
def attempts {α : Type} (kind : OperationKind) (cycle : LedgerProgram (α × Option WriteBatch)) :
    (reruns : Nat) → LedgerProgram α
  | 0 => attempt cycle fun subject => throw (.storage (.conflict subject))
  | reruns + 1 =>
    attempt cycle fun subject => do
      note (.commitRetried kind subject (maxCommitAttempts - (reruns + 1)))
      attempts kind cycle reruns

/-- Loads a mint and an account, applies a rule to them, and asks for both results to be committed
    unless nothing moves. -/
def supplyCycle (kind : OperationKind) (mint : MintAddress) (account : AccountAddress)
    (amount : UInt64) (apply : MintRecord → AccountRecord → Except Rejection SupplyChange) :
    LedgerProgram (SupplyChange × Option WriteBatch) := do
  let mintRecord ← loadMint mint
  let accountRecord ← loadAccount account
  let change ← rule kind (apply mintRecord accountRecord)
  let batch : WriteBatch :=
    { mints := [⟨mintRecord, change.mint⟩], accounts := [⟨accountRecord, change.account⟩] }
  return (change, if amount = 0 then none else some batch)

/-- Loads two accounts, moves an amount between them, and asks for both results to be committed
    unless nothing moves. -/
def transferCycle (sender recipient : AccountAddress) (signer : Principal) (amount : UInt64) :
    LedgerProgram (TransferChange × Option WriteBatch) := do
  let senderRecord ← loadAccount sender
  let recipientRecord ← loadAccount recipient
  let change ← rule .transfer (Transition.transfer senderRecord recipientRecord signer amount)
  let batch : WriteBatch :=
    { mints := []
      accounts := [⟨senderRecord, change.sender⟩, ⟨recipientRecord, change.recipient⟩] }
  return (change, if amount = 0 ∨ sender = recipient then none else some batch)

/-- Audits a mint whose record is at hand. -/
def auditRecord (mint : MintRecord) : LedgerProgram SupplyReport := do
  let accounts ← call (.accountsByMint mint.address)
  let report := mint.checkSupply accounts
  if !report.consistent then note (.supplyMismatch report)
  return report

end LedgerProgram

namespace Ledger

open LedgerProgram

/-! ## Creating -/

def createMint (address : MintAddress) (decimals : UInt8) (authority : Principal) :
    LedgerProgram MintRecord := do
  lock [address.raw]
  let record := MintRecord.empty address authority decimals
  match ← call (.insertMint record) with
  | .inserted =>
    note (.mintCreated record)
    return record
  | .alreadyExists =>
    note (.mintTaken address)
    throw (.rejected (.alreadyExists (.mint address)))

/-- How many addresses are tried for a mint that may be anywhere. -/
def maxAddressAttempts : Nat := 8

/-- Creates a mint at the first candidate or, where a mint is there already, at the next. -/
def createMintAmong (decimals : UInt8) (authority : Principal) (attempt : Nat)
    (candidate : MintAddress) : (others : List MintAddress) → LedgerProgram MintRecord
  | [] => createMint candidate decimals authority
  | next :: others =>
    tryCatch (createMint candidate decimals authority) fun
      | .rejected (.alreadyExists address) => do
        note (.candidateTaken address attempt)
        createMintAmong decimals authority (attempt + 1) next others
      | failure => throw failure

/-- Creates a mint at one of a supply of random addresses, of which no more than the first eight are
    tried. -/
def createMintAnywhere (decimals : UInt8) (authority : Principal) (candidate : MintAddress)
    (others : List MintAddress) : LedgerProgram MintRecord :=
  createMintAmong decimals authority 1 candidate (others.take (maxAddressAttempts - 1))

/-- The address that an owner's account for a mint has or would have. -/
def accountAddress (ledger : Ledger) (owner : Principal) (mint : MintAddress) : AccountAddress :=
  .derive ledger.config.ns owner mint

/-- Creates an owner's empty account for a mint. The payer is only reported. -/
def createAccount (ledger : Ledger) (mint : MintAddress) (owner payer : Principal) :
    LedgerProgram AccountRecord := do
  let record := AccountRecord.create ledger.config.ns owner mint
  lock [mint.raw, record.address.raw]
  match ← call (.getMint mint) with
  | none => throw (.mintNotFound mint)
  | some _ =>
    match ← call (.insertAccount record) with
    | .inserted =>
      note (.accountCreated record payer)
      return record
    | .alreadyExists =>
      note (.accountTaken record.address)
      throw (.rejected (.alreadyExists (.account record.address)))

/-! ## Moving tokens -/

/-- Refuses to move nothing, where the ledger is to. -/
def checkAmount (ledger : Ledger) (amount : UInt64) : LedgerProgram Unit := do
  if amount = 0 ∧ ledger.config.rejectZeroAmounts then
    note .zeroAmountRejected
    throw (.rejected .zeroAmount)

/-- Audits after a change of supply, where the ledger is to. -/
def auditChange (ledger : Ledger) (mint : MintRecord) : LedgerProgram Unit := do
  if ledger.config.auditAfterCommit then
    let _ ← auditRecord mint

def issue (ledger : Ledger) (mint : MintAddress) (account : AccountAddress) (signer : Principal)
    (amount : UInt64) : LedgerProgram SupplyChange := do
  ledger.checkAmount amount
  lock [mint.raw, account.raw]
  let cycle := supplyCycle .issue mint account amount fun mint account =>
    Transition.issue mint account signer amount
  let change ← attempts .issue cycle (maxCommitAttempts - 1)
  note (.tokensIssued mint account amount change.mint.supply)
  ledger.auditChange change.mint
  return change

def transfer (ledger : Ledger) (sender recipient : AccountAddress) (signer : Principal)
    (amount : UInt64) : LedgerProgram TransferChange := do
  ledger.checkAmount amount
  lock [sender.raw, recipient.raw]
  let cycle := transferCycle sender recipient signer amount
  let change ← attempts .transfer cycle (maxCommitAttempts - 1)
  note (.tokensTransferred sender recipient amount)
  return change

def burn (ledger : Ledger) (mint : MintAddress) (account : AccountAddress) (signer : Principal)
    (amount : UInt64) : LedgerProgram SupplyChange := do
  ledger.checkAmount amount
  lock [mint.raw, account.raw]
  let cycle := supplyCycle .burn mint account amount fun mint account =>
    Transition.burn mint account signer amount
  let change ← attempts .burn cycle (maxCommitAttempts - 1)
  note (.tokensBurned mint account amount change.mint.supply)
  ledger.auditChange change.mint
  return change

/-! ## Submitting -/

/-- Does an operation for a principal: as the authority of a mint it creates, as the payer for an
    account it creates, and as the one who acts otherwise. -/
def perform (ledger : Ledger) (signer : Principal) : Operation → LedgerProgram Outcome
  | .createMint mint decimals => return .mintCreated (← createMint mint decimals signer)
  | .createAccount mint owner =>
    return .accountCreated (← ledger.createAccount mint owner signer)
  | .issue mint account amount => return .issued (← ledger.issue mint account signer amount)
  | .transfer sender recipient amount =>
    return .transferred (← ledger.transfer sender recipient signer amount)
  | .burn mint account amount => return .burned (← ledger.burn mint account signer amount)

/-- Authenticates an envelope and does its operation for the principal who signed it. -/
def submit (ledger : Ledger) (envelope : SignedOperation) : LedgerProgram Outcome :=
  match ledger.authenticator.authenticate envelope with
  | .ok signer => ledger.perform signer envelope.operation
  | .error e => do
    note (.authenticationFailed envelope.operation.kind envelope.signer)
    throw (.authentication e)

/-! ## Asking -/

def mint (address : MintAddress) : LedgerProgram (Option MintRecord) := call (.getMint address)

def account (address : AccountAddress) : LedgerProgram (Option AccountRecord) :=
  call (.getAccount address)

/-- An owner's account for a mint, if it has been created. -/
def accountFor (ledger : Ledger) (owner : Principal) (mint : MintAddress) :
    LedgerProgram (Option AccountRecord) :=
  account (ledger.accountAddress owner mint)

/-- What an owner has of a mint. The account must be there. -/
def balance (ledger : Ledger) (owner : Principal) (mint : MintAddress) : LedgerProgram UInt64 := do
  return (← loadAccount (ledger.accountAddress owner mint)).amount

def accountsByMint (mint : MintAddress) : LedgerProgram (List AccountRecord) :=
  call (.accountsByMint mint)

def accountsByOwner (owner : Principal) : LedgerProgram (List AccountRecord) :=
  call (.accountsByOwner owner)

def listMints : LedgerProgram (List MintAddress) := call .listMints

/-- Every mint in order with all its accounts. -/
def contents : LedgerProgram (List (Option MintRecord × List AccountRecord)) := do
  (← listMints).mapM fun address => return (← mint address, ← accountsByMint address)

/-- Compares a mint's supply with the balances of its accounts. The mint is locked, so that no issue
    and no burn of this ledger comes between the two readings. -/
def auditSupply (mint : MintAddress) : LedgerProgram SupplyReport := do
  lock [mint.raw]
  auditRecord (← loadMint mint)

end Ledger

end TokenLedger
