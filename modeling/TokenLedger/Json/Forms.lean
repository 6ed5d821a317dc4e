import TokenLedger.Audit
import TokenLedger.Json.Reader
import TokenLedger.Operation

/-!
# JSON forms of the ledger's values

How addresses, operations, envelopes and reports are written as JSON values and read back. A record
is written as an object with its fields in order; it is read from an object with the fields in any
order, other members being skipped, or from an array of just the fields. An operation is written as
an object with one member, named for its kind.
-/

namespace TokenLedger

namespace Json

/-! ## Parts of values -/

def Value.below? (bound : Nat) : Value → Option Nat
  | .natural n => if n < bound then some n else none
  | _ => none

def Value.word? (value : Value) : Option UInt64 := (value.below? UInt64.size).map UInt64.ofNat

def Value.text? : Value → Option String
  | .string (.plain text) => some text
  | _ => none

def Value.bool? : Value → Option Bool
  | .bool b => some b
  | _ => none

/-- The value of the one member with a name. -/
def member? (members : List (Text × Value)) (name : String) : Option Value :=
  match members.filter (·.1 = .plain name) with
  | [(_, value)] => some value
  | _ => none

/-- The fields of a record, in the order of their names. Every field must be there once, and every
    name must be a text. -/
def Value.fields? (names : List String) : Value → Option (List Value)
  | .array items => if items.length = names.length then some items else none
  | .object members =>
    if members.any (·.1 = .unpaired) then none else names.mapM (member? members)
  | _ => none

end Json

open Json (Value)

/-! ## Addresses, principals and signatures -/

namespace Bytes32

/-- The bytes as an array of numbers. -/
def toJson (value : Bytes32) : Value :=
  .array (value.toBytes.map fun byte => .natural byte.toNat)

/-- Reads an array of 32 numbers below 256. -/
def ofJson? : Value → Option Bytes32
  | .array items => do
    let bytes ← items.mapM fun item => (item.below? 256).map UInt8.ofNat
    Bytes32.ofBytes? bytes
  | _ => none

end Bytes32

def MintAddress.toJson (a : MintAddress) : Value := a.raw.toJson

/-- Reads an array of 32 numbers below 256. -/
def MintAddress.ofJson? (value : Value) : Option MintAddress := (Bytes32.ofJson? value).map (⟨·⟩)

def AccountAddress.toJson (a : AccountAddress) : Value := a.raw.toJson

/-- Reads an array of 32 numbers below 256. -/
def AccountAddress.ofJson? (value : Value) : Option AccountAddress :=
  (Bytes32.ofJson? value).map (⟨·⟩)

def Principal.toJson (p : Principal) : Value := p.raw.toJson

/-- Reads an array of 32 numbers below 256. -/
def Principal.ofJson? (value : Value) : Option Principal := (Bytes32.ofJson? value).map (⟨·⟩)

def Signature.toJson (s : Signature) : Value := .text s.hex

/-- Reads a string of 128 hex digits of either case. -/
def Signature.ofJson? (value : Value) : Option Signature := do
  match Hex.decode (← value.text?) with
  | .ok bytes => Signature.ofBytes? bytes
  | .error _ => none

/-! ## Operations -/

namespace OperationKind

def jsonName : OperationKind → String
  | createMint => "Initialize"
  | createAccount => "CreateTokenAccount"
  | issue => "Issue"
  | transfer => "Transfer"
  | burn => "Burn"

def ofJsonName? (name : String) : Option OperationKind := all.find? fun kind => kind.jsonName = name

@[simp] theorem ofJsonName?_jsonName (kind : OperationKind) :
    ofJsonName? kind.jsonName = some kind := by
  cases kind <;> rfl

/-- The kind as the string of its name. -/
def toJson (kind : OperationKind) : Value := .text kind.jsonName

/-- Reads the name of a kind, as a string or as the one member of an object, with nothing in it. -/
def ofJson? : Value → Option OperationKind
  | .string (.plain name) => ofJsonName? name
  | .object [(.plain name, .null)] => ofJsonName? name
  | _ => none

end OperationKind

namespace Operation

/-- The names of the fields of a kind of operation, in order. -/
def fieldNames : OperationKind → List String
  | .createMint => ["mint", "decimals"]
  | .createAccount => ["mint", "owner"]
  | .issue | .burn => ["mint", "account", "amount"]
  | .transfer => ["from", "to", "amount"]

def toFields : Operation → List Value
  | createMint mint decimals => [mint.toJson, .natural decimals.toNat]
  | createAccount mint owner => [mint.toJson, owner.toJson]
  | issue mint account amount | burn mint account amount =>
    [mint.toJson, account.toJson, .natural amount.toNat]
  | transfer sender recipient amount =>
    [sender.toJson, recipient.toJson, .natural amount.toNat]

/-- The operation of a kind with these fields. -/
def ofFields? : OperationKind → List Value → Option Operation
  | .createMint, [mint, decimals] => do
    return createMint (← MintAddress.ofJson? mint) (UInt8.ofNat (← decimals.below? 256))
  | .createAccount, [mint, owner] => do
    return createAccount (← MintAddress.ofJson? mint) (← Principal.ofJson? owner)
  | .issue, [mint, account, amount] => do
    return issue (← MintAddress.ofJson? mint) (← AccountAddress.ofJson? account) (← amount.word?)
  | .transfer, [sender, recipient, amount] => do
    return transfer (← AccountAddress.ofJson? sender) (← AccountAddress.ofJson? recipient)
      (← amount.word?)
  | .burn, [mint, account, amount] => do
    return burn (← MintAddress.ofJson? mint) (← AccountAddress.ofJson? account) (← amount.word?)
  | _, _ => none

/-- The operation as an object with one member, the record of its fields. -/
def toJson (operation : Operation) : Value :=
  .record [(operation.kind.jsonName,
    .record ((fieldNames operation.kind).zip operation.toFields))]

/-- Reads an object with one member, named for a kind, that is a record of the kind's fields. -/
def ofJson? : Value → Option Operation
  | .object [(.plain name, value)] => do
    let kind ← OperationKind.ofJsonName? name
    ofFields? kind (← value.fields? (fieldNames kind))
  | _ => none

end Operation

namespace SignedOperation

def toJson (envelope : SignedOperation) : Value :=
  .record [("signer", envelope.signer.toJson), ("operation", envelope.operation.toJson),
    ("signature", envelope.signature.toJson)]

/-- Reads a record of the three parts. -/
def ofJson? (value : Value) : Option SignedOperation := do
  match ← value.fields? ["signer", "operation", "signature"] with
  | [signer, operation, signature] =>
    return { signer := ← Principal.ofJson? signer
             operation := ← Operation.ofJson? operation
             signature := ← Signature.ofJson? signature }
  | _ => none

end SignedOperation

/-! ## Records and reports -/

def MintRecord.toJson (record : MintRecord) : Value :=
  .record [("address", record.address.toJson), ("authority", record.authority.toJson),
    ("decimals", .natural record.decimals.toNat), ("total_supply", .natural record.supply.toNat)]

def AccountRecord.toJson (record : AccountRecord) : Value :=
  .record [("address", record.address.toJson), ("owner", record.owner.toJson),
    ("mint", record.mint.toJson), ("amount", .natural record.amount.toNat)]

namespace SupplyReport

def toJson (report : SupplyReport) : Value :=
  .record [("mint", report.mint.toJson), ("total_supply", .natural report.supply.toNat),
    ("account_sum", .natural report.accountSum.toNat),
    ("accounts", .natural report.accounts.toNat), ("consistent", .bool report.consistent)]

/-- Reads a record of the five parts. -/
def ofJson? (value : Value) : Option SupplyReport := do
  match ← value.fields? ["mint", "total_supply", "account_sum", "accounts", "consistent"] with
  | [mint, supply, accountSum, accounts, consistent] =>
    return { mint := ← MintAddress.ofJson? mint
             supply := ← supply.word?
             accountSum := BitVec.ofNat 128 (← accountSum.below? (1 <<< 128))
             accounts := ← accounts.word?
             consistent := ← consistent.bool? }
  | _ => none

end SupplyReport

end TokenLedger
