import TokenLedger.Cbor.Reader
import TokenLedger.Operation
import TokenLedger.Record

/-!
# Canonical bytes of records and operations

Each record and each operation is a CBOR map with small numbers as keys, in deterministic encoding,
so that equal values have equal bytes wherever they are written. Reading refuses every other
encoding: the bytes are read as any CBOR, written again, and compared. Key 0 tells record types and
kinds of operation apart; the other keys are used over again by each type.
-/

namespace TokenLedger

open Cbor (Item)

/-- Why bytes that are CBOR are not the canonical bytes of a value of the type wanted. -/
inductive Malformation where
  /-- Another encoding than the deterministic one, or more bytes after it. -/
  | notCanonical
  | notMap
  /-- No value of the right kind for a field. -/
  | missing (field : String)
  /-- A value of the right kind for a field, but out of its range. -/
  | invalid (field : String)
  | wrongTag (expected found : Nat)
  /-- A number that stands for no kind of operation. -/
  | unknownKind (code : Nat)
  /-- More than 255 decimal places. -/
  | tooManyDecimals (n : Nat)
deriving DecidableEq

def Malformation.message : Malformation → String
  | notCanonical => "non-canonical encoding"
  | notMap => "expected map"
  | missing field => "missing " ++ field
  | invalid field => "invalid " ++ field
  | wrongTag expected found =>
    "wrong record tag: expected " ++ toString expected ++ ", got " ++ toString found
  | unknownKind code => "invalid operation kind: " ++ toString code
  | tooManyDecimals n => "decimals out of range: " ++ toString n

/-- What can be wrong with an encoding or a signature. -/
inductive CoreError where
  /-- The signature does not belong to the signer and the message. -/
  | invalidSignature
  /-- The signer is no point of the curve. -/
  | invalidPublicKey
  /-- The bytes are CBOR, but no canonical bytes. -/
  | malformed (reason : Malformation)
  /-- The bytes of `input` are no CBOR. -/
  | undecodable (input : Bytes) (reason : Cbor.ReadError)
deriving DecidableEq

def CoreError.message : CoreError → String
  | invalidSignature => "invalid signature"
  | invalidPublicKey => "invalid public key"
  | malformed reason => "malformed record: " ++ reason.message
  | undecodable input reason => "decoding error: " ++ reason.message input

namespace Codec

/-! ## Keys -/

/-- The key of the record type or of the kind of operation. -/
def tagKey : Nat := 0

def mintTag : Nat := 1
def accountTag : Nat := 2

namespace MintKey
def address : Nat := 1
def authority : Nat := 2
def decimals : Nat := 3
def supply : Nat := 4
end MintKey

namespace AccountKey
def address : Nat := 1
def owner : Nat := 2
def mint : Nat := 3
def amount : Nat := 4
end AccountKey

namespace OperationKey
def mint : Nat := 1
def account : Nat := 2
def sender : Nat := 3
def recipient : Nat := 4
def owner : Nat := 5
def amount : Nat := 6
def decimals : Nat := 7
end OperationKey

/-! ## Writing -/

def number (key n : Nat) : Item × Item := (.int key, .int n)

def bytes32 (key : Nat) (value : Bytes32) : Item × Item := (.int key, .bytes value.toBytes)

def mintEntries (mint : MintRecord) : List (Item × Item) :=
  [number tagKey mintTag, bytes32 MintKey.address mint.address.raw,
    bytes32 MintKey.authority mint.authority.raw, number MintKey.decimals mint.decimals.toNat,
    number MintKey.supply mint.supply.toNat]

def accountEntries (account : AccountRecord) : List (Item × Item) :=
  [number tagKey accountTag, bytes32 AccountKey.address account.address.raw,
    bytes32 AccountKey.owner account.owner.raw, bytes32 AccountKey.mint account.mint.raw,
    number AccountKey.amount account.amount.toNat]

def operationEntries (operation : Operation) : List (Item × Item) :=
  number tagKey operation.kind.code.toNat ::
    match operation with
    | .createMint mint decimals =>
      [bytes32 OperationKey.mint mint.raw, number OperationKey.decimals decimals.toNat]
    | .createAccount mint owner =>
      [bytes32 OperationKey.mint mint.raw, bytes32 OperationKey.owner owner.raw]
    | .issue mint account amount | .burn mint account amount =>
      [bytes32 OperationKey.mint mint.raw, bytes32 OperationKey.account account.raw,
        number OperationKey.amount amount.toNat]
    | .transfer sender recipient amount =>
      [bytes32 OperationKey.sender sender.raw, bytes32 OperationKey.recipient recipient.raw,
        number OperationKey.amount amount.toNat]

end Codec

def MintRecord.encode (mint : MintRecord) : Bytes := (Item.map (Codec.mintEntries mint)).encode

def AccountRecord.encode (account : AccountRecord) : Bytes :=
  (Item.map (Codec.accountEntries account)).encode

def Operation.encode (operation : Operation) : Bytes :=
  (Item.map (Codec.operationEntries operation)).encode

namespace Codec

/-! ## Reading -/

/-- Reads one map and nothing after it, and checks that its encoding is the deterministic one. -/
def decodeMap (data : Bytes) : Except CoreError (List (Item × Item)) :=
  match Cbor.readItem Cbor.maxDepth data with
  | .error e => .error (.undecodable data e)
  | .ok (item, _) =>
    if item.encode ≠ data then .error (.malformed .notCanonical)
    else
      match item with
      | .map entries => .ok entries
      | _ => .error (.malformed .notMap)

/-- The value of the first entry with a number as key. -/
def lookup (entries : List (Item × Item)) (key : Nat) : Option Item :=
  match entries with
  | [] => none
  | (.int n, value) :: rest => if n = key then some value else lookup rest key
  | _ :: rest => lookup rest key

/-- The number below `2^64` under a key. -/
def getNumber (entries : List (Item × Item)) (key : Nat) (field : String) : Except CoreError Nat :=
  match lookup entries key with
  | some (.int n) =>
    if 0 ≤ n ∧ n < UInt64.size then .ok n.toNat else .error (.malformed (.invalid field))
  | _ => .error (.malformed (.missing field))

/-- The 32 bytes under a key. -/
def getBytes32 (entries : List (Item × Item)) (key : Nat) (field : String) :
    Except CoreError Bytes32 :=
  match lookup entries key with
  | some (.bytes content) =>
    match Bytes32.ofBytes? content with
    | some value => .ok value
    | none => .error (.malformed (.invalid field))
  | _ => .error (.malformed (.missing field))

def expectTag (entries : List (Item × Item)) (tag : Nat) : Except CoreError Unit := do
  let found ← getNumber entries tagKey "record tag"
  if found = tag then .ok () else .error (.malformed (.wrongTag tag found))

/-- A number of decimal places, which is below 256. -/
def toDecimals (n : Nat) : Except CoreError UInt8 :=
  if n < 256 then .ok (UInt8.ofNat n)
  else .error (.malformed (.tooManyDecimals n))

def mintOfEntries (entries : List (Item × Item)) : Except CoreError MintRecord := do
  expectTag entries mintTag
  let decimals ← toDecimals (← getNumber entries MintKey.decimals "decimals")
  let address ← getBytes32 entries MintKey.address "mint address"
  let authority ← getBytes32 entries MintKey.authority "authority"
  let supply ← getNumber entries MintKey.supply "total supply"
  return { address := ⟨address⟩, authority := ⟨authority⟩, decimals, supply := UInt64.ofNat supply }

def accountOfEntries (entries : List (Item × Item)) : Except CoreError AccountRecord := do
  expectTag entries accountTag
  let address ← getBytes32 entries AccountKey.address "account address"
  let owner ← getBytes32 entries AccountKey.owner "owner"
  let mint ← getBytes32 entries AccountKey.mint "mint"
  let amount ← getNumber entries AccountKey.amount "amount"
  return { address := ⟨address⟩, owner := ⟨owner⟩, mint := ⟨mint⟩, amount := UInt64.ofNat amount }

def operationOfEntries (entries : List (Item × Item)) : Except CoreError Operation := do
  let code ← getNumber entries tagKey "operation kind"
  let mint := getBytes32 entries OperationKey.mint "mint"
  let account := getBytes32 entries OperationKey.account "account"
  let amount := getNumber entries OperationKey.amount "amount"
  match OperationKind.ofCode? code with
  | none => .error (.malformed (.unknownKind code))
  | some .createMint =>
    let decimals ← getNumber entries OperationKey.decimals "decimals"
    let mint ← mint
    return .createMint ⟨mint⟩ (← toDecimals decimals)
  | some .createAccount =>
    let mint ← mint
    let owner ← getBytes32 entries OperationKey.owner "owner"
    return .createAccount ⟨mint⟩ ⟨owner⟩
  | some .issue =>
    return .issue ⟨← mint⟩ ⟨← account⟩ (UInt64.ofNat (← amount))
  | some .transfer =>
    let sender ← getBytes32 entries OperationKey.sender "from"
    let recipient ← getBytes32 entries OperationKey.recipient "to"
    return .transfer ⟨sender⟩ ⟨recipient⟩ (UInt64.ofNat (← amount))
  | some .burn =>
    return .burn ⟨← mint⟩ ⟨← account⟩ (UInt64.ofNat (← amount))

end Codec

def MintRecord.decode (data : Bytes) : Except CoreError MintRecord :=
  Codec.decodeMap data >>= Codec.mintOfEntries

def AccountRecord.decode (data : Bytes) : Except CoreError AccountRecord :=
  Codec.decodeMap data >>= Codec.accountOfEntries

def Operation.decode (data : Bytes) : Except CoreError Operation :=
  Codec.decodeMap data >>= Codec.operationOfEntries

end TokenLedger
