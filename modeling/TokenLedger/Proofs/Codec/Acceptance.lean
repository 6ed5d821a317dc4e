import TokenLedger.Proofs.Codec.Records

/-! # What each decoder accepts

The three decoders read the same kind of map, and their keys overlap: key 0 holds a
record type or a kind of operation, and keys 1 to 4 mean something else in each.  Still
none of them takes the canonical bytes of another's value (`decode_own_only`).  Where
the numbers under key 0 agree, the decoder misses a key that the other type lacks.

A decoder looks up the keys it knows, and the check of the encoding is made on the map
and not on the value that comes out of it.  So a value is also read from maps with more
entries than it has: under other keys, or under its own keys a second time.  The number
of entries is all that tells these from the canonical bytes (`decode_canonical_iff`).
-/

namespace TokenLedger

open Codec (mintEntries accountEntries operationEntries Finds finds_number finds_bytes32)
open Cbor (Item)

namespace Codec

/-! ## Types of value -/

theorem not_mint_of_account (account : AccountRecord) (mint : MintRecord) :
    ¬∀ field ∈ mintEntries mint, Finds (accountEntries account) field := by
  intro found
  have tag := finds_number.mp (found (number tagKey mintTag) (by simp [mintEntries]))
  cases tag

theorem not_account_of_mint (mint : MintRecord) (account : AccountRecord) :
    ¬∀ field ∈ accountEntries account, Finds (mintEntries mint) field := by
  intro found
  have tag := finds_number.mp (found (number tagKey accountTag) (by simp [accountEntries]))
  cases tag

/-- Creating an account has the number of mint records, but nothing of an authority. -/
theorem not_mint_of_operation (operation : Operation) (mint : MintRecord) :
    ¬∀ field ∈ mintEntries mint, Finds (operationEntries operation) field := by
  intro found
  have tag := finds_number.mp (found (number tagKey mintTag) (by simp [mintEntries]))
  have authority := finds_bytes32.mp
    (found (bytes32 MintKey.authority mint.authority.raw) (by simp [mintEntries]))
  cases operation with
  | createAccount => cases authority
  | _ => cases tag

/-- Issuing has the number of account records, but nothing of a mint under their key. -/
theorem not_account_of_operation (operation : Operation) (account : AccountRecord) :
    ¬∀ field ∈ accountEntries account, Finds (operationEntries operation) field := by
  intro found
  have tag := finds_number.mp (found (number tagKey accountTag) (by simp [accountEntries]))
  have mint := finds_bytes32.mp
    (found (bytes32 AccountKey.mint account.mint.raw) (by simp [accountEntries]))
  cases operation with
  | issue => cases mint
  | _ => cases tag

/-- A mint record has the number of creating an account, but no owner. -/
theorem not_operation_of_mint (mint : MintRecord) (operation : Operation) :
    ¬∀ field ∈ operationEntries operation, Finds (mintEntries mint) field := by
  intro found
  have kind := finds_number.mp
    (found (number tagKey operation.kind.code.toNat) (by simp [operationEntries]))
  cases operation with
  | createAccount mint owner =>
    have owner := finds_bytes32.mp
      (found (bytes32 OperationKey.owner owner.raw) (by simp [operationEntries]))
    cases owner
  | _ => cases kind

/-- An account record has the number of issuing, but no amount under its key. -/
theorem not_operation_of_account (account : AccountRecord) (operation : Operation) :
    ¬∀ field ∈ operationEntries operation, Finds (accountEntries account) field := by
  intro found
  have kind := finds_number.mp
    (found (number tagKey operation.kind.code.toNat) (by simp [operationEntries]))
  cases operation with
  | issue mint account amount =>
    have amount := finds_number.mp
      (found (number OperationKey.amount amount.toNat) (by simp [operationEntries]))
    cases amount
  | _ => cases kind

/-! ## Decoders -/

/-- Whether a decoder gives those values whose fields it finds, and whose fields are flat. -/
structure Decodes {α : Type} (decode : Bytes → Except CoreError α)
    (fields : α → List (Item × Item)) : Prop where
  eq_ok_iff : ∀ {data a}, decode data = .ok a ↔
    ∃ entries, decodeMap data = .ok entries ∧ ∀ field ∈ fields a, Finds entries field
  flat : ∀ a, Flat 0 (fields a)

theorem decodes_mint : Decodes MintRecord.decode mintEntries :=
  ⟨MintRecord.decode_eq_ok_iff, mintEntries_flat⟩

theorem decodes_account : Decodes AccountRecord.decode accountEntries :=
  ⟨AccountRecord.decode_eq_ok_iff, accountEntries_flat⟩

theorem decodes_operation : Decodes Operation.decode operationEntries :=
  ⟨Operation.decode_eq_ok_iff, operationEntries_flat⟩

namespace Decodes

variable {α β : Type} {decode : Bytes → Except CoreError α} {fields : α → List (Item × Item)}

/-- What is found in no encoding of a value is decoded from none. -/
theorem exists_error {entries : List (Item × Item)} (decodes : Decodes decode fields)
    (flat : Flat 0 entries) (missing : ∀ a, ¬∀ field ∈ fields a, Finds entries field) :
    ∃ e, decode (Item.map entries).encode = .error e := by
  refine exists_error_of_ne_ok fun a decoded => ?_
  obtain ⟨others, same, found⟩ := decodes.eq_ok_iff.mp decoded
  rw [flat.decodeMap_encode (by decide)] at same
  cases same
  exact missing a found

/-- The bytes that a value is decoded from are its encoding just if they hold no more entries. -/
theorem eq_encode_iff (decodes : Decodes decode fields) {data : Bytes} {a : α}
    (decoded : decode data = .ok a) :
    ∃ entries, decodeMap data = .ok entries ∧ fields a ⊆ entries ∧
      (data = (Item.map (fields a)).encode ↔ entries.length = (fields a).length) := by
  obtain ⟨entries, read, found⟩ := decodes.eq_ok_iff.mp decoded
  refine ⟨entries, read, fun field member => (found field member).mem, ?_⟩
  exact (decodes.flat a).eq_encode_iff (by decide) read found

end Decodes

end Codec

open Codec (decodes_mint decodes_account decodes_operation)

/-- The canonical bytes of every value are decoded to that value, and refused by the decoders of the
    other types. -/
theorem decode_own_only :
    (∀ mint : MintRecord, MintRecord.decode mint.encode = .ok mint ∧
      (∃ e, AccountRecord.decode mint.encode = .error e) ∧
      ∃ e, Operation.decode mint.encode = .error e) ∧
    (∀ account : AccountRecord, AccountRecord.decode account.encode = .ok account ∧
      (∃ e, MintRecord.decode account.encode = .error e) ∧
      ∃ e, Operation.decode account.encode = .error e) ∧
    ∀ operation : Operation, Operation.decode operation.encode = .ok operation ∧
      (∃ e, MintRecord.decode operation.encode = .error e) ∧
      ∃ e, AccountRecord.decode operation.encode = .error e := by
  refine ⟨fun mint => ?_, fun account => ?_, fun operation => ?_⟩
  · have flat := Codec.mintEntries_flat mint
    exact ⟨mint.decode_encode,
      decodes_account.exists_error flat (Codec.not_account_of_mint mint),
      decodes_operation.exists_error flat (Codec.not_operation_of_mint mint)⟩
  · have flat := Codec.accountEntries_flat account
    exact ⟨account.decode_encode,
      decodes_mint.exists_error flat (Codec.not_mint_of_account account),
      decodes_operation.exists_error flat (Codec.not_operation_of_account account)⟩
  · have flat := Codec.operationEntries_flat operation
    exact ⟨operation.decode_encode,
      decodes_mint.exists_error flat (Codec.not_mint_of_operation operation),
      decodes_account.exists_error flat (Codec.not_account_of_operation operation)⟩

/-! ## Bytes that are not canonical -/

/-- Bytes that decode hold every entry of the value they decode to, and are its canonical bytes just
    if they hold no entry more. -/
theorem decode_canonical_iff (data : Bytes) :
    (∀ mint : MintRecord, MintRecord.decode data = .ok mint →
      ∃ entries, Codec.decodeMap data = .ok entries ∧ mintEntries mint ⊆ entries ∧
        (data = mint.encode ↔ entries.length = (mintEntries mint).length)) ∧
    (∀ account : AccountRecord, AccountRecord.decode data = .ok account →
      ∃ entries, Codec.decodeMap data = .ok entries ∧ accountEntries account ⊆ entries ∧
        (data = account.encode ↔ entries.length = (accountEntries account).length)) ∧
    ∀ operation : Operation, Operation.decode data = .ok operation →
      ∃ entries, Codec.decodeMap data = .ok entries ∧ operationEntries operation ⊆ entries ∧
        (data = operation.encode ↔ entries.length = (operationEntries operation).length) :=
  ⟨fun _ => decodes_mint.eq_encode_iff, fun _ => decodes_account.eq_encode_iff,
    fun _ => decodes_operation.eq_encode_iff⟩

/-- A mint with a supply of 1000. -/
def issuedMint : MintRecord :=
  { address := ⟨.replicate 1⟩, authority := ⟨.replicate 2⟩, decimals := 9, supply := 1000 }

/-- The entries of that mint, and one entry more. -/
def issuedMintAnd (more : Bytes) : Bytes :=
  [0xa6, 0x00, 0x01, 0x01, 0x58, 0x20] ++ List.replicate 32 1 ++ [0x02, 0x58, 0x20] ++
    List.replicate 32 2 ++ [0x03, 0x09, 0x04, 0x19, 0x03, 0xe8] ++ more

/-- A second supply is neither looked up nor refused. -/
theorem decode_suppliedTwice :
    MintRecord.decode (issuedMintAnd [0x04, 0x00]) = .ok issuedMint := by
  decide +kernel

/-- Neither is an entry under a key that no mint has. -/
theorem decode_unknownKey :
    MintRecord.decode (issuedMintAnd [0x05, 0x00]) = .ok issuedMint := by
  decide +kernel

theorem decode_canonical_iff_suppliedTwice :
    (∃ entries, Codec.decodeMap (issuedMintAnd [0x04, 0x00]) = .ok entries ∧
      mintEntries issuedMint ⊆ entries ∧
      (issuedMintAnd [0x04, 0x00] = issuedMint.encode ↔ entries.length = 5)) ∧
    (∃ entries, Codec.decodeMap
        (AccountRecord.empty ⟨.replicate 1⟩ ⟨.replicate 2⟩ ⟨.replicate 3⟩).encode = .ok entries ∧
      entries.length = 5) ∧
    ∃ entries, Codec.decodeMap
        (Operation.transfer ⟨.replicate 1⟩ ⟨.replicate 2⟩ 7).encode = .ok entries ∧
      entries.length = 4 := by
  refine ⟨(decode_canonical_iff _).1 _ decode_suppliedTwice, ?_, ?_⟩
  · obtain ⟨entries, decoded, _, canonical⟩ :=
      (decode_canonical_iff _).2.1 _ (AccountRecord.decode_encode _)
    exact ⟨entries, decoded, canonical.mp rfl⟩
  · obtain ⟨entries, decoded, _, canonical⟩ :=
      (decode_canonical_iff _).2.2 _ (Operation.decode_encode _)
    exact ⟨entries, decoded, canonical.mp rfl⟩

/-- Three byte strings decode to the same mint, and only one of them is canonical. -/
theorem decode_not_injective :
    MintRecord.decode (issuedMintAnd [0x04, 0x00]) = .ok issuedMint ∧
      MintRecord.decode (issuedMintAnd [0x05, 0x00]) = .ok issuedMint ∧
      MintRecord.decode issuedMint.encode = .ok issuedMint ∧
      issuedMintAnd [0x04, 0x00] ≠ issuedMint.encode ∧
      issuedMintAnd [0x05, 0x00] ≠ issuedMint.encode :=
  ⟨decode_suppliedTwice, decode_unknownKey, issuedMint.decode_encode, by decide +kernel,
    by decide +kernel⟩

end TokenLedger
