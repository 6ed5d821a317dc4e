import TokenLedger.Proofs.Codec.Maps

/-! # Records and operations survive their canonical bytes

A map is decoded to a record or to an operation just if the entries of that record or
operation are found in it: `mintOfEntries_eq_ok_iff` and its siblings say so for each
of the three decoders.  The entries of a value are found in its own bytes, so decoding
these gives the value back.  Stores that keep records as bytes rest on this.
-/

namespace TokenLedger

open Cbor (Item)

namespace Codec

variable {entries : List (Item × Item)} {key n : Nat} {field : String}

/-! ## Fields -/

theorem getNumber_eq_ok_iff :
    getNumber entries key field = .ok n ↔ Finds entries (number key n) ∧ n < 2 ^ 64 := by
  rw [finds_number, getNumber]
  constructor
  · intro got
    split at got
    next k found =>
      split at got
      next range =>
        cases got
        have back : ((k.toNat : Nat) : Int) = k := Int.toNat_of_nonneg range.1
        have fits : k.toNat < UInt64.size := (Int.toNat_lt range.1).mpr range.2
        exact ⟨by rw [found, back], fits⟩
      · cases got
    · cases got
  · rintro ⟨found, fits⟩
    have range : (0 : Int) ≤ n ∧ (n : Int) < UInt64.size := ⟨Int.natCast_nonneg n, mod_cast fits⟩
    simp only [found, if_pos range, Int.toNat_natCast]

theorem getBytes32_eq_ok_iff {value : Bytes32} :
    getBytes32 entries key field = .ok value ↔ Finds entries (bytes32 key value) := by
  rw [finds_bytes32, getBytes32]
  constructor
  · intro got
    split at got
    next content found =>
      split at got
      next whole =>
        cases got
        rw [found, Bytes32.toBytes_of_ofBytes? whole]
      · cases got
    · cases got
  · intro found
    simp only [found, Bytes32.ofBytes?_toBytes]

theorem expectTag_eq_ok_iff {tag : Nat} (fits : tag < 2 ^ 64) :
    expectTag entries tag = .ok () ↔ Finds entries (number tagKey tag) := by
  rw [expectTag, bind_eq_ok_iff]
  constructor
  · rintro ⟨found, got, same⟩
    split at same
    next eq => exact eq ▸ (getNumber_eq_ok_iff.mp got).1
    · cases same
  · intro finds
    exact ⟨tag, getNumber_eq_ok_iff.mpr ⟨finds, fits⟩, if_pos rfl⟩

theorem toDecimals_eq_ok_iff {decimals : UInt8} :
    toDecimals n = .ok decimals ↔ n = decimals.toNat := by
  unfold toDecimals
  constructor
  · intro narrow
    split at narrow
    next fits =>
      cases narrow
      rw [UInt8.toNat_ofNat', Nat.mod_eq_of_lt fits]
    · cases narrow
  · rintro rfl
    rw [if_pos decimals.toNat_lt, UInt8.ofNat_toNat]

theorem finds_amount (got : getNumber entries key field = .ok n) :
    Finds entries (number key (UInt64.ofNat n).toNat) := by
  obtain ⟨finds, fits⟩ := getNumber_eq_ok_iff.mp got
  rwa [UInt64.toNat_ofNat', Nat.mod_eq_of_lt fits]

theorem getNumber_of_finds_amount {amount : UInt64}
    (finds : Finds entries (number key amount.toNat)) :
    getNumber entries key field = .ok amount.toNat :=
  getNumber_eq_ok_iff.mpr ⟨finds, amount.toNat_lt⟩

theorem getNumber_of_finds_decimals {decimals : UInt8}
    (finds : Finds entries (number key decimals.toNat)) :
    getNumber entries key field = .ok decimals.toNat :=
  getNumber_eq_ok_iff.mpr ⟨finds, Nat.lt_trans decimals.toNat_lt (by decide)⟩

/-! ## Records -/

theorem mintOfEntries_eq_ok_iff {mint : MintRecord} :
    mintOfEntries entries = .ok mint ↔ ∀ field ∈ mintEntries mint, Finds entries field := by
  simp only [mintEntries, List.forall_mem_cons]
  constructor
  · intro decoded
    simp only [mintOfEntries, bind_eq_ok_iff] at decoded
    obtain ⟨⟨⟩, tag, n, places, decimals, narrow, address, addressed, authority, authorized, total,
      issued, same⟩ := decoded
    cases same
    obtain rfl := toDecimals_eq_ok_iff.mp narrow
    exact ⟨(expectTag_eq_ok_iff (by decide)).mp tag, getBytes32_eq_ok_iff.mp addressed,
      getBytes32_eq_ok_iff.mp authorized, (getNumber_eq_ok_iff.mp places).1, finds_amount issued,
      by simp⟩
  · rintro ⟨tag, address, authority, decimals, supply, -⟩
    -- the decimals are looked up first, though they stand after both addresses
    rw [mintOfEntries, (expectTag_eq_ok_iff (by decide)).mpr tag, ok_bind,
      getNumber_of_finds_decimals decimals, ok_bind, toDecimals_eq_ok_iff.mpr rfl, ok_bind,
      getBytes32_eq_ok_iff.mpr address, ok_bind, getBytes32_eq_ok_iff.mpr authority, ok_bind,
      getNumber_of_finds_amount supply, ok_bind, UInt64.ofNat_toNat]
    rfl

theorem accountOfEntries_eq_ok_iff {account : AccountRecord} :
    accountOfEntries entries = .ok account ↔
      ∀ field ∈ accountEntries account, Finds entries field := by
  simp only [accountEntries, List.forall_mem_cons]
  constructor
  · intro decoded
    simp only [accountOfEntries, bind_eq_ok_iff] at decoded
    obtain ⟨⟨⟩, tag, address, addressed, owner, owned, mint, minted, n, held, same⟩ := decoded
    cases same
    exact ⟨(expectTag_eq_ok_iff (by decide)).mp tag, getBytes32_eq_ok_iff.mp addressed,
      getBytes32_eq_ok_iff.mp owned, getBytes32_eq_ok_iff.mp minted, finds_amount held, by simp⟩
  · rintro ⟨tag, address, owner, mint, amount, -⟩
    rw [accountOfEntries, (expectTag_eq_ok_iff (by decide)).mpr tag, ok_bind,
      getBytes32_eq_ok_iff.mpr address, ok_bind, getBytes32_eq_ok_iff.mpr owner, ok_bind,
      getBytes32_eq_ok_iff.mpr mint, ok_bind, getNumber_of_finds_amount amount, ok_bind,
      UInt64.ofNat_toNat]
    rfl

theorem kind_of_ofCode? {kind : OperationKind} (known : OperationKind.ofCode? n = some kind) :
    n = kind.code.toNat := by
  match n with
  | 0 | 1 | 2 | 3 | 4 => cases known; rfl
  | _ + 5 => cases known

theorem operationOfEntries_eq_ok_iff {operation : Operation} :
    operationOfEntries entries = .ok operation ↔
      ∀ field ∈ operationEntries operation, Finds entries field := by
  constructor
  · intro decoded
    simp only [operationOfEntries, bind_eq_ok_iff] at decoded
    obtain ⟨code, tag, decoded⟩ := decoded
    have kind := (getNumber_eq_ok_iff.mp tag).1
    cases known : OperationKind.ofCode? code with
    | none => rw [known] at decoded; cases decoded
    | some found =>
      rw [known] at decoded
      obtain rfl := kind_of_ofCode? known
      cases found with
      | createMint =>
        simp only [bind_eq_ok_iff] at decoded
        obtain ⟨n, places, mint, minted, decimals, narrow, same⟩ := decoded
        cases same
        obtain rfl := toDecimals_eq_ok_iff.mp narrow
        simp only [operationEntries, List.forall_mem_cons]
        exact ⟨kind, getBytes32_eq_ok_iff.mp minted, (getNumber_eq_ok_iff.mp places).1, by simp⟩
      | createAccount =>
        simp only [bind_eq_ok_iff] at decoded
        obtain ⟨mint, minted, owner, owned, same⟩ := decoded
        cases same
        simp only [operationEntries, List.forall_mem_cons]
        exact ⟨kind, getBytes32_eq_ok_iff.mp minted, getBytes32_eq_ok_iff.mp owned, by simp⟩
      -- three kinds that have the same fields
      | issue | burn | transfer =>
        simp only [bind_eq_ok_iff] at decoded
        obtain ⟨first, named, second, named', n, moved, same⟩ := decoded
        cases same
        simp only [operationEntries, List.forall_mem_cons]
        exact ⟨kind, getBytes32_eq_ok_iff.mp named, getBytes32_eq_ok_iff.mp named',
          finds_amount moved, by simp⟩
  · intro found
    unfold operationEntries at found
    rw [List.forall_mem_cons] at found
    obtain ⟨tag, found⟩ := found
    rw [operationOfEntries, getNumber_of_finds_decimals tag, ok_bind, OperationKind.ofCode?_code]
    cases operation with
    | createMint mint decimals =>
      simp only [List.forall_mem_cons] at found
      obtain ⟨mint, decimals, -⟩ := found
      simp only [Operation.kind]
      rw [getNumber_of_finds_decimals decimals, ok_bind, getBytes32_eq_ok_iff.mpr mint, ok_bind,
        toDecimals_eq_ok_iff.mpr rfl, ok_bind]
      rfl
    | createAccount mint owner =>
      simp only [List.forall_mem_cons] at found
      obtain ⟨mint, owner, -⟩ := found
      simp only [Operation.kind]
      rw [getBytes32_eq_ok_iff.mpr mint, ok_bind, getBytes32_eq_ok_iff.mpr owner, ok_bind]
      rfl
    | issue mint account amount | burn mint account amount | transfer mint account amount =>
      simp only [List.forall_mem_cons] at found
      obtain ⟨first, second, amount, -⟩ := found
      simp only [Operation.kind]
      rw [getBytes32_eq_ok_iff.mpr first, ok_bind, getBytes32_eq_ok_iff.mpr second, ok_bind,
        getNumber_of_finds_amount amount, ok_bind, UInt64.ofNat_toNat]
      rfl

/-! ## Canonical bytes -/

theorem mintEntries_flat (mint : MintRecord) : Flat 0 (mintEntries mint) := by
  have decimals : mint.decimals.toNat < 256 := mint.decimals.toNat_lt
  refine .cons (.number (by decide) (by decide)) (by decide) ?_
  refine .cons (.bytes32 (by decide) _) (by decide) ?_
  refine .cons (.bytes32 (by decide) _) (by decide) ?_
  refine .cons (.number (by decide) (by omega)) (by decide) ?_
  exact .cons (.number (by decide) mint.supply.toNat_lt) (by decide) .nil

theorem accountEntries_flat (account : AccountRecord) : Flat 0 (accountEntries account) := by
  refine .cons (.number (by decide) (by decide)) (by decide) ?_
  refine .cons (.bytes32 (by decide) _) (by decide) ?_
  refine .cons (.bytes32 (by decide) _) (by decide) ?_
  refine .cons (.bytes32 (by decide) _) (by decide) ?_
  exact .cons (.number (by decide) account.amount.toNat_lt) (by decide) .nil

theorem operationEntries_flat (operation : Operation) : Flat 0 (operationEntries operation) := by
  have kind : operation.kind.code.toNat < 256 := operation.kind.code.toNat_lt
  refine .cons (.number (by decide) (by omega)) (by decide) ?_
  cases operation with
  | createMint mint decimals =>
    have places : decimals.toNat < 256 := decimals.toNat_lt
    refine .cons (.bytes32 (by decide) _) (by decide) ?_
    exact .cons (.number (by decide) (by omega)) (by decide) .nil
  | createAccount mint owner =>
    refine .cons (.bytes32 (by decide) _) (by decide) ?_
    exact .cons (.bytes32 (by decide) _) (by decide) .nil
  | issue mint account amount | burn mint account amount | transfer mint account amount =>
    refine .cons (.bytes32 (by decide) _) (by decide) ?_
    refine .cons (.bytes32 (by decide) _) (by decide) ?_
    exact .cons (.number (by decide) amount.toNat_lt) (by decide) .nil

end Codec

open Codec (mintEntries accountEntries operationEntries Finds)

theorem MintRecord.decode_eq_ok_iff {data : Bytes} {mint : MintRecord} :
    MintRecord.decode data = .ok mint ↔
      ∃ entries, Codec.decodeMap data = .ok entries ∧
        ∀ field ∈ mintEntries mint, Finds entries field := by
  simp only [MintRecord.decode, bind_eq_ok_iff, Codec.mintOfEntries_eq_ok_iff]

theorem AccountRecord.decode_eq_ok_iff {data : Bytes} {account : AccountRecord} :
    AccountRecord.decode data = .ok account ↔
      ∃ entries, Codec.decodeMap data = .ok entries ∧
        ∀ field ∈ accountEntries account, Finds entries field := by
  simp only [AccountRecord.decode, bind_eq_ok_iff, Codec.accountOfEntries_eq_ok_iff]

theorem Operation.decode_eq_ok_iff {data : Bytes} {operation : Operation} :
    Operation.decode data = .ok operation ↔
      ∃ entries, Codec.decodeMap data = .ok entries ∧
        ∀ field ∈ operationEntries operation, Finds entries field := by
  simp only [Operation.decode, bind_eq_ok_iff, Codec.operationOfEntries_eq_ok_iff]

theorem MintRecord.decode_encode (record : MintRecord) :
    MintRecord.decode record.encode = .ok record := by
  have flat := Codec.mintEntries_flat record
  exact decode_eq_ok_iff.mpr ⟨_, flat.decodeMap_encode (by decide), fun _ => flat.finds⟩

theorem AccountRecord.decode_encode (record : AccountRecord) :
    AccountRecord.decode record.encode = .ok record := by
  have flat := Codec.accountEntries_flat record
  exact decode_eq_ok_iff.mpr ⟨_, flat.decodeMap_encode (by decide), fun _ => flat.finds⟩

theorem Operation.decode_encode (operation : Operation) :
    Operation.decode operation.encode = .ok operation := by
  have flat := Codec.operationEntries_flat operation
  exact decode_eq_ok_iff.mpr ⟨_, flat.decodeMap_encode (by decide), fun _ => flat.finds⟩

end TokenLedger
