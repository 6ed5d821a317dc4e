import TokenLedger.Proofs.Codec.Records
import TokenLedger.Proofs.Store.Records
import TokenLedger.Store.Tables

/-! # Tables that keep records

Tables that only the calls of a store have filled hold one row for each record,
made by `toRow` (`MemoryStore.toTables`).  Such tables answer as the records do:
look-ups and scans decode what was encoded and find the columns in agreement, an
insertion adds a row for the record, and a commit whose updates are for different
records writes what the records would be written with.  Two checks have no
counterpart in records by address: tables refuse an account whose pair of owner
and mint is there at another address, and one whose mint is not there.
-/

namespace TokenLedger

theorem MintRecord.address_toRow (mint : MintRecord) : mint.toRow.address = mint.key := rfl

theorem AccountRecord.address_toRow (account : AccountRecord) :
    account.toRow.address = account.key := rfl

/-- The tables with a row for each record. -/
def MemoryStore.toTables (records : MemoryStore) : Tables where
  mints := records.mints.map MintRecord.toRow MintRecord.address_toRow
  accounts := records.accounts.map AccountRecord.toRow AccountRecord.address_toRow

/-- Updates of a batch that are for different records. -/
structure WriteBatch.Distinct (batch : WriteBatch) : Prop where
  mints : batch.mints.Pairwise fun a b => a.after.address ≠ b.after.address
  accounts : batch.accounts.Pairwise fun a b => a.after.address ≠ b.after.address

namespace MemoryStore

variable (records : MemoryStore)

/-! ## Look-ups -/

theorem find?_toTables_mints (address : MintAddress) :
    records.toTables.mints.find? address.toBytes = (records.getMint address).map (·.toRow) := by
  simp only [toTables, getMint, Index.find?_map]

theorem find?_toTables_accounts (address : AccountAddress) :
    records.toTables.accounts.find? address.toBytes =
      (records.getAccount address).map (·.toRow) := by
  simp only [toTables, getAccount, Index.find?_map]

theorem getMint_toTables (address : MintAddress) :
    records.toTables.getMint address = .ok (records.getMint address) := by
  rw [Tables.getMint, find?_toTables_mints]
  cases found : records.getMint address with
  | none => rfl
  | some mint =>
    have same := address_of_getMint found
    simp [Tables.readMint, MintRecord.toRow, MintRecord.decode_encode, same, Except.map]

theorem getAccount_toTables (address : AccountAddress) :
    records.toTables.getAccount address = .ok (records.getAccount address) := by
  rw [Tables.getAccount, find?_toTables_accounts]
  cases found : records.getAccount address with
  | none => rfl
  | some account =>
    have same := address_of_getAccount found
    simp [Tables.readAccount, AccountRecord.toRow, AccountRecord.decode_encode, same, Except.map]

/-! ## Insertions -/

theorem toTables_putMint (mint : MintRecord) :
    (records.putMint mint).toTables =
      { records.toTables with mints := records.toTables.mints.put mint.toRow } := by
  simp [toTables, putMint]

theorem toTables_putAccount (account : AccountRecord) :
    (records.putAccount account).toTables =
      { records.toTables with accounts := records.toTables.accounts.put account.toRow } := by
  simp [toTables, putAccount]

theorem insertMint_toTables (mint : MintRecord) :
    records.toTables.insertMint mint =
      ((records.insertMint mint).1, (records.insertMint mint).2.toTables) := by
  rw [Tables.insertMint, find?_toTables_mints, insertMint]
  cases records.getMint mint.address with
  | none => exact congrArg _ (records.toTables_putMint mint).symm
  | some _ => rfl

/-- Whether an account of an owner for a mint is there, at any address. -/
def HasPair (owner : Principal) (mint : MintAddress) : Prop :=
  ∃ account ∈ records.accounts.items, account.owner = owner ∧ account.mint = mint

theorem hasPair_toTables (owner : Principal) (mint : MintAddress) :
    records.toTables.hasPair owner.toBytes mint.toBytes = true ↔ records.HasPair owner mint := by
  simp [Tables.hasPair, HasPair, toTables, Index.map, AccountRecord.toRow, Principal.toBytes_inj,
    MintAddress.toBytes_inj]

open Classical in
theorem insertAccount_toTables (account : AccountRecord) :
    records.toTables.insertAccount account =
      if (records.getAccount account.address).isSome ∨ records.HasPair account.owner account.mint
      then .ok (.alreadyExists, records.toTables)
      else if records.getMint account.mint = none then .error (.database .foreignKey)
      else .ok (.inserted, (records.putAccount account).toTables) := by
  have taken : (records.toTables.accounts.find? account.toRow.address).isSome =
      (records.getAccount account.address).isSome := by
    rw [AccountRecord.address_toRow, AccountRecord.key, find?_toTables_accounts, Option.isSome_map]
  have known : (records.toTables.mints.find? account.toRow.mint).isNone ↔
      records.getMint account.mint = none := by
    rw [AccountRecord.toRow, find?_toTables_mints, Option.isNone_map, Option.isNone_iff_eq_none]
  have pair : records.toTables.hasPair account.toRow.owner account.toRow.mint = true ↔
      records.HasPair account.owner account.mint := records.hasPair_toTables _ _
  simp only [Tables.insertAccount, taken, known, pair, toTables_putAccount]

/-! ## Commits -/

theorem updateMint_toTables (update : Update MintRecord) :
    records.toTables.updateMint update =
      (update.checkMint (records.getMint update.after.address)).map
        fun _ => (records.putMint update.after).toTables := by
  rw [Tables.updateMint, getMint_toTables, ok_bind, find?_toTables_mints]
  cases checked : update.checkMint (records.getMint update.after.address) with
  | error e => rfl
  | ok u =>
    obtain ⟨found, same⟩ := Update.checkMint_eq_ok_iff.mp checked
    have row : { update.before.toRow with record := update.after.encode } = update.after.toRow := by
      simp [MintRecord.toRow, same.1, same.2.1]
    rw [ok_bind, found, toTables_putMint]
    show Except.ok _ = Except.ok _
    rw [row]

theorem updateAccount_toTables (update : Update AccountRecord) :
    records.toTables.updateAccount update =
      (update.checkAccount (records.getAccount update.after.address)).map
        fun _ => (records.putAccount update.after).toTables := by
  rw [Tables.updateAccount, getAccount_toTables, ok_bind, find?_toTables_accounts]
  cases checked : update.checkAccount (records.getAccount update.after.address) with
  | error e => rfl
  | ok u =>
    obtain ⟨found, same⟩ := Update.checkAccount_eq_ok_iff.mp checked
    have row : { update.before.toRow with record := update.after.encode } = update.after.toRow := by
      simp [AccountRecord.toRow, same.1, same.2.1, same.2.2]
    rw [ok_bind, found, toTables_putAccount]
    show Except.ok _ = Except.ok _
    rw [row]

theorem foldlM_updateMint_toTables (updates : List (Update MintRecord))
    (distinct : updates.Pairwise fun a b => a.after.address ≠ b.after.address) :
    updates.foldlM Tables.updateMint records.toTables =
      (updates.forM fun update => update.checkMint (records.getMint update.after.address)).map
        fun _ => (records.write ⟨updates, []⟩).toTables := by
  induction updates generalizing records with
  | nil => rfl
  | cons first rest ih =>
    obtain ⟨different, distinct⟩ := List.pairwise_cons.mp distinct
    rw [List.foldlM_cons, List.forM, updateMint_toTables]
    cases first.checkMint (records.getMint first.after.address) with
    | error e => rfl
    | ok u =>
      -- the first update is of another record than those after it check
      have unchanged : ∀ update ∈ rest, (records.putMint first.after).getMint update.after.address =
          records.getMint update.after.address := by
        intro update member
        rw [getMint_putMint, if_neg (different update member)]
      have checks := forM_congr fun update member =>
        congrArg update.checkMint (unchanged update member)
      show rest.foldlM Tables.updateMint (records.putMint first.after).toTables = _
      rw [ih (records.putMint first.after) distinct, checks]
      rfl

theorem foldlM_updateAccount_toTables (updates : List (Update AccountRecord))
    (distinct : updates.Pairwise fun a b => a.after.address ≠ b.after.address) :
    updates.foldlM Tables.updateAccount records.toTables =
      (updates.forM fun update => update.checkAccount (records.getAccount update.after.address)).map
        fun _ => (records.write ⟨[], updates⟩).toTables := by
  induction updates generalizing records with
  | nil => rfl
  | cons first rest ih =>
    obtain ⟨different, distinct⟩ := List.pairwise_cons.mp distinct
    rw [List.foldlM_cons, List.forM, updateAccount_toTables]
    cases first.checkAccount (records.getAccount first.after.address) with
    | error e => rfl
    | ok u =>
      -- as for mints
      have unchanged : ∀ update ∈ rest,
          (records.putAccount first.after).getAccount update.after.address =
            records.getAccount update.after.address := by
        intro update member
        rw [getAccount_putAccount, if_neg (different update member)]
      have checks := forM_congr fun update member =>
        congrArg update.checkAccount (unchanged update member)
      show rest.foldlM Tables.updateAccount (records.putAccount first.after).toTables = _
      rw [ih (records.putAccount first.after) distinct, checks]
      rfl

/-- Tables check each update against what those before it wrote.  That is what was
    there before the batch, unless the batch names a record twice. -/
theorem commit_toTables {batch : WriteBatch} (distinct : batch.Distinct) :
    records.toTables.commit batch = (records.commit batch).map toTables := by
  rw [Tables.commit, foldlM_updateMint_toTables _ _ distinct.mints, commit, validate]
  cases batch.mints.forM fun update => update.checkMint (records.getMint update.after.address) with
  | error e => rfl
  | ok u =>
    show batch.accounts.foldlM Tables.updateAccount (records.write ⟨batch.mints, []⟩).toTables = _
    rw [foldlM_updateAccount_toTables _ _ distinct.accounts, ok_bind]
    show (batch.accounts.forM fun update =>
      update.checkAccount (records.getAccount update.after.address)).map _ = _
    cases batch.accounts.forM fun update =>
        update.checkAccount (records.getAccount update.after.address) with
    | error e => rfl
    | ok u => rfl

/-! ## Scans -/

theorem scanRow_toRow (account : AccountRecord) : Tables.scanRow account.toRow = .ok account := by
  simp [Tables.scanRow, AccountRecord.toRow, AccountRecord.decode_encode]

theorem mapM_scanRow (accounts : List AccountRecord) :
    (accounts.map AccountRecord.toRow).mapM Tables.scanRow = .ok accounts := by
  rw [List.mapM_map]
  have scanned := @mapM_eq_ok _ _ _ (Tables.scanRow ∘ AccountRecord.toRow) id accounts
    fun account _ => scanRow_toRow account
  rw [scanned, List.map_id]

theorem accountsByMint_toTables (mint : MintAddress) :
    records.toTables.accountsByMint mint = .ok (records.accountsByMint mint) := by
  have rows : records.toTables.accounts.items.filter (·.mint = mint.toBytes) =
      (records.accountsByMint mint).map AccountRecord.toRow := by
    simp [toTables, Index.map, accountsByMint, List.filter_map, Function.comp_def,
      AccountRecord.toRow, MintAddress.toBytes_inj]
  rw [Tables.accountsByMint, rows, mapM_scanRow]

theorem accountsByOwner_toTables (owner : Principal) :
    records.toTables.accountsByOwner owner = .ok (records.accountsByOwner owner) := by
  have rows : records.toTables.accounts.items.filter (·.owner = owner.toBytes) =
      (records.accountsByOwner owner).map AccountRecord.toRow := by
    simp [toTables, Index.map, accountsByOwner, List.filter_map, Function.comp_def,
      AccountRecord.toRow, Principal.toBytes_inj]
  rw [Tables.accountsByOwner, rows, mapM_scanRow]

theorem listMints_toTables : records.toTables.listMints = .ok records.listMints := by
  rw [Tables.listMints, toTables, Index.map, List.mapM_map]
  refine mapM_eq_ok fun mint _ => ?_
  have read : MintAddress.ofBytes? mint.address.toBytes = some mint.address := by
    simp [MintAddress.ofBytes?, MintAddress.toBytes]
  simp [MintRecord.toRow, read]

end MemoryStore

end TokenLedger
