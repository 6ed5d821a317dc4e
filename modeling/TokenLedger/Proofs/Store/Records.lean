import TokenLedger.Proofs.Except
import TokenLedger.Proofs.Store.Index
import TokenLedger.Store.Memory

/-! # Records by address

The store in memory is nothing but records by address, so it doubles as the
account of what any store holds.  This module gives its look-ups after a record
has been put in (`getMint_putMint`, `getAccount_putAccount`), that they are all
there is to it (`ext_of_lookups`), what it is for two
stores to have the same records up to supplies and amounts (`Kin`), and says when a
batch is applied (`commit_eq_ok_iff`).
-/

namespace TokenLedger

theorem MintAddress.toBytes_inj {a b : MintAddress} : a.toBytes = b.toBytes ↔ a = b := by
  obtain ⟨⟨a, _⟩⟩ := a
  obtain ⟨⟨b, _⟩⟩ := b
  simp [MintAddress.toBytes]

theorem AccountAddress.toBytes_inj {a b : AccountAddress} : a.toBytes = b.toBytes ↔ a = b := by
  obtain ⟨⟨a, _⟩⟩ := a
  obtain ⟨⟨b, _⟩⟩ := b
  simp [AccountAddress.toBytes]

theorem Principal.toBytes_inj {a b : Principal} : a.toBytes = b.toBytes ↔ a = b := by
  obtain ⟨⟨a, _⟩⟩ := a
  obtain ⟨⟨b, _⟩⟩ := b
  simp [Principal.toBytes]

/-! ## Identities -/

namespace MintRecord.SameIdentity

variable {a b c : MintRecord}

theorem refl (a : MintRecord) : a.SameIdentity a := ⟨rfl, rfl, rfl⟩

theorem symm (same : a.SameIdentity b) : b.SameIdentity a :=
  ⟨same.1.symm, same.2.1.symm, same.2.2.symm⟩

theorem trans (first : a.SameIdentity b) (second : b.SameIdentity c) : a.SameIdentity c :=
  ⟨first.1.trans second.1, first.2.1.trans second.2.1, first.2.2.trans second.2.2⟩

end MintRecord.SameIdentity

namespace AccountRecord.SameIdentity

variable {a b c : AccountRecord}

theorem refl (a : AccountRecord) : a.SameIdentity a := ⟨rfl, rfl, rfl⟩

theorem symm (same : a.SameIdentity b) : b.SameIdentity a :=
  ⟨same.1.symm, same.2.1.symm, same.2.2.symm⟩

theorem trans (first : a.SameIdentity b) (second : b.SameIdentity c) : a.SameIdentity c :=
  ⟨first.1.trans second.1, first.2.1.trans second.2.1, first.2.2.trans second.2.2⟩

end AccountRecord.SameIdentity

namespace MemoryStore

variable (records : MemoryStore)

/-- The records with a mint put in, in the place of one at its address. -/
def putMint (mint : MintRecord) : MemoryStore := { records with mints := records.mints.put mint }

/-- The records with an account put in, in the place of one at its address. -/
def putAccount (account : AccountRecord) : MemoryStore :=
  { records with accounts := records.accounts.put account }

/-- The records with mints and accounts put in, each list in order. -/
def putAll (mints : List MintRecord) (accounts : List AccountRecord) : MemoryStore where
  mints := mints.foldl Index.put records.mints
  accounts := accounts.foldl Index.put records.accounts

/-! ## Looking up -/

@[simp] theorem getMint_putMint (mint : MintRecord) (address : MintAddress) :
    (records.putMint mint).getMint address =
      if mint.address = address then some mint else records.getMint address := by
  simp [putMint, getMint, MintRecord.key, MintAddress.toBytes_inj]

@[simp] theorem getAccount_putMint (mint : MintRecord) (address : AccountAddress) :
    (records.putMint mint).getAccount address = records.getAccount address := rfl

@[simp] theorem getMint_putAccount (account : AccountRecord) (address : MintAddress) :
    (records.putAccount account).getMint address = records.getMint address := rfl

@[simp] theorem getAccount_putAccount (account : AccountRecord) (address : AccountAddress) :
    (records.putAccount account).getAccount address =
      if account.address = address then some account else records.getAccount address := by
  simp [putAccount, getAccount, AccountRecord.key, AccountAddress.toBytes_inj]

variable {records}

/-- A record in the place of another adds none. -/
theorem getMint_ne_none_of_putMint {mint old found : MintRecord} {address : MintAddress}
    (present : (records.putMint mint).getMint address = some found)
    (stored : records.getMint mint.address = some old) : records.getMint address ≠ none := by
  intro free
  rw [getMint_putMint] at present
  split at present
  next here =>
    rw [here, free] at stored
    cases stored
  · cases free.symm.trans present

theorem getAccount_ne_none_of_putAccount {account old found : AccountRecord}
    {address : AccountAddress}
    (present : (records.putAccount account).getAccount address = some found)
    (stored : records.getAccount account.address = some old) :
    records.getAccount address ≠ none := by
  intro free
  rw [getAccount_putAccount] at present
  split at present
  next here =>
    rw [here, free] at stored
    cases stored
  · cases free.symm.trans present

theorem address_of_getMint {address : MintAddress} {mint : MintRecord}
    (found : records.getMint address = some mint) : mint.address = address := by
  have same : mint.key = address.toBytes := Index.key_of_find? found
  exact MintAddress.toBytes_inj.mp same

theorem address_of_getAccount {address : AccountAddress} {account : AccountRecord}
    (found : records.getAccount address = some account) : account.address = address := by
  have same : account.key = address.toBytes := Index.key_of_find? found
  exact AccountAddress.toBytes_inj.mp same

theorem mem_mints_iff {mint : MintRecord} :
    mint ∈ records.mints.items ↔ records.getMint mint.address = some mint := by
  rw [getMint, Index.find?_eq_some_iff]
  exact (and_iff_left rfl).symm

theorem mem_accounts_iff {account : AccountRecord} :
    account ∈ records.accounts.items ↔ records.getAccount account.address = some account := by
  rw [getAccount, Index.find?_eq_some_iff]
  exact (and_iff_left rfl).symm

/-- Records are what is found at addresses. -/
theorem ext_of_lookups {a b : MemoryStore}
    (mints : ∀ address, a.getMint address = b.getMint address)
    (accounts : ∀ address, a.getAccount address = b.getAccount address) : a = b := by
  have sameMints : a.mints = b.mints := Index.ext_of_mem fun mint => by
    rw [mem_mints_iff, mem_mints_iff, mints]
  have sameAccounts : a.accounts = b.accounts := Index.ext_of_mem fun account => by
    rw [mem_accounts_iff, mem_accounts_iff, accounts]
  obtain ⟨_, _⟩ := a
  obtain ⟨_, _⟩ := b
  congr

end MemoryStore

/-! ## Records of the same identities -/

namespace MemoryStore

variable {records : MemoryStore}

/-- Whether the same records are there, up to supplies and amounts. -/
structure Kin (a b : MemoryStore) : Prop where
  mints : ∀ address, (a.getMint address).map ({ · with supply := 0 }) =
    (b.getMint address).map ({ · with supply := 0 })
  accounts : ∀ address, (a.getAccount address).map ({ · with amount := 0 }) =
    (b.getAccount address).map ({ · with amount := 0 })

namespace Kin

variable {a b c : MemoryStore}

theorem refl (a : MemoryStore) : a.Kin a := ⟨fun _ => rfl, fun _ => rfl⟩

theorem symm (kin : a.Kin b) : b.Kin a :=
  ⟨fun address => (kin.mints address).symm, fun address => (kin.accounts address).symm⟩

theorem trans (first : a.Kin b) (second : b.Kin c) : a.Kin c :=
  ⟨fun address => (first.mints address).trans (second.mints address),
    fun address => (first.accounts address).trans (second.accounts address)⟩

theorem mint (kin : a.Kin b) {address : MintAddress} {mint : MintRecord}
    (stored : a.getMint address = some mint) :
    ∃ mint', b.getMint address = some mint' ∧ mint.SameIdentity mint' := by
  have same := kin.mints address
  rw [stored] at same
  obtain ⟨mint', stored', same⟩ := Option.map_eq_some_iff.mp same.symm
  simp only [MintRecord.mk.injEq] at same
  exact ⟨mint', stored', same.1.symm, same.2.1.symm, same.2.2.1.symm⟩

theorem account (kin : a.Kin b) {address : AccountAddress} {account : AccountRecord}
    (stored : a.getAccount address = some account) :
    ∃ account', b.getAccount address = some account' ∧ account.SameIdentity account' := by
  have same := kin.accounts address
  rw [stored] at same
  obtain ⟨account', stored', same⟩ := Option.map_eq_some_iff.mp same.symm
  simp only [AccountRecord.mk.injEq] at same
  exact ⟨account', stored', same.1.symm, same.2.1.symm, same.2.2.1.symm⟩

/-- Amounts apart, the accounts are the same, so a mint has as many of them. -/
theorem length_accountsByMint (kin : a.Kin b) (mint : MintAddress) :
    (a.accountsByMint mint).length = (b.accountsByMint mint).length := by
  let bare : AccountRecord → AccountRecord := fun account => { account with amount := 0 }
  have among : ∀ {a b : MemoryStore}, a.Kin b → ∀ account,
      account ∈ a.accounts.items.map bare → account ∈ b.accounts.items.map bare := by
    intro a b kin account member
    obtain ⟨account, stored, rfl⟩ := List.mem_map.mp member
    obtain ⟨account', stored', same⟩ := kin.account (mem_accounts_iff.mp stored)
    rw [same.1] at stored'
    refine List.mem_map.mpr ⟨account', mem_accounts_iff.mpr stored', ?_⟩
    simp only [bare, same.1, same.2.1, same.2.2]
  -- an index is sorted by its keys, so that the same members make the same list
  have same : (a.accounts.map bare fun _ => rfl : Index AccountRecord.key) =
      b.accounts.map bare fun _ => rfl :=
    Index.ext_of_mem fun account => ⟨among kin account, among kin.symm account⟩
  have counts : ∀ records : MemoryStore, (records.accountsByMint mint).length =
      ((records.accounts.items.map bare).filter (·.mint = mint)).length := by
    intro records
    rw [List.filter_map, List.length_map]
    rfl
  rw [counts, counts]
  exact congrArg (fun index => (index.items.filter (·.mint = mint)).length) same

theorem putMint {mint old : MintRecord} (stored : records.getMint mint.address = some old)
    (same : old.SameIdentity mint) : records.Kin (records.putMint mint) := by
  refine ⟨fun address => ?_, fun _ => rfl⟩
  rw [getMint_putMint]
  split
  next here =>
    rw [← here, stored]
    simp [same.1, same.2.1, same.2.2]
  · rfl

theorem putAccount {account old : AccountRecord}
    (stored : records.getAccount account.address = some old) (same : old.SameIdentity account) :
    records.Kin (records.putAccount account) := by
  refine ⟨fun _ => rfl, fun address => ?_⟩
  rw [getAccount_putAccount]
  split
  next here =>
    rw [← here, stored]
    simp [same.1, same.2.1, same.2.2]
  · rfl

end Kin

end MemoryStore

/-! ## Many records at once -/

namespace MemoryStore

variable {records : MemoryStore} {mints : List MintRecord} {accounts : List AccountRecord}

/-- Where many are put in, the last one at an address stands. -/
theorem getMint_putAll (address : MintAddress) :
    (records.putAll mints accounts).getMint address =
      (mints.reverse.find? fun mint => mint.address = address).or (records.getMint address) := by
  simp [putAll, getMint, Index.find?_foldl_put, MintRecord.key, MintAddress.toBytes_inj]

theorem getAccount_putAll (address : AccountAddress) :
    (records.putAll mints accounts).getAccount address =
      (accounts.reverse.find? fun account => account.address = address).or
        (records.getAccount address) := by
  simp [putAll, getAccount, Index.find?_foldl_put, AccountRecord.key, AccountAddress.toBytes_inj]

theorem getMint_putAll_of_forall_ne {address : MintAddress}
    (other : ∀ mint ∈ mints, mint.address ≠ address) :
    (records.putAll mints accounts).getMint address = records.getMint address := by
  have none : (mints.reverse.find? fun mint => mint.address = address) = none := by
    simpa using other
  rw [getMint_putAll, none, Option.none_or]

theorem getAccount_putAll_of_forall_ne {address : AccountAddress}
    (other : ∀ account ∈ accounts, account.address ≠ address) :
    (records.putAll mints accounts).getAccount address = records.getAccount address := by
  have none : (accounts.reverse.find? fun account => account.address = address) = none := by
    simpa using other
  rw [getAccount_putAll, none, Option.none_or]

end MemoryStore

/-! ## Batches -/

namespace Update

/-- An update passes if it is computed from what is stored and keeps its identity. -/
theorem checkMint_eq_ok_iff {stored : Option MintRecord} {update : Update MintRecord} :
    update.checkMint stored = .ok () ↔
      stored = some update.before ∧ update.before.SameIdentity update.after := by
  cases stored with
  | none => simp [checkMint]
  | some record =>
    simp only [checkMint, Option.some.injEq]
    split
    next same => split <;> simp_all
    next changed =>
      refine ⟨fun passed => by simp at passed, ?_⟩
      rintro ⟨rfl, same⟩
      exact absurd ⟨same, same⟩ changed

theorem checkAccount_eq_ok_iff {stored : Option AccountRecord} {update : Update AccountRecord} :
    update.checkAccount stored = .ok () ↔
      stored = some update.before ∧ update.before.SameIdentity update.after := by
  cases stored with
  | none => simp [checkAccount]
  | some record =>
    simp only [checkAccount, Option.some.injEq]
    split
    next same => split <;> simp_all
    next changed =>
      refine ⟨fun passed => by simp at passed, ?_⟩
      rintro ⟨rfl, same⟩
      exact absurd ⟨same, same⟩ changed

end Update

theorem MemoryStore.write_eq_putAll (records : MemoryStore) (batch : WriteBatch) :
    records.write batch =
      records.putAll (batch.mints.map (·.after)) (batch.accounts.map (·.after)) := by
  simp [write, putAll, List.foldl_map]

/-- A batch is applied if every update of it is computed from what is stored and
    keeps its identity. -/
theorem MemoryStore.commit_eq_ok_iff {records next : MemoryStore} {batch : WriteBatch} :
    records.commit batch = .ok next ↔
      (∀ update ∈ batch.mints, records.getMint update.after.address = some update.before ∧
        update.before.SameIdentity update.after) ∧
      (∀ update ∈ batch.accounts, records.getAccount update.after.address = some update.before ∧
        update.before.SameIdentity update.after) ∧
      next = records.write batch := by
  simp only [commit, validate, bind_eq_ok_iff, forM_eq_ok_iff, Update.checkMint_eq_ok_iff,
    Update.checkAccount_eq_ok_iff, pure, Except.pure, Except.ok.injEq]
  constructor
  · rintro ⟨⟨⟩, ⟨⟨⟩, mints, accounts⟩, rfl⟩
    exact ⟨mints, accounts, rfl⟩
  · rintro ⟨mints, accounts, rfl⟩
    exact ⟨(), ⟨(), mints, accounts⟩, rfl⟩

theorem MemoryStore.kin_of_commit {records next : MemoryStore} {batch : WriteBatch}
    (committed : records.commit batch = .ok next) : records.Kin next := by
  obtain ⟨mints, accounts, rfl⟩ := commit_eq_ok_iff.mp committed
  rw [write_eq_putAll]
  -- whatever has been written last at an address was computed from what is stored there
  constructor
  · intro address
    rw [getMint_putAll]
    cases written : (batch.mints.map (·.after)).reverse.find? (·.address = address) with
    | none => rfl
    | some mint =>
      obtain ⟨update, member, rfl⟩ := by simpa using List.mem_of_find?_eq_some written
      obtain rfl : update.after.address = address := by simpa using List.find?_some written
      obtain ⟨stored, same⟩ := mints update member
      simp [stored, same.1, same.2.1, same.2.2]
  · intro address
    rw [getAccount_putAll]
    cases written : (batch.accounts.map (·.after)).reverse.find? (·.address = address) with
    | none => rfl
    | some account =>
      obtain ⟨update, member, rfl⟩ := by simpa using List.mem_of_find?_eq_some written
      obtain rfl : update.after.address = address := by simpa using List.find?_some written
      obtain ⟨stored, same⟩ := accounts update member
      simp [stored, same.1, same.2.1, same.2.2]

end TokenLedger
