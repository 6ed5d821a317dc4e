import TokenLedger.Proofs.Store.Migration
import TokenLedger.Proofs.Store.Permanence

/-! # Rows stay readable

A row says twice what it is about: in the columns by which it is found, which are
written when it is inserted, and in the bytes of its record, which every commit writes
anew.  In a database that only calls of the store have changed since its schema was
brought up to date, the two agree, whatever the calls were and whatever became of them.

The invariant is that the tables are those of some records (`MemoryStore.toTables`).
A batch keeps to it update by update, also where it names a record several times: an
update that passes its check leaves the identity of the record alone, so the columns
still fit.  It follows that nothing stored is ever found to be corrupt.  The one fault
that is reported of data is in what the caller wants committed.
-/

namespace TokenLedger

open RecordStore

/-- Whether the bytes of a row are a mint that its columns agree with. -/
def MintRow.Readable (row : MintRow) : Prop :=
  ∃ mint, MintRecord.decode row.record = .ok mint ∧
    mint.address.toBytes = row.address ∧ mint.authority.toBytes = row.authority

/-- Whether the bytes of a row are an account that its columns agree with. -/
def AccountRow.Readable (row : AccountRow) : Prop :=
  ∃ account, AccountRecord.decode row.record = .ok account ∧
    account.address.toBytes = row.address ∧ account.owner.toBytes = row.owner ∧
    account.mint.toBytes = row.mint

/-- Whether an update of a batch would give the record at an address another identity: another
    than the update itself says that it had, or than the record has that is stored there. -/
inductive WriteBatch.ChangesIdentity (db : Database) (batch : WriteBatch) : Address → Prop
  | mint {update : Update MintRecord} {stored : MintRecord} (member : update ∈ batch.mints)
      (found : HasMint db update.after.address stored)
      (changes : ¬(update.before.SameIdentity update.after ∧ stored.SameIdentity update.after)) :
      ChangesIdentity db batch (.mint update.after.address)
  | account {update : Update AccountRecord} {stored : AccountRecord}
      (member : update ∈ batch.accounts) (found : HasAccount db update.after.address stored)
      (changes : ¬(update.before.SameIdentity update.after ∧ stored.SameIdentity update.after)) :
      ChangesIdentity db batch (.account update.after.address)

/-! ## Checks that fail -/

namespace Update

theorem checkMint_ne_serialization (stored : Option MintRecord) (update : Update MintRecord)
    (reason : CoreError) : update.checkMint stored ≠ .error (.serialization reason) := by
  cases stored with
  | none => simp [checkMint]
  | some record => simp only [checkMint]; split <;> (try split) <;> simp

theorem checkAccount_ne_serialization (stored : Option AccountRecord)
    (update : Update AccountRecord) (reason : CoreError) :
    update.checkAccount stored ≠ .error (.serialization reason) := by
  cases stored with
  | none => simp [checkAccount]
  | some record => simp only [checkAccount]; split <;> (try split) <;> simp

theorem checkMint_invalidData {stored : Option MintRecord} {update : Update MintRecord}
    {fault : DataFault} (failed : update.checkMint stored = .error (.invalidData fault)) :
    fault = .identityChanged (.mint update.after.address) ∧ ∃ record, stored = some record ∧
      ¬(update.before.SameIdentity update.after ∧ record.SameIdentity update.after) := by
  cases stored with
  | none => cases failed
  | some record =>
    simp only [checkMint] at failed
    split at failed
    · split at failed <;> cases failed
    next changes =>
      cases failed
      exact ⟨rfl, record, rfl, changes⟩

theorem checkAccount_invalidData {stored : Option AccountRecord} {update : Update AccountRecord}
    {fault : DataFault} (failed : update.checkAccount stored = .error (.invalidData fault)) :
    fault = .identityChanged (.account update.after.address) ∧ ∃ record, stored = some record ∧
      ¬(update.before.SameIdentity update.after ∧ record.SameIdentity update.after) := by
  cases stored with
  | none => cases failed
  | some record =>
    simp only [checkAccount] at failed
    split at failed
    · split at failed <;> cases failed
    next changes =>
      cases failed
      exact ⟨rfl, record, rfl, changes⟩

end Update

/-! ## Tables of records -/

namespace MemoryStore

variable {records : MemoryStore}

theorem readable_mints {row : MintRow} (member : row ∈ records.toTables.mints.items) :
    row.Readable := by
  obtain ⟨mint, _, rfl⟩ := List.mem_map.mp member
  exact ⟨mint, MintRecord.decode_encode mint, rfl, rfl⟩

theorem readable_accounts {row : AccountRow} (member : row ∈ records.toTables.accounts.items) :
    row.Readable := by
  obtain ⟨account, _, rfl⟩ := List.mem_map.mp member
  exact ⟨account, AccountRecord.decode_encode account, rfl, rfl, rfl⟩

/-- Whether tables are those of the records, up to supplies and amounts. -/
def Underlies (records : MemoryStore) (tables : Tables) : Prop :=
  ∃ later : MemoryStore, tables = later.toTables ∧ later.Kin records

theorem Underlies.updateMint {tables next : Tables} {update : Update MintRecord}
    (underlies : records.Underlies tables) (done : tables.updateMint update = .ok next) :
    records.Underlies next := by
  obtain ⟨later, rfl, kin⟩ := underlies
  rw [updateMint_toTables, map_eq_ok_iff] at done
  obtain ⟨_, checked, rfl⟩ := done
  obtain ⟨stored, same⟩ := Update.checkMint_eq_ok_iff.mp checked
  exact ⟨_, rfl, (Kin.putMint stored same).symm.trans kin⟩

theorem Underlies.updateAccount {tables next : Tables} {update : Update AccountRecord}
    (underlies : records.Underlies tables) (done : tables.updateAccount update = .ok next) :
    records.Underlies next := by
  obtain ⟨later, rfl, kin⟩ := underlies
  rw [updateAccount_toTables, map_eq_ok_iff] at done
  obtain ⟨_, checked, rfl⟩ := done
  obtain ⟨stored, same⟩ := Update.checkAccount_eq_ok_iff.mp checked
  exact ⟨_, rfl, (Kin.putAccount stored same).symm.trans kin⟩

theorem underlies_toTables (records : MemoryStore) : records.Underlies records.toTables :=
  ⟨records, rfl, .refl records⟩

theorem underlies_commit {batch : WriteBatch} {next : Tables}
    (done : records.toTables.commit batch = .ok next) : records.Underlies next := by
  obtain ⟨between, mints, accounts⟩ := bind_eq_ok_iff.mp done
  exact foldlM_keeps .updateAccount (foldlM_keeps .updateMint records.underlies_toTables mints)
    accounts

/-- A batch fails at an update whose check fails where the updates before it have led. -/
theorem exists_check_of_commit_error {batch : WriteBatch} {e : StoreError}
    (failed : records.toTables.commit batch = .error e) :
    (∃ update ∈ batch.mints, ∃ later : MemoryStore, later.Kin records ∧
      update.checkMint (later.getMint update.after.address) = .error e) ∨
    ∃ update ∈ batch.accounts, ∃ later : MemoryStore, later.Kin records ∧
      update.checkAccount (later.getAccount update.after.address) = .error e := by
  rcases bind_eq_error_iff.mp failed with failed | ⟨between, mints, failed⟩
  · obtain ⟨update, member, _, ⟨later, rfl, kin⟩, failed⟩ :=
      exists_step_of_foldlM_error .updateMint records.underlies_toTables failed
    rw [updateMint_toTables, map_eq_error_iff] at failed
    exact .inl ⟨update, member, later, kin, failed⟩
  · have reached := foldlM_keeps .updateMint records.underlies_toTables mints
    obtain ⟨update, member, _, ⟨later, rfl, kin⟩, failed⟩ :=
      exists_step_of_foldlM_error .updateAccount reached failed
    rw [updateAccount_toTables, map_eq_error_iff] at failed
    exact .inr ⟨update, member, later, kin, failed⟩

theorem exists_toTables_answer (records : MemoryStore) (call : StoreCall) :
    ∃ later : MemoryStore, (answer call records.toTables).2 = later.toTables := by
  by_cases distinct : call.Distinct
  · obtain ⟨later, next, _⟩ := records.replies_toTables distinct
    exact ⟨later, next⟩
  -- only a batch can name a record twice
  · cases call with
    | commit batch =>
      simp only [RecordStore.answer]
      cases committed : records.toTables.commit batch with
      | ok next =>
        obtain ⟨later, rfl, _⟩ := underlies_commit committed
        exact ⟨later, rfl⟩
      | error e => exact ⟨records, rfl⟩
    | _ => exact absurd trivial distinct

/-! ## What tables of records reply -/

theorem exists_reply_of_not_writes {call : StoreCall} (reads : call.writes = false) :
    ∃ reply, (answer call records.toTables).1 = .ok reply := by
  cases call with
  | getMint address => exact ⟨_, records.getMint_toTables address⟩
  | getAccount address => exact ⟨_, records.getAccount_toTables address⟩
  | insertMint mint => cases reads
  | insertAccount account => cases reads
  | commit batch =>
    obtain ⟨mints, accounts⟩ := batch
    simp only [StoreCall.writes, WriteBatch.isEmpty, Bool.not_eq_false', Bool.and_eq_true,
      List.isEmpty_iff] at reads
    obtain ⟨rfl, rfl⟩ := reads
    exact ⟨(), rfl⟩
  | accountsByMint mint => exact ⟨_, records.accountsByMint_toTables mint⟩
  | accountsByOwner owner => exact ⟨_, records.accountsByOwner_toTables owner⟩
  | listMints => exact ⟨_, records.listMints_toTables⟩

/-- A call that fails inserts an account of no mint, or commits a batch with an update whose
    check fails. -/
theorem cause_of_error {call : StoreCall} {e : StoreError}
    (failed : (answer call records.toTables).1 = .error e) :
    e = .database .foreignKey ∨
      ∃ batch, call = .commit batch ∧ records.toTables.commit batch = .error e := by
  cases writes : call.writes with
  | false =>
    obtain ⟨reply, replied⟩ := @exists_reply_of_not_writes records _ writes
    rw [replied] at failed
    cases failed
  | true =>
    cases call with
    | insertMint mint => simp [RecordStore.answer] at failed
    | insertAccount account =>
      simp only [RecordStore.answer, insertAccount_toTables] at failed
      split at failed
      · cases failed
      next e' answered =>
        cases failed
        split at answered
        · cases answered
        · split at answered
          · cases answered
            exact .inl rfl
          · cases answered
    | commit batch =>
      simp only [RecordStore.answer] at failed
      split at failed
      · cases failed
      next e' refused =>
        cases failed
        exact .inr ⟨batch, rfl, refused⟩
    | _ => cases writes

end MemoryStore

/-! ## Databases -/

namespace Database

variable {db : Database}

/-- Whether the tables of a database are those of some records. -/
def KeepsRecords (db : Database) : Prop :=
  ∃ records : MemoryStore, db.tables = some records.toTables

theorem answer_of_tables {tables : Tables} (has : db.tables = some tables) (call : StoreCall) :
    answer call db =
      ((answer call tables).1, { db with tables := some (answer call tables).2 }) := by
  simp only [RecordStore.answer, has]

theorem answer_of_not_writes {call : StoreCall} (reads : call.writes = false)
    (db : Database) : (answer call db).2 = db := by
  obtain ⟨tables, others, triggers⟩ := db
  cases tables with
  | none => rfl
  | some tables =>
    cases call with
    | insertMint mint => cases reads
    | insertAccount account => cases reads
    | commit batch =>
      obtain ⟨mints, accounts⟩ := batch
      simp only [StoreCall.writes, WriteBatch.isEmpty, Bool.not_eq_false', Bool.and_eq_true,
        List.isEmpty_iff] at reads
      obtain ⟨rfl, rfl⟩ := reads
      rfl
    | _ => rfl

theorem KeepsRecords.step (keeps : db.KeepsRecords) (call : StoreCall) :
    (answer call db).2.KeepsRecords := by
  obtain ⟨records, has⟩ := keeps
  obtain ⟨later, next⟩ := records.exists_toTables_answer call
  rw [answer_of_tables has]
  exact ⟨later, congrArg some next⟩

theorem KeepsRecords.run (keeps : db.KeepsRecords) (calls : List StoreCall) :
    (after db calls).KeepsRecords := by
  induction calls generalizing db with
  | nil => exact keeps
  | cons call rest ih => exact ih (keeps.step call)

/-- What triggers do comes to nothing for tables of the ledger that have no rows. -/
theorem tables_of_clear {db next : Database} {name : String} (blank : db.tables = some .empty)
    (done : db.clear name = .ok next) : next.tables = some .empty := by
  unfold clear at done
  split at done
  next =>
    cases done
    exact blank
  -- the rows of the accounts go, and then those of the mints, and there are none
  next has _ =>
    cases done
    cases blank.symm.trans has
    rfl
  next has _ =>
    split at done
    · cases done
      cases blank.symm.trans has
      rfl
    · cases done
  next => cases done

theorem tables_of_recordVersion {next : Database} {version now : Int}
    (blank : db.tables = some .empty) (recorded : db.recordVersion version now = .ok next) :
    next.tables = some .empty := by
  unfold recordVersion at recorded
  split at recorded
  · cases recorded
  obtain ⟨result, _, recorded⟩ := bind_eq_ok_iff.mp recorded
  cases result with
  | none =>
    cases recorded
    exact blank
  | some table =>
    have fired := mapError_eq_ok_iff.mp recorded
    exact @foldlM_keeps _ _ _ (fun db => db.tables = some .empty) _ _ _ _ tables_of_clear blank
      fired

/-- A migration that finds an old schema ends with tables without rows. -/
theorem tables_of_migrate {next : Database} {found : Nat} {now : Int}
    (migrated : db.migrate now = .ok (found, next)) (old : found < supportedVersion) :
    next.tables = some .empty := by
  obtain ⟨_, ⟨latest, _⟩ | ⟨_, _, recorded⟩⟩ := migrate_eq_ok migrated
  · exact absurd latest (Nat.ne_of_lt old)
  · exact tables_of_recordVersion rfl recorded

theorem hasMint_of_getMint {records : MemoryStore} (has : db.tables = some records.toTables)
    {address : MintAddress} {mint : MintRecord} (found : records.getMint address = some mint) :
    HasMint db address mint := by
  rw [HasMint, answer_of_tables has, ← found]
  exact records.getMint_toTables address

theorem hasAccount_of_getAccount {records : MemoryStore} (has : db.tables = some records.toTables)
    {address : AccountAddress} {account : AccountRecord}
    (found : records.getAccount address = some account) : HasAccount db address account := by
  rw [HasAccount, answer_of_tables has, ← found]
  exact records.getAccount_toTables address

/-- What the updates before it in the batch have made of a record does not matter: they leave
    identities as they are, so the identity that an update would change is the stored one. -/
theorem changesIdentity_of_commit {records : MemoryStore} (has : db.tables = some records.toTables)
    {batch : WriteBatch} {fault : DataFault}
    (refused : records.toTables.commit batch = .error (.invalidData fault)) :
    ∃ address, fault = .identityChanged address ∧ batch.ChangesIdentity db address := by
  rcases MemoryStore.exists_check_of_commit_error refused with
    ⟨update, member, later, kin, failed⟩ | ⟨update, member, later, kin, failed⟩
  · obtain ⟨rfl, record, found, changes⟩ := Update.checkMint_invalidData failed
    obtain ⟨stored, found, same⟩ := kin.mint found
    -- had the identity been that of the stored record, it would have been that of the later one
    refine ⟨_, rfl, .mint member (hasMint_of_getMint has found) fun keeps => changes ?_⟩
    exact ⟨keeps.1, same.trans keeps.2⟩
  · obtain ⟨rfl, record, found, changes⟩ := Update.checkAccount_invalidData failed
    obtain ⟨stored, found, same⟩ := kin.account found
    refine ⟨_, rfl, .account member (hasAccount_of_getAccount has found) fun keeps => changes ?_⟩
    exact ⟨keeps.1, same.trans keeps.2⟩

/-- Once the schema of a database has been brought up to date, whatever it is called for leaves
    rows of which bytes and columns agree.  So whatever only reads is answered, no call finds
    bytes that do not decode, and data is only found to be wrong in a batch that would change
    what identifies a record. -/
theorem rows_stay_readable {next : Database} {found : Nat} {now : Int}
    (migrated : db.migrate now = .ok (found, next)) (old : found < supportedVersion)
    (calls : List StoreCall) :
    (∃ tables, (after next calls).tables = some tables ∧
      (∀ row ∈ tables.mints.items, row.Readable) ∧
      ∀ row ∈ tables.accounts.items, row.Readable) ∧
    (∀ call : StoreCall, call.writes = false →
      ∃ reply, (answer call (after next calls)).1 = .ok reply) ∧
    (∀ (call : StoreCall) (reason : CoreError),
      (answer call (after next calls)).1 ≠ .error (.serialization reason)) ∧
    ∀ (call : StoreCall) (fault : DataFault),
      (answer call (after next calls)).1 = .error (.invalidData fault) →
        ∃ batch address, call = .commit batch ∧ fault = .identityChanged address ∧
          batch.ChangesIdentity (after next calls) address := by
  have new : next.KeepsRecords := ⟨.empty, tables_of_migrate migrated old⟩
  obtain ⟨records, has⟩ := new.run calls
  refine ⟨⟨_, has, fun _ => MemoryStore.readable_mints, fun _ => MemoryStore.readable_accounts⟩,
    fun call reads => ?_, fun call reason failed => ?_, fun call fault failed => ?_⟩
  · rw [answer_of_tables has]
    exact MemoryStore.exists_reply_of_not_writes reads
  · rw [answer_of_tables has] at failed
    rcases MemoryStore.cause_of_error failed with ⟨⟨⟩⟩ | ⟨batch, _, refused⟩
    -- a check is made on records, and by then their bytes have been decoded
    rcases MemoryStore.exists_check_of_commit_error refused with
      ⟨update, _, _, _, failed⟩ | ⟨update, _, _, _, failed⟩
    · exact update.checkMint_ne_serialization _ _ failed
    · exact update.checkAccount_ne_serialization _ _ failed
  · rw [answer_of_tables has] at failed
    rcases MemoryStore.cause_of_error failed with ⟨⟨⟩⟩ | ⟨batch, called, refused⟩
    obtain ⟨address, changed, changes⟩ := changesIdentity_of_commit has refused
    exact ⟨batch, address, called, changed, changes⟩

/-- In a database that has a table of its own already, after a batch that names a mint twice and
    goes through and others that do not.  A batch that would give the account to somebody else
    is the one that is found to be wrong. -/
theorem rows_stay_readable_thefts :
    let mint : MintRecord := .empty ⟨.replicate 2⟩ ⟨.replicate 1⟩ 0
    let account : AccountRecord := .empty ⟨.replicate 4⟩ ⟨.replicate 3⟩ mint.address
    let stolen := { account with owner := ⟨.replicate 5⟩ }
    let calls := .insertMint mint :: .insertAccount account :: thefts mint account ⟨.replicate 5⟩
    let notes : AnyTable := { name := "notes", columns := [{ name := "id" }] }
    let next := fresh.putOther notes
    let theft := ⟨[], [⟨account, stolen⟩]⟩
    (empty.putOther notes).migrate = .ok (0, next) ∧
      HasMint (after next calls) mint.address { mint with supply := 7 } ∧
      HasAccount (after next calls) account.address account ∧
      (∃ tables, (after next calls).tables = some tables ∧
        ∀ row ∈ tables.accounts.items, row.Readable) ∧
      (∃ reply, (answer (.accountsByMint mint.address) (after next calls)).1 = .ok reply) ∧
      (answer (.commit theft) (after next calls)).1 =
        .error (.invalidData (.identityChanged (.account account.address))) ∧
      theft.ChangesIdentity (after next calls) (.account account.address) := by
  intro mint account stolen calls notes next theft
  have migrated : (empty.putOther notes).migrate = .ok (0, next) := by decide +kernel
  have issued : HasMint (after next calls) mint.address { mint with supply := 7 } := by
    decide +kernel
  have kept : HasAccount (after next calls) account.address account := by decide +kernel
  have refused : (answer (.commit theft) (after next calls)).1 =
      .error (.invalidData (.identityChanged (.account account.address))) :=
    @of_decide_eq_true _ ((inferInstance : DecidableEq (Except StoreError Unit)) _ _)
      (by decide +kernel)
  obtain ⟨⟨tables, has, _, accounts⟩, reads, _, changes⟩ :=
    rows_stay_readable migrated (by decide) calls
  obtain ⟨_, _, ⟨⟩, ⟨⟩, changed⟩ := changes _ _ refused
  exact ⟨migrated, issued, kept, ⟨tables, has, accounts⟩, reads _ rfl, refused, changed⟩

end Database

end TokenLedger
