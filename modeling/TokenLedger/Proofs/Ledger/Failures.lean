import TokenLedger.Ledger.Basic
import TokenLedger.Proofs.Program.Ensures
import TokenLedger.Proofs.Store.Rows
import TokenLedger.Proofs.Transition

/-! # Issues and burns that fail

An issue or a burn runs alone on a database of which nothing is known: its rows may hold
bytes that are no record, or the record of another row.  Up to the commit nothing is
written, whatever goes wrong.  The commit itself does not go wrong, because it finds the
two records just as they have been loaded (`Database.commit_loaded`).  What can still fail
is the audit after it, which reads rows that the operation has had nothing to do with.

So a failed issue or burn has left every row as it was, except just if its audit is what
failed (`SupplyMove.failed_write_iff`).
-/

namespace TokenLedger

open RecordStore

/-! ## Programs that run alone -/

namespace LedgerProgram

variable {α β : Type} {db next : Database}

/-- The result of a program that runs alone on a database, and the database after it. -/
def alone (program : LedgerProgram α) (db : Database) : Except Failure α × Database :=
  ((Program.run program.run db).result, (Program.run program.run db).store)

theorem alone_bind (x : LedgerProgram α) (f : α → LedgerProgram β) (db : Database) :
    (x >>= f).alone db = alone (ExceptT.mk (ExceptT.bindCont f (x.alone db).1)) (x.alone db).2 :=
  Prod.ext (Program.result_run_bind x.run _ db) (Program.store_run_bind x.run _ db)

theorem alone_bind_ok {x : LedgerProgram α} {f : α → LedgerProgram β} {a : α}
    (first : x.alone db = (.ok a, next)) : (x >>= f).alone db = (f a).alone next := by
  rw [alone_bind, first]
  rfl

theorem alone_bind_error {x : LedgerProgram α} {f : α → LedgerProgram β} {e : Failure}
    (first : x.alone db = (.error e, next)) : (x >>= f).alone db = (.error e, next) := by
  rw [alone_bind, first]
  rfl

theorem alone_note (event : Event) (db : Database) : (note event).alone db = (.ok (), db) := rfl

theorem alone_lock (keys : List Bytes32) (db : Database) :
    (lock keys).alone db = (.ok (), db) := rfl

theorem alone_reply (request : StoreCall) (db : Database) :
    (reply request).alone db = (.ok (answer request db).1, (answer request db).2) := rfl

theorem alone_call (request : StoreCall) (db : Database) :
    (call request).alone db =
      ((answer request db).1.mapError .storage, (answer request db).2) := by
  rw [call, alone_bind_ok (alone_reply request db)]
  cases (answer request db).1 <;> rfl

/-! ## Loading -/

theorem loadMint_cases (address : MintAddress) (db : Database) :
    (∃ e, (loadMint address).alone db = (.error e, db)) ∨
      ∃ mint, HasMint db address mint ∧ (loadMint address).alone db = (.ok mint, db) := by
  have asked := alone_call (.getMint address) db
  rw [Database.answer_of_not_writes rfl] at asked
  cases found : (answer (.getMint address) db).1 with
  | error e =>
    rw [found] at asked
    exact .inl ⟨_, alone_bind_error asked⟩
  | ok stored =>
    rw [found] at asked
    cases stored with
    | none => exact .inl ⟨_, alone_bind_ok asked⟩
    | some mint => exact .inr ⟨mint, found, alone_bind_ok asked⟩

theorem loadAccount_cases (address : AccountAddress) (db : Database) :
    (∃ e, (loadAccount address).alone db = (.error e, db)) ∨
      ∃ account, HasAccount db address account ∧
        (loadAccount address).alone db = (.ok account, db) := by
  have asked := alone_call (.getAccount address) db
  rw [Database.answer_of_not_writes rfl] at asked
  cases found : (answer (.getAccount address) db).1 with
  | error e =>
    rw [found] at asked
    exact .inl ⟨_, alone_bind_error asked⟩
  | ok stored =>
    rw [found] at asked
    cases stored with
    | none => exact .inl ⟨_, alone_bind_ok asked⟩
    | some account => exact .inr ⟨account, found, alone_bind_ok asked⟩

/-- The batch that an issue or a burn asks to be committed. -/
def supplyBatch (mint : MintRecord) (account : AccountRecord) (change : SupplyChange) :
    WriteBatch where
  mints := [⟨mint, change.mint⟩]
  accounts := [⟨account, change.account⟩]

theorem supplyCycle_cases (kind : OperationKind) (mint : MintAddress) (account : AccountAddress)
    (amount : UInt64) (apply : MintRecord → AccountRecord → Except Rejection SupplyChange)
    (db : Database) :
    (∃ e, (supplyCycle kind mint account amount apply).alone db = (.error e, db)) ∨
      ∃ mintRecord accountRecord change, HasMint db mint mintRecord ∧
        HasAccount db account accountRecord ∧ apply mintRecord accountRecord = .ok change ∧
        (supplyCycle kind mint account amount apply).alone db =
          (.ok (change, if amount = 0 then none
            else some (supplyBatch mintRecord accountRecord change)), db) := by
  rw [supplyCycle]
  rcases loadMint_cases mint db with ⟨e, failed⟩ | ⟨mintRecord, found, loaded⟩
  · exact .inl ⟨e, alone_bind_error failed⟩
  rw [alone_bind_ok loaded]
  rcases loadAccount_cases account db with ⟨e, failed⟩ | ⟨accountRecord, found', loaded'⟩
  · exact .inl ⟨e, alone_bind_error failed⟩
  rw [alone_bind_ok loaded']
  cases passed : apply mintRecord accountRecord with
  | error reason => exact .inl ⟨.rejected reason, rfl⟩
  | ok change => exact .inr ⟨mintRecord, accountRecord, change, found, found', passed, rfl⟩

/-! ## Committing -/

section Attempts

variable {cycle : LedgerProgram (α × Option WriteBatch)} {kind : OperationKind} {a : α}
  {batch : WriteBatch} {e : Failure}

theorem exists_attempt (kind : OperationKind) (cycle : LedgerProgram (α × Option WriteBatch))
    (reruns : Nat) : ∃ onConflict, attempts kind cycle reruns = attempt cycle onConflict := by
  cases reruns with
  | zero => exact ⟨_, rfl⟩
  | succ reruns => exact ⟨_, rfl⟩

theorem alone_attempts_error (failed : cycle.alone db = (.error e, db)) (reruns : Nat) :
    (attempts kind cycle reruns).alone db = (.error e, db) := by
  obtain ⟨onConflict, once⟩ := exists_attempt kind cycle reruns
  rw [once]
  exact alone_bind_error failed

theorem alone_attempts_idle (ran : cycle.alone db = (.ok (a, none), db)) (reruns : Nat) :
    (attempts kind cycle reruns).alone db = (.ok a, db) := by
  obtain ⟨onConflict, once⟩ := exists_attempt kind cycle reruns
  rw [once]
  exact alone_bind_ok ran

theorem alone_attempts_commit (ran : cycle.alone db = (.ok (a, some batch), db))
    (done : answer (.commit batch) db = (.ok (), next)) (reruns : Nat) :
    (attempts kind cycle reruns).alone db = (.ok a, next) := by
  obtain ⟨onConflict, once⟩ := exists_attempt kind cycle reruns
  have replied := alone_reply (.commit batch) db
  rw [done] at replied
  rw [once]
  exact (alone_bind_ok ran).trans (alone_bind_ok replied)

end Attempts

end LedgerProgram

/-! ## Rows that have been loaded -/

/-- The records of all rows, by key, as they stand in the rows. -/
def Tables.records (tables : Tables) : List (Bytes × Bytes) × List (Bytes × Bytes) :=
  (tables.mints.items.map fun row => (row.address, row.record),
    tables.accounts.items.map fun row => (row.address, row.record))

namespace Tables

variable {tables : Tables}

theorem find?_mints_eq (tables : Tables) (key : Bytes) :
    (tables.mints.find? key).map (·.record) =
      (tables.records.1.find? (·.1 = key)).map (·.2) := by
  simp [records, Index.find?, List.find?_map, Function.comp_def]

theorem readMint_eq_ok_iff {address : MintAddress} {row : MintRow} {mint : MintRecord} :
    readMint address row = .ok mint ↔
      MintRecord.decode row.record = .ok mint ∧ mint.address = address := by
  unfold readMint
  cases MintRecord.decode row.record with
  | error e => simp
  | ok record =>
    by_cases here : record.address = address
    · simp only [if_pos here, Except.ok.injEq]
      exact ⟨fun same => ⟨same, same ▸ here⟩, And.left⟩
    · simp only [if_neg here, reduceCtorEq, Except.ok.injEq, false_iff]
      rintro ⟨rfl, found⟩
      exact here found

theorem readAccount_eq_ok_iff {address : AccountAddress} {row : AccountRow}
    {account : AccountRecord} :
    readAccount address row = .ok account ↔
      AccountRecord.decode row.record = .ok account ∧ account.address = address := by
  unfold readAccount
  cases AccountRecord.decode row.record with
  | error e => simp
  | ok record =>
    by_cases here : record.address = address
    · simp only [if_pos here, Except.ok.injEq]
      exact ⟨fun same => ⟨same, same ▸ here⟩, And.left⟩
    · simp only [if_neg here, reduceCtorEq, Except.ok.injEq, false_iff]
      rintro ⟨rfl, found⟩
      exact here found

theorem getMint_eq_some_iff {address : MintAddress} {mint : MintRecord} :
    tables.getMint address = .ok (some mint) ↔
      ∃ row, tables.mints.find? address.toBytes = some row ∧
        MintRecord.decode row.record = .ok mint ∧ mint.address = address := by
  unfold getMint
  cases tables.mints.find? address.toBytes with
  | none => simp
  | some row => simp [map_eq_ok_iff, readMint_eq_ok_iff]

theorem getAccount_eq_some_iff {address : AccountAddress} {account : AccountRecord} :
    tables.getAccount address = .ok (some account) ↔
      ∃ row, tables.accounts.find? address.toBytes = some row ∧
        AccountRecord.decode row.record = .ok account ∧ account.address = address := by
  unfold getAccount
  cases tables.accounts.find? address.toBytes with
  | none => simp
  | some row => simp [map_eq_ok_iff, readAccount_eq_ok_iff]

/-- An update computed from what has been loaded is applied. -/
theorem updateMint_loaded {address : MintAddress} {mint mint' : MintRecord}
    (found : tables.getMint address = .ok (some mint)) (same : mint.SameIdentity mint') :
    ∃ next, tables.updateMint ⟨mint, mint'⟩ = .ok next ∧ next.accounts = tables.accounts ∧
      next.getMint address = .ok (some mint') := by
  obtain ⟨row, stored, _, rfl⟩ := getMint_eq_some_iff.mp found
  have passed : Update.checkMint (some mint) ⟨mint, mint'⟩ = .ok () :=
    Update.checkMint_eq_ok_iff.mpr ⟨rfl, same⟩
  have key : row.address = mint'.address.toBytes := same.1 ▸ Index.key_of_find? stored
  rw [same.1] at found stored
  refine ⟨{ tables with mints := tables.mints.put { row with record := mint'.encode } }, ?_, rfl,
    getMint_eq_some_iff.mpr ⟨{ row with record := mint'.encode }, ?_,
      MintRecord.decode_encode mint', same.1.symm⟩⟩
  · simp only [updateMint, found, stored, passed, ok_bind]
    rfl
  · rw [Index.find?_put, if_pos (by rw [same.1]; exact key)]

theorem updateAccount_loaded {address : AccountAddress} {account account' : AccountRecord}
    (found : tables.getAccount address = .ok (some account))
    (same : account.SameIdentity account') :
    ∃ next, tables.updateAccount ⟨account, account'⟩ = .ok next ∧ next.mints = tables.mints := by
  obtain ⟨row, stored, _, rfl⟩ := getAccount_eq_some_iff.mp found
  have passed : Update.checkAccount (some account) ⟨account, account'⟩ = .ok () :=
    Update.checkAccount_eq_ok_iff.mpr ⟨rfl, same⟩
  rw [same.1] at found stored
  refine ⟨{ tables with accounts := tables.accounts.put { row with record := account'.encode } },
    ?_, rfl⟩
  simp only [updateAccount, found, stored, passed, ok_bind]
  rfl

/-- Both updates are for records that have been loaded, so neither is refused. -/
theorem commit_loaded {mint : MintAddress} {account : AccountAddress} {mintRecord : MintRecord}
    {accountRecord : AccountRecord} {change : SupplyChange}
    (found : tables.getMint mint = .ok (some mintRecord))
    (found' : tables.getAccount account = .ok (some accountRecord))
    (same : mintRecord.SameIdentity change.mint)
    (same' : accountRecord.SameIdentity change.account) :
    ∃ next, tables.commit (LedgerProgram.supplyBatch mintRecord accountRecord change) = .ok next ∧
      next.getMint mint = .ok (some change.mint) := by
  obtain ⟨between, updated, kept, written⟩ := updateMint_loaded found same
  have found'' : between.getAccount account = .ok (some accountRecord) := by
    rwa [getAccount, kept]
  obtain ⟨next, updated', kept'⟩ := updateAccount_loaded found'' same'
  refine ⟨next, ?_, by rwa [getMint, kept']⟩
  rw [commit, LedgerProgram.supplyBatch, List.foldlM_cons, updated]
  show [_].foldlM updateAccount between = _
  rw [List.foldlM_cons, updated']
  rfl

end Tables

namespace Database

variable {a b db next : Database}

/-- Whether every row holds the record that it holds in another database. -/
def SameRecords (a b : Database) : Prop := a.tables.map Tables.records = b.tables.map Tables.records

theorem hasMint_iff {address : MintAddress} {mint : MintRecord} :
    HasMint db address mint ↔
      ∃ tables, db.tables = some tables ∧ tables.getMint address = .ok (some mint) := by
  unfold HasMint
  simp only [answer]
  split
  next none => simp [none, noTables]
  next tables has => simp only [has, Option.some.injEq, exists_eq_left']; rfl

theorem hasAccount_iff {address : AccountAddress} {account : AccountRecord} :
    HasAccount db address account ↔
      ∃ tables, db.tables = some tables ∧ tables.getAccount address = .ok (some account) := by
  unfold HasAccount
  simp only [answer]
  split
  next none => simp [none, noTables]
  next tables has => simp only [has, Option.some.injEq, exists_eq_left']; rfl

/-- Look-ups depend on the records in the rows alone. -/
theorem SameRecords.hasMint (same : a.SameRecords b) {address : MintAddress} {mint : MintRecord}
    (found : HasMint a address mint) : HasMint b address mint := by
  obtain ⟨tables, has, read⟩ := hasMint_iff.mp found
  obtain ⟨row, stored, decoded, here⟩ := Tables.getMint_eq_some_iff.mp read
  rw [SameRecords, has, Option.map_some, eq_comm, Option.map_eq_some_iff] at same
  obtain ⟨tables', has', same⟩ := same
  have stored' := tables'.find?_mints_eq address.toBytes
  rw [same, ← tables.find?_mints_eq, stored] at stored'
  obtain ⟨row', stored', bytes⟩ := Option.map_eq_some_iff.mp stored'
  refine hasMint_iff.mpr ⟨tables', has', Tables.getMint_eq_some_iff.mpr ⟨row', stored', ?_, here⟩⟩
  rw [bytes, decoded]

theorem commit_loaded {mint : MintAddress} {account : AccountAddress} {mintRecord : MintRecord}
    {accountRecord : AccountRecord} {change : SupplyChange}
    (found : HasMint db mint mintRecord) (found' : HasAccount db account accountRecord)
    (same : mintRecord.SameIdentity change.mint)
    (same' : accountRecord.SameIdentity change.account) :
    ∃ next, answer (.commit (LedgerProgram.supplyBatch mintRecord accountRecord change)) db =
        (.ok (), next) ∧ HasMint next mint change.mint := by
  obtain ⟨tables, has, read⟩ := hasMint_iff.mp found
  obtain ⟨tables', has', read'⟩ := hasAccount_iff.mp found'
  cases has.symm.trans has'
  obtain ⟨next, committed, written⟩ := Tables.commit_loaded read read' same same'
  refine ⟨{ db with tables := some next }, ?_, hasMint_iff.mpr ⟨next, rfl, written⟩⟩
  simp only [answer, has, committed]

end Database

/-! ## Issues and burns -/

/-- The two operations that change a supply. -/
inductive SupplyMove where
  | issue
  | burn

namespace SupplyMove

variable (move : SupplyMove) (ledger : Ledger) (mint : MintAddress) (account : AccountAddress)
  (signer : Principal) (amount : UInt64) (db : Database)

/-- What a ledger does on the operation. -/
def program : LedgerProgram SupplyChange :=
  match move with
  | issue => ledger.issue mint account signer amount
  | burn => ledger.burn mint account signer amount

/-- The kind of the operation. -/
def kind : OperationKind :=
  match move with
  | issue => .issue
  | burn => .burn

/-- The rule of the operation. -/
def rule (mint : MintRecord) (account : AccountRecord) : Except Rejection SupplyChange :=
  match move with
  | issue => Transition.issue mint account signer amount
  | burn => Transition.burn mint account signer amount

/-- The operation between its locks and its reports. -/
def body : LedgerProgram SupplyChange :=
  LedgerProgram.attempts move.kind
    (LedgerProgram.supplyCycle move.kind mint account amount (move.rule signer amount))
    (LedgerProgram.maxCommitAttempts - 1)

/-- What is reported of the operation. -/
def event (change : SupplyChange) : Event :=
  match move with
  | issue => .tokensIssued mint account amount change.mint.supply
  | burn => .tokensBurned mint account amount change.mint.supply

theorem program_eq : move.program ledger mint account signer amount = (do
    ledger.checkAmount amount
    LedgerProgram.lock [mint.raw, account.raw]
    let change ← move.body mint account signer amount
    LedgerProgram.note (move.event mint account amount change)
    ledger.auditChange change.mint
    return change) := by
  cases move <;> rfl

variable {move ledger mint account signer amount db} {mintRecord : MintRecord}
  {accountRecord : AccountRecord} {change : SupplyChange}

theorem rule_keeps (passed : move.rule signer amount mintRecord accountRecord = .ok change) :
    mintRecord.SameIdentity change.mint ∧ accountRecord.SameIdentity change.account := by
  cases move with
  | issue => exact Transition.issue_keeps passed
  | burn => exact Transition.burn_keeps passed

theorem rule_moves (nonzero : amount ≠ 0)
    (passed : move.rule signer amount mintRecord accountRecord = .ok change) :
    change.mint ≠ mintRecord := by
  have positive : 0 < amount.toNat :=
    Nat.pos_of_ne_zero fun none => nonzero (UInt64.toNat_inj.mp none)
  cases move with
  | issue =>
    obtain ⟨_, _, supply, _, increased, _, rfl⟩ := Transition.issue_eq_ok_iff.mp passed
    intro same
    have kept : supply = mintRecord.supply := congrArg MintRecord.supply same
    rw [kept] at increased
    omega
  | burn =>
    obtain ⟨_, _, supply, _, decreased, _, rfl⟩ := Transition.burn_eq_ok_iff.mp passed
    intro same
    have kept : supply = mintRecord.supply := congrArg MintRecord.supply same
    rw [kept] at decreased
    omega

/-- Up to its reports, the operation fails without having written, or it has done what it
    is for. -/
theorem body_cases :
    (∃ e, (move.body mint account signer amount).alone db = (.error e, db)) ∨
      ∃ change next, (move.body mint account signer amount).alone db = (.ok change, next) ∧
        change.mint.address = mint ∧ (amount = 0 → next = db) ∧
        (amount ≠ 0 → ¬next.SameRecords db) := by
  rw [body]
  rcases LedgerProgram.supplyCycle_cases _ mint account amount (move.rule signer amount) db with
    ⟨e, failed⟩ | ⟨mintRecord, accountRecord, change, found, found', passed, ran⟩
  · exact .inl ⟨e, LedgerProgram.alone_attempts_error failed _⟩
  obtain ⟨same, same'⟩ := rule_keeps passed
  obtain ⟨tables, has, read⟩ := Database.hasMint_iff.mp found
  obtain ⟨_, _, _, here⟩ := Tables.getMint_eq_some_iff.mp read
  right
  by_cases zero : amount = 0
  · rw [if_pos zero] at ran
    exact ⟨change, db, LedgerProgram.alone_attempts_idle ran _, same.1.symm.trans here,
      fun _ => rfl, fun nonzero => absurd zero nonzero⟩
  · rw [if_neg zero] at ran
    obtain ⟨next, committed, written⟩ := Database.commit_loaded found found' same same'
    refine ⟨change, next, LedgerProgram.alone_attempts_commit ran committed _,
      same.1.symm.trans here, fun none => absurd none zero, fun _ kept => ?_⟩
    -- the mint would be found as it was, and its supply has changed
    have old : HasMint db mint change.mint := kept.hasMint written
    have unmoved := Option.some.inj (Except.ok.inj (old.symm.trans found))
    exact rule_moves zero passed unmoved

end SupplyMove

/-! ## Audits -/

namespace Ledger

variable {ledger : Ledger} {mint : MintRecord} {accounts : List AccountRecord} {fault : StoreError}
  {db : Database}

/-- The ledger, auditing or not. -/
def withAudit (ledger : Ledger) (audits : Bool) : Ledger :=
  { ledger with config := { ledger.config with auditAfterCommit := audits } }

theorem alone_auditChange_off (off : ledger.config.auditAfterCommit = false) :
    (ledger.auditChange mint).alone db = (.ok (), db) := by
  rw [auditChange, off]
  rfl

theorem alone_auditChange_ok
    (read : (answer (.accountsByMint mint.address) db).1 = .ok accounts) :
    (ledger.auditChange mint).alone db = (.ok (), db) := by
  have asked := LedgerProgram.alone_call (.accountsByMint mint.address) db
  rw [Database.answer_of_not_writes rfl, read] at asked
  have audited : (LedgerProgram.auditRecord mint).alone db =
      (.ok (mint.checkSupply accounts), db) := by
    rw [LedgerProgram.auditRecord, LedgerProgram.alone_bind_ok asked]
    dsimp only
    cases (mint.checkSupply accounts).consistent <;> rfl
  rw [auditChange]
  split
  · rw [LedgerProgram.alone_bind_ok audited]
    rfl
  · rfl

theorem alone_auditChange_error (on : ledger.config.auditAfterCommit = true)
    (unread : (answer (.accountsByMint mint.address) db).1 = .error fault) :
    (ledger.auditChange mint).alone db = (.error (.storage fault), db) := by
  have asked := LedgerProgram.alone_call (.accountsByMint mint.address) db
  rw [Database.answer_of_not_writes rfl, unread] at asked
  rw [auditChange, if_pos on]
  exact LedgerProgram.alone_bind_error (LedgerProgram.alone_bind_error asked)

theorem checkAmount_cases (ledger : Ledger) (amount : UInt64) (db : Database) :
    (∃ e, (ledger.checkAmount amount).alone db = (.error e, db)) ∨
      (ledger.checkAmount amount).alone db = (.ok (), db) := by
  rw [checkAmount]
  split
  · exact .inl ⟨_, rfl⟩
  · exact .inr rfl

end Ledger

/-! ## What fails after the commit -/

namespace SupplyMove

variable {move : SupplyMove} {ledger : Ledger} {mint : MintAddress} {account : AccountAddress}
  {signer : Principal} {amount : UInt64} {db : Database}

/-- Whether a ledger audits makes no difference before the audit. -/
theorem program_cases (move : SupplyMove) (ledger : Ledger) (mint : MintAddress)
    (account : AccountAddress) (signer : Principal) (amount : UInt64) (db : Database) :
    (∃ e, ∀ audits,
      (move.program (ledger.withAudit audits) mint account signer amount).alone db =
        (.error e, db)) ∨
    ∃ (change : SupplyChange) (next : Database), change.mint.address = mint ∧
      (amount = 0 → next = db) ∧ (amount ≠ 0 → ¬next.SameRecords db) ∧ ∀ audits,
        (move.program (ledger.withAudit audits) mint account signer amount).alone db =
          LedgerProgram.alone (do
            (ledger.withAudit audits).auditChange change.mint
            return change) next := by
  simp only [program_eq]
  rcases ledger.checkAmount_cases amount db with ⟨e, refused⟩ | allowed
  · exact .inl ⟨e, fun audits => LedgerProgram.alone_bind_error refused⟩
  rcases @body_cases move mint account signer amount db with
    ⟨e, failed⟩ | ⟨change, next, done, here, idle, wrote⟩
  · refine .inl ⟨e, fun audits => ?_⟩
    refine (LedgerProgram.alone_bind_ok allowed).trans ?_
    refine (LedgerProgram.alone_bind_ok (LedgerProgram.alone_lock _ _)).trans ?_
    exact LedgerProgram.alone_bind_error failed
  · refine .inr ⟨change, next, here, idle, wrote, fun audits => ?_⟩
    refine (LedgerProgram.alone_bind_ok allowed).trans ?_
    refine (LedgerProgram.alone_bind_ok (LedgerProgram.alone_lock _ _)).trans ?_
    refine (LedgerProgram.alone_bind_ok done).trans ?_
    exact LedgerProgram.alone_bind_ok (LedgerProgram.alone_note _ _)

/-- An issue or a burn that has failed leaves a row with another record just if the
    operation has been done, and its audit cannot read the accounts of the mint. -/
theorem failed_write_iff (move : SupplyMove) (ledger : Ledger) (mint : MintAddress)
    (account : AccountAddress) (signer : Principal) (amount : UInt64) (db : Database) :
    (∃ e next, (move.program ledger mint account signer amount).alone db = (.error e, next) ∧
      ¬next.SameRecords db) ↔
    amount ≠ 0 ∧ ledger.config.auditAfterCommit = true ∧ ∃ change next fault,
      (move.program (ledger.withAudit false) mint account signer amount).alone db =
        (.ok change, next) ∧
      (answer (.accountsByMint mint) next).1 = .error fault := by
  have self : ledger.withAudit ledger.config.auditAfterCommit = ledger := rfl
  rcases move.program_cases ledger mint account signer amount db with
    ⟨e, failed⟩ | ⟨change, next, rfl, idle, wrote, comes⟩
  -- the call fails before it could be audited, and has written nothing
  · have failed' := failed ledger.config.auditAfterCommit
    rw [self] at failed'
    constructor
    · rintro ⟨_, _, ended, changed⟩
      cases failed'.symm.trans ended
      exact absurd rfl changed
    · rintro ⟨_, _, _, _, _, done, _⟩
      cases (failed false).symm.trans done
  -- the call has been done but for its audit, so it is for the audit to fail it
  · have plain := (comes false).trans
      (LedgerProgram.alone_bind_ok (Ledger.alone_auditChange_off rfl))
    have audited := comes ledger.config.auditAfterCommit
    rw [self] at audited
    constructor
    · rintro ⟨e, after, ended, changed⟩
      rw [audited] at ended
      cases on : ledger.config.auditAfterCommit with
      | false =>
        cases (LedgerProgram.alone_bind_ok (Ledger.alone_auditChange_off on)).symm.trans ended
      | true =>
        cases read : (answer (.accountsByMint change.mint.address) next).1 with
        | ok accounts =>
          cases (LedgerProgram.alone_bind_ok (Ledger.alone_auditChange_ok read)).symm.trans ended
        | error fault =>
          cases (LedgerProgram.alone_bind_error (Ledger.alone_auditChange_error on read)).symm.trans
            ended
          refine ⟨?_, rfl, change, next, fault, plain, read⟩
          rintro rfl
          cases idle rfl
          exact changed rfl
    · rintro ⟨nonzero, on, _, _, fault, done, unread⟩
      cases plain.symm.trans done
      exact ⟨.storage fault, next,
        audited.trans (LedgerProgram.alone_bind_error (Ledger.alone_auditChange_error on unread)),
        wrote nonzero⟩

/-- A database with a mint and two of its accounts, the record of one of which is no
    record. -/
def spoiled (mint : MintAddress) (authority owner : Principal) (account other : AccountAddress) :
    Database where
  tables := some <|
    let spoiled := AccountRecord.toRow ⟨other, authority, mint, 0⟩
    { mints := Index.empty.put (MintRecord.empty mint authority 0).toRow
      accounts := (Index.empty.put { spoiled with record := [0] }).put
        (AccountRecord.toRow ⟨account, owner, mint, 0⟩) }
  others := Database.fresh.others

theorem not_always_unwritten :
    ¬∀ (move : SupplyMove) (ledger : Ledger) (mint : MintAddress) (account : AccountAddress)
      (signer : Principal) (amount : UInt64) (db next : Database) (e : Failure),
      (move.program ledger mint account signer amount).alone db = (.error e, next) →
        next.SameRecords db := by
  intro always
  let db := spoiled ⟨.replicate 2⟩ ⟨.replicate 1⟩ ⟨.replicate 3⟩ ⟨.replicate 4⟩ ⟨.replicate 5⟩
  let program := SupplyMove.issue.program { config := { auditAfterCommit := true } }
    ⟨.replicate 2⟩ ⟨.replicate 4⟩ ⟨.replicate 1⟩ 10
  have failed : (program.alone db).1.toOption = none ∧
      (program.alone db).2.tables.map Tables.records ≠ db.tables.map Tables.records := by
    decide +kernel
  obtain ⟨failed, changed⟩ := failed
  cases ended : program.alone db with
  | mk result next =>
    rw [ended] at failed changed
    cases result with
    | ok change => cases failed
    | error e => exact changed (always _ _ _ _ _ _ db next e ended)

end SupplyMove

end TokenLedger
