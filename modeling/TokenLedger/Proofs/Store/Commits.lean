import TokenLedger.Proofs.Store.Replies

/-! # A batch in either store

A store in memory checks every update of a batch against the records before the batch.
A database checks each update against what those in front of it have left.  For a batch
that names no record twice these come to the same (`MemoryStore.commit_toTables`).  For
batches in general, the two stores go on alike up to an update that they judge
differently, if there is one.  Such an update is for a record that an update in front of
it names too (`AnyUpdate.exists_earlier`), and it is a conflict for one of the stores and
none for the other (`AnyUpdate.judgements`): the store in memory passes it if it is
computed from the record before the batch, the database if it is computed from the record
as the batch has left it so far.

The non-trivial ingredient is that the records before the batch and those at the update
are of the same identities, so that conflicts are all that the stores can disagree on.
-/

namespace TokenLedger

open RecordStore

/-! ## Updates of either kind -/

/-- An update of a mint or of an account. -/
inductive AnyUpdate where
  | mint (update : Update MintRecord)
  | account (update : Update AccountRecord)

namespace AnyUpdate

/-- The record that is to be replaced. -/
def address : AnyUpdate → Address
  | mint update => .mint update.after.address
  | account update => .account update.after.address

/-- Checks the update against records. -/
def check (records : MemoryStore) : AnyUpdate → Except StoreError Unit
  | mint update => update.checkMint (records.getMint update.after.address)
  | account update => update.checkAccount (records.getAccount update.after.address)

/-- The records with the new value put in. -/
def write (records : MemoryStore) : AnyUpdate → MemoryStore
  | mint update => records.putMint update.after
  | account update => records.putAccount update.after

/-- Puts the new value into the records that the update is checked against. -/
def apply (records : MemoryStore) (update : AnyUpdate) : Except StoreError MemoryStore :=
  (update.check records).map fun _ => update.write records

end AnyUpdate

/-- The updates of a batch in the order in which they are checked. -/
def WriteBatch.updates (batch : WriteBatch) : List AnyUpdate :=
  batch.mints.map .mint ++ batch.accounts.map .account

/-- Whether the stores get through the updates in front of one for a record and judge that
    one differently, by the records before the batch and by those that are there then. -/
def WriteBatch.PartsAt (batch : WriteBatch) (records : MemoryStore) (address : Address) : Prop :=
  ∃ front update rest next, batch.updates = front ++ update :: rest ∧ update.address = address ∧
    (∀ earlier ∈ front, earlier.check records = .ok ()) ∧
    front.foldlM AnyUpdate.apply records = .ok next ∧ update.check records ≠ update.check next

/-! ## Commits by updates -/

namespace MemoryStore

theorem foldl_write_updates (records : MemoryStore) (batch : WriteBatch) :
    batch.updates.foldl AnyUpdate.write records =
      records.write batch := by
  obtain ⟨mints, accounts⟩ := batch
  induction mints generalizing records with
  | cons first rest ih => exact ih (records.putMint first.after)
  | nil =>
    induction accounts generalizing records with
    | nil => rfl
    | cons first rest ih => exact ih (records.putAccount first.after)

/-- In memory, everything is checked before anything is written. -/
theorem commit_eq_updates (records : MemoryStore) (batch : WriteBatch) :
    records.commit batch = (batch.updates.forM (·.check records)).map
      fun _ => batch.updates.foldl AnyUpdate.write records := by
  have checks : batch.updates.forM (·.check records) = records.validate batch := by
    simp only [WriteBatch.updates, List.forM_eq_forM, List.forM_append, List.forM_map, validate]
    rfl
  rw [commit, checks, foldl_write_updates]
  cases records.validate batch <;> rfl

theorem updateMint_eq_apply (records : MemoryStore) (update : Update MintRecord) :
    records.toTables.updateMint update =
      ((AnyUpdate.mint update).apply records).map toTables := by
  rw [updateMint_toTables, AnyUpdate.apply, AnyUpdate.check]
  cases update.checkMint (records.getMint update.after.address) <;> rfl

theorem updateAccount_eq_apply (records : MemoryStore) (update : Update AccountRecord) :
    records.toTables.updateAccount update =
      ((AnyUpdate.account update).apply records).map toTables := by
  rw [updateAccount_toTables, AnyUpdate.apply, AnyUpdate.check]
  cases update.checkAccount (records.getAccount update.after.address) <;> rfl

/-- In tables, updates are checked and written in turn. -/
theorem commit_toTables_eq_updates (records : MemoryStore) (batch : WriteBatch) :
    records.toTables.commit batch =
      (batch.updates.foldlM AnyUpdate.apply records).map toTables := by
  rw [Tables.commit, foldlM_map_of_steps updateMint_eq_apply, WriteBatch.updates,
    List.foldlM_append]
  cases (batch.mints.map AnyUpdate.mint).foldlM AnyUpdate.apply records with
  | error e => rfl
  | ok next => exact foldlM_map_of_steps updateAccount_eq_apply next batch.accounts

end MemoryStore

/-! ## Judgements -/

namespace Update

/-- Records of one identity can only differ on whether there is a conflict. -/
theorem checkMint_cases {update : Update MintRecord} {a b : MintRecord} (same : a.SameIdentity b)
    (differ : update.checkMint (some a) ≠ update.checkMint (some b)) :
    (update.checkMint (some a) = .ok () ∧ update.checkMint (some b) =
        .error (.conflict (.record (.mint update.after.address)))) ∨
      (update.checkMint (some a) = .error (.conflict (.record (.mint update.after.address))) ∧
        update.checkMint (some b) = .ok ()) := by
  have kept : a.SameIdentity update.after ↔ b.SameIdentity update.after :=
    ⟨same.symm.trans, same.trans⟩
  simp only [checkMint, kept] at differ ⊢
  split at differ
  next keeps =>
    rw [if_pos keeps, if_pos keeps]
    by_cases here : a = update.before <;> by_cases there : b = update.before <;> simp_all
  · exact absurd rfl differ

theorem checkAccount_cases {update : Update AccountRecord} {a b : AccountRecord}
    (same : a.SameIdentity b)
    (differ : update.checkAccount (some a) ≠ update.checkAccount (some b)) :
    (update.checkAccount (some a) = .ok () ∧ update.checkAccount (some b) =
        .error (.conflict (.record (.account update.after.address)))) ∨
      (update.checkAccount (some a) =
          .error (.conflict (.record (.account update.after.address))) ∧
        update.checkAccount (some b) = .ok ()) := by
  have kept : a.SameIdentity update.after ↔ b.SameIdentity update.after :=
    ⟨same.symm.trans, same.trans⟩
  simp only [checkAccount, kept] at differ ⊢
  split at differ
  next keeps =>
    rw [if_pos keeps, if_pos keeps]
    by_cases here : a = update.before <;> by_cases there : b = update.before <;> simp_all
  · exact absurd rfl differ

end Update

namespace AnyUpdate

variable {records next a b : MemoryStore} {update earlier : AnyUpdate}

theorem judgements (kin : a.Kin b) (differ : update.check a ≠ update.check b) :
    (update.check a = .ok () ∧ update.check b = .error (.conflict (.record update.address))) ∨
      (update.check a = .error (.conflict (.record update.address)) ∧ update.check b = .ok ()) := by
  cases update with
  | mint update =>
    simp only [check] at differ ⊢
    cases stored : a.getMint update.after.address with
    | none =>
      have missing := kin.mints update.after.address
      rw [stored, Option.map_none, eq_comm, Option.map_eq_none_iff] at missing
      rw [stored, missing] at differ
      exact absurd rfl differ
    | some mint =>
      obtain ⟨mint', stored', same⟩ := kin.mint stored
      rw [stored, stored'] at differ
      rw [stored']
      exact Update.checkMint_cases same differ
  | account update =>
    simp only [check] at differ ⊢
    cases stored : a.getAccount update.after.address with
    | none =>
      have missing := kin.accounts update.after.address
      rw [stored, Option.map_none, eq_comm, Option.map_eq_none_iff] at missing
      rw [stored, missing] at differ
      exact absurd rfl differ
    | some account =>
      obtain ⟨account', stored', same⟩ := kin.account stored
      rw [stored, stored'] at differ
      rw [stored']
      exact Update.checkAccount_cases same differ

theorem apply_eq_ok_iff :
    update.apply records = .ok next ↔
      update.check records = .ok () ∧ update.write records = next := by
  rw [apply, map_eq_ok_iff]
  exact ⟨fun ⟨_, checked, written⟩ => ⟨checked, written⟩, fun ⟨checked, written⟩ =>
    ⟨(), checked, written⟩⟩

theorem kin_of_apply (applied : update.apply records = .ok next) : records.Kin next := by
  obtain ⟨checked, rfl⟩ := apply_eq_ok_iff.mp applied
  cases update with
  | mint update =>
    obtain ⟨stored, same⟩ := Update.checkMint_eq_ok_iff.mp checked
    exact .putMint stored same
  | account update =>
    obtain ⟨stored, same⟩ := Update.checkAccount_eq_ok_iff.mp checked
    exact .putAccount stored same

theorem kin_of_foldlM_apply {updates : List AnyUpdate}
    (applied : updates.foldlM apply records = .ok next) : records.Kin next :=
  foldlM_keeps (fun kin applied => kin.trans (kin_of_apply applied)) (.refl records) applied

/-- An update is judged by the record that it is for. -/
theorem check_write (elsewhere : earlier.address ≠ update.address) :
    update.check (earlier.write records) = update.check records := by
  cases earlier <;> cases update <;> simp_all [check, write, address]

theorem exists_earlier {front : List AnyUpdate} (applied : front.foldlM apply records = .ok next)
    (differ : update.check records ≠ update.check next) :
    ∃ earlier ∈ front, earlier.address = update.address := by
  by_contra! elsewhere
  -- the record that the update is for would still be as it was
  refine differ (Eq.symm ?_)
  induction front generalizing records with
  | nil =>
    cases applied
    rfl
  | cons first rest ih =>
    rw [List.foldlM_cons, bind_eq_ok_iff] at applied
    obtain ⟨between, stepped, applied⟩ := applied
    obtain ⟨_, rfl⟩ := apply_eq_ok_iff.mp stepped
    have unchanged := @check_write records _ _ (elsewhere first List.mem_cons_self)
    rw [← unchanged] at differ ⊢
    exact ih applied differ fun earlier member => elsewhere earlier (List.mem_cons_of_mem _ member)

end AnyUpdate

/-! ## Parting -/

namespace WriteBatch

variable {records next : MemoryStore} {batch : WriteBatch} {address : Address}

/-- Updates checked against some records and written into others come to what they come to
    in turn, unless they part on the way. -/
theorem alike_or_parts (base now : MemoryStore) (updates : List AnyUpdate) :
    (updates.forM (·.check base)).map (fun _ => updates.foldl AnyUpdate.write now) =
        updates.foldlM AnyUpdate.apply now ∨
      ∃ front update rest next, updates = front ++ update :: rest ∧
        (∀ earlier ∈ front, earlier.check base = .ok ()) ∧
        front.foldlM AnyUpdate.apply now = .ok next ∧ update.check base ≠ update.check next := by
  induction updates generalizing now with
  | nil => exact .inl rfl
  | cons first rest ih =>
    -- over the first update the stores part, or both fail, or both go on with the rest
    by_cases same : first.check base = first.check now
    · cases checked : first.check base with
      | error e =>
        left
        have applied : first.apply now = .error e := by
          rw [AnyUpdate.apply, ← same, checked]
          rfl
        rw [List.forM, List.foldlM_cons, checked, applied]
        rfl
      | ok u =>
        have applied : first.apply now = .ok (first.write now) := by
          rw [AnyUpdate.apply, ← same, checked]
          rfl
        rcases ih (first.write now) with
          alike | ⟨front, update, behind, next, split, passed, done, differ⟩
        · left
          rw [List.forM, List.foldlM_cons, checked, applied]
          exact alike
        · right
          refine ⟨first :: front, update, behind, next, by rw [split]; rfl, ?_, ?_, differ⟩
          · intro earlier member
            rcases List.mem_cons.mp member with rfl | member
            · exact checked
            · exact passed earlier member
          · rw [List.foldlM_cons, applied]
            exact done
    · exact .inr ⟨[], first, rest, now, rfl, by simp, rfl, same⟩

/-- A batch that parts is refused by one of the stores at least, for a conflict. -/
theorem PartsAt.refused (parts : batch.PartsAt records address) :
    records.commit batch = .error (.conflict (.record address)) ∨
      records.toTables.commit batch = .error (.conflict (.record address)) := by
  obtain ⟨front, update, rest, next, split, rfl, passed, done, differ⟩ := parts
  rw [MemoryStore.commit_eq_updates, MemoryStore.commit_toTables_eq_updates, split]
  rcases AnyUpdate.judgements (AnyUpdate.kin_of_foldlM_apply done) differ with
    ⟨_, conflict⟩ | ⟨conflict, _⟩
  · right
    have failed : update.apply next = .error (.conflict (.record update.address)) := by
      rw [AnyUpdate.apply, conflict]
      rfl
    rw [List.foldlM_append, done, ok_bind, List.foldlM_cons, failed]
    rfl
  · left
    have through : front.forM (·.check records) = .ok () := forM_eq_ok_iff.mpr passed
    rw [List.forM_eq_forM, List.forM_append, ← List.forM_eq_forM, through, ok_bind, List.forM,
      conflict]
    rfl

theorem commit_alike_or_partsAt (records : MemoryStore) (batch : WriteBatch) :
    records.toTables.commit batch = (records.commit batch).map MemoryStore.toTables ∨
      ∃ address, batch.PartsAt records address := by
  rw [MemoryStore.commit_eq_updates, MemoryStore.commit_toTables_eq_updates]
  rcases alike_or_parts records records batch.updates with
    alike | ⟨front, update, rest, next, split, passed, done, differ⟩
  · exact .inl (congrArg _ alike.symm)
  · exact .inr ⟨_, front, update, rest, next, split, rfl, passed, done, differ⟩

theorem Distinct.updates (distinct : batch.Distinct) :
    batch.updates.Pairwise fun a b => a.address ≠ b.address := by
  rw [WriteBatch.updates, List.pairwise_append, List.pairwise_map, List.pairwise_map]
  refine ⟨distinct.mints.imp fun apart same => apart (Address.mint.inj same),
    distinct.accounts.imp fun apart same => apart (Address.account.inj same), ?_⟩
  intro a at_a b at_b same
  obtain ⟨_, _, rfl⟩ := List.mem_map.mp at_a
  obtain ⟨_, _, rfl⟩ := List.mem_map.mp at_b
  cases same

/-- A batch that parts names a record twice. -/
theorem PartsAt.not_distinct (parts : batch.PartsAt records address) : ¬batch.Distinct := by
  intro distinct
  obtain ⟨front, update, rest, next, split, rfl, _, done, differ⟩ := parts
  obtain ⟨earlier, member, same⟩ := AnyUpdate.exists_earlier done differ
  have apart := distinct.updates
  rw [split, List.pairwise_append] at apart
  exact apart.2.2 earlier member update List.mem_cons_self same

end WriteBatch

/-! ## Both stores -/

namespace AnyStore

variable {records : MemoryStore} {db : Database} {batch : WriteBatch}

/-- The reply to a commit, an error being told by its text. -/
def commitReply (store : AnyStore) (batch : WriteBatch) : Except String Unit :=
  (answer (.commit batch) store).1.mapError StoreError.message

theorem Holds.tables (holds : (AnyStore.database db).Holds records) :
    db.tables = some records.toTables := by
  cases holds with
  | database rows => exact rows

/-- Whether two stores reply to a batch alike and hold the same records afterwards. -/
def CommitAlike (batch : WriteBatch) (a b : AnyStore) : Prop :=
  a.commitReply batch = b.commitReply batch ∧
    ∃ after, (answer (.commit batch) a).2.Holds after ∧ (answer (.commit batch) b).2.Holds after

theorem answer_memory_error {e : StoreError} (refused : records.commit batch = .error e) :
    answer (.commit batch) (memory records) = (.error e, memory records) := by
  simp only [answer, refused]

theorem answer_memory_ok {next : MemoryStore} (done : records.commit batch = .ok next) :
    answer (.commit batch) (memory records) = (.ok (), memory next) := by
  simp only [answer, done]

theorem answer_database_error {tables : Tables} {e : StoreError} (rows : db.tables = some tables)
    (refused : tables.commit batch = .error e) :
    answer (.commit batch) (database db) =
      (.error e, database { db with tables := some tables }) := by
  simp only [answer, rows, refused]

theorem answer_database_ok {tables next : Tables} (rows : db.tables = some tables)
    (done : tables.commit batch = .ok next) :
    answer (.commit batch) (database db) = (.ok (), database { db with tables := some next }) := by
  simp only [answer, rows, done]

/-- A reply with an error has left the records as they were. -/
theorem holds_of_commitReply_error {store : AnyStore} (holds : store.Holds records) {text : String}
    (refused : store.commitReply batch = .error text) :
    (answer (.commit batch) store).2.Holds records := by
  cases holds with
  | memory =>
    cases committed : records.commit batch with
    | ok next =>
      rw [commitReply, answer_memory_ok committed] at refused
      cases refused
    | error e =>
      rw [answer_memory_error committed]
      exact .memory records
  | database rows =>
    cases committed : records.toTables.commit batch with
    | ok next =>
      rw [commitReply, answer_database_ok rows committed] at refused
      cases refused
    | error e =>
      rw [answer_database_error rows committed]
      exact .database rfl

theorem commitAlike_of_commit_toTables (rows : db.tables = some records.toTables)
    (alike : records.toTables.commit batch = (records.commit batch).map MemoryStore.toTables) :
    CommitAlike batch (memory records) (database db) := by
  cases committed : records.commit batch with
  | ok next =>
    have stored : records.toTables.commit batch = .ok next.toTables := by rw [alike, committed]; rfl
    rw [CommitAlike, commitReply, commitReply, answer_memory_ok committed,
      answer_database_ok rows stored]
    exact ⟨rfl, next, .memory next, .database rfl⟩
  | error e =>
    have refused : records.toTables.commit batch = .error e := by rw [alike, committed]; rfl
    rw [CommitAlike, commitReply, commitReply, answer_memory_error committed,
      answer_database_error rows refused]
    exact ⟨rfl, records, .memory records, .database rfl⟩

/-- Stores of both kinds that hold the same records commit a batch alike unless they part
    over a record, and then just if both come to the conflict over it.  They do not part over
    a batch that names no record twice. -/
theorem commit_alike_iff (holds : (database db).Holds records) (batch : WriteBatch) :
    (CommitAlike batch (memory records) (database db) ↔
      ∀ address, batch.PartsAt records address →
        (memory records).commitReply batch =
            .error (StoreError.conflict (.record address)).message ∧
          (database db).commitReply batch =
            .error (StoreError.conflict (.record address)).message) ∧
      (batch.Distinct → CommitAlike batch (memory records) (database db)) := by
  have rows := holds.tables
  refine ⟨⟨?_, ?_⟩, fun distinct => ?_⟩
  · rintro ⟨replies, _⟩ address parts
    rcases parts.refused with refused | refused
    · have reply : (memory records).commitReply batch =
          .error (StoreError.conflict (.record address)).message := by
        rw [commitReply, answer_memory_error refused]
        rfl
      exact ⟨reply, replies ▸ reply⟩
    · have reply : (database db).commitReply batch =
          .error (StoreError.conflict (.record address)).message := by
        rw [commitReply, answer_database_error rows refused]
        rfl
      exact ⟨replies ▸ reply, reply⟩
  · intro agree
    rcases batch.commit_alike_or_partsAt records with alike | ⟨address, parts⟩
    · exact commitAlike_of_commit_toTables rows alike
    · obtain ⟨refused, refused'⟩ := agree address parts
      exact ⟨refused.trans refused'.symm, records,
        holds_of_commitReply_error (.memory records) refused,
        holds_of_commitReply_error (.database rows) refused'⟩
  · rcases batch.commit_alike_or_partsAt records with alike | ⟨address, parts⟩
    · exact commitAlike_of_commit_toTables rows alike
    · exact absurd distinct parts.not_distinct

/-! ## A record twice -/

/-- A batch with two updates of a mint, both computed from the mint as it was. -/
def twice (mint : MintRecord) (first second : UInt64) : WriteBatch where
  mints := [⟨mint, { mint with supply := first }⟩, ⟨mint, { mint with supply := second }⟩]
  accounts := []

section Twice

variable {mint : MintRecord} {first : UInt64} (stored : records.getMint mint.address = some mint)
  (changes : first ≠ mint.supply) (second : UInt64)

include stored

theorem commit_twice (first : UInt64) :
    records.commit (twice mint first second) = .ok (records.write (twice mint first second)) := by
  refine MemoryStore.commit_eq_ok_iff.mpr ⟨fun update member => ?_, by simp [twice], rfl⟩
  rcases List.mem_pair.mp member with rfl | rfl <;> exact ⟨stored, rfl, rfl, rfl⟩

include changes

theorem partsAt_twice : (twice mint first second).PartsAt records (.mint mint.address) := by
  have passed : ∀ supply, Update.checkMint (records.getMint mint.address)
      ⟨mint, { mint with supply }⟩ = .ok () := fun _ =>
    Update.checkMint_eq_ok_iff.mpr ⟨stored, rfl, rfl, rfl⟩
  have written : (records.putMint { mint with supply := first }).getMint mint.address =
      some { mint with supply := first } := by
    rw [MemoryStore.getMint_putMint, if_pos rfl]
  refine ⟨[.mint ⟨mint, { mint with supply := first }⟩],
    .mint ⟨mint, { mint with supply := second }⟩, [],
    records.putMint { mint with supply := first }, rfl, rfl, ?_, ?_, ?_⟩
  · rintro earlier member
    cases List.mem_singleton.mp member
    exact passed first
  · rw [List.foldlM_cons, AnyUpdate.apply, AnyUpdate.check, passed first]
    rfl
  · intro same
    simp only [AnyUpdate.check, passed, written] at same
    have checked := Update.checkMint_eq_ok_iff.mp same.symm
    exact changes (congrArg MintRecord.supply (Option.some.inj checked.1))

/-- The store in memory takes the second update too, and the first is lost. -/
theorem not_commitAlike_twice (rows : db.tables = some records.toTables) :
    ¬CommitAlike (twice mint first second) (memory records) (database db) := by
  have done := commit_twice stored second first
  rcases (partsAt_twice stored changes second).refused with refused | refused
  · cases done.symm.trans refused
  · rintro ⟨replies, _⟩
    rw [commitReply, commitReply, answer_memory_ok done, answer_database_error rows refused]
      at replies
    cases replies

end Twice

theorem commit_alike_iff_twice :
    let mint := MintRecord.empty ⟨.replicate 2⟩ ⟨.replicate 1⟩ 0
    let records := MemoryStore.empty.putMint mint
    let db := { Database.fresh with tables := some records.toTables }
    (database db).Holds records ∧ (twice mint 5 7).PartsAt records (.mint mint.address) ∧
      ¬CommitAlike (twice mint 5 7) (memory records) (database db) := by
  intro mint records db
  have holds : (database db).Holds records := .database rfl
  have stored : records.getMint mint.address = some mint := by
    rw [MemoryStore.getMint_putMint, if_pos rfl]
  have parts := partsAt_twice stored (show 5 ≠ mint.supply by decide) 7
  refine ⟨holds, parts, fun alike => ?_⟩
  obtain ⟨refused, _⟩ := (commit_alike_iff holds _).1.mp alike _ parts
  rw [commitReply, answer_memory_ok (commit_twice stored 7 5)] at refused
  cases refused

theorem not_always_commit_alike :
    ¬∀ (records : MemoryStore) (db : Database) (batch : WriteBatch),
      (database db).Holds records → CommitAlike batch (memory records) (database db) := by
  intro always
  let mint := MintRecord.empty ⟨.replicate 2⟩ ⟨.replicate 1⟩ 0
  let records := MemoryStore.empty.putMint mint
  have stored : records.getMint mint.address = some mint := by
    rw [MemoryStore.getMint_putMint, if_pos rfl]
  refine not_commitAlike_twice stored (show 5 ≠ mint.supply by decide) 7 rfl
    (always records { Database.fresh with tables := some records.toTables } (twice mint 5 7) ?_)
  exact .database rfl

end AnyStore

end TokenLedger
