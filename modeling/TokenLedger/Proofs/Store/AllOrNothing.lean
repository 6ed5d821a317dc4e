import TokenLedger.Proofs.Store.Commits
import TokenLedger.Proofs.Store.Rows

/-! # A batch applies as a whole or not at all

A batch that a store refuses has changed nothing, however many of its updates would have
passed: a store in memory writes none before it has checked all, and a database takes
back what it has written.

Which batches are refused, and for what, is said of the records before the batch alone.
An update fits if it is for a stored record, computed from just that, and keeps what
identifies it (`AnyUpdate.Fits`); otherwise there is one thing to be said against it
(`AnyUpdate.Offends`).  A batch that names no record twice is applied if all its updates
fit, and is otherwise refused for what is said against the first one that does not.  For
a database, which checks each update against what those in front of it have written, this
is where `MemoryStore.commit_toTables` comes in.
-/

namespace TokenLedger

open RecordStore

/-! ## Updates that fit -/

namespace Update

variable {ρ : Type} (same : ρ → ρ → Prop) (address : Address) (update : Update ρ)

/-- Whether an update is for a record that is stored, keeps its identity and is computed
    from just that record. -/
def Fits (found : Option ρ) : Prop :=
  ∃ stored, found = some stored ∧ same update.before update.after ∧ same stored update.after ∧
    stored = update.before

/-- What there is to be said against an update that does not fit.  That there is no record
    goes before a change of identity, and that before a change of value. -/
inductive Offends : Option ρ → StoreError → Prop
  | missing : Offends none (.notFound address)
  | changed {stored : ρ} (changes : ¬(same update.before update.after ∧ same stored update.after)) :
    Offends (some stored) (.invalidData (.identityChanged address))
  | moved {stored : ρ} (keeps : same update.before update.after ∧ same stored update.after)
      (differs : stored ≠ update.before) :
    Offends (some stored) (.conflict (.record address))

end Update

theorem Update.checkMint_eq_error_iff {found : Option MintRecord} {update : Update MintRecord}
    {e : StoreError} :
    update.checkMint found = .error e ↔
      update.Offends MintRecord.SameIdentity (.mint update.after.address) found e := by
  constructor
  · intro failed
    cases found with
    | none =>
      cases failed
      exact .missing
    | some stored =>
      simp only [checkMint] at failed
      split at failed
      next keeps =>
        split at failed
        · cases failed
        next differs =>
          cases failed
          exact .moved keeps differs
      next changes =>
        cases failed
        exact .changed changes
  · intro offends
    cases offends with
    | missing => rfl
    | changed changes => simp only [checkMint, if_neg changes]
    | moved keeps differs => simp only [checkMint, if_pos keeps, if_neg differs]

theorem Update.checkAccount_eq_error_iff {found : Option AccountRecord}
    {update : Update AccountRecord} {e : StoreError} :
    update.checkAccount found = .error e ↔
      update.Offends AccountRecord.SameIdentity (.account update.after.address) found e := by
  constructor
  · intro failed
    cases found with
    | none =>
      cases failed
      exact .missing
    | some stored =>
      simp only [checkAccount] at failed
      split at failed
      next keeps =>
        split at failed
        · cases failed
        next differs =>
          cases failed
          exact .moved keeps differs
      next changes =>
        cases failed
        exact .changed changes
  · intro offends
    cases offends with
    | missing => rfl
    | changed changes => simp only [checkAccount, if_neg changes]
    | moved keeps differs => simp only [checkAccount, if_pos keeps, if_neg differs]

namespace AnyUpdate

variable (records : MemoryStore)

/-- Whether the update fits the records. -/
def Fits : AnyUpdate → Prop
  | mint update => update.Fits MintRecord.SameIdentity (records.getMint update.after.address)
  | account update =>
    update.Fits AccountRecord.SameIdentity (records.getAccount update.after.address)

/-- What the records say against the update. -/
def Offends (e : StoreError) : AnyUpdate → Prop
  | mint update =>
    update.Offends MintRecord.SameIdentity (.mint update.after.address)
      (records.getMint update.after.address) e
  | account update =>
    update.Offends AccountRecord.SameIdentity (.account update.after.address)
      (records.getAccount update.after.address) e

variable {records} {update : AnyUpdate} {e : StoreError}

theorem check_eq_ok_iff : update.check records = .ok () ↔ update.Fits records := by
  cases update with
  | mint update =>
    rw [check, Update.checkMint_eq_ok_iff]
    constructor
    · rintro ⟨found, keeps⟩
      exact ⟨_, found, keeps, keeps, rfl⟩
    · rintro ⟨_, found, keeps, _, rfl⟩
      exact ⟨found, keeps⟩
  | account update =>
    rw [check, Update.checkAccount_eq_ok_iff]
    constructor
    · rintro ⟨found, keeps⟩
      exact ⟨_, found, keeps, keeps, rfl⟩
    · rintro ⟨_, found, keeps, _, rfl⟩
      exact ⟨found, keeps⟩

theorem check_eq_error_iff : update.check records = .error e ↔ update.Offends records e := by
  cases update with
  | mint update => exact Update.checkMint_eq_error_iff
  | account update => exact Update.checkAccount_eq_error_iff

end AnyUpdate

/-! ## Batches against records -/

namespace WriteBatch

/-- Whether records are what a batch makes of others: each record that it names is the new
    one, and no other is touched. -/
structure Replaces (batch : WriteBatch) (before after : MemoryStore) : Prop where
  mint : ∀ update ∈ batch.mints, after.getMint update.after.address = some update.after
  account : ∀ update ∈ batch.accounts, after.getAccount update.after.address = some update.after
  otherMint : ∀ address, (∀ update ∈ batch.mints, update.after.address ≠ address) →
    after.getMint address = before.getMint address
  otherAccount : ∀ address, (∀ update ∈ batch.accounts, update.after.address ≠ address) →
    after.getAccount address = before.getAccount address

/-- Whether an error is what is said against the first update of a batch that does not fit. -/
def FirstOffence (batch : WriteBatch) (records : MemoryStore) (e : StoreError) : Prop :=
  ∃ front update rest, batch.updates = front ++ update :: rest ∧
    (∀ earlier ∈ front, earlier.Fits records) ∧ update.Offends records e

variable {batch : WriteBatch} {records next : MemoryStore} {e : StoreError}

theorem commit_eq_ok_iff_fits :
    records.commit batch = .ok next ↔
      (∀ update ∈ batch.updates, update.Fits records) ∧ records.write batch = next := by
  rw [MemoryStore.commit_eq_updates, map_eq_ok_iff, MemoryStore.foldl_write_updates]
  simp only [forM_eq_ok_iff, AnyUpdate.check_eq_ok_iff, exists_const]

theorem commit_eq_error_iff_offence :
    records.commit batch = .error e ↔ batch.FirstOffence records e := by
  rw [MemoryStore.commit_eq_updates, map_eq_error_iff, forM_eq_error_iff]
  simp only [AnyUpdate.check_eq_ok_iff, AnyUpdate.check_eq_error_iff, FirstOffence]

/-- Of new values for different records, the one for a record is found by its address. -/
theorem find?_after {ρ α : Type} [DecidableEq α] {key : ρ → α} {updates : List (Update ρ)}
    (distinct : updates.Pairwise fun a b => key a.after ≠ key b.after) {update : Update ρ}
    (member : update ∈ updates) :
    (updates.map (·.after)).reverse.find? (fun record => key record = key update.after) =
      some update.after := by
  have unique : ((updates.map (·.after)).map key).Nodup := by
    rw [List.Nodup, List.pairwise_map, List.pairwise_map]
    exact distinct
  have there : update.after ∈ (updates.map (·.after)).reverse := by
    rw [List.mem_reverse]
    exact List.mem_map_of_mem member
  have some_found : ((updates.map (·.after)).reverse.find?
      fun record => key record = key update.after).isSome := by
    rw [List.find?_isSome]
    exact ⟨update.after, there, by simp⟩
  obtain ⟨record, found⟩ := Option.isSome_iff_exists.mp some_found
  -- whichever record is found, it has the key, and no two of them have the same
  have here : key record = key update.after := by simpa using List.find?_some found
  have record_there := List.mem_of_find?_eq_some found
  rw [List.mem_reverse] at there record_there
  rw [found, List.inj_on_of_nodup_map unique record_there there here]

theorem Distinct.replaces (distinct : batch.Distinct) (records : MemoryStore) :
    batch.Replaces records (records.write batch) := by
  rw [MemoryStore.write_eq_putAll]
  refine ⟨fun update member => ?_, fun update member => ?_, fun address other => ?_,
    fun address other => ?_⟩
  · rw [MemoryStore.getMint_putAll, find?_after distinct.mints member, Option.some_or]
  · rw [MemoryStore.getAccount_putAll, find?_after distinct.accounts member, Option.some_or]
  · refine MemoryStore.getMint_putAll_of_forall_ne fun mint member => ?_
    obtain ⟨update, there, rfl⟩ := List.mem_map.mp member
    exact other update there
  · refine MemoryStore.getAccount_putAll_of_forall_ne fun account member => ?_
    obtain ⟨update, there, rfl⟩ := List.mem_map.mp member
    exact other update there

end WriteBatch

/-! ## Batches against stores -/

namespace AnyStore

variable {store : AnyStore} {records : MemoryStore} {batch : WriteBatch}

/-- Stores that hold records go on holding some, whatever they are called for. -/
theorem Holds.answer (holds : store.Holds records) (call : StoreCall) :
    ∃ later, (RecordStore.answer call store).2.Holds later := by
  cases holds with
  | memory => exact ⟨_, .memory _⟩
  | database rows =>
    obtain ⟨later, rows⟩ := Database.KeepsRecords.step ⟨records, rows⟩ call
    exact ⟨later, .database rows⟩

theorem Holds.after (holds : store.Holds records) (calls : List StoreCall) :
    ∃ later, (RecordStore.after store calls).Holds later := by
  induction calls generalizing store records with
  | nil => exact ⟨records, holds⟩
  | cons call rest ih =>
    obtain ⟨later, holds⟩ := holds.answer call
    exact ih holds

/-- A batch that is refused leaves the store as it was, down to the last row. -/
theorem commit_error_unchanged (holds : store.Holds records) {e : StoreError}
    (refused : (RecordStore.answer (.commit batch) store).1 = .error e) :
    (RecordStore.answer (.commit batch) store).2 = store := by
  cases holds with
  | memory =>
    cases committed : records.commit batch with
    | error _ => rw [answer_memory_error committed]
    | ok next =>
      rw [answer_memory_ok committed] at refused
      cases refused
  | @database db _ rows =>
    cases committed : records.toTables.commit batch with
    | error _ =>
      -- the tables that are put back are those that were there
      rw [answer_database_error rows committed, ← rows]
    | ok next =>
      rw [answer_database_ok rows committed] at refused
      cases refused

/-- Of stores that hold records, a batch that names none of them twice gets the reply that it
    gets of the records. -/
theorem commit_of_distinct (holds : store.Holds records) (distinct : batch.Distinct) :
    (∃ next, records.commit batch = .ok next ∧
        (RecordStore.answer (.commit batch) store).1 = .ok () ∧
        (RecordStore.answer (.commit batch) store).2.Holds next) ∨
      ∃ e, records.commit batch = .error e ∧
        (RecordStore.answer (.commit batch) store).1 = .error e := by
  obtain ⟨next, holds', replied⟩ := @replies _ _ holds (.commit batch) distinct
  rcases replied with ⟨ok, committed⟩ | ⟨e, refused, failed, _⟩
  · exact .inl ⟨next, committed, ok, holds'⟩
  · exact .inr ⟨e, failed, refused⟩

/-- Whatever calls a store has seen, a batch that it refuses leaves it as it was.  A batch
    that names no record twice is applied just if every update of it fits the records, which
    replaces the records that it names and no other; else the refusal is what is said against
    the first update that does not fit, mints going before accounts. -/
theorem commit_all_or_nothing {start : AnyStore} (empty : start.IsEmpty) (calls : List StoreCall)
    (batch : WriteBatch) :
    let store := after start calls
    let committed := RecordStore.answer (.commit batch) store
    ∃ records, store.Holds records ∧
      (∀ e, committed.1 = .error e → committed.2 = store) ∧
      (batch.Distinct →
        (committed.1 = .ok () ↔ ∀ update ∈ batch.updates, update.Fits records) ∧
        (committed.1 = .ok () → ∃ next, committed.2.Holds next ∧ batch.Replaces records next) ∧
        ∀ e, committed.1 = .error e ↔ batch.FirstOffence records e) := by
  intro store committed
  obtain ⟨records, holds⟩ := empty.holds.after calls
  refine ⟨records, holds, fun e refused => commit_error_unchanged holds refused, ?_⟩
  intro distinct
  rcases commit_of_distinct holds distinct with ⟨next, done, ok, holds'⟩ | ⟨e, failed, refused⟩
  · have replied : committed.1 = .ok () := ok
    obtain ⟨fits, rfl⟩ := WriteBatch.commit_eq_ok_iff_fits.mp done
    refine ⟨iff_of_true replied fits, fun _ => ⟨_, holds', distinct.replaces records⟩, ?_⟩
    intro e
    rw [replied, ← WriteBatch.commit_eq_error_iff_offence, done]
    simp
  · have replied : committed.1 = .error e := refused
    refine ⟨?_, ?_, ?_⟩
    · rw [replied]
      refine iff_of_false (by simp) fun fits => ?_
      have done := WriteBatch.commit_eq_ok_iff_fits.mpr ⟨fits, rfl⟩
      cases failed.symm.trans done
    · intro ok
      cases replied.symm.trans ok
    · intro other
      rw [replied, ← WriteBatch.commit_eq_error_iff_offence, failed]
      simp

/-- The update of the mint fits, and is taken back for the account's, which is computed from an
    amount that the account does not have. -/
theorem commit_all_or_nothing_refused :
    let mint : MintRecord := .empty ⟨.replicate 2⟩ ⟨.replicate 1⟩ 0
    let account : AccountRecord := .empty ⟨.replicate 4⟩ ⟨.replicate 3⟩ mint.address
    let store := after emptyDatabase [.insertMint mint, .insertAccount account]
    let batch : WriteBatch := ⟨[⟨mint, { mint with supply := 5 }⟩],
      [⟨{ account with amount := 3 }, { account with amount := 8 }⟩]⟩
    emptyDatabase.IsEmpty ∧ batch.Distinct ∧
      RecordStore.answer (.commit batch) store =
        (.error (.conflict (.record (.account account.address))), store) := by
  intro mint account store batch
  have distinct : batch.Distinct := ⟨List.pairwise_singleton _ _, List.pairwise_singleton _ _⟩
  obtain ⟨records, holds, unchanged, decided⟩ := commit_all_or_nothing isEmpty_emptyDatabase
    [.insertMint mint, .insertAccount account] batch
  have has_mint : HasMint store mint.address mint := by decide +kernel
  have has_account : HasAccount store account.address account := by decide +kernel
  have at_mint := Except.ok.inj ((holds.getMint mint.address).symm.trans has_mint)
  have at_account := Except.ok.inj ((holds.getAccount account.address).symm.trans has_account)
  have offence : batch.FirstOffence records (.conflict (.record (.account account.address))) := by
    refine ⟨[.mint ⟨mint, { mint with supply := 5 }⟩], _, [], rfl, ?_, ?_⟩
    · rintro earlier member
      cases List.mem_singleton.mp member
      exact ⟨mint, at_mint, .refl mint, .refl mint, rfl⟩
    · show Update.Offends _ _ _ (records.getAccount account.address) _
      rw [at_account]
      exact .moved ⟨.refl account, .refl account⟩ (by decide)
  have refused := ((decided distinct).2.2 _).mpr offence
  exact ⟨isEmpty_emptyDatabase, distinct, Prod.ext refused (unchanged _ refused)⟩

end AnyStore

end TokenLedger
