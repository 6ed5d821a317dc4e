import TokenLedger.Proofs.Store.Replies

/-! # Identities are permanent

Whatever a store is called for, what identifies the records that it has stays.  That
takes two things of a kind of store (`Permanent`): no call takes a record away or
gives it another identity (`Keeps`), and an insertion where a record is changes
nothing.  A batch may name a record as often as it likes and make up the values that
it says it was computed from; what passes the checks replaces a record by one of the
same identity, and so does all of the batch, update by update.

Nothing is asked of the store.  Rows of a database that no call of a store has made
are kept as well, as far as they can be read.
-/

namespace TokenLedger

namespace RecordStore

variable {σ : Type} [RecordStore σ]

/-- The store after calls. -/
def after (store : σ) (calls : List StoreCall) : σ :=
  calls.foldl (fun store call => (answer call store).2) store

/-- Whether a mint is what is found at an address. -/
def HasMint (store : σ) (address : MintAddress) (mint : MintRecord) : Prop :=
  (answer (.getMint address) store).1 = .ok (some mint)

/-- Whether an account is what is found at an address. -/
def HasAccount (store : σ) (address : AccountAddress) (account : AccountRecord) : Prop :=
  (answer (.getAccount address) store).1 = .ok (some account)

instance (store : σ) (address : MintAddress) (mint : MintRecord) :
    Decidable (HasMint store address mint) :=
  (inferInstance : DecidableEq (Except StoreError (Option MintRecord))) _ _

instance (store : σ) (address : AccountAddress) (account : AccountRecord) :
    Decidable (HasAccount store address account) :=
  (inferInstance : DecidableEq (Except StoreError (Option AccountRecord))) _ _

/-- Whether every record of a store is in another one too, up to supply and amount. -/
structure Keeps (before after : σ) : Prop where
  mint : ∀ {address mint}, HasMint before address mint →
    ∃ later, HasMint after address later ∧ mint.SameIdentity later
  account : ∀ {address account}, HasAccount before address account →
    ∃ later, HasAccount after address later ∧ account.SameIdentity later

theorem Keeps.refl (store : σ) : Keeps store store where
  mint stored := ⟨_, stored, .refl _⟩
  account stored := ⟨_, stored, .refl _⟩

theorem Keeps.trans {a b c : σ} (first : Keeps a b) (second : Keeps b c) : Keeps a c where
  mint stored := by
    obtain ⟨between, stored, same⟩ := first.mint stored
    obtain ⟨later, stored, same'⟩ := second.mint stored
    exact ⟨later, stored, same.trans same'⟩
  account stored := by
    obtain ⟨between, stored, same⟩ := first.account stored
    obtain ⟨later, stored, same'⟩ := second.account stored
    exact ⟨later, stored, same.trans same'⟩

/-- What makes identities permanent: no call takes a record away or gives it another
    identity, and an insertion where a record is changes nothing. -/
structure Permanent (store : σ) : Prop where
  keeps : ∀ call : StoreCall, Keeps store (answer call store).2
  insertMint : ∀ {mint found : MintRecord}, HasMint store mint.address found →
    answer (.insertMint mint) store = (.ok .alreadyExists, store)
  insertAccount : ∀ {account found : AccountRecord}, HasAccount store account.address found →
    answer (.insertAccount account) store = (.ok .alreadyExists, store)

theorem keeps_after (permanent : ∀ store : σ, Permanent store) (store : σ)
    (calls : List StoreCall) : Keeps store (after store calls) := by
  induction calls generalizing store with
  | nil => exact .refl store
  | cons call rest ih => exact ((permanent store).keeps call).trans (ih _)

/-- A store that passes calls on has what the store has that it passes them to. -/
theorem Permanent.passed {τ : Type} [RecordStore τ] (pass : σ → τ)
    (passes : ∀ call store,
      answer call (pass store) = ((answer call store).1, pass (answer call store).2))
    {store : σ} (permanent : Permanent store) : Permanent (pass store) := by
  have mints : ∀ {store : σ} {address mint},
      HasMint (pass store) address mint ↔ HasMint store address mint := by
    simp only [HasMint, passes, implies_true]
  have accounts : ∀ {store : σ} {address account},
      HasAccount (pass store) address account ↔ HasAccount store address account := by
    simp only [HasAccount, passes, implies_true]
  refine ⟨fun call => ?_, fun stored => ?_, fun stored => ?_⟩
  · obtain ⟨mint, account⟩ := permanent.keeps call
    rw [passes]
    exact ⟨fun stored => by simpa only [mints] using mint (mints.mp stored),
      fun stored => by simpa only [accounts] using account (accounts.mp stored)⟩
  · rw [passes, permanent.insertMint (mints.mp stored)]
  · rw [passes, permanent.insertAccount (accounts.mp stored)]

end RecordStore

open RecordStore

/-! ## In memory -/

namespace MemoryStore

variable {records : MemoryStore}

theorem hasMint_iff {address : MintAddress} {mint : MintRecord} :
    HasMint records address mint ↔ records.getMint address = some mint := by
  show (Except.ok _ : Except StoreError (Option MintRecord)) = .ok _ ↔ _
  simp

theorem hasAccount_iff {address : AccountAddress} {account : AccountRecord} :
    HasAccount records address account ↔ records.getAccount address = some account := by
  show (Except.ok _ : Except StoreError (Option AccountRecord)) = .ok _ ↔ _
  simp

theorem keeps_putAll {mints : List MintRecord} {accounts : List AccountRecord}
    (same : ∀ mint ∈ mints, ∀ old, records.getMint mint.address = some old → old.SameIdentity mint)
    (same' : ∀ account ∈ accounts, ∀ old, records.getAccount account.address = some old →
      old.SameIdentity account) :
    Keeps records (records.putAll mints accounts) where
  mint {address old} stored := by
    simp only [hasMint_iff, getMint_putAll] at stored ⊢
    cases put : mints.reverse.find? fun mint => mint.address = address with
    | none => exact ⟨old, by rw [Option.none_or, stored], .refl old⟩
    | some mint =>
      -- the last one put in at the address stands there, and keeps the identity of the first
      have here : mint.address = address := by simpa using List.find?_some put
      have member : mint ∈ mints := by simpa using List.mem_of_find?_eq_some put
      exact ⟨mint, Option.some_or, same mint member old (here ▸ stored)⟩
  account {address old} stored := by
    simp only [hasAccount_iff, getAccount_putAll] at stored ⊢
    cases put : accounts.reverse.find? fun account => account.address = address with
    | none => exact ⟨old, by rw [Option.none_or, stored], .refl old⟩
    | some account =>
      have here : account.address = address := by simpa using List.find?_some put
      have member : account ∈ accounts := by simpa using List.mem_of_find?_eq_some put
      exact ⟨account, Option.some_or, same' account member old (here ▸ stored)⟩

theorem keeps_commit {batch : WriteBatch} {next : MemoryStore}
    (committed : records.commit batch = .ok next) : Keeps records next := by
  obtain ⟨mints, accounts, rfl⟩ := commit_eq_ok_iff.mp committed
  rw [write_eq_putAll]
  -- all updates are checked against what was there before the batch, so it does not matter
  -- which of several at one address stands at the end
  refine keeps_putAll (fun mint member old stored => ?_) fun account member old stored => ?_
  · obtain ⟨update, there, rfl⟩ := List.mem_map.mp member
    obtain ⟨checked, same⟩ := mints update there
    cases checked.symm.trans stored
    exact same
  · obtain ⟨update, there, rfl⟩ := List.mem_map.mp member
    obtain ⟨checked, same⟩ := accounts update there
    cases checked.symm.trans stored
    exact same

theorem permanent (store : MemoryStore) : Permanent store where
  keeps call := by
    cases call with
    | insertMint mint =>
      simp only [RecordStore.answer, MemoryStore.insertMint]
      cases free : store.getMint mint.address with
      | some found => exact .refl store
      | none =>
        refine @keeps_putAll store [mint] [] (fun _ member old found => ?_) (by simp)
        cases List.mem_singleton.mp member
        cases free.symm.trans found
    | insertAccount account =>
      simp only [RecordStore.answer, MemoryStore.insertAccount]
      cases free : store.getAccount account.address with
      | some found => exact .refl store
      | none =>
        refine @keeps_putAll store [] [account] (by simp) fun _ member old found => ?_
        cases List.mem_singleton.mp member
        cases free.symm.trans found
    | commit batch =>
      simp only [RecordStore.answer]
      cases committed : store.commit batch with
      | ok next => exact keeps_commit committed
      | error e => exact .refl store
    | _ => exact .refl store
  insertMint stored := by
    simp only [RecordStore.answer, MemoryStore.insertMint, hasMint_iff.mp stored]
  insertAccount stored := by
    simp only [RecordStore.answer, insertAccount_some (hasAccount_iff.mp stored)]

end MemoryStore

/-! ## In tables -/

namespace Tables

variable {tables : Tables}

theorem hasMint_iff {address : MintAddress} {mint : MintRecord} :
    HasMint tables address mint ↔ tables.getMint address = .ok (some mint) := .rfl

theorem hasAccount_iff {address : AccountAddress} {account : AccountRecord} :
    HasAccount tables address account ↔ tables.getAccount address = .ok (some account) := .rfl

theorem keeps_putMint {row : MintRow} {mint : MintRecord}
    (place : row.address = mint.address.toBytes) (content : row.record = mint.encode)
    (same : ∀ old, HasMint tables mint.address old → old.SameIdentity mint) :
    Keeps tables { tables with mints := tables.mints.put row } where
  mint {address old} stored := by
    by_cases here : mint.address = address
    · subst here
      refine ⟨mint, ?_, same old stored⟩
      simp [hasMint_iff, getMint, place, readMint, content, MintRecord.decode_encode, Except.map]
    · have elsewhere : row.address ≠ address.toBytes := by
        rw [place, Ne, MintAddress.toBytes_inj]
        exact here
      refine ⟨old, ?_, .refl old⟩
      simp only [hasMint_iff, getMint, Index.find?_put, if_neg elsewhere] at stored ⊢
      exact stored
  account stored := ⟨_, stored, .refl _⟩

theorem keeps_putAccount {row : AccountRow} {account : AccountRecord}
    (place : row.address = account.address.toBytes) (content : row.record = account.encode)
    (same : ∀ old, HasAccount tables account.address old → old.SameIdentity account) :
    Keeps tables { tables with accounts := tables.accounts.put row } where
  mint stored := ⟨_, stored, .refl _⟩
  account {address old} stored := by
    by_cases here : account.address = address
    · subst here
      refine ⟨account, ?_, same old stored⟩
      simp [hasAccount_iff, getAccount, place, readAccount, content,
        AccountRecord.decode_encode, Except.map]
    · have elsewhere : row.address ≠ address.toBytes := by
        rw [place, Ne, AccountAddress.toBytes_inj]
        exact here
      refine ⟨old, ?_, .refl old⟩
      simp only [hasAccount_iff, getAccount, Index.find?_put, if_neg elsewhere]
        at stored ⊢
      exact stored

theorem row_of_hasMint {address : MintAddress} {mint : MintRecord}
    (stored : HasMint tables address mint) : (tables.mints.find? address.toBytes).isSome := by
  simp only [hasMint_iff, getMint] at stored
  split at stored
  · cases stored
  next row found => rw [found]; rfl

theorem row_of_hasAccount {address : AccountAddress} {account : AccountRecord}
    (stored : HasAccount tables address account) :
    (tables.accounts.find? address.toBytes).isSome := by
  simp only [hasAccount_iff, getAccount] at stored
  split at stored
  · cases stored
  next row found => rw [found]; rfl

theorem keeps_updateMint {update : Update MintRecord} {next : Tables}
    (done : tables.updateMint update = .ok next) : Keeps tables next := by
  simp only [updateMint, bind_eq_ok_iff] at done
  -- what is read back here is what the updates before have written
  obtain ⟨stored, read, ⟨⟩, checked, done⟩ := done
  obtain ⟨rfl, same⟩ := Update.checkMint_eq_ok_iff.mp checked
  split at done
  · cases done
    exact .refl tables
  next row found =>
    cases done
    have place : row.address = update.after.address.toBytes := Index.key_of_find? found
    refine keeps_putMint place rfl fun old there => ?_
    cases there.symm.trans read
    exact same

theorem keeps_updateAccount {update : Update AccountRecord} {next : Tables}
    (done : tables.updateAccount update = .ok next) : Keeps tables next := by
  simp only [updateAccount, bind_eq_ok_iff] at done
  obtain ⟨stored, read, ⟨⟩, checked, done⟩ := done
  obtain ⟨rfl, same⟩ := Update.checkAccount_eq_ok_iff.mp checked
  split at done
  · cases done
    exact .refl tables
  next row found =>
    cases done
    have place : row.address = update.after.address.toBytes := Index.key_of_find? found
    refine keeps_putAccount place rfl fun old there => ?_
    cases there.symm.trans read
    exact same

theorem keeps_commit {batch : WriteBatch} {next : Tables}
    (committed : tables.commit batch = .ok next) : Keeps tables next := by
  obtain ⟨between, mints, accounts⟩ := bind_eq_ok_iff.mp committed
  have mints_kept : Keeps tables between :=
    foldlM_keeps (fun kept done => kept.trans (keeps_updateMint done)) (.refl tables) mints
  exact foldlM_keeps (fun kept done => kept.trans (keeps_updateAccount done)) mints_kept accounts

theorem permanent (store : Tables) : Permanent store where
  keeps call := by
    cases call with
    | insertMint mint =>
      simp only [RecordStore.answer, Tables.insertMint]
      cases free : store.mints.find? mint.address.toBytes with
      | some row => exact .refl store
      | none =>
        refine keeps_putMint rfl rfl fun old stored => ?_
        have taken := row_of_hasMint stored
        rw [free] at taken
        cases taken
    | insertAccount account =>
      simp only [RecordStore.answer, Tables.insertAccount]
      split
      next inserted answered =>
        split at answered
        · cases answered
          exact .refl store
        next free =>
          split at answered
          · cases answered
          · cases answered
            -- a row at the address would have been in the way, whatever it is read as
            refine keeps_putAccount rfl rfl fun old stored => ?_
            exact absurd (.inl (row_of_hasAccount stored)) free
      · exact .refl store
    | commit batch =>
      simp only [RecordStore.answer]
      cases committed : store.commit batch with
      | ok next => exact keeps_commit committed
      | error e => exact .refl store
    | _ => exact .refl store
  insertMint stored := by
    obtain ⟨row, taken⟩ := Option.isSome_iff_exists.mp (row_of_hasMint stored)
    simp only [RecordStore.answer, Tables.insertMint, taken]
  insertAccount stored := by
    have taken := row_of_hasAccount stored
    simp only [RecordStore.answer, Tables.insertAccount]
    rw [if_pos (.inl taken)]

end Tables

/-! ## In any store -/

theorem Database.permanent (db : Database) : Permanent db := by
  obtain ⟨_ | tables, others, triggers⟩ := db
  case none =>
    -- nothing is found where there are no tables
    exact ⟨fun _ => .refl _, fun stored => (by cases stored), fun stored => (by cases stored)⟩
  case some =>
    exact .passed (fun tables => (⟨some tables, others, triggers⟩ : Database)) (fun _ _ => rfl)
      tables.permanent

theorem AnyStore.permanent (store : AnyStore) : Permanent store := by
  cases store with
  | memory store => exact .passed AnyStore.memory (fun _ _ => rfl) store.permanent
  | database db => exact .passed AnyStore.database (fun _ _ => rfl) db.permanent

/-- Whatever a store is called for, a record that it has stays at its address under its
    identity, and is in the way of whatever is to be inserted there. -/
theorem AnyStore.identity_permanent (store : AnyStore) (calls : List StoreCall) :
    (∀ address mint, HasMint store address mint →
      (∃ later, HasMint (after store calls) address later ∧ mint.SameIdentity later) ∧
      ∀ other : MintRecord, other.address = address →
        answer (.insertMint other) (after store calls) =
          (.ok .alreadyExists, after store calls)) ∧
    (∀ address account, HasAccount store address account →
      (∃ later, HasAccount (after store calls) address later ∧ account.SameIdentity later) ∧
      ∀ other : AccountRecord, other.address = address →
        answer (.insertAccount other) (after store calls) =
          (.ok .alreadyExists, after store calls)) := by
  have kept := keeps_after permanent store calls
  constructor
  · intro address mint stored
    obtain ⟨later, there, same⟩ := kept.mint stored
    refine ⟨⟨later, there, same⟩, ?_⟩
    rintro other rfl
    exact (permanent _).insertMint there
  · intro address account stored
    obtain ⟨later, there, same⟩ := kept.account stored
    refine ⟨⟨later, there, same⟩, ?_⟩
    rintro other rfl
    exact (permanent _).insertAccount there

/-- What a thief may try: batches that name a mint twice, of which one gives it another
    authority on the way, an update of an account that was never there, and insertions
    in the place of both. -/
def thefts (mint : MintRecord) (account : AccountRecord) (thief : Principal) : List StoreCall :=
  let issued := { mint with supply := 5 }
  let stolen := { account with owner := thief }
  [.commit ⟨[⟨mint, issued⟩, ⟨issued, { mint with authority := thief }⟩], []⟩,
    .commit ⟨[⟨mint, issued⟩, ⟨issued, { mint with supply := 7 }⟩], []⟩,
    .commit ⟨[], [⟨stolen, { stolen with amount := 9 }⟩]⟩,
    .insertMint { mint with authority := thief }, .insertAccount stolen]

/-- In tables the second batch goes through, and that is all that comes of it. -/
theorem AnyStore.identity_permanent_thefts :
    let mint : MintRecord := .empty ⟨.replicate 2⟩ ⟨.replicate 1⟩ 0
    let account : AccountRecord := .empty ⟨.replicate 4⟩ ⟨.replicate 3⟩ mint.address
    let store := after emptyDatabase [.insertMint mint, .insertAccount account]
    let calls := thefts mint account ⟨.replicate 5⟩
    HasMint store mint.address mint ∧ HasAccount store account.address account ∧
      HasMint (after store calls) mint.address { mint with supply := 7 } ∧
      (∃ later, HasMint (after store calls) mint.address later ∧ mint.SameIdentity later) ∧
      (∃ later, HasAccount (after store calls) account.address later ∧
        account.SameIdentity later) ∧
      answer (.insertMint mint) (after store calls) = (.ok .alreadyExists, after store calls) := by
  intro mint account store calls
  have at_mint : HasMint store mint.address mint := by decide +kernel
  have at_account : HasAccount store account.address account := by decide +kernel
  have issued : HasMint (after store calls) mint.address { mint with supply := 7 } := by
    decide +kernel
  obtain ⟨mints, accounts⟩ := identity_permanent store calls
  obtain ⟨mint_kept, refused⟩ := mints _ _ at_mint
  obtain ⟨account_kept, _⟩ := accounts _ _ at_account
  exact ⟨at_mint, at_account, issued, mint_kept, account_kept, refused mint rfl⟩

end TokenLedger
