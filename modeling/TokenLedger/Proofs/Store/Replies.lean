import TokenLedger.Proofs.Store.Tables
import TokenLedger.Store.AnyStore

/-! # What a store holds and how it replies

A store of either kind stands for records by address: a store in memory is them,
and a database holds them if its tables have just their rows (`AnyStore.Holds`).
What the replies have to do with the records is said once for all stores, call by
call (`MemoryStore.Replies`), and `AnyStore.replies` shows that every store that
holds records keeps to it.  Arguments about ledgers go by records and replies
from here on, and never ask which kind of store there is.

The one thing asked of the caller is that a batch does not name a record twice:
stores in memory check all of a batch before they write any of it, databases check
each update after they have written those before it.
-/

namespace TokenLedger

/-- The records that a store stands for. -/
inductive AnyStore.Holds : AnyStore → MemoryStore → Prop
  | memory (records : MemoryStore) : Holds (.memory records) records
  | database {db : Database} {records : MemoryStore} (rows : db.tables = some records.toTables) :
    Holds (.database db) records

/-- Whether a call is no commit of a batch that names a record twice. -/
def StoreCall.Distinct : StoreCall → Prop
  | .commit batch => batch.Distinct
  | _ => True

namespace MemoryStore

/-- How a store that holds records may reply to a call, and what it then holds.
    Whether an owner may have two accounts for one mint, at different addresses, and
    whether an account may refer to no mint, is left to the store. -/
def Replies (before : MemoryStore) : (call : StoreCall) → call.Reply → MemoryStore → Prop
  | .getMint address, reply, after => reply = .ok (before.getMint address) ∧ after = before
  | .getAccount address, reply, after => reply = .ok (before.getAccount address) ∧ after = before
  | .insertMint mint, reply, after =>
    reply = .ok (before.insertMint mint).1 ∧ after = (before.insertMint mint).2
  | .insertAccount account, reply, after =>
    (reply = .ok .inserted ∧ before.getAccount account.address = none ∧
        after = before.putAccount account) ∨
      (reply = .ok .alreadyExists ∧ after = before ∧
        ((before.getAccount account.address).isSome ∨
          before.HasPair account.owner account.mint)) ∨
      (reply = .error (.database .foreignKey) ∧ after = before ∧
        before.getMint account.mint = none)
  | .commit batch, reply, after =>
    (reply = .ok () ∧ before.commit batch = .ok after) ∨
      ∃ e, reply = .error e ∧ before.commit batch = .error e ∧ after = before
  | .accountsByMint mint, reply, after =>
    reply = .ok (before.accountsByMint mint) ∧ after = before
  | .accountsByOwner owner, reply, after =>
    reply = .ok (before.accountsByOwner owner) ∧ after = before
  | .listMints, reply, after => reply = .ok before.listMints ∧ after = before

end MemoryStore

namespace AnyStore

/-- Stores without records. -/
def IsEmpty : AnyStore → Prop
  | .memory store => store = .empty
  | .database db => db.tables = some .empty

theorem IsEmpty.holds {store : AnyStore} (empty : store.IsEmpty) :
    store.Holds MemoryStore.empty := by
  cases store with
  | memory store =>
    cases empty
    exact .memory _
  | database db => exact .database empty

theorem isEmpty_emptyMemory : emptyMemory.IsEmpty := rfl

theorem isEmpty_emptyDatabase : emptyDatabase.IsEmpty := rfl

end AnyStore

namespace MemoryStore

variable {records : MemoryStore}

theorem insertAccount_none {account : AccountRecord}
    (free : records.getAccount account.address = none) :
    records.insertAccount account = (.inserted, records.putAccount account) := by
  simp only [insertAccount, free, putAccount]

theorem insertAccount_some {account old : AccountRecord}
    (taken : records.getAccount account.address = some old) :
    records.insertAccount account = (.alreadyExists, records) := by
  simp only [insertAccount, taken]

/-- A store in memory keeps to what is said of all stores. -/
theorem replies (call : StoreCall) :
    records.Replies call (RecordStore.answer call records).1
      (RecordStore.answer call records).2 := by
  cases call with
  | getMint address => exact ⟨rfl, rfl⟩
  | getAccount address => exact ⟨rfl, rfl⟩
  | insertMint mint => exact ⟨rfl, rfl⟩
  | insertAccount account =>
    simp only [RecordStore.answer]
    cases at_address : records.getAccount account.address with
    | none =>
      rw [insertAccount_none at_address]
      exact .inl ⟨rfl, at_address, rfl⟩
    | some old =>
      rw [insertAccount_some at_address]
      exact .inr (.inl ⟨rfl, rfl, .inl (by rw [at_address]; rfl)⟩)
  | commit batch =>
    simp only [RecordStore.answer]
    cases committed : records.commit batch with
    | ok next => exact .inl ⟨rfl, committed⟩
    | error e => exact .inr ⟨e, rfl, committed, rfl⟩
  | accountsByMint mint => exact ⟨rfl, rfl⟩
  | accountsByOwner owner => exact ⟨rfl, rfl⟩
  | listMints => exact ⟨rfl, rfl⟩

/-- So do tables with a row for each record, and afterwards they have a row for each
    record that is then held. -/
theorem replies_toTables {call : StoreCall} (distinct : call.Distinct) :
    ∃ after, (RecordStore.answer call records.toTables).2 = after.toTables ∧
      records.Replies call (RecordStore.answer call records.toTables).1 after := by
  cases call with
  | getMint address => exact ⟨records, rfl, getMint_toTables records address, rfl⟩
  | getAccount address => exact ⟨records, rfl, getAccount_toTables records address, rfl⟩
  | insertMint mint =>
    simp only [RecordStore.answer, insertMint_toTables]
    exact ⟨_, rfl, rfl, rfl⟩
  | insertAccount account =>
    simp only [RecordStore.answer, insertAccount_toTables]
    split
    next inserted answered =>
      split at answered
      next taken =>
        cases answered
        exact ⟨records, rfl, .inr (.inl ⟨rfl, rfl, taken⟩)⟩
      next free =>
        split at answered
        · cases answered
        · cases answered
          obtain ⟨free, _⟩ := not_or.mp free
          exact ⟨_, rfl, .inl ⟨rfl, by simpa using free, rfl⟩⟩
    next e answered =>
      split at answered
      · cases answered
      · split at answered
        next unknown =>
          cases answered
          exact ⟨records, rfl, .inr (.inr ⟨rfl, rfl, unknown⟩)⟩
        · cases answered
  | commit batch =>
    simp only [RecordStore.answer, commit_toTables records distinct]
    cases committed : records.commit batch with
    | ok next => exact ⟨next, rfl, .inl ⟨rfl, committed⟩⟩
    | error e => exact ⟨records, rfl, .inr ⟨e, rfl, committed, rfl⟩⟩
  | accountsByMint mint => exact ⟨records, rfl, accountsByMint_toTables records mint, rfl⟩
  | accountsByOwner owner => exact ⟨records, rfl, accountsByOwner_toTables records owner, rfl⟩
  | listMints => exact ⟨records, rfl, listMints_toTables records, rfl⟩

end MemoryStore

/-- Every store that holds records replies to calls as is said of the records. -/
theorem AnyStore.replies {store : AnyStore} {records : MemoryStore} (holds : store.Holds records)
    {call : StoreCall} (distinct : call.Distinct) :
    ∃ after, (RecordStore.answer call store).2.Holds after ∧
      records.Replies call (RecordStore.answer call store).1 after := by
  cases holds with
  | memory => exact ⟨_, .memory _, MemoryStore.replies call⟩
  | database rows =>
    obtain ⟨after, next, replied⟩ := records.replies_toTables distinct
    simp only [RecordStore.answer, rows] at *
    exact ⟨after, .database (congrArg some next), replied⟩

namespace AnyStore.Holds

variable {store : AnyStore} {records : MemoryStore}

theorem getMint (holds : store.Holds records) (address : MintAddress) :
    (RecordStore.answer (.getMint address) store).1 = .ok (records.getMint address) := by
  obtain ⟨_, _, replied, _⟩ := @replies _ _ holds (.getMint address) trivial
  exact replied

theorem getAccount (holds : store.Holds records) (address : AccountAddress) :
    (RecordStore.answer (.getAccount address) store).1 = .ok (records.getAccount address) := by
  obtain ⟨_, _, replied, _⟩ := @replies _ _ holds (.getAccount address) trivial
  exact replied

theorem accountsByMint (holds : store.Holds records) (mint : MintAddress) :
    (RecordStore.answer (.accountsByMint mint) store).1 = .ok (records.accountsByMint mint) := by
  obtain ⟨_, _, replied, _⟩ := @replies _ _ holds (.accountsByMint mint) trivial
  exact replied

theorem accountsByOwner (holds : store.Holds records) (owner : Principal) :
    (RecordStore.answer (.accountsByOwner owner) store).1 =
      .ok (records.accountsByOwner owner) := by
  obtain ⟨_, _, replied, _⟩ := @replies _ _ holds (.accountsByOwner owner) trivial
  exact replied

theorem listMints (holds : store.Holds records) :
    (RecordStore.answer .listMints store).1 = .ok records.listMints := by
  obtain ⟨_, _, replied, _⟩ := @replies _ _ holds .listMints trivial
  exact replied

/-- A store holds the records that it finds, and so no others. -/
theorem unique {other : MemoryStore} (holds : store.Holds records) (holds' : store.Holds other) :
    records = other := by
  refine MemoryStore.ext_of_lookups (fun address => ?_) fun address => ?_
  · exact Except.ok.inj ((holds.getMint address).symm.trans (holds'.getMint address))
  · exact Except.ok.inj ((holds.getAccount address).symm.trans (holds'.getAccount address))

end AnyStore.Holds

end TokenLedger
