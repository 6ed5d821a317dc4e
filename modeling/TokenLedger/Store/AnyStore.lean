import TokenLedger.Ledger.Event
import TokenLedger.Store.Database
import TokenLedger.Store.Memory

/-!
# A store of either kind

Where it is said of both kinds of store that something holds, or where it is chosen while running
which kind to use, the store is one of these.
-/

namespace TokenLedger

/-- A store in memory or a database. -/
inductive AnyStore where
  | memory (store : MemoryStore)
  | database (db : Database)

namespace AnyStore

/-- A store in memory without records. -/
def emptyMemory : AnyStore := .memory .empty

/-- A new database. -/
def emptyDatabase : AnyStore := .database .fresh

instance : RecordStore AnyStore where
  answer call
    | .memory store =>
      let (reply, store) := RecordStore.answer call store
      (reply, .memory store)
    | .database db =>
      let (reply, db) := RecordStore.answer call db
      (reply, .database db)

/-- Opens a store. The schema of a database is brought up to date, which is reported. -/
def opened : AnyStore → Except StoreError (AnyStore × List Event)
  | .memory store => .ok (.memory store, [])
  | .database db => do
    let (found, db) ← db.migrate
    let events :=
      if found < Database.supportedVersion then
        [.schemaMigrated found Database.supportedVersion]
      else []
    return (.database db, events)

end AnyStore

end TokenLedger
