import TokenLedger.Store.Basic
import TokenLedger.Store.Index

/-!
# The store in memory

Records by address, and nothing else. A batch is checked as a whole against the records before it,
and then written in order, so if it names a record twice the later update stands.
-/

namespace TokenLedger

def MintRecord.key (record : MintRecord) : Bytes := record.address.toBytes

def AccountRecord.key (record : AccountRecord) : Bytes := record.address.toBytes

/-- Records in the order of their addresses. -/
structure MemoryStore where
  mints : Index MintRecord.key
  accounts : Index AccountRecord.key

namespace MemoryStore

def empty : MemoryStore := { mints := .empty, accounts := .empty }

def getMint (store : MemoryStore) (address : MintAddress) : Option MintRecord :=
  store.mints.find? address.toBytes

def getAccount (store : MemoryStore) (address : AccountAddress) : Option AccountRecord :=
  store.accounts.find? address.toBytes

def insertMint (store : MemoryStore) (record : MintRecord) : InsertResult × MemoryStore :=
  match store.getMint record.address with
  | some _ => (.alreadyExists, store)
  | none => (.inserted, { store with mints := store.mints.put record })

def insertAccount (store : MemoryStore) (record : AccountRecord) : InsertResult × MemoryStore :=
  match store.getAccount record.address with
  | some _ => (.alreadyExists, store)
  | none => (.inserted, { store with accounts := store.accounts.put record })

/-- Checks all updates of a batch against the records stored. -/
def validate (store : MemoryStore) (batch : WriteBatch) : Except StoreError Unit := do
  batch.mints.forM fun update => update.checkMint (store.getMint update.after.address)
  batch.accounts.forM fun update => update.checkAccount (store.getAccount update.after.address)

/-- Writes the new values of a batch. -/
def write (store : MemoryStore) (batch : WriteBatch) : MemoryStore :=
  { mints := batch.mints.foldl (fun mints update => mints.put update.after) store.mints
    accounts := batch.accounts.foldl (fun accounts update => accounts.put update.after)
      store.accounts }

/-- Applies a batch whose updates are all as they should be. -/
def commit (store : MemoryStore) (batch : WriteBatch) : Except StoreError MemoryStore := do
  store.validate batch
  return store.write batch

def accountsByMint (store : MemoryStore) (mint : MintAddress) : List AccountRecord :=
  store.accounts.items.filter (·.mint = mint)

def accountsByOwner (store : MemoryStore) (owner : Principal) : List AccountRecord :=
  store.accounts.items.filter (·.owner = owner)

def listMints (store : MemoryStore) : List MintAddress := store.mints.items.map (·.address)

instance : RecordStore MemoryStore where
  answer
    | .getMint address, store => (.ok (store.getMint address), store)
    | .getAccount address, store => (.ok (store.getAccount address), store)
    | .insertMint record, store => let (result, next) := store.insertMint record; (.ok result, next)
    | .insertAccount record, store =>
      let (result, next) := store.insertAccount record; (.ok result, next)
    | .commit batch, store =>
      match store.commit batch with
      | .ok next => (.ok (), next)
      | .error e => (.error e, store)
    | .accountsByMint mint, store => (.ok (store.accountsByMint mint), store)
    | .accountsByOwner owner, store => (.ok (store.accountsByOwner owner), store)
    | .listMints, store => (.ok store.listMints, store)

end MemoryStore

end TokenLedger
