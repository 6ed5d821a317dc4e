import TokenLedger.Store.Basic
import TokenLedger.Store.Index

/-!
# The store in tables

Records as rows of two tables. A row keeps the canonical bytes of its record, and beside them the
columns by which rows are found: the address as primary key, and for accounts the owner and the
mint, of which no two rows have both in common and of which the mint must be a row of the other
table. What a row says is believed only if its bytes decode to a record that its columns agree
with: look-ups compare the address, scans the owner and the mint.
-/

namespace TokenLedger

structure MintRow where
  address : Bytes
  authority : Bytes
  record : Bytes
deriving DecidableEq

structure AccountRow where
  address : Bytes
  owner : Bytes
  mint : Bytes
  record : Bytes
deriving DecidableEq

/-- Both tables, their rows in the order of the primary key. -/
structure Tables where
  mints : Index MintRow.address
  accounts : Index AccountRow.address
deriving DecidableEq

def MintRecord.toRow (record : MintRecord) : MintRow where
  address := record.address.toBytes
  authority := record.authority.toBytes
  record := record.encode

def AccountRecord.toRow (record : AccountRecord) : AccountRow where
  address := record.address.toBytes
  owner := record.owner.toBytes
  mint := record.mint.toBytes
  record := record.encode

namespace Tables

def empty : Tables := { mints := .empty, accounts := .empty }

/-! ## Look-ups -/

/-- The bytes of a row as a record of the mint asked for. -/
def readMint (address : MintAddress) (row : MintRow) : Except StoreError MintRecord :=
  match MintRecord.decode row.record with
  | .error e => .error (.serialization e)
  | .ok record =>
    if record.address = address then .ok record
    else .error (.invalidData (.wrongMint address record.address))

/-- The bytes of a row as a record of the account asked for. -/
def readAccount (address : AccountAddress) (row : AccountRow) : Except StoreError AccountRecord :=
  match AccountRecord.decode row.record with
  | .error e => .error (.serialization e)
  | .ok record =>
    if record.address = address then .ok record
    else .error (.invalidData (.wrongAccount address record.address))

def getMint (tables : Tables) (address : MintAddress) : Except StoreError (Option MintRecord) :=
  match tables.mints.find? address.toBytes with
  | none => .ok none
  | some row => (readMint address row).map some

def getAccount (tables : Tables) (address : AccountAddress) :
    Except StoreError (Option AccountRecord) :=
  match tables.accounts.find? address.toBytes with
  | none => .ok none
  | some row => (readAccount address row).map some

/-! ## Inserting -/

/-- Adds a row for a mint, unless its key is taken. -/
def insertMint (tables : Tables) (record : MintRecord) : InsertResult × Tables :=
  match tables.mints.find? record.address.toBytes with
  | some _ => (.alreadyExists, tables)
  | none => (.inserted, { tables with mints := tables.mints.put record.toRow })

/-- Whether a row has this owner and this mint. -/
def hasPair (tables : Tables) (owner mint : Bytes) : Bool :=
  tables.accounts.items.any fun row => row.owner = owner ∧ row.mint = mint

/-- Adds a row for an account, unless its key or its pair of owner and mint is taken. A row that is
    added must refer to a mint. -/
def insertAccount (tables : Tables) (record : AccountRecord) :
    Except StoreError (InsertResult × Tables) :=
  let row := record.toRow
  if (tables.accounts.find? row.address).isSome ∨ tables.hasPair row.owner row.mint then
    .ok (.alreadyExists, tables)
  else if (tables.mints.find? row.mint).isNone then .error (.database .foreignKey)
  else .ok (.inserted, { tables with accounts := tables.accounts.put row })

/-! ## Committing -/

/-- Applies an update of a mint to the row of its new value's address. -/
def updateMint (tables : Tables) (update : Update MintRecord) : Except StoreError Tables := do
  let stored ← tables.getMint update.after.address
  update.checkMint stored
  match tables.mints.find? update.after.address.toBytes with
  | none => return tables
  | some row =>
    let row := { row with record := update.after.encode }
    return { tables with mints := tables.mints.put row }

/-- Applies an update of an account to the row of its new value's address. -/
def updateAccount (tables : Tables) (update : Update AccountRecord) : Except StoreError Tables := do
  let stored ← tables.getAccount update.after.address
  update.checkAccount stored
  match tables.accounts.find? update.after.address.toBytes with
  | none => return tables
  | some row =>
    let row := { row with record := update.after.encode }
    return { tables with accounts := tables.accounts.put row }

/-- Applies the updates of a batch one after the other, mints first; each sees what those before it
    wrote. -/
def commit (tables : Tables) (batch : WriteBatch) : Except StoreError Tables := do
  let tables ← batch.mints.foldlM updateMint tables
  batch.accounts.foldlM updateAccount tables

/-! ## Scans -/

/-- The bytes of a row as a record that the row's owner and mint columns agree with. -/
def scanRow (row : AccountRow) : Except StoreError AccountRecord :=
  match AccountRecord.decode row.record with
  | .error e => .error (.serialization e)
  | .ok record =>
    if record.owner.toBytes = row.owner ∧ record.mint.toBytes = row.mint then .ok record
    else .error (.invalidData (.wrongColumns record.address))

/-- The records of the rows that have a mint in their mint column. -/
def accountsByMint (tables : Tables) (mint : MintAddress) :
    Except StoreError (List AccountRecord) :=
  (tables.accounts.items.filter (·.mint = mint.toBytes)).mapM scanRow

/-- The records of the rows that have an owner in their owner column. -/
def accountsByOwner (tables : Tables) (owner : Principal) :
    Except StoreError (List AccountRecord) :=
  (tables.accounts.items.filter (·.owner = owner.toBytes)).mapM scanRow

/-- The keys of all mint rows, as addresses. -/
def listMints (tables : Tables) : Except StoreError (List MintAddress) :=
  tables.mints.items.mapM fun row =>
    match MintAddress.ofBytes? row.address with
    | some address => .ok address
    | none => .error (.invalidData .badMintKey)

instance : RecordStore Tables where
  answer
    | .getMint address, tables => (tables.getMint address, tables)
    | .getAccount address, tables => (tables.getAccount address, tables)
    | .insertMint record, tables =>
      let (result, next) := tables.insertMint record; (.ok result, next)
    | .insertAccount record, tables =>
      match tables.insertAccount record with
      | .ok (result, next) => (.ok result, next)
      | .error e => (.error e, tables)
    | .commit batch, tables =>
      match tables.commit batch with
      | .ok next => (.ok (), next)
      | .error e => (.error e, tables)
    | .accountsByMint mint, tables => (tables.accountsByMint mint, tables)
    | .accountsByOwner owner, tables => (tables.accountsByOwner owner, tables)
    | .listMints, tables => (tables.listMints, tables)

end Tables

end TokenLedger
