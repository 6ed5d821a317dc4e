import TokenLedger.Store.AnyTable
import TokenLedger.Store.Tables

/-!
# Databases and their schema

A database as a whole: the tables of the ledger in the form that the ledger gives them, and what
else there is, which may be any tables, with triggers that delete rows. One of these other tables
has the version numbers that record how far the schema has been brought. Opening a database brings
its schema up to date, in one transaction; a database that is up to date stays as it is, and one
whose version is newer than is known is refused.
-/

namespace TokenLedger

/-- What is done after a row has been put into a table that is not one of the ledger's: other
    tables, or the same, lose all their rows. -/
structure Trigger where
  table : String
  clears : List String
deriving DecidableEq

structure Database where
  /-- The tables of the ledger, once they have been created. -/
  tables : Option Tables
  others : Index AnyTable.key
  triggers : List Trigger := []
deriving DecidableEq

/-- The version that a value stands for. Null stands for none at all, which is zero. -/
def Cell.version? : Cell → Option Int
  | null => some 0
  | integer n => some n
  | _ => none

namespace Database

/-- The version of the schema that the ledger works with. -/
def supportedVersion : Nat := 1

def versionName : String := "schema_migrations"

/-- The table of version numbers as it is made where there is none. -/
def versionTable : AnyTable where
  name := versionName
  columns := [{ name := "version" }, { name := "applied_at", notNull? := some .refuse }]
  keys := [{ columns := ["version"] }]

def empty : Database := { tables := none, others := .empty }

/-- A database that has been created and opened. -/
def fresh : Database where
  tables := some .empty
  others := Index.empty.put { versionTable with rows := [[.integer supportedVersion, .integer 0]] }

/-- The names of the tables of the ledger and of their indexes. -/
def ledgerNames : List String :=
  ["mints", "token_accounts", "idx_accounts_mint", "idx_accounts_owner"]

def names (db : Database) : List String :=
  (if db.tables.isSome then ledgerNames else []) ++
    db.others.items.flatMap fun table => table.name :: table.indexes

/-- Whether a name is taken by a table or an index. -/
def hasName (db : Database) (name : String) : Bool := db.names.any (sameName · name)

/-- The table of a name, be it in capitals, that is not one of the ledger's. -/
def other? (db : Database) (name : String) : Option AnyTable :=
  db.others.find? (Bytes.ofText name.toLower)

def putOther (db : Database) (table : AnyTable) : Database :=
  { db with others := db.others.put table }

/-! ## Triggers -/

/-- Deletes the rows of a table. A mint that an account refers to cannot be deleted. -/
def clear (db : Database) (name : String) : Except DatabaseFault Database :=
  match db.other? name, db.tables, name.toLower with
  | some table, _, _ => .ok (db.putOther { table with rows := [] })
  | none, some tables, "token_accounts" =>
    .ok { db with tables := some { tables with accounts := .empty } }
  | none, some tables, "mints" =>
    if tables.accounts.items.isEmpty then
      .ok { db with tables := some { tables with mints := .empty } }
    else .error .foreignKey
  | none, _, _ => .error (.noTable name)

/-- Does what the triggers of a table ask for. -/
def fire (db : Database) (name : String) : Except DatabaseFault Database :=
  let fired := db.triggers.filter fun trigger => sameName trigger.table name
  (fired.flatMap (·.clears)).foldlM clear db

/-! ## Version numbers -/

/-- Puts a version number on record. -/
def recordVersion (db : Database) (version : Int) (now : Int := 0) :
    Except StoreError Database := do
  match db.other? versionName with
  | none => throw (.database (.noTable versionName))
  | some table =>
    let values := [("version", .integer version), ("applied_at", .integer now)]
    match ← (table.insert values).mapError .database with
    | none => return db
    | some table => ((db.putOther table).fire versionName).mapError .database

/-- Takes all version numbers off the record, and says how many there were. -/
def clearVersions (db : Database) : Except StoreError (Nat × Database) :=
  match db.other? versionName with
  | none => .error (.database (.noTable versionName))
  | some table => .ok (table.rows.length, db.putOther { table with rows := [] })

/-- What there is in place of version numbers. -/
def versionCells (db : Database) : Except StoreError (List Cell) :=
  match db.other? versionName with
  | none => .error (.database (.noTable versionName))
  | some table =>
    match table.column? "version" with
    | none => .error (.database (.noColumn (versionName ++ ".version")))
    | some column => .ok (table.cells column)

/-- The version numbers on record in increasing order. -/
def listVersions (db : Database) : Except StoreError (List Int) := do
  let numbers := (← db.versionCells).filterMap fun
    | .integer n => some n
    | _ => none
  return numbers.mergeSort fun a b => decide (a ≤ b)

/-- The version that what is on record stands for: the last in the order. It has to be an integer of
    32 bits. -/
def currentVersion (cells : List Cell) : Except StoreError Nat :=
  match (Cell.last cells).version? with
  | none => .error (.database .notANumber)
  | some n => if 0 ≤ n ∧ n < UInt32.size then .ok n.toNat else .error (.database .outOfRange)

/-! ## Bringing the schema up to date -/

/-- Creates a table that has nothing to do with the ledger. No name has the reserved one at its
    front. -/
def createTable (db : Database) (reserved name : String) : Except StoreError Database :=
  if reserved.toList.isPrefixOf name.toLower.toList then .error (.database (.nameReserved name))
  else if db.hasName name then .error (.database (.nameTaken name))
  else .ok (db.putOther { name, columns := [{ name := "id" }] })

/-- Creates the table of version numbers, unless there is a table of its name, whatever its form. -/
def ensureVersions (db : Database) : Except StoreError Database :=
  match db.other? versionName with
  | some _ => .ok db
  | none =>
    if db.hasName versionName then .error (.database (.nameTaken versionName))
    else .ok (db.putOther versionTable)

/-- Creates the tables of the ledger, whose names must be free. -/
def createTables (db : Database) : Except StoreError Database :=
  match ledgerNames.find? db.hasName with
  | some name => .error (.database (.nameTaken name))
  | none => .ok { db with tables := some .empty }

/-- Brings the schema up to date. An error leaves the database as it was. The number is the version
    that the database had before. -/
def migrate (db : Database) (now : Int := 0) : Except StoreError (Nat × Database) := do
  let db ← db.ensureVersions
  let current ← currentVersion (← db.versionCells)
  if supportedVersion < current then throw (.newerSchema current supportedVersion)
  if current = supportedVersion then return (current, db)
  let db ← db.createTables
  return (current, ← db.recordVersion supportedVersion now)

/-! ## Records -/

/-- Calls on a database without the tables of the ledger. The first table that a call needs is
    missed, and a batch of no updates needs none. -/
def noTables : (call : StoreCall) → call.Reply
  | .getMint _ => .error (.database (.noTable "mints"))
  | .insertMint _ => .error (.database (.noTable "mints"))
  | .listMints => .error (.database (.noTable "mints"))
  | .commit batch =>
    if batch.isEmpty then .ok ()
    else .error (.database (.noTable (if batch.mints.isEmpty then "token_accounts" else "mints")))
  | .getAccount _ => .error (.database (.noTable "token_accounts"))
  | .insertAccount _ => .error (.database (.noTable "token_accounts"))
  | .accountsByMint _ => .error (.database (.noTable "token_accounts"))
  | .accountsByOwner _ => .error (.database (.noTable "token_accounts"))

instance : RecordStore Database where
  answer call db :=
    match db.tables with
    | none => (noTables call, db)
    | some tables =>
      let (reply, next) := RecordStore.answer call tables
      (reply, { db with tables := some next })

end Database

/-! ## Editing rows from outside -/

namespace Tables

inductive MintColumn where
  | address
  | authority
  | record
  /-- A column with a time, which is never read. -/
  | time
deriving DecidableEq

inductive AccountColumn where
  | address
  | owner
  | mint
  | record
  /-- A column with a time, which is never read. -/
  | time
deriving DecidableEq

def MintColumn.ofName? (name : String) : Option MintColumn :=
  [("mint_address", .address), ("authority", .authority), ("record", .record),
    ("created_at", .time), ("updated_at", .time)].lookup name

def AccountColumn.ofName? (name : String) : Option AccountColumn :=
  [("account_address", .address), ("owner", .owner), ("mint", .mint), ("record", .record),
    ("created_at", .time), ("updated_at", .time)].lookup name

/-- Sets one column of the row with a key, references unchecked, and says how many rows changed. -/
def setMintColumn (tables : Tables) (key : Bytes) (column : MintColumn) (value : Bytes) :
    Except StoreError (Nat × Tables) :=
  match tables.mints.find? key with
  | none => .ok (0, tables)
  | some row =>
    let row' := match column with
      | .address => { row with address := value }
      | .authority => { row with authority := value }
      | .record => { row with record := value }
      | .time => row
    let others := tables.mints.erase key
    match others.find? row'.address with
    | some _ => .error (.database (.unique "mints.mint_address"))
    | none => .ok (1, { tables with mints := others.put row' })

/-- Sets one column of the row with a key, references unchecked, and says how many rows changed. -/
def setAccountColumn (tables : Tables) (key : Bytes) (column : AccountColumn) (value : Bytes) :
    Except StoreError (Nat × Tables) :=
  match tables.accounts.find? key with
  | none => .ok (0, tables)
  | some row =>
    let row' := match column with
      | .address => { row with address := value }
      | .owner => { row with owner := value }
      | .mint => { row with mint := value }
      | .record => { row with record := value }
      | .time => row
    let others := { tables with accounts := tables.accounts.erase key }
    if (others.accounts.find? row'.address).isSome then
      .error (.database (.unique "token_accounts.account_address"))
    else if others.hasPair row'.owner row'.mint then
      .error (.database (.unique "token_accounts.owner, token_accounts.mint"))
    else .ok (1, { others with accounts := others.accounts.put row' })

end Tables

/-- Sets one column of the row with a key, table and column going by their names. -/
def Database.setColumn (db : Database) (table column : String) (key value : Bytes) :
    Except StoreError (Nat × Database) := do
  let some tables := db.tables | throw (.database (.noTable table))
  let (count, tables) ←
    match table, Tables.MintColumn.ofName? column, Tables.AccountColumn.ofName? column with
    | "mints", some column, _ => tables.setMintColumn key column value
    | "token_accounts", _, some column => tables.setAccountColumn key column value
    | _, _, _ => throw (.database (.noTable (table ++ "." ++ column)))
  return (count, { db with tables := some tables })

end TokenLedger
