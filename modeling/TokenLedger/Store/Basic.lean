import TokenLedger.Codec

/-!
# What a record store does

A store keeps mint and account records and answers eight kinds of call. Inserting never replaces a
record. Replacing is done by committing a batch of updates, each of which names the record it was
computed from: the batch applies as a whole, or not at all if one of those records has changed.
The calls are data, so that whatever is said of them can be said of every store and of every order
in which calls of several users arrive.
-/

namespace TokenLedger

/-! ## Errors -/

/-- Why a database refuses a statement. -/
inductive DatabaseFault where
  | foreignKey
  /-- Two rows would agree in these columns. -/
  | unique (columns : String)
  | notNull (column : String)
  | noTable (name : String)
  | noColumn (name : String)
  /-- Rows cannot be put where a statement puts one. -/
  | takesNoRows (name : String)
  | nameTaken (name : String)
  /-- Tables of this name are not for users. -/
  | nameReserved (name : String)
  | outOfRange
  | notANumber
  | notDatabase
  | readOnly
deriving DecidableEq

def DatabaseFault.message : DatabaseFault → String
  | foreignKey => "FOREIGN KEY constraint failed"
  | unique columns => "UNIQUE constraint failed: " ++ columns
  | notNull column => "NOT NULL constraint failed: " ++ column
  | noTable name => "no such table: " ++ name
  | noColumn name => "no such column: " ++ name
  | takesNoRows name => "no rows can be put into " ++ name
  | nameTaken name => "there is already a table named " ++ name
  | nameReserved name => "object name reserved for internal use: " ++ name
  | outOfRange => "integer out of range"
  | notANumber => "invalid column type"
  | notDatabase => "file is not a database"
  | readOnly => "attempt to write a readonly database"

/-- The number of the fault and what is generally said of it, where a command can meet it. -/
def DatabaseFault.detail? : DatabaseFault → Option String
  | readOnly => some "Error code 8: Attempt to write a readonly database"
  | _ => none

/-- Whether a constraint that the tables declare is what failed. -/
def DatabaseFault.isConstraint : DatabaseFault → Bool
  | foreignKey => true
  | unique _ => true
  | notNull _ => true
  | _ => false

/-- What can be wrong with the contents of a store or with an update. -/
inductive DataFault where
  /-- An update would change what never changes. -/
  | identityChanged (address : Address)
  /-- A mint row with the record of another mint. -/
  | wrongMint (row found : MintAddress)
  /-- An account row with the record of another account. -/
  | wrongAccount (row found : AccountAddress)
  /-- An account row whose columns are not those of its record. -/
  | wrongColumns (found : AccountAddress)
  /-- A mint row whose key is no address. -/
  | badMintKey
deriving DecidableEq

def DataFault.message : DataFault → String
  | identityChanged address => "immutable fields changed on " ++ address.text
  | wrongMint row found => "mint row " ++ row.text ++ " holds record for " ++ found.text
  | wrongAccount row found => "account row " ++ row.text ++ " holds record for " ++ found.text
  | wrongColumns found =>
    "account row " ++ found.text ++ " disagrees with its owner or mint column"
  | badMintKey => "mint address is not 32 bytes"

/-- What a conflict is about: a record, or what a store of another make calls it. -/
inductive Subject where
  | record (address : Address)
  | named (text : String)
deriving DecidableEq

def Subject.text : Subject → String
  | record address => address.text
  | named text => text

/-- Why a store does not do what it was called for. -/
inductive StoreError where
  | database (fault : DatabaseFault)
  /-- The bytes of a stored record do not decode. -/
  | serialization (reason : CoreError)
  | notFound (address : Address)
  /-- Stored data or an update is not as it should be. -/
  | invalidData (fault : DataFault)
  /-- A record is not, or no longer, what an update was computed from. -/
  | conflict (subject : Subject)
  /-- The tables are of a version newer than is known. -/
  | newerSchema (found supported : Nat)
deriving DecidableEq

def StoreError.message : StoreError → String
  | database fault => "database error: " ++ fault.message
  | serialization reason => "serialization error: " ++ reason.message
  | notFound address => "record not found: " ++ address.text
  | invalidData fault => "invalid data: " ++ fault.message
  | conflict subject => "write conflict: " ++ subject.text
  | newerSchema found supported =>
    "migration error: database schema version " ++ toString found ++
      " is newer than supported version " ++ toString supported

/-- The texts of the error and of what lies under it, outermost first. -/
def StoreError.messages (e : StoreError) : List String :=
  match e with
  | database fault => [e.message, fault.message] ++ fault.detail?.toList
  | _ => [e.message]

/-! ## Updates -/

/-- A record to be replaced and what is to replace it. -/
structure Update (ρ : Type) where
  before : ρ
  after : ρ
deriving DecidableEq

/-- Updates that apply together or not at all. -/
structure WriteBatch where
  mints : List (Update MintRecord)
  accounts : List (Update AccountRecord)
deriving DecidableEq

def WriteBatch.isEmpty (batch : WriteBatch) : Bool := batch.mints.isEmpty && batch.accounts.isEmpty

/-- Checks an update of a mint against the record stored at the address of its new value. -/
def Update.checkMint (stored : Option MintRecord) (update : Update MintRecord) :
    Except StoreError Unit :=
  let address : Address := .mint update.after.address
  match stored with
  | none => .error (.notFound address)
  | some record =>
    if update.before.SameIdentity update.after ∧ record.SameIdentity update.after then
      if record = update.before then .ok () else .error (.conflict (.record address))
    else .error (.invalidData (.identityChanged address))

/-- Checks an update of an account against the record stored at the address of its new value. -/
def Update.checkAccount (stored : Option AccountRecord) (update : Update AccountRecord) :
    Except StoreError Unit :=
  let address : Address := .account update.after.address
  match stored with
  | none => .error (.notFound address)
  | some record =>
    if update.before.SameIdentity update.after ∧ record.SameIdentity update.after then
      if record = update.before then .ok () else .error (.conflict (.record address))
    else .error (.invalidData (.identityChanged address))

/-! ## Calls -/

/-- What became of a record that was to be inserted. -/
inductive InsertResult where
  | inserted
  | alreadyExists
deriving DecidableEq

inductive StoreCall where
  | getMint (address : MintAddress)
  | getAccount (address : AccountAddress)
  | insertMint (record : MintRecord)
  | insertAccount (record : AccountRecord)
  | commit (batch : WriteBatch)
  | accountsByMint (mint : MintAddress)
  | accountsByOwner (owner : Principal)
  | listMints

/-- What a call is answered with when the store does it. -/
def StoreCall.Answer : StoreCall → Type
  | getMint _ => Option MintRecord
  | getAccount _ => Option AccountRecord
  | insertMint _ => InsertResult
  | insertAccount _ => InsertResult
  | commit _ => Unit
  | accountsByMint _ => List AccountRecord
  | accountsByOwner _ => List AccountRecord
  | listMints => List MintAddress

abbrev StoreCall.Reply (call : StoreCall) : Type := Except StoreError call.Answer

/-- Whether doing a call may change records. -/
def StoreCall.writes : StoreCall → Bool
  | insertMint _ => true
  | insertAccount _ => true
  | commit batch => !batch.isEmpty
  | _ => false

/-- A kind of store, by how its state answers calls. -/
class RecordStore (σ : Type) where
  answer : (call : StoreCall) → σ → call.Reply × σ

end TokenLedger
