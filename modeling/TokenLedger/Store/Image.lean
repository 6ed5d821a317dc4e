import TokenLedger.Cbor.Reader
import TokenLedger.Store.Database

/-!
# Databases as bytes

How a database is kept in a file: behind a mark, as one CBOR item with the rows of the ledger's
tables, the other tables, and the triggers. The mark is the one by which CBOR items describe
themselves; no UTF-8 text begins with it.
-/

namespace TokenLedger

open Cbor (Item)

/-- What stands at the front of a database file. -/
def Database.mark : Bytes := [0xd9, 0xd9, 0xf7]

/-! ## Writing -/

def MintRow.toItem (row : MintRow) : Item :=
  .array [.bytes row.address, .bytes row.authority, .bytes row.record]

def AccountRow.toItem (row : AccountRow) : Item :=
  .array [.bytes row.address, .bytes row.owner, .bytes row.mint, .bytes row.record]

/-- The rows of both tables as an item. -/
def Tables.toItem (tables : Tables) : Item :=
  .array [.array (tables.mints.items.map (·.toItem)), .array (tables.accounts.items.map (·.toItem))]

def Cell.toItem : Cell → Item
  | null => .null
  | integer n => .int n
  | real value => .array [.int value.num, .int value.den]
  | text content => .text content
  | blob content => .bytes content

def Numbers.toItem : Numbers → Item
  | integers => .int 0
  | reals => .int 1
  | texts => .int 2

def Conflict.toItem : Conflict → Item
  | refuse => .int 0
  | passOver => .int 1
  | replace => .int 2

def Column.toItem (column : Column) : Item :=
  .array [.text column.name, column.numbers.toItem, column.notNull?.elim .null (·.toItem),
    column.default.toItem]

def Key.toItem (key : Key) : Item :=
  .array [.array (key.columns.map .text), key.conflict.toItem]

def AnyTable.toItem (table : AnyTable) : Item :=
  .array [.text table.name, .array (table.columns.map (·.toItem)),
    .array (table.keys.map (·.toItem)), .array (table.indexes.map .text), .bool table.isClosed,
    .array (table.rows.map fun row => .array (row.map (·.toItem)))]

def Trigger.toItem (trigger : Trigger) : Item :=
  .array [.text trigger.table, .array (trigger.clears.map .text)]

def Database.toItem (db : Database) : Item :=
  .array [db.tables.elim .null (·.toItem), .array (db.others.items.map (·.toItem)),
    .array (db.triggers.map (·.toItem))]

def Database.toBytes (db : Database) : Bytes := Database.mark ++ db.toItem.encode

/-! ## Reading -/

def MintRow.ofItem? : Item → Option MintRow
  | .array [.bytes address, .bytes authority, .bytes record] => some { address, authority, record }
  | _ => none

def AccountRow.ofItem? : Item → Option AccountRow
  | .array [.bytes address, .bytes owner, .bytes mint, .bytes record] =>
    some { address, owner, mint, record }
  | _ => none

/-- The rows of both tables that an item stands for. -/
def Tables.ofItem? : Item → Option Tables
  | .array [.array mints, .array accounts] => do
    return { mints := .ofList (← mints.mapM MintRow.ofItem?)
             accounts := .ofList (← accounts.mapM AccountRow.ofItem?) }
  | _ => none

/-- What an item stands for, where null stands for nothing. -/
def optionOfItem? {α : Type} (read : Item → Option α) : Item → Option (Option α)
  | .null => some none
  | item => (read item).map some

/-- What the items of an array stand for. -/
def listOfItem? {α : Type} (read : Item → Option α) : Item → Option (List α)
  | .array items => items.mapM read
  | _ => none

def textOfItem? : Item → Option String
  | .text text => some text
  | _ => none

def Cell.ofItem? : Item → Option Cell
  | .null => some null
  | .int n => some (integer n)
  | .array [.int num, .int den] => some (real (num / den))
  | .text content => some (text content)
  | .bytes content => some (blob content)
  | _ => none

def Numbers.ofItem? : Item → Option Numbers
  | .int 0 => some integers
  | .int 1 => some reals
  | .int 2 => some texts
  | _ => none

def Conflict.ofItem? : Item → Option Conflict
  | .int 0 => some refuse
  | .int 1 => some passOver
  | .int 2 => some replace
  | _ => none

def Column.ofItem? : Item → Option Column
  | .array [.text name, numbers, notNull, default] => do
    return { name
             numbers := ← Numbers.ofItem? numbers
             notNull? := ← optionOfItem? Conflict.ofItem? notNull
             default := ← Cell.ofItem? default }
  | _ => none

def Key.ofItem? : Item → Option Key
  | .array [columns, conflict] => do
    return { columns := ← listOfItem? textOfItem? columns
             conflict := ← Conflict.ofItem? conflict }
  | _ => none

def AnyTable.ofItem? : Item → Option AnyTable
  | .array [.text name, columns, keys, indexes, .bool isClosed, rows] => do
    return { name
             columns := ← listOfItem? Column.ofItem? columns
             keys := ← listOfItem? Key.ofItem? keys
             indexes := ← listOfItem? textOfItem? indexes
             isClosed
             rows := ← listOfItem? (listOfItem? Cell.ofItem?) rows }
  | _ => none

def Trigger.ofItem? : Item → Option Trigger
  | .array [.text table, clears] => do
    return { table, clears := ← listOfItem? textOfItem? clears }
  | _ => none

def Database.ofItem? : Item → Option Database
  | .array [tables, others, triggers] => do
    return { tables := ← optionOfItem? Tables.ofItem? tables
             others := .ofList (← listOfItem? AnyTable.ofItem? others)
             triggers := ← listOfItem? Trigger.ofItem? triggers }
  | _ => none

/-- Reads the content of a database's file. -/
def Database.ofBytes? (bytes : Bytes) : Option Database :=
  match Bytes.split? Database.mark.length bytes with
  | none => none
  | some (front, rest) =>
    if front = Database.mark then
      match Cbor.readItem Cbor.maxDepth rest with
      | .ok (item, []) => Database.ofItem? item
      | _ => none
    else none

end TokenLedger
