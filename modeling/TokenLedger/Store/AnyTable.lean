import TokenLedger.Store.Basic

/-!
# Tables of any form

A database may have tables that somebody else has put into it, and one of them may be in the place
of a table that the ledger wants to make. Such a table has columns, each with a way of its own to
store numbers, keys, by which no two rows are to be the same, and rows. A row that breaks a
condition is refused, unless the condition asks for it to be passed over in silence, or for the
rows in its way to make room. Names are told apart without regard to case.
-/

namespace TokenLedger

/-- A value in a row. -/
inductive Cell where
  | null
  | integer (n : Int)
  | real (value : Rat)
  | text (content : String)
  | blob (content : Bytes)
deriving DecidableEq

namespace Cell

def number? : Cell → Option Rat
  | integer n => some n
  | real value => some value
  | _ => none

/-- Null comes first, then numbers, texts and byte strings. -/
def rank : Cell → Nat
  | null => 0
  | integer _ => 1
  | real _ => 1
  | text _ => 2
  | blob _ => 3

/-- The order in which values are sorted. Numbers are equal whether or not they are integers. -/
def before (a b : Cell) : Bool :=
  match a, b with
  | text a, text b => Bytes.ofText a < Bytes.ofText b
  | blob a, blob b => a < b
  | a, b =>
    match a.number?, b.number? with
    | some m, some n => m < n
    | _, _ => a.rank < b.rank

/-- Whether two values are the same in a key. Null is not even the same as itself. -/
def agrees (a b : Cell) : Bool := a ≠ null && b ≠ null && !a.before b && !b.before a

/-- The value that comes last in the order, null if there is none. -/
def last (cells : List Cell) : Cell :=
  cells.foldl (fun last cell => if last.before cell then cell else last) null

end Cell

/-! ## Columns and keys -/

/-- What a column makes of the integers that are put into it. -/
inductive Numbers where
  | integers
  | reals
  | texts
deriving DecidableEq

def Numbers.store : Numbers → Cell → Cell
  | .reals, .integer n => .real n
  | .texts, .integer n => .text (toString n)
  | _, cell => cell

/-- What becomes of a row that breaks a condition. -/
inductive Conflict where
  | refuse
  | passOver
  /-- Those in its way make room. -/
  | replace
deriving DecidableEq

structure Column where
  name : String
  numbers : Numbers := .integers
  /-- The condition that there is no null in it, if there is one. -/
  notNull? : Option Conflict := none
  /-- What is in it if a row does not say. -/
  default : Cell := .null
deriving DecidableEq

/-- The condition that no two rows agree in all of some columns. -/
structure Key where
  columns : List String
  conflict : Conflict := .refuse
deriving DecidableEq

/-! ## Tables -/

structure AnyTable where
  name : String
  columns : List Column
  keys : List Key := []
  indexes : List String := []
  /-- Whether it takes no rows: it is a view, or each row would break another condition. -/
  isClosed : Bool := false
  rows : List (List Cell) := []
deriving DecidableEq

/-- Whether two names are the same. -/
def sameName (a b : String) : Bool := a.toLower = b.toLower

namespace AnyTable

/-- What tables are told apart by. -/
def key (table : AnyTable) : Bytes := Bytes.ofText table.name.toLower

/-- Where a column is in the rows. -/
def column? (table : AnyTable) (name : String) : Option Nat :=
  table.columns.findIdx? fun column => sameName column.name name

/-- What is in a column, row by row. -/
def cells (table : AnyTable) (column : Nat) : List Cell :=
  table.rows.map fun row => row.getD column .null

/-! ## Inserting -/

/-- The row that has some values in the columns of these names. -/
def row (table : AnyTable) (values : List (String × Cell)) : List Cell :=
  table.columns.map fun column =>
    match values.find? fun value => sameName value.1 column.name with
    | some value => column.numbers.store value.2
    | none => column.default

/-- Whether two rows are the same by a key. -/
def agree (table : AnyTable) (key : Key) (a b : List Cell) : Bool :=
  key.columns.all fun name =>
    (table.column? name).any fun i => (a.getD i .null).agrees (b.getD i .null)

/-- What a row breaks because of a null. There is nothing that could make room for it. -/
def nullFaults (table : AnyTable) (row : List Cell) : List (Conflict × DatabaseFault) :=
  (table.columns.zip row).filterMap fun (column, cell) =>
    if cell = .null then
      column.notNull?.map fun conflict =>
        (if conflict = .replace then .refuse else conflict,
          .notNull (table.name ++ "." ++ column.name))
    else none

/-- What a row breaks because of the rows that are there. -/
def keyFaults (table : AnyTable) (row : List Cell) : List (Conflict × DatabaseFault) :=
  table.keys.filterMap fun key =>
    if table.rows.any (table.agree key row) then
      some (key.conflict, .unique (", ".intercalate (key.columns.map (table.name ++ "." ++ ·))))
    else none

/-- Inserts a row with some values. A row that is passed over leaves no table to go on with. -/
def insert (table : AnyTable) (values : List (String × Cell)) :
    Except DatabaseFault (Option AnyTable) :=
  match values.find? fun value => (table.column? value.1).isNone with
  | some value => .error (.noColumn (table.name ++ "." ++ value.1))
  | none =>
    if table.isClosed then .error (.takesNoRows table.name)
    else
      let row := table.row values
      -- rows only make room once nothing else keeps the new one out
      match (table.nullFaults row ++ table.keyFaults row).find? (·.1 ≠ .replace) with
      | some (.refuse, fault) => .error fault
      | some _ => .ok none
      | none =>
        let staying := table.rows.filter fun other =>
          table.keys.all fun key => !table.agree key row other
        .ok (some { table with rows := staying ++ [row] })

end AnyTable

end TokenLedger
