import TokenLedger.CommandLine.DatabaseName
import TokenLedger.CommandLine.Files

/-!
# Databases in files

Where the file of a database is, and how an open database is kept in it. Beside the file there can
be a journal, by which an unfinished change would be undone, a log of changes that are not in the
file yet, with an index, and a marker that keeps others out. A change of the file needs a journal,
which is gone once the change is done, or else it goes to the log first, which is gone once the
database is closed.
-/

namespace TokenLedger

/-! ## Places -/

namespace Location

def journal (place : Location) : Location := place.beside "-journal"

def log (place : Location) : Location := place.beside "-wal"

def logIndex (place : Location) : Location := place.beside "-shm"

def marker (place : Location) : Location := place.beside ".lock"

def withCompanions (place : Location) : List Location :=
  [place, place.journal, place.log, place.logIndex, place.marker]

end Location

namespace FileSystem

/-- How many bytes there may be in the path from the root to a database or one of its journals. -/
def maxDatabasePath : Nat := 512

/-- Whether it can be looked whether there is something of a name at a place. If nothing is there,
    it is known that the name is not; a file has no names in it. -/
def canLookUp (fs : FileSystem) (place : Location) (name : Bytes) : Bool :=
  if fs.isDirectory place then name.length ≤ Location.maxName else (fs.contentAt? place).isNone

/-- Takes a step on the way to a database. A step up takes back the name in front of it, which need
    not be there, but it is looked for. -/
def stepToDatabase? (fs : FileSystem) (place : Location) (step : Step) : Option Location :=
  let next := place.after step
  let isSeen := match step with
    | .down name => fs.canLookUp place name
    | _ => true
  if isSeen && next.text.length < maxDatabasePath then some next else none

/-- Where the path of a database leads. The journal must have a path, too. -/
def databasePlace? (fs : FileSystem) (path : Bytes) : Option Location := do
  let path := Path.ofBytes path
  let place ← path.steps.foldlM fs.stepToDatabase? (path.start fs.current)
  if place ≠ [] ∧ place.journal.text.length ≤ maxDatabasePath then some place else none

def canCreate (fs : FileSystem) (place : Location) : Bool :=
  place.hasShortName && fs.isDirectory place.tail && !fs.isDirectory place

end FileSystem

/-! ## Contents -/

namespace FileContent

/-- Whether a file has not been used for a database yet. -/
def isBlank : FileContent → Bool
  | plain bytes => bytes.length ≤ 1
  | database _ => false

/-- The database in a file, if it holds one. In a blank file it has no tables. -/
def database? : FileContent → Option Database
  | database db => some db
  | content => if content.isBlank then some .empty else none

/-- The index of a log that holds no changes: its version, and room. -/
def blankIndex : FileContent := .plain (Bytes.ofNatLE 4 3007000 ++ List.replicate 32764 0)

end FileContent

/-! ## Open databases -/

structure OpenFile where
  place : Location
  /-- Where the changes go first, to be removed in the end: the log and its index. Without them the
      journal is used. -/
  log : List Location := []

structure OpenDatabase where
  db : Database
  file? : Option OpenFile := none
  canWrite : Bool

/-- Calls that would write are refused where only reading is allowed. -/
instance : RecordStore OpenDatabase where
  answer call opened :=
    if call.writes && !opened.canWrite then (.error (.database .readOnly), opened)
    else
      let (reply, db) := RecordStore.answer call opened.db
      (reply, { opened with db })

/-- Whether a change of a file can be made: the journal has to have a name, if it is used. -/
def OpenFile.canChange (file : OpenFile) : Bool :=
  file.log ≠ [] || file.place.journal.hasShortName

namespace FileSystem

/-- Keeps an open database in its file. Where that changes the file, the journal is used for it, and
    then removed, unless there is a log. -/
def keep (fs : FileSystem) (opened : OpenDatabase) : FileSystem :=
  match opened.file? with
  | none => fs
  | some file =>
    if (fs.contentAt? file.place).bind (·.database?) = some opened.db then fs
    else
      let fs := if file.log = [] then fs.remove file.place.journal else fs
      fs.put file.place (.database opened.db)

def close (fs : FileSystem) (opened : OpenDatabase) : FileSystem :=
  fs.removeAll (opened.file?.elim [] (·.log))

end FileSystem

end TokenLedger
