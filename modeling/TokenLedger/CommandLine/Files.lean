import TokenLedger.CommandLine.Path
import TokenLedger.Store.Image

/-!
# Files

What the commands see of a file system: a current directory, directories, and files, which hold
plain bytes or a database. A path leads somewhere if every step of it but the last comes to a
directory. A file can be made at the end of a path where there is nothing yet.
-/

namespace TokenLedger

inductive FileContent where
  | plain (bytes : Bytes)
  | database (db : Database)
deriving DecidableEq

namespace FileContent

/-- What bytes are as the content of a file: a database if they can be read as one. -/
def ofBytes (bytes : Bytes) : FileContent :=
  match Database.ofBytes? bytes with
  | some db => .database db
  | none => .plain bytes

def toBytes : FileContent → Bytes
  | plain bytes => bytes
  | database db => db.toBytes

end FileContent

structure File where
  place : Location
  content : FileContent

/-- The key of a file: the path to it from the root. -/
def File.key (file : File) : Bytes := file.place.text

/-- What a disk does when it is written to. -/
structure Disk where
  /-- Whether a file can be opened in order to write to it. -/
  opens : Bool := true
  /-- After how many bytes writing breaks off, if it does. -/
  room? : Option Nat := none

/-- The part of some bytes that gets written. -/
def Disk.taken (disk : Disk) (bytes : Bytes) : Bytes := disk.room?.elim bytes bytes.take

structure FileSystem where
  current : Location
  directories : List Location
  files : Index File.key

namespace FileSystem

/-- A file system without files, with no directories but those on the way to the current one. -/
def ofCurrent (current : Location) : FileSystem :=
  { current, directories := current.ancestors, files := .empty }

/-! ## Places -/

def contentAt? (fs : FileSystem) (place : Location) : Option FileContent :=
  (fs.files.find? place.text).map (·.content)

def isDirectory (fs : FileSystem) (place : Location) : Bool := place ∈ fs.directories

/-- Puts a file at a place, instead of the one that was there. -/
def put (fs : FileSystem) (place : Location) (content : FileContent) : FileSystem :=
  { fs with files := fs.files.put ⟨place, content⟩ }

def remove (fs : FileSystem) (place : Location) : FileSystem :=
  { fs with files := fs.files.erase place.text }

def removeAll (fs : FileSystem) (places : List Location) : FileSystem :=
  places.foldl remove fs

def holds (fs : FileSystem) (place : Location) : Bool :=
  fs.isDirectory place || (fs.contentAt? place).isSome

/-- The bytes of the file at a place, none if it is missing. -/
def bytesAt (fs : FileSystem) (place : Location) : Bytes :=
  (fs.contentAt? place).elim [] (·.toBytes)

/-- The names of the files in the current directory, as they are shown. -/
def names (fs : FileSystem) : List String :=
  fs.files.items.filterMap fun file =>
    match file.place with
    | [] => none
    | name :: directory => if directory = fs.current then some name.shown else none

/-! ## Paths -/

def maxPath : Nat := 4095

/-- Takes a step from a place, which has to be a directory. -/
def step? (fs : FileSystem) (place : Location) (step : Step) : Option Location :=
  let next := place.after step
  if fs.isDirectory place && next.hasShortName then some next else none

/-- Where a path leads, if all but its last step can be taken. A zero byte is in no name. -/
def resolve? (fs : FileSystem) (path : Bytes) : Option Location :=
  if path = [] ∨ 0 ∈ path ∨ maxPath < path.length then none
  else
    let path := Path.ofBytes path
    path.steps.foldlM fs.step? (path.start fs.current)

def hasPath (fs : FileSystem) (path : Bytes) : Bool :=
  (fs.resolve? path).any fs.holds

def content? (fs : FileSystem) (path : String) : Option FileContent :=
  (fs.resolve? (Bytes.ofText path)).bind fs.contentAt?

/-! ## Texts -/

/-- The text of a file that holds one. -/
def readText? (fs : FileSystem) (path : String) : Option String :=
  match fs.content? path with
  | some (.plain bytes) => Bytes.toText? bytes
  | _ => none

/-- Writes a text to a file, which is made if it is missing, and says whether all of the text is in
    it. What a disk has taken of it stays. -/
def writeText (fs : FileSystem) (path text : String) (disk : Disk := {}) : Bool × FileSystem :=
  match fs.resolve? (Bytes.ofText path) with
  | some place =>
    if fs.isDirectory place || !disk.opens then (false, fs)
    else
      let bytes := Bytes.ofText text
      let written := disk.taken bytes
      (written = bytes, fs.put place (.plain written))
  | none => (false, fs)

end FileSystem

end TokenLedger
