import TokenLedger.CommandLine.Uri

/-!
# Names of databases

The text by which a database is asked for. A text with `file:` at its front is a URI, whose options
say how the file is to be used. Any other text is the path itself. There is one path, `:memory:`,
that leads to no file, but to a new database that is gone once it is closed; so does the empty path.
-/

namespace TokenLedger

/-! ## Use of files -/

/-- What may be done with the file of a database, each more than the one before. -/
inductive Access where
  | read
  | write
  | create
deriving DecidableEq

def Access.rank : Access → Nat
  | read => 0
  | write => 1
  | create => 2

/-- By what the users of a file keep each other out: by nothing, by locks on parts of the file, by a
    marker beside it, or by a lock on all of it for as long as it is open. -/
inductive Locking where
  | absent
  | shared
  | marker
  | exclusive
deriving DecidableEq

/-- How a file is shared with others who may use it. -/
structure Sharing where
  locking : Locking := .shared
  ignoresLocks : Bool := false
  /-- Whether the index of a log may only be read. -/
  keepsIndex : Bool := false
deriving DecidableEq

namespace Sharing

/-- Whether nothing keeps others out. -/
def isOpen (sharing : Sharing) : Bool := sharing.ignoresLocks || sharing.locking = .absent

def setsMarker (sharing : Sharing) : Bool :=
  sharing.locking = .marker && !sharing.ignoresLocks

/-- Whether there can be a log. Its users have to be told apart by parts of a file. -/
def allowsLog (sharing : Sharing) : Bool :=
  sharing.locking ∈ [.shared, .exclusive] && !sharing.ignoresLocks

end Sharing

/-- A database as it is asked for. -/
structure DatabaseName where
  file? : Option Bytes
  access : Access := .create
  /-- Whether the file is taken for one that nobody changes. -/
  isFrozen : Bool := false
  sharing : Sharing := {}
  /-- The path of something whose permissions a new file is to have. -/
  model? : Option Bytes := none
deriving DecidableEq

def DatabaseName.canWrite (name : DatabaseName) : Bool := name.access ≠ .read && !name.isFrozen

/-! ## Options -/

/-- What becomes of a database once it is closed, and what may be done with its file. -/
inductive Mode where
  | forgotten
  | kept (access : Access)
deriving DecidableEq

namespace Mode

def ofName? (name : String) : Option Mode :=
  [("ro", .kept .read), ("rw", .kept .write), ("rwc", .kept .create),
    ("memory", forgotten)].lookup name

/-- Whether another mode may follow. It may not allow more. -/
def allows : Mode → Mode → Bool
  | kept access, kept next => next.rank ≤ access.rank
  | _, _ => true

end Mode

/-- A way in which databases are stored: in files, or without them. -/
inductive System where
  | files (locking : Locking)
  | memory
deriving DecidableEq

def System.ofName? (name : Bytes) : Option System := do
  [("unix", files .shared), ("unix-none", files .absent), ("unix-dotfile", files .marker),
    ("unix-excl", files .exclusive), ("memdb", memory)].lookup (← Bytes.toText? name)

/-- What the options of a URI say of a database's use. -/
structure Usage where
  mode : Mode := .kept .create
  system : Bytes := Bytes.ofText "unix"
deriving DecidableEq

namespace Usage

/-- Reads on with an option. Options of other names may have any value. -/
def add? (usage : Usage) : Bytes × Bytes → Option Usage
  | (name, value) =>
    match Bytes.toText? name with
    | some "vfs" => some { usage with system := value }
    | some "cache" =>
      if ["shared", "private"].any (value = Bytes.ofText ·) then some usage else none
    | some "mode" =>
      match (Bytes.toText? value).bind Mode.ofName? with
      | some mode => if usage.mode.allows mode then some { usage with mode } else none
      | none => none
    | _ => some usage

def ofUri? (uri : Uri) : Option Usage := uri.options.foldlM add? {}

end Usage

/-! ## Reading names -/

namespace DatabaseName

/-- The path that leads to no file. -/
def memoryPath : Bytes := Bytes.ofText ":memory:"

/-- How many bytes there may be in the name of a database that is stored without files. -/
def maxMemoryPath : Nat := 1016

def ofUri? (uri : Uri) : Option DatabaseName := do
  let usage ← Usage.ofUri? uri
  let system ← System.ofName? usage.system
  let isFrozen := uri.allows "immutable"
  match usage.mode with
  | .forgotten => return { file? := none }
  | .kept access =>
    if uri.path = [] ∨ uri.path = memoryPath then return { file? := none, access }
    else
      match system with
      | .memory =>
        if maxMemoryPath < uri.path.length then none else some { file? := none, access, isFrozen }
      | .files locking =>
        let sharing : Sharing :=
          { locking, ignoresLocks := uri.allows "nolock", keepsIndex := uri.allows "readonly_shm" }
        return { file? := some uri.path, access, isFrozen, sharing, model? := uri.option? "modeof" }

/-- The database that a text names. No name has a zero in it. -/
def ofText? (text : String) : Option DatabaseName :=
  let bytes := Bytes.ofText text
  if 0 ∈ bytes then none
  else
    match Bytes.split? Uri.scheme.length bytes with
    | some (front, rest) =>
      if front = Uri.scheme then (Uri.ofBytes? rest).bind ofUri?
      else some (plain bytes)
    | none => some (plain bytes)
where
  plain (path : Bytes) : DatabaseName :=
    { file? := if path = [] ∨ path = memoryPath then none else some path }

end DatabaseName

end TokenLedger
