import TokenLedger.Bytes

/-!
# Paths

How a path names a place. A place is known by the names on the way to it from the root. A path is
taken step by step, from the root if a slash is at its front and from the current directory
otherwise; of its steps some stay, some go up, and the others go down to a name.
-/

namespace TokenLedger

/-- A place in a file system: the names on the way from the root, the last of them first. -/
abbrev Location := List Bytes

inductive Step where
  | stay
  | up
  | down (name : Bytes)
deriving DecidableEq

structure Path where
  fromRoot : Bool
  steps : List Step
deriving DecidableEq

def Path.separator : UInt8 := '/'.toUInt8

/-! ## Places -/

namespace Location

/-- The path from the root to a place; the root has the empty one. -/
def text : Location → Bytes
  | [] => []
  | name :: directory => text directory ++ Path.separator :: name

/-- Where a step leads. The root has nothing above it. -/
def after (place : Location) : Step → Location
  | .stay => place
  | .up => place.tail
  | .down name => name :: place

/-- A place and all directories on the way to it. -/
def ancestors : Location → List Location
  | [] => [[]]
  | name :: directory => (name :: directory) :: ancestors directory

def maxName : Nat := 255

/-- Whether the name of a place is short enough for there to be something. -/
def hasShortName : Location → Bool
  | [] => true
  | name :: _ => name.length ≤ maxName

/-- The place in the same directory whose name goes on with an ending. -/
def beside (place : Location) (ending : String) : Location :=
  match place with
  | [] => []
  | name :: directory => (name ++ Bytes.ofText ending) :: directory

end Location

/-! ## Reading paths -/

/-- The step that a part of a path stands for. -/
def Step.ofName (name : Bytes) : Step :=
  if name = [] ∨ name = Bytes.ofText "." then .stay
  else if name = Bytes.ofText ".." then .up
  else .down name

namespace Path

def ofBytes (bytes : Bytes) : Path where
  fromRoot := bytes.head? = some separator
  steps := (bytes.splitOn separator).map Step.ofName

def start (path : Path) (current : Location) : Location := if path.fromRoot then [] else current

/-- Where a path leads, if nothing is in its way. -/
def place (path : Path) (current : Location) : Location :=
  path.steps.foldl Location.after (path.start current)

/-- All places that a path comes by, from its start to where it leads. -/
def places (path : Path) (current : Location) : List Location :=
  (List.range (path.steps.length + 1)).map fun n =>
    { path with steps := path.steps.take n }.place current

end Path

end TokenLedger
