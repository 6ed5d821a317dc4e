import TokenLedger.CommandLine.DatabaseFile

/-!
# Opening databases

How a database is opened. What is found beside its file is dealt with first, in an order that shows
when a later step fails: the marker, the journal, the log. Then the schema is brought up to date,
which a database that may only be read has to be already.
-/

namespace TokenLedger

/-- A step of opening, which may fail. What has been done to the files before that stays done. -/
abbrev Opening := OptionT (StateM FileSystem)

namespace Opening

/-- What the file at a place holds. A missing file is made, if that is allowed. -/
def content (place : Location) (access : Access) : Opening FileContent := do
  let fs ← get
  match fs.contentAt? place with
  | some content => return content
  | none =>
    guard (access = .create ∧ fs.canCreate place)
    let content := FileContent.plain []
    set (fs.put place content)
    return content

/-! ## Companions of the file -/

/-- The file of a database that is being opened. -/
structure Found where
  place : Location
  isBlank : Bool
  canWrite : Bool
  sharing : Sharing

/-- Sets the marker, if there is to be one. It is gone again when the steps of opening are done, but
    another one must not be there. -/
def setMarker (found : Found) : Opening Unit := do
  if found.sharing.setsMarker then
    let marker := found.place.marker
    guard (marker.hasShortName ∧ ¬ (← get).holds marker)

/-- Whether someone seems to be at work with the journal: there is a marker, be it one's own. -/
def seemsInUse (found : Found) (fs : FileSystem) : Bool :=
  found.sharing.locking = .marker &&
    (found.sharing.setsMarker || fs.holds found.place.marker)

/-- Deals with the journal, if it is left over. In front of a blank file it means nothing. One with
    a zero at its front is finished, and any other has to be removed before the file is read. -/
def clearJournal (found : Found) : Opening Unit := do
  let fs ← get
  unless seemsInUse found fs do
    let journal := found.place.journal
    match fs.bytesAt journal with
    | [] => return
    | first :: _ =>
      if found.isBlank then
        if found.canWrite || found.sharing.isOpen then set (fs.remove journal)
      else if first ≠ 0 then
        guard found.canWrite
        set (fs.remove journal)

/-- How many bytes a log has in front of its changes. -/
def logHeader : Nat := 32

/-- Takes up the log, and answers with the files of it that are to be removed in the end. In front
    of a blank file a log means nothing. Otherwise its index is made anew, if it may be written and
    is needed: who keeps all others out needs none. With an index that may only be read the log must
    be too short for changes. -/
def takeUpLog (found : Found) : Opening (List Location) := do
  let fs ← get
  let log := found.place.log
  let index := found.place.logIndex
  if fs.bytesAt log = [] then return []
  if found.isBlank then
    set (fs.remove log)
    return []
  guard found.sharing.allowsLog
  if found.canWrite && found.sharing.locking = .exclusive then return [log]
  if found.sharing.keepsIndex then
    guard (!found.canWrite && fs.holds index && (fs.bytesAt log).length < logHeader)
    return []
  set (fs.put index .blankIndex)
  return if found.canWrite then [log, index] else []

/-! ## Databases -/

def openFile (name : DatabaseName) (path : Bytes) : Opening OpenDatabase := do
  guard (name.model?.all (← get).hasPath)
  let some place := (← get).databasePlace? path | failure
  let content ← content place name.access
  let found : Found :=
    { place, isBlank := content.isBlank, canWrite := name.canWrite, sharing := name.sharing }
  let log ← if name.isFrozen then pure [] else do
    setMarker found
    clearJournal found
    takeUpLog found
  match content.database? with
  | some db => return { db, file? := some { place, log }, canWrite := name.canWrite }
  | none =>
    modify (·.removeAll log)
    failure

/-- Brings the schema of an open database up to date, which is a change of its file if there is
    something to do. -/
def migrate (opened : OpenDatabase) (now : Int := 0) : Opening OpenDatabase := do
  match opened.db.migrate now with
  | .error _ => failure
  | .ok (found, db) =>
    if found = Database.supportedVersion then return opened
    guard (opened.canWrite ∧ opened.file?.all (·.canChange))
    let opened := { opened with db }
    modify (·.keep opened)
    return opened

end Opening

namespace DatabaseName

def openedAsIs (name : DatabaseName) : Opening OpenDatabase :=
  match name.file? with
  | none => return { db := .empty, canWrite := name.canWrite }
  | some path => Opening.openFile name path

/-- Opens a database by its name and brings its schema up to date. -/
def opened (name : DatabaseName) (now : Int := 0) : Opening OpenDatabase := do
  let opened ← name.openedAsIs
  Opening.migrate opened now <|> do
    modify (·.close opened)
    failure

end DatabaseName

end TokenLedger
