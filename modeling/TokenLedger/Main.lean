import TokenLedger.CommandLine.Run

/-!
# The program

The command line as a program: it reads the files that a command names, runs the command on them,
and writes those that have changed. All else is in the modules below this one.
-/

namespace TokenLedger.CommandLine

/-- What is printed where help is asked for. -/
def helpText : String :=
  lines
    [ "Create mints and token accounts; issue, transfer and burn tokens",
      "",
      "Usage: mintledger [--db FILE] [-k FILE] COMMAND [OPTIONS]",
      "",
      "Commands:",
      "  keygen          Generate a new keypair file",
      "  init            Initialize a new token mint with the payer as authority",
      "  create-account  Create a token account",
      "  mint            Issue tokens to an owner's account",
      "  transfer        Transfer tokens from the payer's account",
      "  burn            Burn tokens from the payer's account",
      "  balance         Show an owner's balance",
      "  mint-info       Show a mint, its holders and a supply audit",
      "  help            Print this message" ]

/-- Whether there is a directory at a path. -/
def isDirectoryAt (path : String) : IO Bool := do
  try
    let _ ← IO.FS.realPath (path ++ "/.")
    return true
  catch _ => return false

/-- The bytes at a path, if there is a file that can be read. -/
def bytesAt? (path : String) : IO (Option Bytes) := do
  try
    let content ← IO.FS.readBinFile path
    return some content.toList
  catch _ => return none

/-- Reads what there is at some places. Only places whose names are text can be looked at. -/
def readFiles (current : Location) (places : List Location) : IO FileSystem := do
  let mut fs := FileSystem.ofCurrent current
  for place in places.eraseDups do
    if let some path := Bytes.toText? place.text then
      if ← isDirectoryAt path then fs := { fs with directories := place :: fs.directories }
      else if let some bytes ← bytesAt? path then fs := fs.put place (.ofBytes bytes)
  return fs

/-- Removes the files that are gone and writes those that are not as they were. -/
def writeFiles (before after : FileSystem) : IO Unit := do
  for file in before.files.items do
    if (after.contentAt? file.place).isNone then
      if let some path := Bytes.toText? file.place.text then IO.FS.removeFile path
  for file in after.files.items do
    if before.contentAt? file.place ≠ some file.content then
      if let some path := Bytes.toText? file.place.text then
        IO.FS.writeBinFile path ⟨file.content.toBytes.toArray⟩

/-- Runs a command that has been understood. -/
def execute (arguments : Arguments) : IO UInt32 := do
  let random ← IO.getRandomBytes 32
  let fresh : Keypair := ⟨.ofNatLE (Bytes.toNatLE random.toList)⟩
  let current := (Path.ofBytes (Bytes.ofText (← IO.currentDir).toString)).place []
  let before ← readFiles current (arguments.places fresh current)
  let (result, after) := (arguments.run fresh).run before
  writeFiles before after
  match result with
  | .ok text =>
    IO.print text
    return 0
  | .error e =>
    IO.eprintln ("Error: " ++ ": ".intercalate e.messages)
    return 1

end TokenLedger.CommandLine

open TokenLedger.CommandLine in
/-- Runs the command that the arguments ask for. -/
def main (args : List String) : IO UInt32 := do
  let environment : Environment :=
    { database? := ← IO.getEnv "MINTLEDGER_DB", keypair? := ← IO.getEnv "MINTLEDGER_KEYPAIR" }
  match Arguments.read environment args with
  | .ok arguments => execute arguments
  | .error .help =>
    IO.print helpText
    return 0
  | .error .version =>
    IO.println "mintledger 0.1.0"
    return 0
  | .error (.usage message?) =>
    IO.eprintln ("error: " ++ message?.getD "the arguments are not understood; try --help")
    return 2
