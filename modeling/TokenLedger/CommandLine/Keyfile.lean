import TokenLedger.CommandLine.Files
import TokenLedger.Json.Forms

/-!
# Keypair files

A keypair file is JSON: the public key and the secret seed, in hex. The seed alone determines the
keypair; the public key is there to be seen, and has to be the seed's. A file that exists is never
written over.
-/

namespace TokenLedger

/-- Why a keypair cannot be read from a file or written to one. -/
inductive KeyfileError where
  | unreadable (path : String)
  | malformed (path : String)
  | seedNotHex (reason : HexError)
  | seedLength
  | wrongPublicKey (path : String)
  | fileExists (path : String)
  | unwritable (path : String)
deriving DecidableEq

/-- The texts of the error, outermost first. -/
def KeyfileError.messages : KeyfileError → List String
  | unreadable path => ["failed to read keypair file " ++ path]
  | malformed path => ["malformed keypair file " ++ path]
  | seedNotHex reason => ["secret seed is not hex", reason.message]
  | seedLength => ["secret seed must be 32 bytes"]
  | wrongPublicKey path => ["public key in " ++ path ++ " does not match its secret seed"]
  | fileExists path => ["refusing to overwrite existing file " ++ path]
  | unwritable path => ["failed to write keypair file " ++ path]

namespace Keypair

def fileFields : List String := ["public_key", "secret_seed"]

def fileText (keypair : Keypair) : String :=
  (Json.Value.record
    (fileFields.zip [.text keypair.principal.raw.hex, .text keypair.seed.hex])).pretty

def fileParts? (text : String) : Option (String × String) := do
  match ← (← Json.Value.ofText? text).fields? fileFields with
  | [publicKey, seed] => return (← publicKey.text?, ← seed.text?)
  | _ => none

/-- Reads the content of a keypair file; the path is for errors. -/
def ofFileText (path text : String) : Except KeyfileError Keypair :=
  match fileParts? text with
  | none => .error (.malformed path)
  | some (publicKey, seed) =>
    match Hex.decode seed with
    | .error e => .error (.seedNotHex e)
    | .ok bytes =>
      match Bytes32.ofBytes? bytes with
      | none => .error .seedLength
      | some seed =>
        let keypair : Keypair := ⟨seed⟩
        if keypair.principal.raw.hex = publicKey then .ok keypair
        else .error (.wrongPublicKey path)

end Keypair

namespace FileSystem

def loadKeypair (fs : FileSystem) (path : String) : Except KeyfileError Keypair :=
  match fs.readText? path with
  | none => .error (.unreadable path)
  | some text => Keypair.ofFileText path text

/-- Writes a keypair to a file that does not exist yet. The file is not removed if writing to it
    fails. -/
def saveKeypair (fs : FileSystem) (path : String) (keypair : Keypair) (disk : Disk := {}) :
    Except KeyfileError Unit × FileSystem :=
  if fs.hasPath (Bytes.ofText path) then (.error (.fileExists path), fs)
  else
    match fs.writeText path keypair.fileText disk with
    | (true, fs) => (.ok (), fs)
    | (false, fs) => (.error (.unwritable path), fs)

end FileSystem

end TokenLedger
