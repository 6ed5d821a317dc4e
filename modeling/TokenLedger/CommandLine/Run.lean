import TokenLedger.CommandLine.Command
import TokenLedger.CommandLine.Keyfile
import TokenLedger.CommandLine.Opening
import TokenLedger.Ledger.Basic

/-!
# Running commands

What a command does to the files and to the ledger in its database, and what it says. A command that
writes signs an operation with the payer's keypair and submits it, as a client elsewhere would. The
key file of a new mint is written only when the mint exists.
-/

namespace TokenLedger.CommandLine

/-! ## Errors -/

inductive CommandError where
  | keygen (reason : KeyfileError)
  | payerKeypair (reason : KeyfileError)
  | mintKeypair (reason : KeyfileError)
  | newKeypair (reason : KeyfileError)
  | database (path : String)
  | operation (kind : OperationKind) (reason : Failure)
  | query (reason : Failure)
  | noMint (mint : MintAddress)
deriving DecidableEq

/-- The texts of the error, outermost first. -/
def CommandError.messages : CommandError → List String
  | keygen reason => reason.messages
  | payerKeypair reason => "failed to load payer keypair" :: reason.messages
  | mintKeypair reason => "failed to load mint keypair" :: reason.messages
  | newKeypair reason => "failed to save mint keypair" :: reason.messages
  | database path => ["failed to open ledger database " ++ path]
  | operation kind reason => (kind.text ++ " failed") :: reason.messages
  | query reason => reason.messages
  | noMint mint => ["mint " ++ mint.raw.hex ++ " not found"]

/-! ## Steps -/

/-- A step of a command. What has been done to the files before an error stays done. -/
abbrev CommandM := ExceptT CommandError (StateM FileSystem)

def lines (texts : List String) : String := String.join (texts.map (· ++ "\n"))

/-- Does something with a database, which is closed afterwards in any case. -/
def withDatabase {α : Type} (text : String) (use : OpenDatabase → CommandM α) : CommandM α := do
  let some name := DatabaseName.ofText? text | throw (.database text)
  let some opened ← name.opened.run | throw (.database text)
  try use opened
  finally modify (·.close opened)

def loadKeypair (path : String) (error : KeyfileError → CommandError) : CommandM Keypair := do
  match (← get).loadKeypair path with
  | .ok keypair => return keypair
  | .error reason => throw (error reason)

def saveKeypair (path : String) (keypair : Keypair) (error : KeyfileError → CommandError)
    (disk : Disk := {}) : CommandM Unit := do
  let (result, fs) := (← get).saveKeypair path keypair disk
  set fs
  match result with
  | .ok () => return ()
  | .error reason => throw (error reason)

/-- Runs a ledger's program on an open database and keeps the database. -/
def runLedger {α : Type} (opened : OpenDatabase) (program : LedgerProgram α)
    (error : Failure → CommandError) : CommandM α := do
  let finished := Program.run program.run opened
  modify (·.keep finished.store)
  match finished.result with
  | .ok result => return result
  | .error reason => throw (error reason)

def ledger : Ledger := {}

/-- Signs an operation as the payer and submits it. -/
def submit (opened : OpenDatabase) (payer : Keypair) (operation : Operation) : CommandM Outcome :=
  runLedger opened (ledger.submit (.sign payer operation)) (.operation operation.kind)

/-! ## Mints -/

def mintKeyfile (mint : MintAddress) : String := "./mint-" ++ mint.raw.hex ++ ".json"

/-- Creates a mint with the payer as its authority, at the public key of a keypair from a file or of
    a fresh one, whose file is written once the mint exists. -/
def createMint (opened : OpenDatabase) (payer fresh : Keypair) (decimals : UInt8)
    (mintKeypair? : Option String) (disk : Disk := {}) : CommandM String := do
  let keys ← match mintKeypair? with
    | some file => loadKeypair file .mintKeypair
    | none => pure fresh
  let mint : MintAddress := ⟨keys.principal.raw⟩
  let _ ← submit opened payer (.createMint mint decimals)
  let saved ← match mintKeypair? with
    | some _ => pure []
    | none => do
      saveKeypair (mintKeyfile mint) keys .newKeypair disk
      pure ["Generated new mint keypair: " ++ mintKeyfile mint]
  return lines (saved ++
    [ "✓ Token mint initialized",
      "  Mint address: " ++ mint.raw.hex,
      "  Authority: " ++ payer.principal.raw.hex,
      "  Decimals: " ++ toString decimals ])

structure MintInfo where
  record : MintRecord
  holders : List AccountRecord
  audit : SupplyReport

/-- Gathers what there is to show of a mint, if it exists. -/
def gatherInfo (mint : MintAddress) : LedgerProgram (Option MintInfo) := do
  match ← Ledger.mint mint with
  | none => return none
  | some record =>
    let holders ← Ledger.accountsByMint mint
    let audit ← Ledger.auditSupply mint
    return some { record, holders, audit }

def holderJson (account : AccountRecord) : Json.Value :=
  .record [("account", .text account.address.raw.hex), ("owner", .text account.owner.raw.hex),
    ("amount", .natural account.amount.toNat)]

namespace MintInfo

def toJson (info : MintInfo) (mint : MintAddress) : Json.Value :=
  .record [("mint", .text mint.raw.hex), ("authority", .text info.record.authority.raw.hex),
    ("decimals", .natural info.record.decimals.toNat),
    ("total_supply", .natural info.record.supply.toNat),
    ("holders", .array (info.holders.map holderJson)), ("audit", info.audit.toJson)]

/-- The information as text. There is a warning if the supply is not what the accounts hold. -/
def text (info : MintInfo) (mint : MintAddress) : String :=
  let holders := info.holders.map fun account =>
    "    " ++ account.owner.raw.hex ++ " " ++ toString account.amount
  let warning :=
    if info.audit.consistent then []
    else ["  WARNING: balances sum to " ++ toString info.audit.accountSum.toNat ++
      ", supply is " ++ toString info.audit.supply]
  lines ([ "Mint: " ++ mint.raw.hex,
    "  Authority: " ++ info.record.authority.raw.hex,
    "  Decimals: " ++ toString info.record.decimals,
    "  Total supply: " ++ toString info.record.supply,
    "  Holders: " ++ toString info.holders.length ] ++ holders ++ warning)

end MintInfo

/-! ## Commands -/

def outcomeText (amount : UInt64) : Outcome → String
  | .accountCreated account =>
    lines [ "✓ Token account created",
      "  Account: " ++ account.address.raw.hex,
      "  Owner: " ++ account.owner.raw.hex ]
  | .issued change =>
    lines [ "✓ Minted " ++ toString amount ++ " tokens",
      "  Balance: " ++ toString change.account.amount,
      "  Total supply: " ++ toString change.mint.supply ]
  | .transferred change =>
    lines [ "✓ Transferred " ++ toString amount ++ " tokens",
      "  Sender balance: " ++ toString change.sender.amount,
      "  Recipient balance: " ++ toString change.recipient.amount ]
  | .burned change =>
    lines [ "✓ Burned " ++ toString amount ++ " tokens",
      "  Balance: " ++ toString change.account.amount,
      "  Total supply: " ++ toString change.mint.supply ]
  | .mintCreated _ => ""

/-- Submits an operation of the payer to the ledger in a database. -/
def Arguments.operate (arguments : Arguments) (amount : UInt64) (operation : Keypair → Operation) :
    CommandM String :=
  withDatabase arguments.database fun opened => do
    let payer ← loadKeypair arguments.keypair .payerKeypair
    return outcomeText amount (← submit opened payer (operation payer))

/-- Runs a command and answers with what it says. A new keypair, where one is needed, is the fresh
    one. -/
def Arguments.run (arguments : Arguments) (fresh : Keypair) (disk : Disk := {}) :
    CommandM String :=
  let payer := loadKeypair arguments.keypair .payerKeypair
  match arguments.command with
  | .keygen out? => do
    let file := out?.getD arguments.keypair
    saveKeypair file fresh .keygen disk
    return lines [ "✓ Keypair written to " ++ file,
      "  Public key: " ++ fresh.principal.raw.hex ]
  | .init decimals mintKeypair? =>
    withDatabase arguments.database fun opened => do
      createMint opened (← payer) fresh decimals mintKeypair? disk
  | .createAccount mint owner? =>
    arguments.operate 0 fun payer => .createAccount mint (owner?.getD payer.principal)
  | .mint mint recipient amount =>
    arguments.operate amount fun _ => .issue mint (ledger.accountAddress recipient mint) amount
  | .transfer mint recipient amount =>
    arguments.operate amount fun payer =>
      .transfer (ledger.accountAddress payer.principal mint)
        (ledger.accountAddress recipient mint) amount
  | .burn mint amount =>
    arguments.operate amount fun payer =>
      .burn mint (ledger.accountAddress payer.principal mint) amount
  | .balance mint owner? => do
    let owner ← match owner? with
      | some owner => pure owner
      | none => pure (← payer).principal
    withDatabase arguments.database fun opened => do
      return lines [toString (← runLedger opened (ledger.balance owner mint) .query)]
  | .mintInfo mint json =>
    withDatabase arguments.database fun opened => do
      match ← runLedger opened (gatherInfo mint) .query with
      | none => throw (.noMint mint)
      | some info =>
        return if json then (info.toJson mint).pretty ++ "\n" else info.text mint

/-- The paths that a command may take to keypair files, given the mint that it may create. -/
def Arguments.keyfiles (arguments : Arguments) (fresh : Keypair) : List String :=
  let own := match arguments.command with
    | .keygen out? => out?.toList
    | .init _ (some file) => [file]
    | .init _ none => [mintKeyfile ⟨fresh.principal.raw⟩]
    | _ => []
  arguments.keypair :: own

/-- The places at which a command may look, from a current directory. -/
def Arguments.places (arguments : Arguments) (fresh : Keypair) (current : Location) :
    List Location :=
  let along (path : Bytes) := (Path.ofBytes path).places current
  let keyfiles := (arguments.keyfiles fresh).flatMap fun path => along (Bytes.ofText path)
  let database := match DatabaseName.ofText? arguments.database with
    | none => []
    | some name =>
      (name.file?.elim [] along).flatMap Location.withCompanions ++ name.model?.elim [] along
  keyfiles ++ database

end TokenLedger.CommandLine
